import DtlsClient.Properties.Buffers

/-!
# Retransmitted handshake messages

A message that was processed before and arrives again is stored beside the new ones.  From then on the
stored messages do not follow the last processed one without interruption, and no flight is complete
any more.
-/

open Library

namespace DtlsClient

namespace ClientHandshakeHandler

open FragmentedHandshake (sameMessage_iff sameMessage_symm sameMessage_congr findAllFragments_append
  findAllFragments_cons_same findAllFragments_cons_other findAllFragments_congr
  findAllFragments_filter_other)

/-! ## Handlers by themselves -/

/-- What can happen to a handler: a handshake message arrives, or its record layer goes on. -/
inductive Input where
  | message (memory : MessageMemory) (msg : FragmentedHandshake)
  | recordLayer (f : RecordLayer → RecordLayer)

def setRecordLayer (rl : RecordLayer) (h : ClientHandshakeHandler) : ClientHandshakeHandler :=
  { h with toFlightState := { h.toFlightState with recordLayer := rl } }

def take (opts : Options) (crypto : Crypto) (h : ClientHandshakeHandler) :
    Input → ClientHandshakeHandler
  | .message memory msg => finalState (processIncomingMessage opts crypto memory msg) h
  | .recordLayer f => h.setRecordLayer (f h.recordLayer)

/-- The flight that is complete after a message is stored, with its last message. -/
def flightIn :
    EStateM.Result JsError ClientHandshakeHandler Bool → Option (List Handshake × Handshake)
  | .ok true h => h.completeFlight
  | _ => none

-- The flight whose handler an input invokes.
def flightOf (h : ClientHandshakeHandler) : Input → Option (List Handshake × Handshake)
  | .message memory msg => flightIn (storeMessage memory msg h)
  | .recordLayer _ => none

def takeAll (opts : Options) (crypto : Crypto) (h : ClientHandshakeHandler)
    (inputs : List Input) : ClientHandshakeHandler := inputs.foldl (take opts crypto) h

-- The flights that are handled, first to last.
def flights (opts : Options) (crypto : Crypto) :
    ClientHandshakeHandler → List Input → List (List Handshake × Handshake)
  | _, [] => []
  | h, input :: inputs =>
      (h.flightOf input).toList ++ flights opts crypto (h.take opts crypto input) inputs

/-- Two handlers handle the same flights when they go on alike, and what they know, have sent and have
reported in the end is the same. -/
structure SameOutcome (opts : Options) (crypto : Crypto) (h h' : ClientHandshakeHandler)
    (inputs inputs' : List Input) : Prop where
  flights : h.flights opts crypto inputs = h'.flights opts crypto inputs'
  flightState : (h.takeAll opts crypto inputs).toFlightState =
    (h'.takeAll opts crypto inputs').toFlightState
  lastProcessedSeqNum : (h.takeAll opts crypto inputs).lastProcessedSeqNum =
    (h'.takeAll opts crypto inputs').lastProcessedSeqNum

theorem SameOutcome.cons {opts : Options} {crypto : Crypto} {h h' : ClientHandshakeHandler}
    {input : Input} {inputs : List Input} (hflight : h.flightOf input = h'.flightOf input)
    (hrest : SameOutcome opts crypto (h.take opts crypto input) (h'.take opts crypto input)
      inputs inputs) :
    SameOutcome opts crypto h h' (input :: inputs) (input :: inputs) where
  flights := by
    show (h.flightOf input).toList ++ _ = (h'.flightOf input).toList ++ _
    rw [hflight, hrest.flights]
  flightState := hrest.flightState
  lastProcessedSeqNum := hrest.lastProcessedSeqNum

/-! ## Storing a message -/

/-- The message is stored under its sequence number, or not yet. -/
structure Stored (msg : FragmentedHandshake) (h h' : ClientHandshakeHandler) : Prop where
  flightState : h'.toFlightState = h.toFlightState
  lastProcessedSeqNum : h'.lastProcessedSeqNum = h.lastProcessedSeqNum
  completeMessages : h'.completeMessages = h.completeMessages ∨
    ∃ message, h'.completeMessages = h.completeMessages.set msg.messageSeq message

theorem storeMessage_stored (memory : MessageMemory) (msg : FragmentedHandshake)
    (h : ClientHandshakeHandler) :
    Ends (storeMessage memory msg) h (fun _ => Stored msg h) (fun _ => Stored msg h) := by
  unfold Ends
  rw [storeMessage_eq]
  cases FragmentedHandshake.completed h.incompleteMessages msg with
  | none => exact ⟨rfl, rfl, .inl rfl⟩
  | some whole =>
      simp only
      cases Handshake.fromFragment memory.body whole with
      | error e => exact ⟨rfl, rfl, .inl rfl⟩
      | ok message => exact ⟨rfl, rfl, .inr ⟨message, rfl⟩⟩

-- The handler after storing a message.
def stored (memory : MessageMemory) (msg : FragmentedHandshake) (h : ClientHandshakeHandler) :
    ClientHandshakeHandler := finalState (storeMessage memory msg) h

theorem stored_of_ok {memory : MessageMemory} {msg : FragmentedHandshake}
    {h h1 : ClientHandshakeHandler} {complete : Bool}
    (hstored : storeMessage memory msg h = .ok complete h1) : h.stored memory msg = h1 := by
  rw [stored, finalState, hstored]

theorem stored_spec (memory : MessageMemory) (msg : FragmentedHandshake)
    (h : ClientHandshakeHandler) : Stored msg h (h.stored memory msg) :=
  Ends.finalState (P := Stored msg h) (storeMessage_stored memory msg h)

section Rules

variable {opts : Options} {crypto : Crypto} {h : ClientHandshakeHandler} {memory : MessageMemory}
  {msg : FragmentedHandshake}

theorem take_message :
    h.take opts crypto (.message memory msg) = proceed opts crypto (storeMessage memory msg h) :=
  finalState_processIncomingMessage opts crypto memory msg h

theorem take_of_none (hnone : h.flightOf (.message memory msg) = none) :
    h.take opts crypto (.message memory msg) = h.stored memory msg := by
  have hnone : flightIn (storeMessage memory msg h) = none := hnone
  rw [take_message, stored, finalState]
  cases hres : storeMessage memory msg h with
  | error e h1 => rfl
  | ok complete h1 =>
      rw [hres] at hnone
      cases complete with
      | false => rfl
      | true =>
          have hnone : h1.completeFlight = none := hnone
          simp only [proceed, hnone]

end Rules

/-! ## Handlers that handle no flight any more -/

/-- A message that was processed before is stored, so that the stored ones never follow the last
processed one without interruption. -/
def Blocked (h : ClientHandshakeHandler) : Prop :=
  ∃ seqNum ∈ h.completeMessages.keys, (seqNum : Int) ≤ h.lastProcessedSeqNum

/-- No flight is expected, an old message is in the way, or there is no next sequence number. -/
def Stuck (h : ClientHandshakeHandler) : Prop :=
  h.expectedResponses = none ∨ h.Blocked ∨ 2 ^ 16 - 1 ≤ h.lastProcessedSeqNum

/-- Sequence numbers are 16 bits wide. -/
def KeysFit (h : ClientHandshakeHandler) : Prop := ∀ seqNum ∈ h.completeMessages.keys, seqNum < 2 ^ 16

def Input.Fits : Input → Prop
  | .message _ msg => msg.messageSeq < 2 ^ 16
  | .recordLayer _ => True

theorem uninterrupted_iff {previous : Int} {first : Nat} {seqNums : List Nat}
    (hfirst : previous + 1 = first) :
    uninterrupted previous seqNums = true ↔ ∃ count, seqNums = List.range' first count := by
  induction seqNums generalizing previous first with
  | nil => exact ⟨fun _ => ⟨0, rfl⟩, fun _ => rfl⟩
  | cons seqNum rest ih =>
      rw [uninterrupted, decide_eq_true_eq, @ih seqNum (seqNum + 1) (Int.natCast_succ seqNum).symm]
      constructor
      · rintro ⟨hnext, count, hrest⟩
        have heq : seqNum = first := by omega
        exact ⟨count + 1, by rw [hrest, heq, List.range'_succ]⟩
      · rintro ⟨count, hall⟩
        cases count with
        | zero => cases hall
        | succ count =>
            rw [List.range'_succ] at hall
            rcases List.cons.inj hall with ⟨rfl, hrest⟩
            exact ⟨hfirst.symm, count, hrest⟩

theorem uninterrupted_lt {previous : Int} {seqNums : List Nat}
    (h : uninterrupted previous seqNums = true) : ∀ seqNum ∈ seqNums, previous < seqNum := by
  induction seqNums generalizing previous with
  | nil => exact fun _ hmem => absurd hmem List.not_mem_nil
  | cons first rest ih =>
      rw [uninterrupted, decide_eq_true_eq] at h
      intro seqNum hmem
      rcases List.mem_cons.mp hmem with rfl | hmem
      · omega
      · have hlt := ih h.2 seqNum hmem
        omega

theorem completeFlight_of_stuck {h : ClientHandshakeHandler} (hkeys : h.KeysFit)
    (hstuck : h.Stuck) : h.completeFlight = none := by
  unfold completeFlight
  by_cases hgap : uninterrupted h.lastProcessedSeqNum h.completeMessages.keys = true
  · rw [if_pos hgap]
    have hlt := uninterrupted_lt hgap
    rcases hstuck with hidle | ⟨seqNum, hmem, hold⟩ | hlast
    · rw [hidle]
      cases h.completeMessages.last? <;> rfl
    · have hnew := hlt seqNum hmem
      omega
    · -- there is nothing left that could be stored
      have hnil : h.completeMessages.entries = [] := by
        apply List.eq_nil_iff_forall_not_mem.mpr
        intro e he
        have hkey : e.1 ∈ h.completeMessages.keys := List.mem_map_of_mem he
        have hnew := hlt e.1 hkey
        have hfits := hkeys e.1 hkey
        omega
      unfold IndexMap.last?
      rw [hnil]
      rfl
  · rw [if_neg hgap]

theorem Stored.stuck {msg : FragmentedHandshake} {h h' : ClientHandshakeHandler}
    (hstored : Stored msg h h') (hstuck : h.Stuck) : h'.Stuck := by
  unfold Stuck Blocked
  rw [hstored.flightState, hstored.lastProcessedSeqNum]
  rcases hstuck with hidle | ⟨seqNum, hmem, hold⟩ | hlast
  · exact .inl hidle
  · refine .inr (.inl ⟨seqNum, ?_, hold⟩)
    rcases hstored.completeMessages with hsame | ⟨message, hset⟩
    · rw [hsame]
      exact hmem
    · rw [hset, IndexMap.mem_keys_set]
      exact .inr hmem
  · exact .inr (.inr hlast)

theorem Stored.keysFit {msg : FragmentedHandshake} {h h' : ClientHandshakeHandler}
    (hstored : Stored msg h h') (hmsg : msg.messageSeq < 2 ^ 16) (hkeys : h.KeysFit) :
    h'.KeysFit := by
  intro seqNum hmem
  rcases hstored.completeMessages with hsame | ⟨message, hset⟩
  · rw [hsame] at hmem
    exact hkeys seqNum hmem
  · rw [hset, IndexMap.mem_keys_set] at hmem
    rcases hmem with rfl | hmem
    · exact hmsg
    · exact hkeys seqNum hmem

theorem flightOf_of_stuck {h : ClientHandshakeHandler} {input : Input} (hkeys : h.KeysFit)
    (hfits : input.Fits) (hstuck : h.Stuck) : h.flightOf input = none := by
  cases input with
  | message memory msg =>
      have hends := storeMessage_stored memory msg h
      show flightIn (storeMessage memory msg h) = none
      cases hres : storeMessage memory msg h with
      | error e h1 => rfl
      | ok complete h1 =>
          have hstored := hends.of_ok hres
          cases complete with
          | false => rfl
          | true =>
              exact completeFlight_of_stuck (hstored.keysFit hfits hkeys) (hstored.stuck hstuck)
  | recordLayer f => rfl

-- A stuck handler stays stuck, and only its record layer goes on.
theorem take_of_stuck (opts : Options) (crypto : Crypto) {h : ClientHandshakeHandler}
    {input : Input} (hkeys : h.KeysFit) (hfits : input.Fits) (hstuck : h.Stuck) :
    (h.take opts crypto input).KeysFit ∧ (h.take opts crypto input).Stuck ∧
      (h.take opts crypto input).lastProcessedSeqNum = h.lastProcessedSeqNum ∧
      (h.take opts crypto input).toFlightState =
        match input with
        | .message _ _ => h.toFlightState
        | .recordLayer f => { h.toFlightState with recordLayer := f h.recordLayer } := by
  cases input with
  | message memory msg =>
      rw [take_of_none (flightOf_of_stuck hkeys hfits hstuck)]
      have hstored := stored_spec memory msg h
      exact ⟨hstored.keysFit hfits hkeys, hstored.stuck hstuck, hstored.lastProcessedSeqNum,
        hstored.flightState⟩
  | recordLayer f => exact ⟨hkeys, hstuck, rfl, rfl⟩

-- Two stuck handlers that know the same go on alike.
theorem sameOutcome_of_stuck (opts : Options) (crypto : Crypto) {h h' : ClientHandshakeHandler}
    {inputs : List Input} (hfits : ∀ input ∈ inputs, input.Fits) (hkeys : h.KeysFit)
    (hkeys' : h'.KeysFit) (hstuck : h.Stuck) (hstuck' : h'.Stuck)
    (hflight : h.toFlightState = h'.toFlightState)
    (hlast : h.lastProcessedSeqNum = h'.lastProcessedSeqNum) :
    SameOutcome opts crypto h h' inputs inputs ∧ h'.flights opts crypto inputs = [] := by
  induction inputs generalizing h h' with
  | nil => exact ⟨⟨rfl, hflight, hlast⟩, rfl⟩
  | cons input inputs ih =>
      have hinput := hfits input List.mem_cons_self
      have hnone := flightOf_of_stuck hkeys hinput hstuck
      have hnone' := flightOf_of_stuck hkeys' hinput hstuck'
      rcases take_of_stuck opts crypto hkeys hinput hstuck with
        ⟨hkeys1, hstuck1, hlast1, hflight1⟩
      rcases take_of_stuck opts crypto hkeys' hinput hstuck' with
        ⟨hkeys1', hstuck1', hlast1', hflight1'⟩
      have hrest := ih (fun i hi => hfits i (List.mem_cons_of_mem _ hi)) hkeys1 hkeys1' hstuck1
        hstuck1' (by rw [hflight1, hflight1', hflight]) (by rw [hlast1, hlast1', hlast])
      constructor
      · exact .cons (hnone.trans hnone'.symm) hrest.1
      · rw [flights, hnone', hrest.2]
        rfl

/-! ## Messages that are not fragmented -/

theorem storeMessage_complete {memory : MessageMemory} {msg : FragmentedHandshake}
    {message : Handshake} {h : ClientHandshakeHandler} (hmsg : msg.isFragmented = false)
    (hparsed : Handshake.fromFragment memory.body msg = .ok message) :
    storeMessage memory msg h =
      .ok true { h with completeMessages := h.completeMessages.set msg.messageSeq message } := by
  unfold storeMessage
  rw [hmsg, hparsed]
  rfl

-- A whole old message leaves the handler stuck.
theorem stuck_of_old {memory : MessageMemory}
    {msg : FragmentedHandshake} {message : Handshake} {h : ClientHandshakeHandler}
    (hkeys : h.KeysFit) (hfits : msg.messageSeq < 2 ^ 16) (hmsg : msg.isFragmented = false)
    (hparsed : Handshake.fromFragment memory.body msg = .ok message)
    (hold : (msg.messageSeq : Int) ≤ h.lastProcessedSeqNum) :
    h.flightOf (.message memory msg) = none ∧ (h.stored memory msg).Stuck := by
  have hstore := storeMessage_complete (h := h) hmsg hparsed
  have hstored : h.stored memory msg =
      { h with completeMessages := h.completeMessages.set msg.messageSeq message } := by
    rw [stored, finalState, hstore]
  have hspec := stored_spec memory msg h
  have hblocked : (h.stored memory msg).Stuck := by
    refine .inr (.inl ⟨msg.messageSeq, ?_, ?_⟩)
    · rw [hstored]
      exact IndexMap.mem_keys_set.mpr (.inl rfl)
    · rw [hspec.lastProcessedSeqNum]
      exact hold
  refine ⟨?_, hblocked⟩
  show flightIn (storeMessage memory msg h) = none
  rw [hstore]
  rw [hstored] at hblocked
  exact completeFlight_of_stuck (hstored ▸ hspec.keysFit hfits hkeys) hblocked

def emptyBody : HandshakeType → Option HandshakeBody
  | .helloRequest => some .helloRequest
  | .serverHelloDone => some .serverHelloDone
  | .finished => some (.finished [])
  | _ => none

def emptyMessage (type : HandshakeType) (seqNum : Nat) : FragmentedHandshake := ⟨type, 0, seqNum, 0, []⟩

theorem storeMessage_emptyMessage (memory : MessageMemory) {type : HandshakeType}
    {body : HandshakeBody} (hbody : emptyBody type = some body) (seqNum : Nat)
    (h : ClientHandshakeHandler) :
    storeMessage memory (emptyMessage type seqNum) h =
      .ok true { h with completeMessages := h.completeMessages.set seqNum ⟨seqNum, body⟩ } := by
  have hcomplete : (emptyMessage type seqNum).isFragmented = false := rfl
  apply storeMessage_complete hcomplete
  cases type with
  | helloRequest =>
      cases hbody
      rfl
  | serverHelloDone =>
      cases hbody
      rfl
  | finished =>
      cases hbody
      rfl
  | _ => cases hbody

-- Messages for a row of sequence numbers.
def fillers (memory : MessageMemory) (seqNums : List Nat) : List Input :=
  seqNums.map fun seqNum => .message memory (emptyMessage .helloRequest seqNum)

-- As long as no flight is handled, they are all stored.
theorem takeAll_fillers (opts : Options) (crypto : Crypto) (memory : MessageMemory)
    {seqNums : List Nat} {h : ClientHandshakeHandler}
    (hnone : h.flights opts crypto (fillers memory seqNums) = []) :
    ∃ completeMessages, h.takeAll opts crypto (fillers memory seqNums) =
        { h with completeMessages := completeMessages } ∧
      ∀ seqNum, seqNum ∈ completeMessages.keys ↔
        seqNum ∈ seqNums ∨ seqNum ∈ h.completeMessages.keys := by
  induction seqNums generalizing h with
  | nil => exact ⟨h.completeMessages, rfl, fun _ => ⟨.inr, fun h => h.resolve_left List.not_mem_nil⟩⟩
  | cons first rest ih =>
      have hbody : emptyBody .helloRequest = some .helloRequest := rfl
      have hstore := storeMessage_emptyMessage memory hbody first h
      have hfirst : h.flightOf (.message memory (emptyMessage .helloRequest first)) = none := by
        have hnone : (h.flightOf (.message memory (emptyMessage .helloRequest first))).toList ++ _ =
          [] := hnone
        rw [List.append_eq_nil_iff] at hnone
        cases hflight : h.flightOf (.message memory (emptyMessage .helloRequest first)) with
        | none => rfl
        | some flight =>
            rw [hflight] at hnone
            cases hnone.1
      have htake : h.take opts crypto (.message memory (emptyMessage .helloRequest first)) =
          { h with completeMessages := h.completeMessages.set first ⟨first, .helloRequest⟩ } := by
        rw [take_of_none hfirst, stored, finalState, hstore]
      have hrest : (h.take opts crypto (.message memory (emptyMessage .helloRequest first))).flights
          opts crypto (fillers memory rest) = [] := by
        have hnone : _ ++ (h.take opts crypto
          (.message memory (emptyMessage .helloRequest first))).flights opts crypto
            (fillers memory rest) = [] := hnone
        exact (List.append_eq_nil_iff.mp hnone).2
      rcases ih hrest with ⟨completeMessages, hall, hkeys⟩
      rw [htake] at hall hkeys
      refine ⟨completeMessages, ?_, fun seqNum => ?_⟩
      · show (h.take opts crypto (.message memory (emptyMessage .helloRequest first))).takeAll opts
          crypto (fillers memory rest) = _
        rw [htake]
        exact hall
      · rw [hkeys, IndexMap.mem_keys_set, List.mem_cons]
        exact or_left_comm.trans or_assoc.symm

theorem flights_append (opts : Options) (crypto : Crypto) (h : ClientHandshakeHandler)
    (inputs more : List Input) :
    h.flights opts crypto (inputs ++ more) = h.flights opts crypto inputs ++
      (h.takeAll opts crypto inputs).flights opts crypto more := by
  induction inputs generalizing h with
  | nil => rfl
  | cons input inputs ih =>
      rw [List.cons_append, flights, flights, ih, List.append_assoc]
      rfl

-- Numbers in ascending order that fill an interval.
theorem uninterrupted_of_interval {seqNums : List Nat} {first last : Nat} {previous : Int}
    (hsorted : seqNums.Pairwise (· < ·)) (hprevious : previous + 1 = first)
    (hmem : ∀ seqNum, seqNum ∈ seqNums ↔ first ≤ seqNum ∧ seqNum ≤ last) :
    uninterrupted previous seqNums = true := by
  apply (uninterrupted_iff hprevious).mpr ⟨last + 1 - first, ?_⟩
  apply @eq_of_strict Nat id _ _ hsorted (List.pairwise_lt_range' 1 Nat.one_pos)
  intro seqNum
  rw [hmem, List.mem_range'_1]
  omega

-- The last message of the interval completes the flight.
theorem flightOf_last (memory : MessageMemory) {h : ClientHandshakeHandler}
    {expected : List HandshakeType} {type : HandshakeType} {body : HandshakeBody} {first last : Nat}
    (hexpected : h.expectedResponses = some expected) (htype : type ∈ expected)
    (hbody : emptyBody type = some body) (hmsgType : body.msgType = type)
    (hfirst : h.lastProcessedSeqNum + 1 = first)
    (hkeys : ∀ seqNum, seqNum = last ∨ seqNum ∈ h.completeMessages.keys ↔
      first ≤ seqNum ∧ seqNum ≤ last) :
    h.flightOf (.message memory (emptyMessage type last)) =
      some ((h.completeMessages.set last ⟨last, body⟩).values, ⟨last, body⟩) := by
  have hkeys' : ∀ seqNum, seqNum ∈ (h.completeMessages.set last ⟨last, body⟩).keys ↔
      first ≤ seqNum ∧ seqNum ≤ last := by
    intro seqNum
    rw [IndexMap.mem_keys_set, hkeys]
  have hgap := uninterrupted_of_interval (IndexMap.keys_sorted _) hfirst hkeys'
  have hlast : (h.completeMessages.set last ⟨last, body⟩).last? = some ⟨last, body⟩ := by
    apply IndexMap.last?_set
    intro seqNum hseq
    exact ((hkeys seqNum).mp (.inr hseq)).2
  have hstore := storeMessage_emptyMessage memory hbody last h
  show flightIn (storeMessage memory (emptyMessage type last) h) = _
  rw [hstore]
  have hmem : body.msgType ∈ expected := hmsgType.symm ▸ htype
  exact completeFlight_eq_some.mpr ⟨hgap, rfl, hlast, expected, hexpected, hmem⟩

/-- Where a flight is expected and no old message is in the way, some messages complete one. -/
theorem exists_flight (opts : Options) (crypto : Crypto) (memory : MessageMemory)
    {h : ClientHandshakeHandler} {expected : List HandshakeType} {type : HandshakeType}
    {body : HandshakeBody} (hkeys : h.KeysFit) (hstart : -1 ≤ h.lastProcessedSeqNum)
    (hlast : h.lastProcessedSeqNum < 2 ^ 16 - 1) (hfree : ¬h.Blocked)
    (hexpected : h.expectedResponses = some expected) (htype : type ∈ expected)
    (hbody : emptyBody type = some body) (hmsgType : body.msgType = type) :
    ∃ inputs : List Input, (∀ input ∈ inputs, input.Fits) ∧ h.flights opts crypto inputs ≠ [] := by
  -- everything from the next sequence number up to the greatest there is
  let last : Nat := 2 ^ 16 - 1
  let seqNums := List.range' (h.lastProcessedSeqNum + 1).toNat
    (last - (h.lastProcessedSeqNum + 1).toNat)
  have hfirst : h.lastProcessedSeqNum + 1 = ((h.lastProcessedSeqNum + 1).toNat : Int) := by omega
  have hmem : ∀ seqNum, seqNum ∈ seqNums ↔
      (h.lastProcessedSeqNum + 1).toNat ≤ seqNum ∧ seqNum < last := by
    intro seqNum
    rw [List.mem_range'_1]
    omega
  have hstored : ∀ seqNum ∈ h.completeMessages.keys,
      (h.lastProcessedSeqNum + 1).toNat ≤ seqNum ∧ seqNum ≤ last := by
    intro seqNum hseq
    have hfits := hkeys seqNum hseq
    have hnew : ¬(seqNum : Int) ≤ h.lastProcessedSeqNum := fun hold => hfree ⟨seqNum, hseq, hold⟩
    omega
  refine ⟨fillers memory seqNums ++ [.message memory (emptyMessage type last)], ?_, ?_⟩
  · intro input hinput
    rcases List.mem_append.mp hinput with hinput | hinput
    · rcases List.mem_map.mp hinput with ⟨seqNum, hseq, rfl⟩
      show seqNum < 2 ^ 16
      have hlt := ((hmem seqNum).mp hseq).2
      omega
    · rw [List.mem_singleton.mp hinput]
      show last < 2 ^ 16
      decide
  · intro hnil
    rw [flights_append, List.append_eq_nil_iff] at hnil
    rcases takeAll_fillers opts crypto memory hnil.1 with ⟨completeMessages, hall, hcomplete⟩
    have hflight := hnil.2
    rw [hall] at hflight
    -- with the last message the interval is full
    have hkeys' : ∀ seqNum, seqNum = last ∨ seqNum ∈ completeMessages.keys ↔
        (h.lastProcessedSeqNum + 1).toNat ≤ seqNum ∧ seqNum ≤ last := by
      intro seqNum
      rw [hcomplete, hmem]
      constructor
      · rintro (rfl | hin | hin)
        · omega
        · omega
        · exact hstored seqNum hin
      · omega
    have hsome := flightOf_last memory (h := { h with completeMessages := completeMessages })
      hexpected htype hbody hmsgType hfirst hkeys'
    rw [flights, hsome] at hflight
    cases hflight

/-! ## Fragments -/

-- The handlers of the flights do not look at the incomplete messages.
theorem handleFlight_withIncomplete (opts : Options) (crypto : Crypto) (messages : List Handshake)
    (lastMsg : Handshake) (fragments : List FragmentedHandshake) (h : ClientHandshakeHandler) :
    finalState (handleFlight opts crypto messages lastMsg) (h.withIncomplete fragments) =
      (finalState (handleFlight opts crypto messages lastMsg) h).withIncomplete fragments := by
  rw [finalState_handleFlight, finalState_handleFlight]
  rfl

/-- The fragments of the message of `msg` among what arrives. -/
def fragmentsOf (msg : FragmentedHandshake) (inputs : List Input) : List FragmentedHandshake :=
  inputs.filterMap fun
    | .message _ fragment =>
        if fragment.isFragmented && fragment.sameMessage msg then some fragment else none
    | .recordLayer _ => none

theorem fragmentsOf_message (msg : FragmentedHandshake) (memory : MessageMemory)
    (fragment : FragmentedHandshake) :
    fragmentsOf msg [.message memory fragment] =
      if fragment.isFragmented && fragment.sameMessage msg then [fragment] else [] := by
  unfold fragmentsOf
  cases hsame : fragment.isFragmented && fragment.sameMessage msg with
  | false => simp only [List.filterMap_cons, hsame, Bool.false_eq_true, if_false, List.filterMap_nil]
  | true => simp only [List.filterMap_cons, hsame, if_true, List.filterMap_nil]

/-- What was received of the message of `msg`, with what is still to come, never makes it complete,
neither with `msg` nor without. -/
def NeverCompletes (received : List FragmentedHandshake) (msg : FragmentedHandshake)
    (inputs : List Input) : Prop :=
  ∀ arrived, arrived <+: fragmentsOf msg inputs →
    FragmentedHandshake.isComplete (received ++ msg :: arrived) = .ok false ∧
      (arrived ≠ [] → FragmentedHandshake.isComplete (received ++ arrived) = .ok false)

-- The result of storing a message, with the state changed.
def mapState (f : ClientHandshakeHandler → ClientHandshakeHandler) :
    EStateM.Result JsError ClientHandshakeHandler Bool →
      EStateM.Result JsError ClientHandshakeHandler Bool
  | .ok a h => .ok a (f h)
  | .error e h => .error e (f h)

/-- Storing `fragment` goes alike with `msg` between `before` and `after` and without it, and leaves the
handlers with `before'` and `after'`, where the fragments of the message of `msg` are the same and
`fragment`, if it is one. -/
structure StoredAlike (memory : MessageMemory) (msg fragment : FragmentedHandshake)
    (h : ClientHandshakeHandler) (before after before' after' : List FragmentedHandshake)
    (result : EStateM.Result JsError ClientHandshakeHandler Bool) : Prop where
  inserted : storeMessage memory fragment (h.withIncomplete (before ++ msg :: after)) =
    mapState (withIncomplete (before' ++ msg :: after')) result
  alone : storeMessage memory fragment (h.withIncomplete (before ++ after)) =
    mapState (withIncomplete (before' ++ after')) result
  before : FragmentedHandshake.findAllFragments before' msg =
    FragmentedHandshake.findAllFragments before msg
  after : FragmentedHandshake.findAllFragments after' msg =
    FragmentedHandshake.findAllFragments after msg ++ fragmentsOf msg [.message memory fragment]

theorem storedAlike_same (memory : MessageMemory) {msg fragment : FragmentedHandshake}
    (before after : List FragmentedHandshake) (h : ClientHandshakeHandler)
    (hfragmented : fragment.isFragmented = true) (hsame : fragment.sameMessage msg = true)
    (hwith : FragmentedHandshake.isComplete (FragmentedHandshake.findAllFragments before msg ++
      msg :: (FragmentedHandshake.findAllFragments after msg ++ [fragment])) = .ok false)
    (hwithout : FragmentedHandshake.isComplete (FragmentedHandshake.findAllFragments before msg ++
      (FragmentedHandshake.findAllFragments after msg ++ [fragment])) = .ok false) :
    StoredAlike memory msg fragment h before after before (after ++ [fragment]) (.ok false h) := by
  have hself : msg.sameMessage msg = true := sameMessage_iff.mpr ⟨rfl, rfl, rfl⟩
  have hlast : FragmentedHandshake.findAllFragments [fragment] msg = [fragment] :=
    findAllFragments_cons_same hsame []
  have hfind := findAllFragments_congr hsame
  constructor
  · rw [storeMessage_fragment memory hfragmented, hfind, List.append_assoc, List.cons_append,
      findAllFragments_append, findAllFragments_cons_same hself, findAllFragments_append, hlast,
      assemble_incomplete memory hwith]
    rfl
  · rw [storeMessage_fragment memory hfragmented, hfind, List.append_assoc, findAllFragments_append,
      findAllFragments_append, hlast, assemble_incomplete memory hwithout]
    rfl
  · rfl
  · rw [findAllFragments_append, hlast, fragmentsOf_message, hfragmented, hsame]
    rfl

theorem storedAlike_other (memory : MessageMemory) {msg fragment : FragmentedHandshake}
    (before after : List FragmentedHandshake) (h : ClientHandshakeHandler)
    (hfragmented : fragment.isFragmented = true) (hother : ¬fragment.sameMessage msg = true) :
    ∃ before' after' result, StoredAlike memory msg fragment h before after before' after' result := by
  have hmsg : ¬msg.sameMessage fragment = true := fun hsame => hother (sameMessage_symm hsame)
  have hnone : fragmentsOf msg [.message memory fragment] = [] := by
    rw [Bool.not_eq_true] at hother
    rw [fragmentsOf_message, hfragmented, hother]
    rfl
  -- `msg` is not among the fragments that are found
  have hfound : FragmentedHandshake.findAllFragments (before ++ msg :: after ++ [fragment]) fragment =
      FragmentedHandshake.findAllFragments (before ++ after ++ [fragment]) fragment := by
    rw [findAllFragments_append, findAllFragments_append, findAllFragments_cons_other hmsg,
      findAllFragments_append, findAllFragments_append]
  have hafter : FragmentedHandshake.findAllFragments (after ++ [fragment]) msg =
      FragmentedHandshake.findAllFragments after msg := by
    rw [findAllFragments_append, findAllFragments_cons_other hother]
    exact List.append_nil _
  have hkept := findAllFragments_filter_other hother
  cases hres : assemble memory
    (FragmentedHandshake.findAllFragments (before ++ after ++ [fragment]) fragment) with
  | error e =>
      refine ⟨before, after ++ [fragment], .error e h, ⟨?_, ?_, rfl, ?_⟩⟩
      · rw [storeMessage_fragment memory hfragmented, hfound, hres, List.append_assoc]
        rfl
      · rw [storeMessage_fragment memory hfragmented, hres, List.append_assoc]
        rfl
      · rw [hafter, hnone, List.append_nil]
  | ok assembled =>
      cases assembled with
      | none =>
          refine ⟨before, after ++ [fragment], .ok false h, ⟨?_, ?_, rfl, ?_⟩⟩
          · rw [storeMessage_fragment memory hfragmented, hfound, hres, List.append_assoc]
            rfl
          · rw [storeMessage_fragment memory hfragmented, hres, List.append_assoc]
            rfl
          · rw [hafter, hnone, List.append_nil]
      | some message =>
          refine ⟨before.filter fun f => !f.sameMessage fragment,
            (after ++ [fragment]).filter fun f => !f.sameMessage fragment,
            .ok true { h with
              completeMessages := h.completeMessages.set message.messageSeq message }, ⟨?_, ?_, ?_, ?_⟩⟩
          · rw [Bool.not_eq_true] at hmsg
            have hstays : (msg :: (after ++ [fragment])).filter (fun f => !f.sameMessage fragment) =
                msg :: (after ++ [fragment]).filter fun f => !f.sameMessage fragment :=
              List.filter_cons_of_pos (by rw [hmsg]; rfl)
            rw [storeMessage_fragment memory hfragmented, hfound, hres, List.append_assoc,
              List.cons_append, List.filter_append, hstays]
            rfl
          · rw [storeMessage_fragment memory hfragmented, hres, List.append_assoc,
              List.filter_append]
            rfl
          · exact hkept before
          · rw [hkept, hafter, hnone, List.append_nil]

theorem storedAlike_complete (memory : MessageMemory) {msg fragment : FragmentedHandshake}
    (before after : List FragmentedHandshake) (h : ClientHandshakeHandler)
    (hcomplete : fragment.isFragmented = false) :
    ∃ result, StoredAlike memory msg fragment h before after before after result := by
  have hnone : fragmentsOf msg [.message memory fragment] = [] := by
    rw [fragmentsOf_message, hcomplete]
    rfl
  have hstore : ∃ result, ∀ fragments,
      storeMessage memory fragment (h.withIncomplete fragments) =
        mapState (withIncomplete fragments) result := by
    unfold storeMessage
    rw [hcomplete]
    cases Handshake.fromFragment memory.body fragment with
    | error e => exact ⟨.error e h, fun _ => rfl⟩
    | ok message =>
        exact ⟨.ok true { h with
          completeMessages := h.completeMessages.set fragment.messageSeq message }, fun _ => rfl⟩
  rcases hstore with ⟨result, hresult⟩
  exact ⟨result, hresult _, hresult _, rfl, by rw [hnone, List.append_nil]⟩

-- Storing one more message, as long as it does not complete that of `msg`.
theorem exists_storedAlike (memory : MessageMemory) {msg fragment : FragmentedHandshake}
    (before after : List FragmentedHandshake) (h : ClientHandshakeHandler)
    (hnever : ∀ arrived ≠ [], arrived <+: fragmentsOf msg [.message memory fragment] →
      FragmentedHandshake.isComplete (FragmentedHandshake.findAllFragments before msg ++
        msg :: (FragmentedHandshake.findAllFragments after msg ++ arrived)) = .ok false ∧
      FragmentedHandshake.isComplete (FragmentedHandshake.findAllFragments before msg ++
        (FragmentedHandshake.findAllFragments after msg ++ arrived)) = .ok false) :
    ∃ before' after' result, StoredAlike memory msg fragment h before after before' after' result := by
  cases hfragmented : fragment.isFragmented with
  | false =>
      rcases storedAlike_complete memory before after h hfragmented with ⟨result, hstored⟩
      exact ⟨before, after, result, hstored⟩
  | true =>
      by_cases hsame : fragment.sameMessage msg = true
      · have hone : fragmentsOf msg [.message memory fragment] = [fragment] := by
          rw [fragmentsOf_message, hfragmented, hsame]
          rfl
        have hincomplete := hnever [fragment] (List.cons_ne_nil _ _) (by rw [hone])
        exact ⟨before, after ++ [fragment], .ok false h,
          storedAlike_same memory before after h hfragmented hsame hincomplete.1 hincomplete.2⟩
      · exact storedAlike_other memory before after h hfragmented hsame

theorem flightIn_mapState (fragments : List FragmentedHandshake)
    (result : EStateM.Result JsError ClientHandshakeHandler Bool) :
    flightIn (mapState (withIncomplete fragments) result) = flightIn result := by
  cases result with
  | error e h => rfl
  | ok complete h => cases complete <;> rfl

theorem proceed_mapState (opts : Options) (crypto : Crypto) (fragments : List FragmentedHandshake)
    (result : EStateM.Result JsError ClientHandshakeHandler Bool) :
    proceed opts crypto (mapState (withIncomplete fragments) result) =
      (proceed opts crypto result).withIncomplete fragments := by
  cases result with
  | error e h => rfl
  | ok complete h =>
      cases complete with
      | false => rfl
      | true =>
          have hsame : (h.withIncomplete fragments).completeFlight = h.completeFlight := rfl
          simp only [mapState, proceed, hsame]
          cases h.completeFlight with
          | none => rfl
          | some flight => exact handleFlight_withIncomplete opts crypto flight.1 flight.2 fragments h

theorem fragmentsOf_cons (msg : FragmentedHandshake) (input : Input) (inputs : List Input) :
    fragmentsOf msg (input :: inputs) = fragmentsOf msg [input] ++ fragmentsOf msg inputs := by
  unfold fragmentsOf
  rw [← List.filterMap_append, List.singleton_append]

/-- As long as the message of `msg` is not completed, the run is the same with `msg` and without. -/
theorem sameOutcome_insert (opts : Options) (crypto : Crypto) {msg : FragmentedHandshake}
    {inputs : List Input} {before after : List FragmentedHandshake} {h : ClientHandshakeHandler}
    (hnever : ∀ arrived ≠ [], arrived <+: fragmentsOf msg inputs →
      FragmentedHandshake.isComplete (FragmentedHandshake.findAllFragments before msg ++
        msg :: (FragmentedHandshake.findAllFragments after msg ++ arrived)) = .ok false ∧
      FragmentedHandshake.isComplete (FragmentedHandshake.findAllFragments before msg ++
        (FragmentedHandshake.findAllFragments after msg ++ arrived)) = .ok false) :
    SameOutcome opts crypto (h.withIncomplete (before ++ msg :: after))
      (h.withIncomplete (before ++ after)) inputs inputs := by
  induction inputs generalizing before after h with
  | nil => exact ⟨rfl, rfl, rfl⟩
  | cons input inputs ih =>
      rw [fragmentsOf_cons] at hnever
      cases input with
      | recordLayer f => exact .cons rfl (ih (h := h.setRecordLayer (f h.recordLayer)) hnever)
      | message memory fragment =>
          rcases exists_storedAlike memory before after h (fun arrived hne hpre =>
            hnever arrived hne (hpre.trans (List.prefix_append _ _))) with
            ⟨before', after', result, hstored⟩
          have hrest : SameOutcome opts crypto
              ((proceed opts crypto result).withIncomplete (before' ++ msg :: after'))
              ((proceed opts crypto result).withIncomplete (before' ++ after')) inputs inputs := by
            apply ih
            intro arrived hne hpre
            rw [hstored.before, hstored.after, List.append_assoc]
            apply hnever
            · exact fun hnil => hne (List.append_eq_nil_iff.mp hnil).2
            · exact (List.prefix_append_right_inj _).mpr hpre
          have htake : (h.withIncomplete (before ++ msg :: after)).take opts crypto
              (.message memory fragment) =
                (proceed opts crypto result).withIncomplete (before' ++ msg :: after') := by
            rw [take_message, hstored.inserted, proceed_mapState]
          have htake' : (h.withIncomplete (before ++ after)).take opts crypto
              (.message memory fragment) =
                (proceed opts crypto result).withIncomplete (before' ++ after') := by
            rw [take_message, hstored.alone, proceed_mapState]
          have hflight : (h.withIncomplete (before ++ msg :: after)).flightOf
              (.message memory fragment) =
                (h.withIncomplete (before ++ after)).flightOf (.message memory fragment) := by
            show flightIn (storeMessage memory fragment _) = flightIn (storeMessage memory fragment _)
            rw [hstored.inserted, hstored.alone, flightIn_mapState, flightIn_mapState]
          apply SameOutcome.cons hflight
          rw [htake, htake']
          exact hrest

-- A fragment of an old message that never becomes complete makes no difference.
theorem sameOutcome_fragment (opts : Options) (crypto : Crypto) (memory : MessageMemory)
    {msg : FragmentedHandshake} {inputs : List Input} {h : ClientHandshakeHandler}
    (hmsg : msg.isFragmented = true)
    (hnever : NeverCompletes (FragmentedHandshake.findAllFragments h.incompleteMessages msg) msg
      inputs) :
    SameOutcome opts crypto h h (.message memory msg :: inputs) inputs := by
  have hself : msg.sameMessage msg = true := sameMessage_iff.mpr ⟨rfl, rfl, rfl⟩
  have hstore : storeMessage memory msg h =
      .ok false (h.withIncomplete (h.incompleteMessages ++ [msg])) := by
    have hfragment := storeMessage_fragment memory hmsg h.incompleteMessages h
    have hone : FragmentedHandshake.findAllFragments [msg] msg = [msg] :=
      findAllFragments_cons_same hself []
    rw [findAllFragments_append, hone, assemble_incomplete memory (hnever [] List.nil_prefix).1]
      at hfragment
    exact hfragment
  have hrest : SameOutcome opts crypto (h.withIncomplete (h.incompleteMessages ++ msg :: []))
      (h.withIncomplete (h.incompleteMessages ++ [])) inputs inputs := by
    apply sameOutcome_insert
    intro arrived hne hpre
    have hincomplete := hnever arrived hpre
    exact ⟨hincomplete.1, hincomplete.2 hne⟩
  rw [List.append_nil] at hrest
  have htake : h.take opts crypto (.message memory msg) =
      h.withIncomplete (h.incompleteMessages ++ [msg]) := by
    rw [take_message, hstore]
    rfl
  have hnone : h.flightOf (.message memory msg) = none := by
    show flightIn (storeMessage memory msg h) = none
    rw [hstore]
    rfl
  refine ⟨?_, ?_, ?_⟩
  · rw [flights, hnone, htake]
    exact hrest.flights
  · show (takeAll opts crypto (take opts crypto h _) inputs).toFlightState = _
    rw [htake]
    exact hrest.flightState
  · show (takeAll opts crypto (take opts crypto h _) inputs).lastProcessedSeqNum = _
    rw [htake]
    exact hrest.lastProcessedSeqNum

/-! ## The handlers that a client can reach -/

/-- A property of the buffers that holds at first, and that messages keep. -/
structure KeptByMessages (opts : Options) (crypto : Crypto) (P : ClientHandshakeHandler → Prop) :
    Prop where
  congr : ∀ {h h' : ClientHandshakeHandler}, P h → h'.buffers = h.buffers → P h'
  proceed : ∀ {h : ClientHandshakeHandler} (memory : MessageMemory) {msg : FragmentedHandshake},
    msg.messageSeq < 2 ^ 16 → P h → P (proceed opts crypto (storeMessage memory msg h))
  reset : ∀ f : FlightState, P { ClientHandshakeHandler.reset .new with toFlightState := f }

end ClientHandshakeHandler

open ClientHandshakeHandler

section KeptByMessages

variable {opts : Options} {crypto : Crypto} {P : ClientHandshakeHandler → Prop}

theorem Socket.handleMessage_kept (hkept : KeptByMessages opts crypto P) (memory : MessageMemory)
    (msg : Message) (rinfo : RemoteInfo) {s : Socket} (hinv : P s.handshakeHandler) :
    Ends (handleMessage opts crypto memory msg rinfo) s
      (fun _ s' => P s'.handshakeHandler) (fun _ s' => P s'.handshakeHandler) := by
  by_cases hmsg : msg.type = .handshake
  · rcases msg with ⟨type, data⟩
    cases hmsg
    unfold handleMessage
    simp only
    split
    · exact hinv
    · rename_i fragment hfragment
      have hnext := hkept.proceed memory (FragmentedHandshake.fromBuffer_messageSeq hfragment) hinv
      apply (processIncomingMessage_buffers opts crypto memory fragment s).mono
      · exact fun _ _ hsame => hkept.congr hnext hsame
      · exact fun _ _ hsame => hkept.congr hnext hsame
  · apply (handleMessage_buffers opts crypto memory rinfo s hmsg).mono
    · exact fun _ _ hsame => hkept.congr hinv hsame
    · exact fun _ _ hsame => hkept.congr hinv hsame

theorem step_kept (hkept : KeptByMessages opts crypto P) {c : Config} (a : Action)
    (hinv : P c.socket.handshakeHandler) : P (step opts crypto c a).socket.handshakeHandler := by
  have hends : ∀ {α : Type} {x : SocketM α}, Socket.KeepsBuffers x c.socket →
      P (finalState x c.socket).handshakeHandler := by
    intro α x hkeeps
    have hsame := Ends.finalState (P := fun s : Socket => s.buffers = c.socket.buffers) hkeeps
    exact hkept.congr hinv hsame
  cases a with
  | datagram memory messageMemory udpMsg rinfo =>
      show P (Config.receiveDatagram crypto memory messageMemory udpMsg rinfo
        c).socket.handshakeHandler
      unfold Config.receiveDatagram
      split
      · exact hkept.congr hinv rfl
      · exact hinv
  | next =>
      exact Config.handleNext_socket (P := fun s => P s.handshakeHandler) opts crypto (fun _ => hinv)
        fun d _ _ => Socket.handleMessage_kept hkept d.memory d.msg d.rinfo hinv
  | callback i =>
      show P (Config.runCallback i c.socket).handshakeHandler
      rw [Socket.runCallback_handler]
      exact hinv
  | handshakeTimeout =>
      show P c.socket.expectHandshake.handshakeHandler
      rw [Socket.expectHandshake_handler]
      exact hinv
  | udpClose =>
      show P c.socket.udpOnClose.handshakeHandler
      rw [Socket.udpOnClose_handler]
      exact hinv
  | udpError e =>
      show P (c.socket.killConnection (some e)).handshakeHandler
      rw [Socket.killConnection_handler]
      exact hinv
  | send data => exact hends (Socket.send_buffers crypto data c.socket)
  | close => exact hends (Socket.sendAlert_buffers crypto _ _ c.socket)
  | sendAlert alert => exact hends (Socket.sendAlert_buffers crypto alert none c.socket)

/-- It holds in every state that a client can reach. -/
theorem run_kept (hkept : KeptByMessages opts crypto P) (random : Random) (actions : List Action) :
    P ((client opts crypto random).run actions).socket.handshakeHandler := by
  apply (client opts crypto random).invariant (P := fun c : Config => P c.socket.handshakeHandler)
  · -- the ClientHello is sent before any message is stored
    have hreset : ∀ (x : FlightM Unit) (f : FlightState),
        Ends x f (fun _ f => P { ClientHandshakeHandler.reset .new with toFlightState := f })
          (fun _ f => P { ClientHandshakeHandler.reset .new with toFlightState := f }) :=
      fun x f => ends_of_forall x f (fun _ f => hkept.reset f) fun _ f => hkept.reset f
    apply client_starts (P := fun s : Socket => P s.handshakeHandler)
    unfold Socket.udpOnListening Socket.callHandler ClientHandshakeHandler.renegotiate
      ClientHandshakeHandler.callFlight
    rw [ends_onPart, ends_onPart]
    exact hreset _ _
  · exact fun _ a hinv => step_kept hkept a hinv

end KeptByMessages

namespace ClientHandshakeHandler

/-- What holds of the buffers of a handler between any two steps. -/
structure BuffersInv (h : ClientHandshakeHandler) : Prop where
  keysFit : h.KeysFit
  started : -1 ≤ h.lastProcessedSeqNum

theorem BuffersInv.congr {h h' : ClientHandshakeHandler} (hinv : h.BuffersInv)
    (hsame : h'.buffers = h.buffers) : h'.BuffersInv := by
  rcases Prod.mk.inj hsame with ⟨hlast, hrest⟩
  have hcomplete : h'.completeMessages = h.completeMessages := (Prod.mk.inj hrest).2
  have hlast : h'.lastProcessedSeqNum = h.lastProcessedSeqNum := hlast
  constructor
  · unfold KeysFit
    rw [hcomplete]
    exact hinv.keysFit
  · rw [hlast]
    exact hinv.started

-- A property that storing keeps is kept by the handler of a flight if it holds of an empty buffer.
theorem proceed_kept {P : ClientHandshakeHandler → Prop} (opts : Options) (crypto : Crypto)
    {h : ClientHandshakeHandler} (memory : MessageMemory) {msg : FragmentedHandshake}
    (hstored : P (h.stored memory msg))
    (hempty : ∀ {h' : ClientHandshakeHandler}, h'.completeMessages = .empty →
      0 ≤ h'.lastProcessedSeqNum → P h') : P (proceed opts crypto (storeMessage memory msg h)) := by
  unfold stored finalState at hstored
  cases hres : storeMessage memory msg h with
  | error e h1 =>
      rw [hres] at hstored
      exact hstored
  | ok complete h1 =>
      rw [hres] at hstored
      cases complete with
      | false => exact hstored
      | true =>
          simp only [ClientHandshakeHandler.proceed, finalState_handleFlight]
          cases h1.completeFlight with
          | none => exact hstored
          | some flight => exact hempty rfl (Int.natCast_nonneg _)

section Entries

variable {Q : Nat × Handshake → Prop}

-- What is stored was there before, or was parsed from a whole message with its number.
theorem stored_forall (hparsed : ∀ memory whole message,
      Handshake.fromFragment memory whole = .ok message → Q (whole.messageSeq, message))
    {h : ClientHandshakeHandler} (hall : ∀ e ∈ h.completeMessages.entries, Q e)
    (memory : MessageMemory) (msg : FragmentedHandshake) :
    ∀ e ∈ (h.stored memory msg).completeMessages.entries, Q e := by
  unfold stored finalState
  rw [storeMessage_eq]
  cases hwhole : FragmentedHandshake.completed h.incompleteMessages msg with
  | none => exact hall
  | some whole =>
      simp only
      cases hres : Handshake.fromFragment memory.body whole with
      | error error => exact hall
      | ok message =>
          intro e he
          rcases IndexMap.mem_entries_set.mp he with hnew | ⟨hold, _⟩
          · have hmessage := hparsed memory.body whole message hres
            rw [(FragmentedHandshake.completed_whole hwhole).1] at hmessage
            rw [hnew]
            exact hmessage
          · exact hall e hold

/-- What every parsed message has, all the messages have that wait for their flight. -/
theorem keptByMessages_entries (opts : Options) (crypto : Crypto) (hparsed : ∀ memory whole message,
      Handshake.fromFragment memory whole = .ok message → Q (whole.messageSeq, message)) :
    KeptByMessages opts crypto fun h => ∀ e ∈ h.completeMessages.entries, Q e where
  congr := by
    intro h h' hall hsame
    have hcomplete : h'.completeMessages = h.completeMessages :=
      (Prod.mk.inj (Prod.mk.inj hsame).2).2
    rw [hcomplete]
    exact hall
  proceed := by
    intro h memory msg _ hall
    apply proceed_kept (P := fun h => ∀ e ∈ h.completeMessages.entries, Q e) opts crypto memory
    · exact stored_forall hparsed hall memory msg
    · intro h' hempty _ e he
      rw [hempty] at he
      cases he
  reset := by
    intro f e he
    cases he

end Entries

theorem keptByMessages_buffersInv (opts : Options) (crypto : Crypto) :
    KeptByMessages opts crypto BuffersInv where
  congr := BuffersInv.congr
  proceed := by
    intro h memory msg hfits hinv
    have hstored := h.stored_spec memory msg
    apply proceed_kept opts crypto memory
    · exact ⟨hstored.keysFit hfits hinv.keysFit, hstored.lastProcessedSeqNum ▸ hinv.started⟩
    · intro h' hempty hlast
      refine ⟨fun seqNum hmem => ?_, by omega⟩
      rw [hempty] at hmem
      cases hmem
  reset := fun f => ⟨fun seqNum hmem => absurd hmem List.not_mem_nil, Int.le_refl _⟩

end ClientHandshakeHandler

/-- The buffers of the handler in every state that a client can reach. -/
theorem run_buffers (opts : Options) (crypto : Crypto) (random : Random) (actions : List Action) :
    ((client opts crypto random).run actions).socket.handshakeHandler.BuffersInv :=
  run_kept (keptByMessages_buffersInv opts crypto) random actions

namespace ClientHandshakeHandler

open FlightState

-- Whatever a client waits for, a message with an empty body can end the flight.
theorem emptyBody_of_awaits {crypto : Crypto} {f : FlightState} {expected : List HandshakeType}
    (hawaits : Awaits crypto f (some expected)) :
    ∃ type body, type ∈ expected ∧ emptyBody type = some body ∧ body.msgType = type := by
  cases hawaits with
  | hello =>
      exact ⟨.serverHelloDone, .serverHelloDone, List.mem_cons_self, rfl, rfl⟩
  | cookie =>
      exact ⟨.serverHelloDone, .serverHelloDone, List.mem_cons_self, rfl, rfl⟩
  | finished =>
      exact ⟨.finished, .finished [], List.mem_cons_self, rfl, rfl⟩

-- In a client that is not stuck some messages still complete a flight.
theorem exists_flight_of_not_stuck (opts : Options) {crypto : Crypto} (memory : MessageMemory)
    {h : ClientHandshakeHandler} (hinv : Inv crypto h.toFlightState) (hbuffers : h.BuffersInv)
    (hstuck : ¬h.Stuck) :
    ∃ inputs : List Input, (∀ input ∈ inputs, input.Fits) ∧ h.flights opts crypto inputs ≠ [] := by
  unfold Stuck at hstuck
  push Not at hstuck
  rcases hstuck with ⟨hexpected, hfree, hlast⟩
  cases hresponses : h.expectedResponses with
  | none => exact absurd hresponses hexpected
  | some expected =>
      have hawaits : Awaits crypto h.toFlightState (some expected) := hresponses ▸ hinv.awaits
      rcases emptyBody_of_awaits hawaits with ⟨type, body, htype, hbody, hmsgType⟩
      exact exists_flight opts crypto memory hbuffers.keysFit hbuffers.started hlast hfree hresponses
        htype hbody hmsgType

/-- In every state a client can reach: an old message makes no difference if no flight is handled any
more, or if it is a fragment and its message does not become complete.  A whole old message makes no
difference exactly if no flight is handled any more. -/
theorem retransmission_harmless (opts : Options) (crypto : Crypto) (random : Random)
    (actions : List Action) {h : ClientHandshakeHandler} (memory : MessageMemory)
    {msg : FragmentedHandshake}
    (hreached : ((client opts crypto random).run actions).socket.handshakeHandler = h)
    (hfits : msg.messageSeq < 2 ^ 16) (hold : (msg.messageSeq : Int) ≤ h.lastProcessedSeqNum) :
    (∀ inputs : List Input, (∀ input ∈ inputs, input.Fits) →
      (h.Stuck ∨ msg.isFragmented = true ∧ NeverCompletes
        (FragmentedHandshake.findAllFragments h.incompleteMessages msg) msg inputs) →
      SameOutcome opts crypto h h (.message memory msg :: inputs) inputs) ∧
    (∀ message, msg.isFragmented = false →
      Handshake.fromFragment memory.body msg = .ok message →
      ((∀ inputs : List Input, (∀ input ∈ inputs, input.Fits) →
        SameOutcome opts crypto h h (.message memory msg :: inputs) inputs) ↔ h.Stuck)) := by
  have hbuffers := hreached ▸ run_buffers opts crypto random actions
  have hinv := hreached ▸ (run_inv opts crypto random actions).flight
  have hmsg : (Input.message memory msg).Fits := hfits
  have hstuck : h.Stuck → ∀ inputs : List Input, (∀ input ∈ inputs, input.Fits) →
      SameOutcome opts crypto h h (.message memory msg :: inputs) inputs := by
    intro hstuck inputs hinputs
    have hnone := flightOf_of_stuck hbuffers.keysFit hmsg hstuck
    rcases take_of_stuck opts crypto hbuffers.keysFit hmsg hstuck with
      ⟨hkeys, hstuck', hlast, hflight⟩
    have hrest := (sameOutcome_of_stuck opts crypto hinputs hkeys hbuffers.keysFit hstuck' hstuck
      hflight hlast).1
    refine ⟨?_, hrest.flightState, hrest.lastProcessedSeqNum⟩
    rw [flights, hnone]
    exact hrest.flights
  constructor
  · intro inputs hinputs hcases
    rcases hcases with hcase | ⟨hfragmented, hnever⟩
    · exact hstuck hcase inputs hinputs
    · exact sameOutcome_fragment opts crypto memory hfragmented hnever
  · intro message hwhole hparsed
    constructor
    · intro hsame
      by_contra hfree
      -- some messages complete a flight, but behind the old one they do not
      rcases exists_flight_of_not_stuck opts memory hinv hbuffers hfree with
        ⟨inputs, hinputs, hflights⟩
      rcases stuck_of_old hbuffers.keysFit hfits hwhole hparsed hold with ⟨hnone, hstuck'⟩
      have hkeys := (stored_spec memory msg h).keysFit hfits hbuffers.keysFit
      have hnil := (sameOutcome_of_stuck opts crypto hinputs hkeys hkeys hstuck' hstuck' rfl rfl).2
      have hboth := (hsame inputs hinputs).flights
      rw [flights, hnone, take_of_none hnone, hnil] at hboth
      exact hflights hboth.symm
    · exact hstuck

/-- The server sends its ServerHello a second time, after ServerHelloDone. -/
def repeatedHello : FragmentedHandshake :=
  ⟨.serverHello, Sample.serverHello.length, 0, 0, Sample.serverHello⟩

def serverFinished : FragmentedHandshake := ⟨.finished, 12, 2, 0, List.replicate 12 0⟩

-- The handler while it waits for that.
def waiting : ClientHandshakeHandler := (Sample.run Sample.keyExchange).socket.handshakeHandler

theorem retransmission_harmless_sample :
    (∀ inputs : List Input, (∀ input ∈ inputs, input.Fits) →
      SameOutcome Sample.opts Sample.crypto waiting waiting
        (.message (Sample.memory 0) repeatedHello :: inputs) inputs) ↔ waiting.Stuck := by
  have hreached : ((client Sample.opts Sample.crypto Sample.random).run
      Sample.keyExchange).socket.handshakeHandler = waiting := by
    unfold waiting Sample.run
    rfl
  have hfits : repeatedHello.messageSeq < 2 ^ 16 := by decide
  have hold : (repeatedHello.messageSeq : Int) ≤ waiting.lastProcessedSeqNum := by decide +kernel
  have hwhole : repeatedHello.isFragmented = false := rfl
  have hparsed : Handshake.fromFragment (Sample.memory 0).body repeatedHello =
      .ok ⟨0, .serverHello ⟨⟨some 254, some 253⟩, ⟨some 0, List.replicate 28 0⟩, [], some 0xC0A8,
        some 0, []⟩⟩ := by decide +kernel
  exact (retransmission_harmless Sample.opts Sample.crypto Sample.random Sample.keyExchange
    (Sample.memory 0) hreached hfits hold).2 _ hwhole hparsed

/-- Behind the repeated ServerHello the Finished does not end the handshake any more. -/
theorem retransmission_harmless_repeatedHello :
    (repeatedHello.messageSeq : Int) ≤ waiting.lastProcessedSeqNum ∧
    (Handshake.fromFragment (Sample.memory 0).body repeatedHello).isOk = true ∧
    ¬SameOutcome Sample.opts Sample.crypto waiting waiting
      [.message (Sample.memory 0) repeatedHello, .message (Sample.memory 0) serverFinished]
      [.message (Sample.memory 0) serverFinished] := by
  refine ⟨by decide +kernel, by decide +kernel, fun hsame => ?_⟩
  have hlength := congrArg List.length hsame.flights
  have hbehind : (waiting.flights Sample.opts Sample.crypto
      [.message (Sample.memory 0) repeatedHello,
        .message (Sample.memory 0) serverFinished]).length = 0 := by decide +kernel
  have halone : (waiting.flights Sample.opts Sample.crypto
      [.message (Sample.memory 0) serverFinished]).length = 1 := by decide +kernel
  omega

end ClientHandshakeHandler

end DtlsClient
