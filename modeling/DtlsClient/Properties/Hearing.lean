import DtlsClient.Properties.InOrder
import DtlsClient.Properties.Delivery
import DtlsClient.Properties.Operations

/-!
# What a client hears of the other end

The datagrams of the other end are lost, repeated and reordered on the way.  What the client emits, keeps for
later or is about to process is application data that was sent, and none of it more often than it was
sent.
-/

open Library

namespace DtlsClient

open RecordLayer

/-- What the other end has sent: the records of each datagram, with no pair of epoch and sequence number
used twice. -/
structure SentBy (crypto : Crypto) (server : RecordLayer) (log : List (List DTLSCompressed)) : Prop where
  datagrams : List.Forall₂ (WrittenAs crypto server) log server.udpSocket
  writable : ∀ p ∈ log.flatten, Writable crypto server p
  keys : (log.flatten.map recordKey).Nodup

/-- Where the client takes a datagram, it is one that the server has sent, and the client has the keys for
what it lets through of it. -/
def HearsOnly (crypto : Crypto) (server : RecordLayer) (t : Config × Action) : Prop :=
  ∀ r ∈ received t, Overhears crypto server r

/-! ## What becomes of the messages -/

-- No round of the loop adds to the payloads.
theorem handleNext_sublist (opts : Options) {crypto : Crypto} {c : Config}
    (hinv : ClientInv crypto c.socket) :
    (c.handleNext opts crypto).payloads.Sublist c.payloads := by
  rcases handleNext_payloads opts hinv with ⟨_, heq⟩ | ⟨hloses, _⟩
  · rw [heq]
  · rcases hloses with ⟨_, d, pending, hpending, hthrows, _⟩
    have hpayloads := Socket.handleMessage_payloads opts d hinv
    have hdigests := Socket.handleMessage_digests opts d.memory d.msg d.rinfo hinv
    unfold Config.handleNext
    rw [hpending]
    simp only
    cases hres : Socket.handleMessage opts crypto d.memory d.msg d.rinfo c.socket with
    | ok _ s => exact absurd (((hdigests.of_ok hres).2 []).mpr trivial) hthrows
    | error e s =>
        unfold Config.payloads
        rw [(hpayloads.of_error hres).1]
        exact List.sublist_append_of_sublist_left (List.append_nil _ ▸ List.Sublist.refl _)

theorem step_sublist (opts : Options) {crypto : Crypto} {c : Config} (a : Action)
    (hinv : ClientInv crypto c.socket) :
    (step opts crypto c a).payloads.Sublist (c.payloads ++ returnedData crypto (c, a)) := by
  by_cases hnext : a = .next
  · subst hnext
    have hnone : returnedData crypto (c, .next) = [] := rfl
    rw [hnone, List.append_nil]
    exact handleNext_sublist opts hinv
  · rcases step_payloads opts a hinv with ⟨_, heq⟩ | ⟨hloses, _⟩
    · rw [heq]
    · exact absurd hloses.1 hnext

/-- In every run the payloads are among those that were received, in their order. -/
theorem run_sublist (opts : Options) (crypto : Crypto) (random : Random) (actions : List Action) :
    ((client opts crypto random).run actions).payloads.Sublist
      (((client opts crypto random).trace actions).flatMap (returnedData crypto)) := by
  apply (client opts crypto random).run_induction (P := fun actions c => c.payloads.Sublist
    (((client opts crypto random).trace actions).flatMap (returnedData crypto)))
  · rcases client_init opts crypto random with ⟨s, hinit, _, _, _, hpayloads⟩
    rw [hinit]
    unfold Config.payloads
    rw [hpayloads]
    exact List.nil_sublist _
  · intro actions a ih
    rw [(client opts crypto random).trace_concat, List.flatMap_append, List.flatMap_singleton]
    exact (step_sublist opts a (run_inv opts crypto random actions)).trans
      (ih.append (List.Sublist.refl _))

theorem returnedData_eq (crypto : Crypto) (t : Config × Action) :
    (returnedData crypto t).map Prod.fst =
      dataOf ((received t).toList.flatMap (RecordLayer.returned crypto)) := by
  have hdata : ∀ (messages : List Message) (rinfo : RemoteInfo),
      ((messages.filter fun m => m.type = .applicationData).map fun m => (m.data, rinfo)).map
        Prod.fst = dataOf messages := by
    intro messages rinfo
    unfold dataOf
    induction messages with
    | nil => rfl
    | cons m messages ih =>
        rw [List.filter_cons, List.filterMap_cons]
        by_cases htype : m.type = .applicationData
        · rw [if_pos (decide_eq_true htype), if_pos htype, List.map_cons, List.map_cons, ih]
        · rw [if_neg (by simpa using htype), if_neg htype, ih]
  rcases t with ⟨c, a⟩
  cases a with
  | datagram memory messageMemory udpMsg rinfo =>
      unfold returnedData received
      simp only
      split
      · rw [hdata, Option.toList_some, List.flatMap_singleton]
        rfl
      · rfl
  | _ => rfl

theorem flatMap_returnedData (crypto : Crypto) (trace : List (Config × Action)) :
    (trace.flatMap (returnedData crypto)).map Prod.fst =
      dataOf ((trace.filterMap received).flatMap (RecordLayer.returned crypto)) := by
  induction trace with
  | nil => rfl
  | cons t trace ih =>
      rw [List.flatMap_cons, List.map_append, ih, returnedData_eq]
      cases ht : received t with
      | none => rw [List.filterMap_cons_none ht]; rfl
      | some r =>
          rw [List.filterMap_cons_some ht, List.flatMap_cons, Option.toList_some,
            List.flatMap_singleton]
          exact List.filterMap_append.symm

-- What does not receive returns nothing.
theorem flatMap_returned_receives (crypto : Crypto) (trace : List (RecordLayer × Operation)) :
    trace.flatMap (RecordLayer.returned crypto) =
      (trace.filter (·.2.receives)).flatMap (RecordLayer.returned crypto) := by
  induction trace with
  | nil => rfl
  | cons t trace ih =>
      rcases t with ⟨rl, op⟩
      rw [List.flatMap_cons, ih, List.filter_cons]
      cases op with
      | receive memory buf => rfl
      | _ => rfl

/-- A network that loses, repeats and reorders the datagrams of the server: in every state of every run, what
the client has emitted, what it keeps until the handshake is done and what it is about to process is
application data of the server, and none of it more often than the server sent it. -/
theorem client_emitsSentData {opts : Options}
    (hreset : opts.resetAntiReplayWindowBeforeServerHello = false) {crypto : Crypto} (random : Random)
    {server : RecordLayer} {log : List (List DTLSCompressed)} (hsent : SentBy crypto server log)
    (actions : List Action)
    (hnetwork : ∀ t ∈ (client opts crypto random).trace actions, HearsOnly crypto server t) :
    (((client opts crypto random).run actions).payloads.map Prod.fst).Subperm
      (dataOf (log.flatten.map asMessage)) := by
  rcases run_operations crypto hreset random actions with ⟨operations, _, htrace⟩
  have hover : ∀ t ∈ (machine crypto).trace operations, Overhears crypto server t :=
    forall_trace htrace (fun rl op hop => by
      cases op with
      | receive memory buf => cases hop
      | _ => trivial) hnetwork
  have hreturned := returned_subperm hsent.datagrams hsent.writable hsent.keys hover
  rw [flatMap_returned_receives, htrace] at hreturned
  rcases hreturned with ⟨some, hperm, hsublist⟩
  have hdata : (dataOf (((client opts crypto random).trace actions).filterMap received |>.flatMap
      (RecordLayer.returned crypto))).Subperm (dataOf (log.flatten.map asMessage)) :=
    ⟨dataOf some, hperm.filterMap _, hsublist.filterMap _⟩
  have hpayloads := (run_sublist opts crypto random actions).map Prod.fst
  rw [flatMap_returnedData] at hpayloads
  exact hpayloads.subperm.trans hdata

namespace Sample

/-- The last two pieces of data go out in one datagram. -/
def lastData : Bytes := serverThird.datagram ++ serverFourth.datagram

/-- The flights of the server, and data in three datagrams. -/
def serverLog : List (List DTLSCompressed) :=
  [[plainRecord .handshake 0 0 (handshake .helloVerifyRequest 0 [254, 253, 1, 5])],
    [plainRecord .handshake 0 1 (handshake .serverHello 1 serverHello),
      plainRecord .handshake 0 2 (handshake .serverHelloDone 2 [])],
    [plainRecord .changeCipherSpec 0 3 [1], serverFinish.packet],
    [serverFirst.packet], [serverSecond.packet],
    [serverThird.packet, serverFourth.packet]]

def sendingServer : RecordLayer :=
  { (RecordLayer.new.updateConnectionState 0 fun c => { c with entity := .server }).updateConnectionState
      1 fun _ => serverState with
    udpSocket := [verifyRequest, serverFlightAfterRequest, serverFinishedFlight,
      serverFirst.datagram, serverSecond.datagram, lastData] }

/-- The data arrives in the other order, some of it twice and some not at all. -/
def dataHeard : List Action :=
  cookieHandshake ++ [datagram lastData, .next, .next, datagram serverFirst.datagram, .next,
    datagram lastData]

/-- The server has sent the datagram, and both ends have the same keys for what the client lets through. -/
def overheard (r : RecordLayer × Operation) : Bool :=
  match r.2 with
  | .receive memory buf =>
      decide (buf ∈ sendingServer.udpSocket) && (r.1.admitted memory buf).all fun q =>
        (sendingServer.connState q.epoch).specify.isSome &&
          decide ((r.1.connState q.epoch).decipher =
            (sendingServer.connState q.epoch).specify.map Delegate.mirror)
  | _ => true

theorem overhears_of_overheard {r : RecordLayer × Operation} (h : overheard r = true) :
    Overhears ccm sendingServer r := by
  rcases r with ⟨rl, op⟩
  cases op with
  | receive memory buf =>
      unfold overheard at h
      rw [Bool.and_eq_true, List.all_eq_true] at h
      refine ⟨of_decide_eq_true h.1, fun q hq => ?_⟩
      have hkeys := h.2 q hq
      rw [Bool.and_eq_true] at hkeys
      rcases Option.isSome_iff_exists.mp hkeys.1 with ⟨d, hd⟩
      have hdecipher := of_decide_eq_true hkeys.2
      rw [hd] at hdecipher
      exact ⟨d, hd, fun keys _ => ccm_inverts _ keys, hdecipher⟩
  | _ => trivial

-- What the server has sent, and what the run comes to.
theorem dataHeard_evaluated :
    (∀ p ∈ serverLog.zip sendingServer.udpSocket,
      p.1.map (sendingServer.protect ccm) =
          (p.1.filterMap (sendingServer.protect ccm)).map some ∧
        p.2 = (p.1.filterMap (sendingServer.protect ccm)).flatMap DTLSCiphertext.serialize) ∧
      (∀ p ∈ serverLog.flatten, ∀ sent ∈ sendingServer.protect ccm p,
        (sent.type.toNat < 256 ∧ ContentType.ofNat sent.type.toNat = sent.type) ∧
          sent.epoch < 2 ^ 16 ∧ sent.sequenceNumber < 2 ^ 32 ∧ sent.fragment.length < 2 ^ 16) ∧
      (∀ t ∈ (client opts ccm random).trace dataHeard, ∀ r ∈ received t, overheard r = true) ∧
      (sessionRun dataHeard).payloads.map Prod.fst = [[0x2c], [0x2d], [0x2a]] := by
  decide +kernel

theorem server_writable : ∀ p ∈ serverLog.flatten, Writable ccm sendingServer p := by
  intro p hp sent hsent
  rcases dataHeard_evaluated.2.1 p hp sent (Option.mem_def.mpr hsent) with
    ⟨htype, hepoch, hnumber, hlength⟩
  exact ⟨htype, hepoch, hnumber, hlength⟩

theorem server_writes : List.Forall₂ (WrittenAs ccm sendingServer) serverLog
    sendingServer.udpSocket :=
  List.forall₂_iff_zip.mpr ⟨by decide, fun hp => ⟨_, dataHeard_evaluated.1 _ hp⟩⟩

end Sample

-- The three pieces of data that arrive, once each.
theorem client_emitsSentData_sample :
    (Sample.sessionRun Sample.dataHeard).payloads.map Prod.fst = [[0x2c], [0x2d], [0x2a]] ∧
      ((Sample.sessionRun Sample.dataHeard).payloads.map Prod.fst).Subperm
        (dataOf (Sample.serverLog.flatten.map asMessage)) :=
  ⟨Sample.dataHeard_evaluated.2.2.2, client_emitsSentData rfl Sample.random
    ⟨Sample.server_writes, Sample.server_writable, by decide⟩ Sample.dataHeard
    fun t ht r hr => Sample.overhears_of_overheard (Sample.dataHeard_evaluated.2.2.1 t ht r hr)⟩

/-! ## In order -/

namespace RecordLayer

variable {crypto : Crypto} {server rl rl' : RecordLayer}

/-- One message is sent that is no ChangeCipherSpec, or fails to be. -/
def SendsOne (crypto : Crypto) (rl rl' : RecordLayer) : Prop :=
  ∃ msg : Message, msg.type ≠ .changeCipherSpec ∧ finalState (RecordLayer.send crypto msg) rl = rl'

theorem along_sendsOne {msg : Message} (hmsg : msg.type ≠ .changeCipherSpec) :
    Along (SendsOne crypto) id (RecordLayer.send crypto msg) := fun _ =>
  ends_of_finalState (Relation.ReflTransGen.single ⟨msg, hmsg, rfl⟩)

/-- What `receive` looks at is the same. -/
structure ReadsAlike (rl rl' : RecordLayer) : Prop where
  readEpochNr : rl'.readEpochNr = rl.readEpochNr
  length : rl'.epochs.length = rl.epochs.length
  window : rl'.window = rl.window
  decipher : ∀ i, (rl'.connState i).decipher = (rl.connState i).decipher

theorem ReadsAlike.refl (rl : RecordLayer) : ReadsAlike rl rl := ⟨rfl, rfl, rfl, fun _ => rfl⟩

theorem ReadsAlike.trans {rl'' : RecordLayer} (h : ReadsAlike rl rl') (h' : ReadsAlike rl' rl'') :
    ReadsAlike rl rl'' where
  readEpochNr := h'.readEpochNr.trans h.readEpochNr
  length := h'.length.trans h.length
  window := h'.window.trans h.window
  decipher := fun i => (h'.decipher i).trans (h.decipher i)

theorem readsAlike_numbered (rl : RecordLayer) : ReadsAlike rl rl.numbered where
  readEpochNr := rfl
  length := updateEpoch_epochs_length rl rl.writeEpochNr _
  window := window_numbered rl
  decipher := fun i => by rw [connState_numbered]

theorem readsAlike_withCipher (rl : RecordLayer) (i : Nat) :
    ReadsAlike rl (updateConnectionState i .withCipher rl) where
  readEpochNr := rfl
  length := updateConnectionState_epochs_length rl i _
  window := window_withCipher rl i
  decipher := by
    intro j
    rcases connState_updateConnectionState_cases rl i j .withCipher with h | ⟨_, h⟩
    · rw [h]
    · rw [h]
      rfl

-- Sending does not change how records are read.
theorem SendsOne.readsAlike (h : SendsOne crypto rl rl') : ReadsAlike rl rl' := by
  rcases h with ⟨msg, hmsg, rfl⟩
  have hsend : Ends (RecordLayer.send crypto msg) rl (fun _ => ReadsAlike rl)
      (fun _ => ReadsAlike rl) := by
    unfold RecordLayer.send
    rw [ends_bind]
    apply (processOutgoingMessage_preserves (P := ReadsAlike rl)
      (fun rl1 h => h.trans (readsAlike_numbered rl1))
      (fun rl1 i h => h.trans (readsAlike_withCipher rl1 i)) crypto
      (fun hccs => absurd hccs hmsg) (.refl rl)).mono
    · intro buf rl1 h
      exact h.trans ⟨rfl, rfl, rfl, fun _ => rfl⟩
    · exact fun _ _ h => h
  exact hsend.finalState

theorem readsAlike_of_sends (h : Relation.ReflTransGen (SendsOne crypto) rl rl') : ReadsAlike rl rl' := by
  induction h with
  | refl => exact .refl rl
  | tail _ hstep ih => exact ih.trans hstep.readsAlike

theorem Follows.readsAlike {i next : Nat} (h : Follows crypto server rl i next)
    (halike : ReadsAlike rl rl') : Follows crypto server rl' i next where
  hears := by
    rcases h.hears with ⟨d, hspecify, hinverted, hdecipher⟩
    exact ⟨d, hspecify, hinverted, (halike.decipher i).trans hdecipher⟩
  current := by
    rw [halike.readEpochNr]
    exact h.current
  known := by
    rw [halike.length]
    exact h.known
  window := by
    rw [halike.window]
    exact h.window

end RecordLayer

theorem dataOf_applicationData {records : List DTLSCompressed}
    (hdata : ∀ p ∈ records, p.type = .applicationData) :
    dataOf (records.map asMessage) = records.map (·.fragment) := by
  induction records with
  | nil => rfl
  | cons p records ih =>
      rw [List.forall_mem_cons] at hdata
      rw [List.map_cons, List.map_cons, ← ih hdata.2]
      unfold dataOf
      rw [List.filterMap_cons, asMessage, if_pos hdata.1]

/-- The datagram that is received holds these records of the server. -/
def Brings (crypto : Crypto) (server : RecordLayer) (records : List DTLSCompressed)
    (r : RecordLayer × Operation) : Prop :=
  ∃ memory buf, r.2 = .receive memory buf ∧ WrittenAs crypto server records buf

/-- No number of a datagram is more than 64 ahead of the highest that was there before the datagram. -/
def Near : Nat → List (List Nat) → Prop
  | _, [] => True
  | ceiling, numbers :: delivered =>
      (∀ n ∈ numbers, n ≤ ceiling + 64) ∧ Near (numbers.foldl max ceiling) delivered

theorem Near.mono {ceiling ceiling' : Nat} {delivered : List (List Nat)} (h : Near ceiling delivered)
    (hle : ceiling ≤ ceiling') : Near ceiling' delivered := by
  induction delivered generalizing ceiling ceiling' with
  | nil => trivial
  | cons numbers delivered ih =>
      refine ⟨fun n hn => Nat.le_trans (h.1 n hn) (Nat.add_le_add_right hle 64), ih h.2 ?_⟩
      exact List.foldl_monotone (fun n _ _ hle => max_le_max_right n hle) numbers hle

/-- The records of each datagram that arrives: application data in epoch 1 with ascending numbers from `next`
on, none more than 64 ahead of what came before. -/
structure Streamed (crypto : Crypto) (server : RecordLayer) (next ceiling : Nat)
    (delivered : List (List DTLSCompressed)) : Prop where
  epoch : ∀ p ∈ delivered.flatten, p.epoch = 1
  data : ∀ p ∈ delivered.flatten, p.type = .applicationData
  writable : ∀ p ∈ delivered.flatten, Writable crypto server p
  numbers : ∀ p ∈ delivered.flatten, next ≤ p.sequenceNumber
  ascending : delivered.flatten.Pairwise fun p q => p.sequenceNumber < q.sequenceNumber
  near : Near ceiling (delivered.map fun records => records.map (·.sequenceNumber))

-- A number behind some and not behind the others.
theorem exists_next {numbers later : List Nat} {next : Nat} (hlater : ∀ m ∈ later, next ≤ m)
    (hbelow : ∀ n ∈ numbers, ∀ m ∈ later, n < m) :
    ∃ next', next ≤ next' ∧ (∀ n ∈ numbers, n < next') ∧ ∀ m ∈ later, next' ≤ m := by
  induction numbers with
  | nil => exact ⟨next, Nat.le_refl next, fun _ hn => absurd hn List.not_mem_nil, hlater⟩
  | cons n numbers ih =>
      rw [List.forall_mem_cons] at hbelow
      rcases ih hbelow.2 with ⟨next', hle, hnumbers, hnext'⟩
      refine ⟨max (n + 1) next', Nat.le_trans hle (Nat.le_max_right _ _), ?_, ?_⟩
      · rw [List.forall_mem_cons]
        exact ⟨Nat.le_max_left _ _, fun m hm => Nat.lt_of_lt_of_le (hnumbers m hm) (Nat.le_max_right _ _)⟩
      · exact fun m hm => max_le (hbelow.1 m hm) (hnext' m hm)

theorem Streamed.tail {crypto : Crypto} {server : RecordLayer} {next ceiling : Nat}
    {records : List DTLSCompressed} {delivered : List (List DTLSCompressed)}
    (h : Streamed crypto server next ceiling (records :: delivered)) :
    ∃ next', next ≤ next' ∧ (∀ p ∈ records, p.sequenceNumber < next') ∧
      Streamed crypto server next' ((records.map (·.sequenceNumber)).foldl max ceiling) delivered := by
  rcases h with ⟨hepoch, hdata, hwritable, hnumbers, hascending, hnear⟩
  rw [List.flatten_cons, List.forall_mem_append] at hepoch hdata hwritable hnumbers
  rw [List.flatten_cons, List.pairwise_append] at hascending
  rcases exists_next (List.forall_mem_map.mpr hnumbers.2)
    (List.forall_mem_map.mpr fun p hp => List.forall_mem_map.mpr fun q hq => hascending.2.2 p hp q hq)
    with ⟨next', hle, hbelow, hlater⟩
  exact ⟨next', hle, List.forall_mem_map.mp hbelow, hepoch.2, hdata.2, hwritable.2,
    List.forall_mem_map.mp hlater, hascending.2.1, hnear.2⟩

theorem map_deliveries (messageMemory : Nat → MessageMemory) (rinfo : RemoteInfo)
    (messages : List Message) :
    (Config.deliveries messageMemory rinfo messages).map (·.msg) = messages := by
  unfold Config.deliveries
  rw [List.map_map]
  exact List.zipIdx_map_fst 0 messages

/-- A client whose handshake is done and that waits for the numbers from `next` on. -/
structure Listens (crypto : Crypto) (server : RecordLayer) (c : Config) (next : Nat) : Prop where
  inv : ClientInv crypto c.socket
  finished : c.socket.handshakeFinished = true
  pending : ∀ d ∈ c.pending, d.msg.type = .applicationData
  follows : Follows crypto server c.recordLayer 1 next

namespace Listens

variable {opts : Options} {crypto : Crypto} {server : RecordLayer} {c : Config} {a : Action} {next : Nat}

theorem payloads_eq (h : Listens crypto server c next) :
    c.payloads = c.socket.emitted ++ c.pendingPayloads := by
  unfold Config.payloads Socket.payloads
  rw [h.inv.buffered h.finished, List.map_nil, List.append_nil]
  rfl

-- Application data is only emitted, which leaves the record layer alone.
theorem handleNext_recordLayer (h : Listens crypto server c next) :
    (c.handleNext opts crypto).recordLayer = c.recordLayer := by
  have hpending := h.pending
  unfold Config.handleNext
  cases hcons : c.pending with
  | nil => rfl
  | cons d pending =>
      rw [hcons, List.forall_mem_cons] at hpending
      have hok : Socket.handleMessage opts crypto d.memory d.msg d.rinfo c.socket =
          .ok () (c.socket.deliver d.msg d.rinfo) := by
        unfold Socket.handleMessage
        rw [hpending.1]
        rfl
      simp only [hok]
      show (c.socket.deliver d.msg d.rinfo).recordLayer = c.socket.recordLayer
      unfold Socket.recordLayer
      rw [(Socket.deliver_handler d.msg d.rinfo c.socket).1]

theorem not_losesData (h : Listens crypto server c next) : ¬LosesData (c, a) := by
  rintro ⟨_, d, pending, hcons, hthrows, _⟩
  have hcons : c.pending = d :: pending := hcons
  have hdata : d.msg.type = .applicationData := h.pending d (hcons ▸ List.mem_cons_self)
  apply hthrows
  unfold Digestible
  rw [hdata]
  trivial

/-- Whatever else happens: the client listens on, and nothing is added to the payloads. -/
theorem quiet (opts : Options) (h : Listens crypto server c next) (ha : received (c, a) = none) :
    Listens crypto server (step opts crypto c a) next ∧
      (step opts crypto c a).recordLayer.window = c.recordLayer.window ∧
      (step opts crypto c a).payloads = c.payloads := by
  have halike : ReadsAlike c.recordLayer (step opts crypto c a).recordLayer := by
    apply readsAlike_of_sends
    apply step_along crypto (fun msg hmsg => along_sendsOne hmsg) _ ha
    rw [h.handleNext_recordLayer]
  have hpayloads : (step opts crypto c a).payloads = c.payloads := by
    rcases step_payloads opts a h.inv with ⟨_, heq⟩ | ⟨hloses, _⟩
    · have hnone := returnedData_eq crypto (c, a)
      rw [ha] at hnone
      rw [heq, List.map_eq_nil_iff.mp hnone, List.append_nil]
    · exact absurd hloses h.not_losesData
  have hsocket : (step opts crypto c a).socket.handshakeFinished = true ∧
      ∀ d ∈ (step opts crypto c a).pending, d.msg.type = .applicationData := by
    have hpending := h.pending
    cases step_cases opts h.inv a with
    | receives memory messageMemory udpMsg rinfo haction htakes _ =>
        rw [haction, received_takes htakes] at ha
        cases ha
    | switches d pending _ hcons hmsg _ =>
        rw [hcons, List.forall_mem_cons, hmsg] at hpending
        cases hpending.1
    | delivers d pending _ hcons _ hnext =>
        rw [hcons, List.forall_mem_cons] at hpending
        rw [hnext]
        exact ⟨(Socket.deliver_handler d.msg d.rinfo c.socket).2.trans h.finished, hpending.2⟩
    | finishes d fragment _ hcons hmsg _ _ =>
        rw [hcons, List.forall_mem_cons, hmsg] at hpending
        cases hpending.1
    | moves hmoves hsublist =>
        exact ⟨hmoves.handshakeFinished.trans h.finished, fun d hd => hpending d (hsublist.subset hd)⟩
  exact ⟨⟨step_inv opts h.inv a, hsocket.1, hsocket.2, h.follows.readsAlike halike⟩, halike.window,
    hpayloads⟩

/-- A datagram whose records are not too far ahead: their data is added to the payloads. -/
theorem takes (opts : Options) (h : Listens crypto server c next) {records : List DTLSCompressed}
    {r : RecordLayer × Operation} (ha : received (c, a) = some r)
    (hbrings : Brings crypto server records r) {delivered : List (List DTLSCompressed)}
    (hstream : Streamed crypto server next (c.recordLayer.window 1).ceiling (records :: delivered)) :
    ∃ next', Listens crypto server (step opts crypto c a) next' ∧
      Streamed crypto server next' ((step opts crypto c a).recordLayer.window 1).ceiling delivered ∧
      (step opts crypto c a).payloads.map Prod.fst =
        c.payloads.map Prod.fst ++ records.map (·.fragment) := by
  rcases received_some ha with ⟨memory, messageMemory, udpMsg, rinfo, rfl, htakes, rfl⟩
  rcases hbrings with ⟨_, buf, hop, hwritten⟩
  cases hop
  have hmem : ∀ p ∈ records, p ∈ (records :: delivered).flatten :=
    fun p hp => List.mem_append_left _ hp
  have hdata : ∀ p ∈ records, p.type = .applicationData := fun p hp => hstream.data p (hmem p hp)
  rcases hstream.tail with ⟨next', hle, hbelow, htail⟩
  rcases h.follows.receive next' memory hwritten
    (fun p hp => ⟨hstream.epoch p (hmem p hp), hstream.writable p (hmem p hp)⟩)
    (fun p hp => ⟨hstream.numbers p (hmem p hp), hstream.near.1 _ (List.mem_map_of_mem hp)⟩)
    hle hbelow with ⟨hmessages, hnext, hceiling⟩
  have hstep : step opts crypto c (.datagram memory messageMemory udpMsg rinfo) =
      ⟨c.socket.setRecordLayer (c.recordLayer.receive crypto memory udpMsg).2,
        Config.deliveries messageMemory rinfo (records.map asMessage)⟩ := by
    show c.receiveDatagram crypto memory messageMemory udpMsg rinfo = _
    unfold Config.receiveDatagram
    rw [if_pos htakes]
    simp only
    rw [hmessages]
  refine ⟨next', ⟨step_inv opts h.inv _, ?_, ?_, ?_⟩, ?_, ?_⟩
  · rw [hstep]
    exact h.finished
  · rw [hstep]
    intro d hd
    have hmsg : d.msg ∈ records.map asMessage := by
      rw [← map_deliveries messageMemory rinfo (records.map asMessage)]
      exact List.mem_map_of_mem hd
    rcases List.mem_map.mp hmsg with ⟨p, hp, heq⟩
    rw [← heq]
    exact hdata p hp
  · rw [hstep]
    exact hnext
  · rw [hstep]
    show Streamed crypto server next' ((c.recordLayer.receive crypto memory udpMsg).2.window 1).ceiling _
    rw [hceiling]
    exact htail
  · have hadded : (step opts crypto c
        (.datagram memory messageMemory udpMsg rinfo)).payloads = c.payloads ++
          returnedData crypto (c, .datagram memory messageMemory udpMsg rinfo) :=
      receiveDatagram_payloads memory messageMemory udpMsg rinfo
    rw [hadded, List.map_append, returnedData_eq, received_takes htakes, Option.toList_some,
      List.flatMap_singleton]
    show _ ++ dataOf (c.recordLayer.receive crypto memory udpMsg).1 = _
    rw [hmessages, dataOf_applicationData hdata]

-- From one datagram to all of them.
theorem run (opts : Options) (random : Random) {later : List Action}
    {delivered : List (List DTLSCompressed)}
    (h : Listens crypto server c next)
    (hstream : Streamed crypto server next (c.recordLayer.window 1).ceiling delivered)
    (harrive : List.Forall₂ (Brings crypto server) delivered
      (((client opts crypto random).traceFrom c later).filterMap received)) :
    (∃ last, Listens crypto server (later.foldl (step opts crypto) c) last) ∧
      (later.foldl (step opts crypto) c).payloads.map Prod.fst =
        c.payloads.map Prod.fst ++ delivered.flatten.map (·.fragment) := by
  induction later generalizing c next delivered with
  | nil =>
      cases harrive
      exact ⟨⟨next, h⟩, (List.append_nil _).symm⟩
  | cons a later ih =>
      rw [Machine.traceFrom] at harrive
      cases ha : received (c, a) with
      | none =>
          rw [List.filterMap_cons_none ha] at harrive
          rcases h.quiet opts ha with ⟨hnext, hwindow, hpayloads⟩
          rw [← hwindow] at hstream
          rw [← hpayloads]
          exact ih hnext hstream harrive
      | some r =>
          rw [List.filterMap_cons_some ha] at harrive
          cases harrive with
          | cons hfirst hrest =>
              rcases h.takes opts ha hfirst hstream with ⟨next', hnext, htail, hpayloads⟩
              rcases ih hnext htail hrest with ⟨hlast, heq⟩
              refine ⟨hlast, ?_⟩
              rw [List.foldl_cons, heq, hpayloads, List.flatten_cons, List.map_append,
                List.append_assoc]

end Listens

/-- Once the handshake is done, the application gets the data of the server in the order it was sent and
each piece once, whatever is lost, as long as the datagrams come in order and no record is more than 64
numbers ahead.  What the client does in between does not matter. -/
theorem client_emitsInOrder (opts : Options) {crypto : Crypto} (random : Random)
    (actions later : List Action) {server : RecordLayer} {next : Nat}
    {delivered : List (List DTLSCompressed)}
    (hfinished : ((client opts crypto random).run actions).socket.handshakeFinished = true)
    (hpending : ∀ d ∈ ((client opts crypto random).run actions).pending, d.msg.type = .applicationData)
    (hfollows : Follows crypto server ((client opts crypto random).run actions).recordLayer 1 next)
    (hstream : Streamed crypto server next
      (((client opts crypto random).run actions).recordLayer.window 1).ceiling delivered)
    (harrive : List.Forall₂ (Brings crypto server) delivered
      (((client opts crypto random).traceFrom ((client opts crypto random).run actions)
        later).filterMap received)) :
    let c := (client opts crypto random).run actions
    let c' := (client opts crypto random).run (actions ++ later)
    (c'.socket.emitted ++ c'.pendingPayloads).map Prod.fst =
      (c.socket.emitted ++ c.pendingPayloads).map Prod.fst ++ delivered.flatten.map (·.fragment) := by
  intro c c'
  have hrun : c' = later.foldl (step opts crypto) c := List.foldl_append
  have hlistens : Listens crypto server c next :=
    ⟨run_inv opts crypto random actions, hfinished, hpending, hfollows⟩
  rcases hlistens.run opts random hstream harrive with ⟨⟨last, hlast⟩, hpayloads⟩
  rw [← hrun] at hlast hpayloads
  rw [← hlistens.payloads_eq, ← hlast.payloads_eq]
  exact hpayloads

namespace Sample

/-- The data arrives in order, one piece of it not at all. -/
def heardInOrder : List Action :=
  [datagram serverFirst.datagram, .next, datagram lastData, .next, .next]

-- What the client has come to after the handshake.
theorem handshake_heard :
    (sessionRun cookieHandshake).socket.handshakeFinished = true ∧
      (sessionRun cookieHandshake).takesDatagram = true ∧
      (sessionRun cookieHandshake).pending.isEmpty = true ∧
      ((sessionRun cookieHandshake).recordLayer.connState 1).decipher = some sessionDelegate ∧
      (sessionRun cookieHandshake).recordLayer.readEpochNr ≤ 1 ∧
      1 < (sessionRun cookieHandshake).recordLayer.epochs.length ∧
      (sessionRun cookieHandshake).recordLayer.window 1 = AntiReplayWindow.reset.markAsReceived 0 ∧
      ((sessionRun cookieHandshake).socket.emitted ++ (sessionRun cookieHandshake).pendingPayloads).map
        Prod.fst = [] ∧
      ((heardInOrder.take 2).foldl (step opts ccm) (sessionRun cookieHandshake)).takesDatagram =
        true := by
  decide +kernel

theorem handshake_follows : Follows ccm sendingServer (sessionRun cookieHandshake).recordLayer 1 1 where
  hears := ⟨sessionDelegate.mirror, rfl, fun keys _ => ccm_inverts _ keys, handshake_heard.2.2.2.1⟩
  current := handshake_heard.2.2.2.2.1
  known := handshake_heard.2.2.2.2.2.1
  window := by
    rw [handshake_heard.2.2.2.2.2.2.1]
    exact AntiReplayWindow.Ascending.reset.markAsReceived 0

/-- The records of the two datagrams that arrive. -/
def heardRecords : List (List DTLSCompressed) :=
  [[serverFirst.packet], [serverThird.packet, serverFourth.packet]]

theorem heardRecords_streamed :
    Streamed ccm sendingServer 1 AntiReplayWindow.reset.ceiling heardRecords where
  epoch := by decide
  data := by decide
  writable p hp := server_writable p (by revert p; decide)
  numbers := by decide
  ascending := by decide
  near := ⟨by decide, by decide, trivial⟩

theorem heardRecords_arrive {c : Config} (hfirst : c.takesDatagram = true)
    (hsecond : ((heardInOrder.take 2).foldl (step opts ccm) c).takesDatagram = true) :
    List.Forall₂ (Brings ccm sendingServer) heardRecords
      (((client opts ccm random).traceFrom c heardInOrder).filterMap received) := by
  show List.Forall₂ _ _ (List.filterMap received [(c, datagram serverFirst.datagram),
    (_, .next), ((heardInOrder.take 2).foldl (step opts ccm) c, datagram lastData), (_, .next),
    (_, .next)])
  unfold datagram
  rw [List.filterMap_cons_some (received_takes hfirst), List.filterMap_cons_none rfl,
    List.filterMap_cons_some (received_takes hsecond), List.filterMap_cons_none rfl,
    List.filterMap_cons_none rfl, List.filterMap_nil]
  exact .cons ⟨_, _, rfl, _, dataHeard_evaluated.1 _ (List.mem_of_getElem? (i := 3) rfl)⟩
    (.cons ⟨_, _, rfl, _, dataHeard_evaluated.1 _ (List.mem_of_getElem? (i := 5) rfl)⟩ .nil)

end Sample

-- The piece that is lost is missing.
theorem client_emitsInOrder_sample :
    ((Sample.sessionRun (Sample.cookieHandshake ++ Sample.heardInOrder)).socket.emitted ++
      (Sample.sessionRun (Sample.cookieHandshake ++ Sample.heardInOrder)).pendingPayloads).map Prod.fst =
      [[0x2a], [0x2c], [0x2d]] := by
  have hheard := Sample.handshake_heard
  have hfollows := Sample.handshake_follows
  unfold Sample.sessionRun at hheard hfollows ⊢
  rcases hheard with ⟨hfinished, hfirst, hempty, _, _, _, hwindow, hbefore, hsecond⟩
  have hpending : ∀ d ∈ ((client Sample.opts Sample.ccm Sample.random).run
      Sample.cookieHandshake).pending, d.msg.type = .applicationData := by
    rw [List.isEmpty_iff.mp hempty]
    exact fun _ hd => absurd hd List.not_mem_nil
  have hstream : Streamed Sample.ccm Sample.sendingServer 1
      (((client Sample.opts Sample.ccm Sample.random).run
        Sample.cookieHandshake).recordLayer.window 1).ceiling Sample.heardRecords := by
    rw [hwindow]
    exact Sample.heardRecords_streamed
  have h := client_emitsInOrder Sample.opts Sample.random Sample.cookieHandshake
    Sample.heardInOrder hfinished hpending hfollows hstream
    (Sample.heardRecords_arrive hfirst hsecond)
  simp only [hbefore] at h
  exact h

end DtlsClient
