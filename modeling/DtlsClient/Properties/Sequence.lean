import DtlsClient.Properties.Transcript

/-!
# The sequence of the handled messages

Whatever arrives, and in whatever order, the flights that are handled follow each other by their
sequence numbers.  `Processed count` says of a handler that the messages before number `count` have
been handled.
-/

open Library

namespace DtlsClient

namespace ClientHandshakeHandler

variable {opts : Options} {crypto : Crypto} {h : ClientHandshakeHandler}

/-- The messages that are passed to the handlers of the flights, first to last. -/
def handledMessages (opts : Options) (crypto : Crypto) (h : ClientHandshakeHandler)
    (inputs : List Input) : List Handshake := (h.flights opts crypto inputs).flatMap Prod.fst

-- The messages of the flight that an input completes.
def handledBy (h : ClientHandshakeHandler) (input : Input) : List Handshake :=
  (h.flightOf input).toList.flatMap Prod.fst

theorem handledBy_none {input : Input} (hnone : h.flightOf input = none) : h.handledBy input = [] := by
  rw [handledBy, hnone]
  rfl

theorem handledBy_some {input : Input} {messages : List Handshake} {lastMsg : Handshake}
    (hflight : h.flightOf input = some (messages, lastMsg)) : h.handledBy input = messages := by
  rw [handledBy, hflight]
  exact List.append_nil messages

theorem handledMessages_cons (input : Input) (inputs : List Input) :
    h.handledMessages opts crypto (input :: inputs) =
      h.handledBy input ++ (h.take opts crypto input).handledMessages opts crypto inputs :=
  List.flatMap_append

/-! ## One input -/

structure Processed (count : Nat) (h : ClientHandshakeHandler) : Prop where
  numbersMatch : h.NumbersMatch
  lastProcessedSeqNum : h.lastProcessedSeqNum = count - 1

variable {count : Nat}

/-- The messages of a flight are the next ones. -/
theorem Processed.flight_numbers (hprocessed : Processed count h) {memory : MessageMemory}
    {msg : FragmentedHandshake} {messages : List Handshake} {lastMsg : Handshake}
    (hflight : h.flightOf (.message memory msg) = some (messages, lastMsg)) :
    messages.map (·.messageSeq) = List.range' count messages.length ∧
      (lastMsg.messageSeq : Int) = (count + messages.length : Nat) - 1 := by
  rcases flightOf_some hflight with ⟨h1, hstored, hcomplete, _⟩
  have hmatch : h1.NumbersMatch := stored_of_ok hstored ▸ hprocessed.numbersMatch.kept memory msg
  have hsame : h1.lastProcessedSeqNum = h.lastProcessedSeqNum :=
    stored_of_ok hstored ▸ (h.stored_spec memory msg).lastProcessedSeqNum
  have hlast := completeFlight_getLast hcomplete
  rcases completeFlight_eq_some.mp hcomplete with ⟨hgap, rfl, _, _⟩
  have hnext : h1.lastProcessedSeqNum + 1 = count := by
    rw [hsame, hprocessed.lastProcessedSeqNum, Int.sub_add_cancel]
  rcases (uninterrupted_iff hnext).mp hgap with ⟨length, hkeys⟩
  have hnumbers : h1.completeMessages.values.map (·.messageSeq) = List.range' count length :=
    hmatch.values.trans hkeys
  have hlength : h1.completeMessages.values.length = length := by
    rw [← List.length_map, hnumbers, List.length_range']
  rw [hlength]
  refine ⟨hnumbers, ?_⟩
  have hlastNumber : (List.range' count length).getLast? = some lastMsg.messageSeq := by
    rw [← hnumbers, List.getLast?_map, hlast]
    rfl
  rw [List.getLast?_range'] at hlastNumber
  split at hlastNumber
  · cases hlastNumber
  · have heq := Option.some.inj hlastNumber
    omega

-- The handler of a flight leaves nothing behind of what was stored.
theorem take_emptied (opts : Options) (crypto : Crypto) {memory : MessageMemory}
    {msg : FragmentedHandshake} {messages : List Handshake} {lastMsg : Handshake}
    (hflight : h.flightOf (.message memory msg) = some (messages, lastMsg)) :
    (h.take opts crypto (.message memory msg)).completeMessages = .empty ∧
      (h.take opts crypto (.message memory msg)).lastProcessedSeqNum = lastMsg.messageSeq := by
  rcases flightOf_some hflight with ⟨h1, hstored, hcomplete, _⟩
  rw [take_message, hstored]
  simp only [proceed, hcomplete]
  rw [finalState_handleFlight]
  exact ⟨rfl, rfl⟩

/-- Any input keeps the count of the handled messages. -/
theorem Processed.take (hprocessed : Processed count h) (opts : Options) (crypto : Crypto)
    (input : Input) :
    (h.handledBy input).map (·.messageSeq) = List.range' count (h.handledBy input).length ∧
      Processed (count + (h.handledBy input).length) (h.take opts crypto input) := by
  cases input with
  | recordLayer f => exact ⟨rfl, hprocessed.numbersMatch, hprocessed.lastProcessedSeqNum⟩
  | message memory msg =>
      cases hflight : h.flightOf (.message memory msg) with
      | none =>
          rw [handledBy_none hflight, take_of_none hflight]
          exact ⟨rfl, hprocessed.numbersMatch.kept memory msg,
            (h.stored_spec memory msg).lastProcessedSeqNum.trans hprocessed.lastProcessedSeqNum⟩
      | some flight =>
          rcases flight with ⟨messages, lastMsg⟩
          rcases hprocessed.flight_numbers hflight with ⟨hnumbers, hlast⟩
          rcases take_emptied opts crypto hflight with ⟨hempty, hseq⟩
          rw [handledBy_some hflight]
          refine ⟨hnumbers, ?_, hseq.trans hlast⟩
          -- nothing is stored that could have the wrong number
          intro e he
          rw [hempty] at he
          cases he

/-! ## Any inputs -/

theorem Processed.takeAll (hprocessed : Processed count h) (opts : Options) (crypto : Crypto)
    (inputs : List Input) :
    (h.handledMessages opts crypto inputs).map (·.messageSeq) =
        List.range' count (h.handledMessages opts crypto inputs).length ∧
      Processed (count + (h.handledMessages opts crypto inputs).length)
        (h.takeAll opts crypto inputs) := by
  induction inputs generalizing h count with
  | nil => exact ⟨rfl, hprocessed⟩
  | cons input inputs ih =>
      rcases hprocessed.take opts crypto input with ⟨hnumbers, hnext⟩
      rcases ih hnext with ⟨hrest, hall⟩
      rw [handledMessages_cons, List.map_append, List.length_append, hnumbers, hrest]
      rw [Nat.add_assoc] at hall
      exact ⟨List.range'_append_1, hall⟩

-- Sending the ClientHello does not touch what was reset.
theorem renegotiate_processed (opts : Options) (crypto : Crypto) (random : Random)
    (h : ClientHandshakeHandler) :
    Processed 0 (finalState (renegotiate opts crypto random) h.resetVariables) := by
  apply Ends.finalState (P := Processed 0)
  unfold renegotiate callFlight
  rw [ends_onPart]
  have hreset : ∀ f, Processed 0 { h.resetVariables with toFlightState := f } := by
    intro f
    constructor
    · intro e he
      cases he
    · rfl
  exact ends_of_forall _ _ (fun _ f => hreset f) fun _ f => hreset f

/-- From `renegotiate` on, the messages that the flight handlers are called with have the sequence
numbers 0, 1, 2 and so on, without a gap and none of them twice.  The handler remembers the last of
these numbers, and calls a flight handler only for a flight whose last message is of a type that is
expected when it does. -/
theorem handled_gapFree (opts : Options) (crypto : Crypto) (random : Random)
    (h : ClientHandshakeHandler) (inputs : List Input) :
    let start := finalState (renegotiate opts crypto random) h.resetVariables
    let handled := start.handledMessages opts crypto inputs
    handled.map (·.messageSeq) = List.range handled.length ∧
      (start.takeAll opts crypto inputs).lastProcessedSeqNum = handled.length - 1 ∧
      ∀ memory msg messages lastMsg,
        (start.takeAll opts crypto inputs).flightOf (.message memory msg) =
            some (messages, lastMsg) →
          messages.getLast? = some lastMsg ∧
          ∃ expected, (start.takeAll opts crypto inputs).expectedResponses = some expected ∧
            lastMsg.msgType ∈ expected := by
  intro start handled
  rcases (renegotiate_processed opts crypto random h).takeAll opts crypto inputs with
    ⟨hnumbers, hprocessed⟩
  refine ⟨?_, ?_, ?_⟩
  · rw [List.range_eq_range']
    exact hnumbers
  · rw [hprocessed.lastProcessedSeqNum, Nat.zero_add]
  · intro memory msg messages lastMsg hflight
    rcases flightOf_expected hflight with ⟨expected, hexpected, hmem, hlast⟩
    exact ⟨hlast, expected, hexpected, hmem⟩

-- The ServerHelloDone comes too early, and once more when it has been handled.
example :
    ((finalState (renegotiate Sample.opts Sample.crypto Sample.random) (reset .new)).handledMessages
      Sample.opts Sample.crypto
      ([⟨.helloVerifyRequest, 4, 0, 0, [254, 253, 1, 5]⟩, emptyMessage .serverHelloDone 2,
        ⟨.serverHello, Sample.serverHello.length, 1, 0, Sample.serverHello⟩,
        emptyMessage .serverHelloDone 2].map fun msg => .message (Sample.memory 0) msg)).map
        (·.messageSeq) = [0, 1, 2] := by decide +kernel

end ClientHandshakeHandler

end DtlsClient
