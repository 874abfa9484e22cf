import DtlsClient.Properties.Serializing
import DtlsClient.Properties.ServerFlight

/-!
# What the client's Finished message hashes

A message is hashed or not by what it looks like when it is sent or received.  A ClientHello without
a cookie is left out, whether a HelloVerifyRequest answers it or a ServerHello.
-/

open Library

namespace DtlsClient

open FlightState

/-- The messages as they go into the hash when none is left out. -/
def transcriptOf (messages : List Handshake) : List Bytes :=
  messages.map fun m => m.toFragment.serialize

/-- Those of them that are hashed. -/
def hashedOf (messages : List Handshake) : List Bytes :=
  transcriptOf (messages.filter needsToHashMessage)

theorem hashedOf_cons (m : Handshake) (messages : List Handshake) :
    hashedOf (m :: messages) = hashedOf [m] ++ hashedOf messages := by
  unfold hashedOf transcriptOf
  rw [← List.map_append, ← List.filter_append, List.singleton_append]

-- Even a message without a body has a header.
theorem Handshake.serialize_ne_nil (m : Handshake) : m.toFragment.serialize ≠ [] := by
  apply List.ne_nil_of_length_pos
  rw [FragmentedHandshake.serialize_length]
  have hpos : 0 < FragmentedHandshake.headerLength := by decide
  omega

/-- Nothing is left out of the hash in front of a last message if and only if every message there is
one that is hashed. -/
theorem hashedOf_eq_iff {messages : List Handshake} (last : Handshake) :
    (hashedOf messages ++ [last.toFragment.serialize]).flatten =
        (transcriptOf (messages ++ [last])).flatten ↔
      ∀ m ∈ messages, needsToHashMessage m = true := by
  have hwhole : (transcriptOf (messages ++ [last])).flatten =
      (transcriptOf messages).flatten ++ last.toFragment.serialize := by
    unfold transcriptOf
    rw [List.map_append, List.flatten_append, List.map_singleton, List.flatten_singleton]
  rw [List.flatten_append, List.flatten_singleton, hwhole, List.append_cancel_right_eq]
  exact flatten_filter_eq_iff Handshake.serialize_ne_nil

/-! ## The ClientHello in the transcript -/

theorem beforeFlight_allHandshakeData {messages : List Handshake} {lastMsg : Handshake}
    {f : FlightState} (htype : lastMsg.msgType ≠ .finished) :
    (ClientHandshakeHandler.beforeFlight messages lastMsg f).allHandshakeData =
      f.allHandshakeData ++ hashedOf messages := by
  unfold ClientHandshakeHandler.beforeFlight
  rw [if_neg htype]
  rfl

/-- While a ServerHelloDone is expected, the transcript consists of the last ClientHello, if that is
hashed; it is empty while a HelloVerifyRequest may still come. -/
def HelloHashed (st : Standing) : Prop :=
  ∀ expected, st.expectedResponses = some expected → .serverHelloDone ∈ expected →
    ∃ hello, st.lastFlight = [hello] ∧ hello.msgType = .clientHello ∧
      st.allHandshakeData = hashedOf [hello] ∧
      (.helloVerifyRequest ∈ expected → hashedOf [hello] = [])

/-- A flight that ends with a HelloVerifyRequest has no message that is hashed. -/
def Config.requestsOnly (t : Config × Action) : Bool :=
  (t.1.flight t.2).all fun flight =>
    flight.2.msgType ≠ .helloVerifyRequest || flight.1.all fun m => !needsToHashMessage m

theorem HelloHashed.initial (opts : Options) (random : Random) :
    HelloHashed (Standing.initial opts random) := by
  intro expected hexpected hmem
  exact ⟨⟨0, .clientHello (ClientHandshakeHandler.clientHello opts random)⟩, rfl, rfl, rfl,
    fun _ => rfl⟩

theorem HelloHashed.withHello {st : Standing} {hello : Handshake}
    (htype : hello.msgType = .clientHello) (hdata : st.allHandshakeData = []) :
    HelloHashed (FlightState.withHello st hello [.serverHelloDone]) := by
  intro expected hexpected _
  have hexpected : some [HandshakeType.serverHelloDone] = some expected := hexpected
  refine ⟨hello, rfl, htype, ?_, ?_⟩
  · show st.allHandshakeData ++ _ = _
    rw [hdata]
    unfold hashedOf transcriptOf
    by_cases hhash : needsToHashMessage hello = true
    · rw [if_pos hhash, List.filter_cons_of_pos hhash]
      rfl
    · rw [if_neg hhash, List.filter_cons_of_neg hhash]
      rfl
  · intro hagain
    rw [← Option.some.inj hexpected] at hagain
    cases List.mem_singleton.mp hagain

theorem HelloHashed.nothingExpected {st : Standing} (hnone : st.expectedResponses = none) :
    HelloHashed st := by
  intro expected hexpected
  rw [hnone] at hexpected
  cases hexpected

-- A HelloVerifyRequest is only expected together with a ServerHelloDone.
theorem HelloHashed.beforeRequest {crypto : Crypto} {c : Config} {expected : List HandshakeType}
    (hinv : ClientInv crypto c.socket) (h : HelloHashed c.socket.standing)
    (hexpected : c.socket.handshakeHandler.expectedResponses = some expected)
    (hmem : .helloVerifyRequest ∈ expected) :
    c.socket.handshakeHandler.allHandshakeData = [] := by
  have hdone : .serverHelloDone ∈ expected := by
    have hawaits := hinv.flight.awaits
    rw [hexpected] at hawaits
    cases hawaits with
    | hello _ _ _ _ _ => exact List.mem_cons_self
    | cookie _ _ => cases List.mem_singleton.mp hmem
    | finished _ _ => cases List.mem_singleton.mp hmem
  rcases h expected hexpected hdone with ⟨hello, _, _, hdata, hnone⟩
  exact hdata.trans (hnone hmem)

theorem step_helloHashed (opts : Options) {crypto : Crypto} {c : Config} {a : Action}
    (hinv : ClientInv crypto c.socket) (h : HelloHashed c.socket.standing)
    (hrequests : Config.requestsOnly (c, a) = true) :
    HelloHashed (step opts crypto c a).socket.standing := by
  rcases step_advances opts a hinv with
    ⟨_, hsame⟩ | ⟨messages, lastMsg, f, hflight, _, hstanding, hadvances⟩
  · rw [hsame]
    exact h
  · rw [hstanding]
    cases hadvances with
    | cookie seq seq' request hello hlast hlastFlight hwrite hcookie =>
        have htype : lastMsg.msgType = .helloVerifyRequest := by rw [Handshake.msgType, hlast]; rfl
        rcases Config.flight_expected hflight with ⟨expected, hexpected, hmem, _⟩
        rw [htype] at hmem
        have hfilter : messages.filter needsToHashMessage = [] := by
          rw [Config.requestsOnly, hflight, Option.all_some, htype] at hrequests
          rw [List.filter_eq_nil_iff]
          intro m hm
          have hnot := List.all_eq_true.mp hrequests m hm
          rw [Bool.not_eq_true'] at hnot
          rw [hnot]
          exact Bool.false_ne_true
        rw [hcookie]
        apply HelloHashed.withHello rfl
        show (ClientHandshakeHandler.beforeFlight messages lastMsg
          c.socket.handshakeHandler.toFlightState).allHandshakeData = []
        rw [beforeFlight_allHandshakeData (by rw [htype]; decide), hashedOf, hfilter]
        exact (List.append_nil _).trans (h.beforeRequest hinv hexpected hmem)
    | answer hlast hwrite houtcome hreports =>
        cases houtcome with
        | negotiated selected hselected hnegotiated =>
            intro expected hexpected hmem
            have hexpected : f.expectedResponses = some expected := hexpected
            rw [hnegotiated.expectedResponses] at hexpected
            rw [← Option.some.inj hexpected, List.mem_singleton] at hmem
            cases hmem
        | gaveUp hgave => exact .nothingExpected hgave.expectedResponses
    | finish hlast hwrite hnone hsame => exact .nothingExpected hnone

theorem run_helloHashed (opts : Options) (crypto : Crypto) (random : Random)
    {actions : List Action}
    (hrequests : ∀ t ∈ (client opts crypto random).trace actions, Config.requestsOnly t = true) :
    HelloHashed ((client opts crypto random).run actions).socket.standing := by
  have hboth := (client opts crypto random).invariant_of_trace
    (P := fun c => ClientInv crypto c.socket ∧ HelloHashed c.socket.standing)
    (C := fun t => Config.requestsOnly t = true) ?_ ?_ hrequests
  · exact hboth.2
  · refine ⟨run_inv opts crypto random [], ?_⟩
    rw [client_standing]
    exact .initial opts random
  · intro c a h hrequest
    exact ⟨step_inv opts h.1 a, step_helloHashed opts h.1 h.2 hrequest⟩

/-! ## The order of the messages -/

namespace ClientHandshakeHandler

/-- Every message is stored under its own number. -/
def NumbersMatch (h : ClientHandshakeHandler) : Prop :=
  ∀ e ∈ h.completeMessages.entries, e.2.messageSeq = e.1

theorem NumbersMatch.kept {h : ClientHandshakeHandler} (hmatch : h.NumbersMatch)
    (memory : MessageMemory) (msg : FragmentedHandshake) : (h.stored memory msg).NumbersMatch :=
  stored_forall (fun _ _ _ => Handshake.fromFragment_messageSeq) hmatch memory msg

theorem keptByMessages_numbersMatch (opts : Options) (crypto : Crypto) :
    KeptByMessages opts crypto NumbersMatch :=
  keptByMessages_entries opts crypto fun _ _ _ => Handshake.fromFragment_messageSeq

theorem NumbersMatch.values {h : ClientHandshakeHandler} (hmatch : h.NumbersMatch) :
    h.completeMessages.values.map (·.messageSeq) = h.completeMessages.keys := by
  rw [IndexMap.values, IndexMap.keys, List.map_map]
  exact List.map_congr_left hmatch

-- The messages of a flight come in the order of their numbers.
theorem flightOf_sorted {h : ClientHandshakeHandler} (hmatch : h.NumbersMatch)
    {memory : MessageMemory} {msg : FragmentedHandshake} {messages : List Handshake}
    {lastMsg : Handshake} (hflight : h.flightOf (.message memory msg) = some (messages, lastMsg)) :
    messages.Pairwise fun m m' => m.messageSeq < m'.messageSeq := by
  rcases flightOf_some hflight with ⟨h1, hstored, hcomplete, _⟩
  have hmatch1 : h1.NumbersMatch := stored_of_ok hstored ▸ hmatch.kept memory msg
  rcases completeFlight_eq_some.mp hcomplete with ⟨_, rfl, _, _⟩
  have hsorted := h1.completeMessages.keys_sorted
  rw [← hmatch1.values, List.pairwise_map] at hsorted
  exact hsorted

end ClientHandshakeHandler

/-! ## The transcript of a run -/

/-- In a run in which a HelloVerifyRequest comes without a message that is hashed, the client's
Finished covers the last ClientHello, the messages of the server's flight in their order, and the
ClientKeyExchange, each of them if it is one that is hashed.  It covers them all if and only if the
ClientHello has a cookie and the server sends no message that is left out. -/
theorem transcript_whole_iff (opts : Options) (crypto : Crypto) (random : Random)
    {actions : List Action}
    (hrequests : ∀ t ∈ (client opts crypto random).trace actions, Config.requestsOnly t = true)
    {t : Config × Action} (ht : t ∈ (client opts crypto random).trace actions)
    {messages : List Handshake} {lastMsg : Handshake}
    (hflight : t.1.flight t.2 = some (messages, lastMsg))
    (hdone : lastMsg.msgType = .serverHelloDone)
    (hsent : (step opts crypto t.1 t.2).recordLayer.writeEpochNr = 1) :
    ∃ hello keyExchange finished,
      t.1.socket.handshakeHandler.lastFlight = [hello] ∧ hello.msgType = .clientHello ∧
      messages.Pairwise (fun m m' => m.messageSeq < m'.messageSeq) ∧
      (let f := t.1.socket.handshakeHandler.toFlightState.answered opts crypto messages lastMsg
       ClientFinished crypto (f.recordLayer.connState 1) (hashedOf (hello :: messages))
        f.allHandshakeData f.recordLayer.udpSocket keyExchange finished) ∧
      ((hashedOf (hello :: messages) ++ [keyExchange.toFragment.serialize]).flatten =
          (transcriptOf (hello :: messages ++ [keyExchange])).flatten ↔
        ∀ m ∈ hello :: messages, needsToHashMessage m = true) := by
  rcases (client opts crypto random).mem_trace ht with ⟨before, after, hactions, hrun⟩
  have hinv : ClientInv crypto t.1.socket := trace_inv ht
  have hhashed : HelloHashed t.1.socket.standing := by
    rw [← hrun]
    apply run_helloHashed
    intro t' ht'
    apply hrequests
    rw [hactions]
    exact (client opts crypto random).trace_subset (List.prefix_append _ _) ht'
  have hmatch : t.1.socket.handshakeHandler.NumbersMatch := by
    rw [← hrun]
    exact run_kept (ClientHandshakeHandler.keptByMessages_numbersMatch opts crypto) random before
  rcases Config.flight_eq_some hflight with ⟨_, d, _, fragment, _, _, _, hflightOf⟩
  rcases Config.flight_expected hflight with ⟨expected, hexpected, hmem, _⟩
  rw [hdone] at hmem
  rcases hhashed expected hexpected hmem with ⟨hello, hlastFlight, hhello, hdata, _⟩
  rcases step_answered opts hinv hflight with ⟨hstanding, hadvances⟩
  rcases (hadvances.outcome hdone).1 with ⟨selected, hselected, hnegotiated⟩ | hgave
  · rcases hnegotiated.finished with ⟨keyExchange, finished, hfinished⟩
    refine ⟨hello, keyExchange, finished, hlastFlight, hhello,
      ClientHandshakeHandler.flightOf_sorted hmatch hflightOf, ?_, hashedOf_eq_iff keyExchange⟩
    have hbefore : (ClientHandshakeHandler.beforeFlight messages lastMsg
        t.1.socket.handshakeHandler.toFlightState).allHandshakeData =
        hashedOf (hello :: messages) := by
      rw [beforeFlight_allHandshakeData (by rw [hdone]; decide), hashedOf_cons, ← hdata]
      rfl
    rw [hbefore] at hfinished
    exact hfinished
  · -- without keys the write epoch stays what it is
    have hzero := (congrArg Standing.writeEpochNr hstanding).trans hgave.writeEpochNr
    have hone : (step opts crypto t.1 t.2).socket.standing.writeEpochNr = 1 := hsent
    rw [hzero] at hone
    cases hone

namespace Sample

def verifyRequest : Bytes := record .handshake 0 0 (handshake .helloVerifyRequest 0 [254, 253, 1, 5])

def serverFlightAfterRequest : Bytes :=
  record .handshake 0 1 (handshake .serverHello 1 serverHello) ++
    record .handshake 0 2 (handshake .serverHelloDone 2 [])

def cookieExchange : List Action :=
  [datagram verifyRequest, .next, datagram serverFlightAfterRequest, .next]

def serverMessages : List Handshake :=
  [{ serverHelloParsed with messageSeq := 1 }, ⟨2, .serverHelloDone⟩]

def helloWithCookie : Handshake :=
  ⟨1, .clientHello { ClientHandshakeHandler.clientHello opts random with cookie := [5] }⟩

end Sample

theorem transcript_whole_iff_sample :
    ∃ keyExchange : Handshake,
      (hashedOf (Sample.helloWithCookie :: Sample.serverMessages) ++
          [keyExchange.toFragment.serialize]).flatten =
        (transcriptOf (Sample.helloWithCookie :: Sample.serverMessages ++ [keyExchange])).flatten := by
  have hrequests : ∀ t ∈ (client Sample.opts Sample.crypto Sample.random).trace
      (Sample.cookieExchange ++ [.next]), Config.requestsOnly t = true := by decide +kernel
  have ht : ((client Sample.opts Sample.crypto Sample.random).run Sample.cookieExchange,
      Action.next) ∈ (client Sample.opts Sample.crypto Sample.random).trace
        (Sample.cookieExchange ++ [.next]) := by
    rw [Machine.trace_concat]
    exact List.mem_append_right _ (List.mem_singleton.mpr rfl)
  have hflight : ((client Sample.opts Sample.crypto Sample.random).run
      Sample.cookieExchange).flight .next = some (Sample.serverMessages, ⟨2, .serverHelloDone⟩) := by
    decide +kernel
  have hsent : (step Sample.opts Sample.crypto ((client Sample.opts Sample.crypto
      Sample.random).run Sample.cookieExchange) .next).recordLayer.writeEpochNr = 1 := by
    decide +kernel
  have hlast : ((client Sample.opts Sample.crypto Sample.random).run
      Sample.cookieExchange).socket.handshakeHandler.lastFlight = [Sample.helloWithCookie] := by
    decide +kernel
  generalize (client Sample.opts Sample.crypto Sample.random).run Sample.cookieExchange = c
    at ht hflight hsent hlast
  rcases transcript_whole_iff Sample.opts Sample.crypto Sample.random hrequests ht hflight rfl
    hsent with ⟨hello, keyExchange, finished, hlastFlight, _, _, _, hwhole⟩
  rw [hlast] at hlastFlight
  rw [← (List.cons.inj hlastFlight).1] at hwhole
  exact ⟨keyExchange, hwhole.mpr (by decide)⟩

def Sample.firstHello : Handshake :=
  ⟨0, .clientHello (ClientHandshakeHandler.clientHello Sample.opts Sample.random)⟩

/-- The server answers the first ClientHello with its flight: the transcript starts with the
ServerHello. -/
theorem transcript_whole_withoutRequest :
    ((client Sample.opts Sample.crypto Sample.random).run
        (Sample.keyExchange.take 2)).socket.handshakeHandler.lastFlight = [Sample.firstHello] ∧
      ((client Sample.opts Sample.crypto Sample.random).run
        Sample.keyExchange).recordLayer.writeEpochNr = 1 ∧
      ((client Sample.opts Sample.crypto Sample.random).run
        Sample.keyExchange).socket.handshakeHandler.allHandshakeData =
          transcriptOf [Sample.serverHelloParsed, ⟨1, .serverHelloDone⟩,
            ⟨1, .clientKeyExchange (ClientKeyExchange_PSK.serialize [0x61])⟩,
            ⟨2, .finished (List.replicate 12 0)⟩] ∧
      ∀ keyExchange finished, ((client Sample.opts Sample.crypto Sample.random).run
        Sample.keyExchange).socket.handshakeHandler.allHandshakeData ≠
          transcriptOf [Sample.firstHello, Sample.serverHelloParsed, ⟨1, .serverHelloDone⟩,
            keyExchange, finished] := by
  have hdata : ((client Sample.opts Sample.crypto Sample.random).run
      Sample.keyExchange).socket.handshakeHandler.allHandshakeData =
        transcriptOf [Sample.serverHelloParsed, ⟨1, .serverHelloDone⟩,
          ⟨1, .clientKeyExchange (ClientKeyExchange_PSK.serialize [0x61])⟩,
          ⟨2, .finished (List.replicate 12 0)⟩] := by decide +kernel
  refine ⟨?_, ?_, hdata, ?_⟩
  · decide +kernel
  · decide +kernel
  · intro keyExchange finished heq
    rw [hdata] at heq
    cases congrArg List.length heq

end DtlsClient
