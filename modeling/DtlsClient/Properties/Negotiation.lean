import DtlsClient.Properties.EpochKeys
import DtlsClient.Properties.ServerFlight

/-!
# What the client offered

The suite that a ServerHello selects is looked up in the table of all suites, and its compression
method and its version are taken over unseen: what is in use need not be among what the ClientHello
offered.
-/

open Library

namespace DtlsClient

open ClientHandshakeHandler

-- Versions are compared as they are sent: the client's own (~1, ~2) has the bytes 254 and 253.
def ProtocolVersion.sameAs (v v' : ProtocolVersion) : Bool :=
  TLSStruct.serialize spec v.toVal = TLSStruct.serialize spec v'.toVal

/-- The suite, the compression method and the version are among those of the ClientHello. -/
def Parameters.offeredBy (hello : ClientHello) (p : Parameters) : Bool :=
  (p.cipherSuite.any fun suite => some (suite.id : Int) ∈ hello.cipherSuites) &&
    (decide (p.compressionAlgorithm ∈ hello.compressionMethods) &&
      p.protocolVersion.sameAs hello.clientVersion)

/-- A flight that selects a PSK suite selects what was offered, and does not change the version
behind its ServerHelloDone. -/
def selectsOffered (hello : ClientHello) (messages : List Handshake) : Bool :=
  (selectedHello none messages).all fun selected =>
    !selected.parameters.isPSK ||
      (selected.parameters.offeredBy hello &&
        (laterHellos messages).all fun later => later.serverVersion.sameAs hello.clientVersion)

/-- The messages of the flight that a step completes with a ServerHelloDone. -/
def Config.serverFlight (c : Config) (a : Action) : Option (List Handshake) :=
  (c.flight a).bind fun flight =>
    if flight.2.msgType = .serverHelloDone then some flight.1 else none

theorem Config.serverFlight_eq_some {c : Config} {a : Action} {messages : List Handshake} :
    c.serverFlight a = some messages ↔
      ∃ lastMsg, c.flight a = some (messages, lastMsg) ∧ lastMsg.msgType = .serverHelloDone := by
  unfold Config.serverFlight
  constructor
  · intro h
    rcases Option.bind_eq_some_iff.mp h with ⟨⟨messages', lastMsg⟩, hflight, hsome⟩
    by_cases htype : lastMsg.msgType = .serverHelloDone
    · rw [if_pos htype] at hsome
      rw [← Option.some.inj hsome]
      exact ⟨lastMsg, hflight, htype⟩
    · rw [if_neg htype] at hsome
      cases hsome
  · intro h
    rcases h with ⟨lastMsg, hflight, htype⟩
    rw [hflight, Option.bind_some]
    exact if_pos htype

/-! ## Installing keys -/

-- What was selected is in use.
theorem FlightState.Negotiated.offered {crypto : Crypto} {transcript : List Bytes}
    {selected : ServerHello} {messages : List Handshake} {f : FlightState} {hello : ClientHello}
    (h : Negotiated crypto transcript selected (selected :: laterHellos messages) f)
    (hselected : selectedHello none messages = some selected)
    (hselects : selectsOffered hello messages = true) :
    (f.recordLayer.parameters 1).offeredBy hello = true := by
  unfold selectsOffered at hselects
  rw [hselected, Option.all_some, h.psk, Bool.not_true, Bool.false_or, Bool.and_eq_true] at hselects
  rcases hselects with ⟨hoffered, hlater⟩
  rcases h.parameters with ⟨versionHello, hmem, hparameters⟩
  unfold Parameters.offeredBy at hoffered
  rw [Bool.and_eq_true, Bool.and_eq_true] at hoffered
  have hversion : versionHello.serverVersion.sameAs hello.clientVersion = true := by
    rcases List.mem_cons.mp hmem with rfl | hmem
    · exact hoffered.2.2
    · exact List.all_eq_true.mp hlater versionHello hmem
  rw [hparameters, Parameters.offeredBy, hoffered.1, hoffered.2.1, hversion]
  rfl

/-- Whatever epoch 1 has keys for was offered. -/
def NegotiatedOffer (hello : ClientHello) (c : Config) : Prop :=
  c.recordLayer.writeEpochNr = 1 → (c.recordLayer.parameters 1).offeredBy hello = true

-- The write epoch and the parameters are part of where the handshake stands.
theorem NegotiatedOffer.of_standing {hello : ClientHello} {c : Config} {st : Standing}
    (hstanding : c.socket.standing = st)
    (h : st.writeEpochNr = 1 → (st.parameters 1).offeredBy hello = true) :
    NegotiatedOffer hello c := by
  rw [← hstanding] at h
  exact h

theorem step_negotiatedOffer (opts : Options) {crypto : Crypto} {hello : ClientHello} {c : Config}
    {a : Action} (hinv : ClientInv crypto c.socket) (h : NegotiatedOffer hello c)
    (hselects : (c.serverFlight a).all (selectsOffered hello) = true) :
    NegotiatedOffer hello (step opts crypto c a) := by
  rcases step_advances opts a hinv with
    ⟨_, hsame⟩ | ⟨messages, lastMsg, f, hflight, _, hstanding, hadvances⟩
  · exact .of_standing hsame h
  · apply NegotiatedOffer.of_standing hstanding
    cases hadvances with
    | cookie seq seq' request hello' hlast hlastFlight hwrite hcookie =>
        -- a cookie does not change the write epoch
        intro hone
        have hzero : f.standing.writeEpochNr = 0 := by
          rw [hcookie]
          exact hwrite
        rw [hzero] at hone
        cases hone
    | answer hlast hwrite houtcome hreports =>
        cases houtcome with
        | negotiated selected hselected hnegotiated =>
            have hserver : c.serverFlight a = some messages :=
              Config.serverFlight_eq_some.mpr ⟨lastMsg, hflight, by rw [Handshake.msgType, hlast]; rfl⟩
            rw [hserver, Option.all_some] at hselects
            exact fun _ => hnegotiated.offered hselected hselects
        | gaveUp hgave =>
            intro hone
            have hzero : f.standing.writeEpochNr = 0 := hgave.writeEpochNr
            rw [hzero] at hone
            cases hone
    | finish hlast hwrite hexpected hsame =>
        intro _
        show (f.recordLayer.parameters 1).offeredBy hello = true
        rw [hsame.2]
        exact h hwrite

/-! ## Giving up -/

namespace Socket

/-- The connection is closed, or it will be when the alert is sent. -/
def Failed (s : Socket) : Prop :=
  s.isClosed = true ∨ ∃ e, SendCallback.nextStep (some e) ∈ s.pendingCallbacks

variable {crypto : Crypto} {s : Socket}

theorem finishedCallback_failed {call : FinishedCall} (hinv : ClientInv crypto s)
    (hfail : call.err ≠ none) :
    Ends (finishedCallback crypto call) s (fun _ s' => s'.Failed) (fun _ _ => False) := by
  rcases call with ⟨alert, err⟩
  cases err with
  | none => exact absurd rfl hfail
  | some e =>
      cases alert with
      | none =>
          left
          show (s.killConnection (some e)).isClosed = true
          by_cases hclosed : s.isClosed = true
          · rw [killConnection, if_pos hclosed]
            exact hclosed
          · rw [killConnection, if_neg hclosed]
            rfl
      | some alert =>
          have hmsg : (⟨.alert, alert.serialize⟩ : Message).type ≠ .changeCipherSpec := by
            intro h
            cases h
          unfold finishedCallback sendAlert
          rw [ends_bind]
          apply (callSend_ends hmsg hinv).mono
          · intro _ s1 _
            rw [ends_modify]
            exact .inr ⟨e, List.mem_append_right _ (by simp)⟩
          · exact fun _ _ h => h

theorem finishedCallbacks_failed {calls : List FinishedCall} (hinv : ClientInv crypto s)
    (hne : calls ≠ []) (hfail : ∀ call ∈ calls, call.err ≠ none) :
    Ends (calls.forM (finishedCallback crypto)) s (fun _ s' => s'.Failed) (fun _ _ => False) := by
  induction calls generalizing s with
  | nil => exact absurd rfl hne
  | cons call calls ih =>
      rw [List.forall_mem_cons] at hfail
      have hfirst := (finishedCallback_failed hinv hfail.1).and (finishedCallback_ends hinv hfail.1)
      show Ends (finishedCallback crypto call >>= fun _ => calls.forM (finishedCallback crypto)) s
        (fun _ s' => s'.Failed) (fun _ _ => False)
      rw [ends_bind]
      apply hfirst.mono
      · intro _ s1 h1
        by_cases hnil : calls = []
        · rw [hnil]
          exact h1.1
        · exact ih h1.2.inv hnil hfail.2
      · exact fun _ _ h => h.1

/-- Where the handler of a flight reports nothing but errors, the handshake has failed. -/
theorem processIncomingMessage_failed (opts : Options) {memory : MessageMemory}
    {msg : FragmentedHandshake} {messages : List Handshake} {lastMsg : Handshake}
    (hinv : ClientInv crypto s)
    (hflight : s.handshakeHandler.flightOf (.message memory msg) = some (messages, lastMsg))
    (htype : lastMsg.msgType ≠ .finished)
    (hreports : (s.handshakeHandler.toFlightState.answered opts crypto messages
      lastMsg).finishedCalls ≠ []) :
    Ends (processIncomingMessage opts crypto memory msg) s (fun _ s' => s'.Failed)
      (fun _ _ => False) := by
  have hanswered := take_answered opts crypto hflight
  have hhandler : Ends (ClientHandshakeHandler.processIncomingMessage opts crypto memory msg)
      s.handshakeHandler (fun _ h => h = s.handshakeHandler.take opts crypto (.message memory msg))
      (fun _ h => h = s.handshakeHandler.take opts crypto (.message memory msg)) :=
    ends_of_finalState (P := fun h => h = s.handshakeHandler.take opts crypto (.message memory msg))
      rfl
  rcases flightOf_some hflight with ⟨h1, hstored, hcomplete, _⟩
  unfold processIncomingMessage callHandler
  rw [ends_bind, ends_onPart]
  apply (hhandler.and (ClientHandshakeHandler.processIncomingMessage_ends opts memory msg
    hinv.flight)).mono
  · intro _ h hboth
    rcases hboth with ⟨hh, hpost⟩
    rw [← hh] at hanswered
    rw [← hanswered] at hreports
    simp only [ends_bind, ends_get, ends_onPart, ends_modify]
    rcases hpost with hsame | ⟨hexpected, hpost⟩
    · rw [hsame, hinv.finishedCalls] at hreports
      exact absurd rfl hreports
    · rcases hpost with hhandled | ⟨_, _, h2, messages2, lastMsg2, hstored2, hcomplete2, hconfirmed⟩
      · rcases hhandled.finishedCalls with ⟨calls, hcalls, hfail⟩
        rw [hinv.finishedCalls, List.nil_append] at hcalls
        rw [hcalls] at hreports ⊢
        have hinv' : ClientInv crypto
            { s with handshakeHandler := { h with finishedCalls := [] } } :=
          hinv.setHandler hhandled.inv fun hf => absurd (hinv.finished hf).2 hexpected
        exact finishedCallbacks_failed hinv' hreports hfail
      · -- only a Finished message is confirmed
        rw [hstored] at hstored2
        have hsame : h1 = h2 := (EStateM.Result.ok.inj hstored2).2
        rw [← hsame, hcomplete] at hcomplete2
        rcases Prod.mk.inj (Option.some.inj hcomplete2) with ⟨rfl, rfl⟩
        rcases hconfirmed.verified with ⟨seq, received, hlast, _⟩
        rw [completeFlight_getLast hcomplete] at hlast
        rw [Option.some.inj hlast] at htype
        exact absurd rfl htype
  · intro _ _ hboth
    rcases hboth.2.1 with ⟨h2, hthrown⟩
    rw [hstored] at hthrown
    cases hthrown

end Socket

theorem step_failed (opts : Options) {crypto : Crypto} {c : Config} {a : Action}
    {messages : List Handshake} {lastMsg : Handshake} (hinv : ClientInv crypto c.socket)
    (hflight : c.flight a = some (messages, lastMsg)) (htype : lastMsg.msgType ≠ .finished)
    (hreports : (c.socket.handshakeHandler.toFlightState.answered opts crypto messages
      lastMsg).finishedCalls ≠ []) :
    (step opts crypto c a).socket.Failed := by
  rcases Config.flight_eq_some hflight with
    ⟨rfl, d, pending, fragment, hpending, hmsg, hfragment, hflightOf⟩
  have hends := Socket.processIncomingMessage_failed opts hinv hflightOf htype hreports
  rcases hends.exists_ok with ⟨_, s', hok, hfailed⟩
  have hmessage : Socket.handleMessage opts crypto d.memory d.msg d.rinfo c.socket = .ok () s' := by
    unfold Socket.handleMessage
    simp only [hmsg, hfragment]
    exact hok
  show (Config.handleNext opts crypto c).socket.Failed
  unfold Config.handleNext
  rw [hpending]
  simp only [hmessage]
  exact hfailed

/-- A flight that selects something else is refused before there are keys, and reported. -/
theorem step_refuses (opts : Options) {crypto : Crypto} {hello : ClientHello} {c : Config}
    {a : Action} {messages : List Handshake} {selected : ServerHello}
    (hinv : ClientInv crypto c.socket) (hserver : c.serverFlight a = some messages)
    (hselected : selectedHello none messages = some selected)
    (hselects : selectsOffered hello messages = true)
    (hother : selected.parameters.offeredBy hello = false) :
    GivenUp (step opts crypto c a) ∧ (step opts crypto c a).socket.Failed := by
  have hpsk : selected.parameters.isPSK = false := by
    unfold selectsOffered at hselects
    rw [hselected, Option.all_some, hother, Bool.false_and, Bool.or_false] at hselects
    simpa using hselects
  rcases Config.serverFlight_eq_some.mp hserver with ⟨lastMsg, hflight, htype⟩
  rcases step_answered opts hinv hflight with ⟨hstanding, hadvances⟩
  rcases hadvances.outcome htype with ⟨houtcome, hreports⟩
  cases houtcome with
  | negotiated selected' hselected' hnegotiated =>
      -- there are keys for a PSK suite only
      rw [hselected] at hselected'
      rw [Option.some.inj hselected', hnegotiated.psk] at hpsk
      cases hpsk
  | gaveUp hgave =>
      have hcalls := hreports hgave.writeEpochNr
      rw [hinv.finishedCalls] at hcalls
      refine ⟨⟨(congrArg Standing.expectedResponses hstanding).trans hgave.expectedResponses,
        (congrArg Standing.writeEpochNr hstanding).trans hgave.writeEpochNr⟩, ?_⟩
      exact step_failed opts hinv hflight (by rw [htype]; decide) hcalls

/-- What has been given up is never finished. -/
theorem foldl_givenUp (opts : Options) {crypto : Crypto} {c : Config}
    (hinv : ClientInv crypto c.socket) (h : GivenUp c) (later : List Action) :
    (later.foldl (step opts crypto) c).socket.handshakeFinished = false ∧
      ∀ e, ¬(later.foldl (step opts crypto) c).Keyed crypto e := by
  induction later generalizing c with
  | nil =>
      have hzero : c.socket.recordLayer.writeEpochNr = 0 := h.2
      constructor
      · by_contra hdone
        rw [Bool.not_eq_false] at hdone
        have hone := (hinv.finished hdone).1
        omega
      · intro e hkeyed
        have hone : c.socket.recordLayer.writeEpochNr = 1 := ((keyed_iff hinv e).mp hkeyed).2
        omega
  | cons a later ih => exact ih (step_inv opts hinv a) (step_givenUp opts a hinv h)

/-! ## Whole runs -/

theorem run_negotiatedOffer (opts : Options) (crypto : Crypto) (random : Random)
    {hello : ClientHello} {actions : List Action}
    (hselects : ∀ t ∈ (client opts crypto random).trace actions,
      (t.1.serverFlight t.2).all (selectsOffered hello) = true) :
    NegotiatedOffer hello ((client opts crypto random).run actions) := by
  have hboth := (client opts crypto random).invariant_of_trace
    (P := fun c => ClientInv crypto c.socket ∧ NegotiatedOffer hello c)
    (C := fun t => (t.1.serverFlight t.2).all (selectsOffered hello) = true) ?_ ?_ hselects
  · exact hboth.2
  · refine ⟨run_inv opts crypto random [], .of_standing (client_standing opts crypto random) ?_⟩
    intro hone
    cases hone
  · intro c a h hselect
    exact ⟨step_inv opts h.1 a, step_negotiatedOffer opts h.1 h.2 hselect⟩

/-- In a run whose flights all select what the ClientHello offered, or no PSK suite at all, the epoch
that has keys uses what was offered, and a ServerHello that selects something else ends the
handshake before there are keys. -/
theorem negotiated_asOffered (opts : Options) (crypto : Crypto) (random : Random)
    {actions : List Action}
    (hselects : ∀ t ∈ (client opts crypto random).trace actions,
      (t.1.serverFlight t.2).all (selectsOffered (clientHello opts random)) = true) :
    (((client opts crypto random).run actions).socket.handshakeFinished = true →
        ((client opts crypto random).run actions).Keyed crypto 1) ∧
      (∀ e, ((client opts crypto random).run actions).Keyed crypto e →
        (((client opts crypto random).run actions).recordLayer.parameters e).offeredBy
          (clientHello opts random) = true) ∧
      ∀ t ∈ (client opts crypto random).trace actions, ∀ messages selected,
        t.1.serverFlight t.2 = some messages → selectedHello none messages = some selected →
        selected.parameters.offeredBy (clientHello opts random) = false →
        (step opts crypto t.1 t.2).socket.Failed ∧ ∀ later : List Action,
          (later.foldl (step opts crypto) (step opts crypto t.1 t.2)).socket.handshakeFinished =
              false ∧
            ∀ e, ¬(later.foldl (step opts crypto) (step opts crypto t.1 t.2)).Keyed crypto e := by
  have hinv := run_inv opts crypto random actions
  refine ⟨fun hdone => ?_, fun e hkeyed => ?_, ?_⟩
  · exact (keyed_iff hinv 1).mpr ⟨rfl, (hinv.finished hdone).1⟩
  · rcases (keyed_iff hinv e).mp hkeyed with ⟨rfl, hwrite⟩
    exact run_negotiatedOffer opts crypto random hselects hwrite
  · intro t ht messages selected hserver hselected hother
    have hselect := hselects t ht
    rw [hserver, Option.all_some] at hselect
    have hinv := trace_inv ht
    rcases step_refuses opts hinv hserver hselected hselect hother with ⟨hgivenUp, hfailed⟩
    exact ⟨hfailed, foldl_givenUp opts (step_inv opts hinv t.2) hgivenUp⟩

theorem negotiated_asOffered_sample :
    (((client Sample.opts Sample.crypto Sample.random).run
      Sample.completeHandshake).recordLayer.parameters 1).offeredBy
        (clientHello Sample.opts Sample.random) = true := by
  have hselects : ∀ t ∈ (client Sample.opts Sample.crypto Sample.random).trace
      Sample.completeHandshake,
      (t.1.serverFlight t.2).all (selectsOffered (clientHello Sample.opts Sample.random)) =
        true := by decide +kernel
  have hdone : ((client Sample.opts Sample.crypto Sample.random).run
      Sample.completeHandshake).socket.handshakeFinished = true := by decide +kernel
  rcases negotiated_asOffered Sample.opts Sample.crypto Sample.random hselects with
    ⟨hkeyed, hoffered, _⟩
  exact hoffered 1 (hkeyed hdone)

/-- The options of a client that offers one suite with AES-256. -/
def Sample.aes256Only : Options :=
  { Sample.opts with ciphers := some [⟨CipherSuites.TLS_PSK_WITH_AES_256_CCM_8, by decide⟩] }

/-- The server selects a suite with AES-128, and the handshake completes. -/
theorem negotiated_notOffered :
    ((client Sample.aes256Only Sample.crypto Sample.random).run
        Sample.completeHandshake).socket.handshakeFinished = true ∧
      (((client Sample.aes256Only Sample.crypto Sample.random).run
        Sample.completeHandshake).recordLayer.connState 1).cipherSuite =
          some CipherSuites.TLS_PSK_WITH_AES_128_CCM_8 ∧
      (clientHello Sample.aes256Only Sample.random).cipherSuites =
        [some (CipherSuites.TLS_PSK_WITH_AES_256_CCM_8.id : Int)] ∧
      (((client Sample.aes256Only Sample.crypto Sample.random).run
        Sample.completeHandshake).recordLayer.parameters 1).offeredBy
          (clientHello Sample.aes256Only Sample.random) = false := by
  refine ⟨?_, ?_, ?_, ?_⟩
  · decide +kernel
  · decide +kernel
  · decide +kernel
  · decide +kernel

end DtlsClient
