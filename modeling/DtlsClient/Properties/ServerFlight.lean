import DtlsClient.Properties.FlightSteps

/-!
# The flight that ends with ServerHelloDone

Its handler goes through the messages: a ServerHello selects the parameters of the next epoch, and
the first ServerHelloDone either installs the keys and sends the client's Finished flight, or gives
the handshake up.
-/

open Library

namespace DtlsClient

/-! ## What the flight selects -/

def ServerHello.parameters (hello : ServerHello) : Parameters where
  cipherSuite := CipherSuites.byId hello.cipherSuite
  compressionAlgorithm := hello.compressionMethod
  protocolVersion := hello.serverVersion

-- The key exchange is the only one that is implemented.
def Parameters.isPSK (p : Parameters) : Bool :=
  p.cipherSuite.any fun suite => suite.keyExchange = some .psk

def Handshake.serverHello? (msg : Handshake) : Option ServerHello :=
  match msg.body with
  | .serverHello hello => some hello
  | _ => none

theorem Handshake.msgType_ne {msg : Handshake} {body : HandshakeBody} {type : HandshakeType}
    (hbody : msg.body = body) (hne : body.msgType ≠ type) : msg.msgType ≠ type := by
  rw [Handshake.msgType, hbody]
  exact hne

/-- The ServerHello in force at the first ServerHelloDone, where `current` is in force before the
messages. -/
def selectedHello (current : Option ServerHello) : List Handshake → Option ServerHello
  | [] => none
  | msg :: messages =>
      match msg.body with
      | .serverHelloDone => current
      | .serverHello hello => selectedHello (some hello) messages
      | _ => selectedHello current messages

/-- The ServerHellos behind the first ServerHelloDone. -/
def laterHellos : List Handshake → List ServerHello
  | [] => []
  | msg :: messages =>
      match msg.body with
      | .serverHelloDone => messages.filterMap Handshake.serverHello?
      | _ => laterHellos messages

namespace FlightState

variable {crypto : Crypto} {f f' : FlightState}

/-! ## A ServerHello -/

-- The epoch after the first one is all the ServerHello's.
theorem connState_withServerHello_first (hello : ServerHello) {rl : RecordLayer}
    (hnext : rl.nextEpochNr = 1) (hwrite : rl.writeEpochNr = 0) :
    (withServerHello hello rl).connState 1 =
      { rl.connState 1 with
        serverRandom := some hello.random.serialize
        cipherSuite := CipherSuites.byId hello.cipherSuite
        compressionAlgorithm := hello.compressionMethod
        protocolVersion := hello.serverVersion } := by
  have hlt := rl.nextEpochNr_lt_length
  rw [hnext] at hlt
  unfold withServerHello
  simp only [hwrite, hnext, Nat.zero_add]
  rw [RecordLayer.connState_updateConnectionState_self,
    RecordLayer.connState_updateConnectionState_ne _ Nat.one_ne_zero,
    RecordLayer.connState_updateConnectionState_self hlt]
  rw [RecordLayer.updateConnectionState_epochs_length,
    RecordLayer.updateConnectionState_epochs_length]
  exact hlt

theorem parameters_withServerHello_selecting (hello : ServerHello) {rl : RecordLayer}
    (hwrite : rl.writeEpochNr = 0) :
    ((withServerHello hello rl).connState rl.nextEpochNr).cipherSuite =
        CipherSuites.byId hello.cipherSuite ∧
      (rl.nextEpochNr = 1 → (withServerHello hello rl).parameters 1 = hello.parameters) := by
  constructor
  · -- the version does not touch the suite
    have hkept : ∀ (rl : RecordLayer) i j, ((rl.updateConnectionState i fun c =>
        { c with protocolVersion := hello.serverVersion }).connState j).cipherSuite =
          (rl.connState j).cipherSuite := by
      intro rl i j
      rcases rl.connState_updateConnectionState_cases i j _ with h | ⟨_, h⟩
      · rw [h]
      · rw [h]
    unfold withServerHello
    rw [hkept, hkept, RecordLayer.connState_updateConnectionState_self rl.nextEpochNr_lt_length]
  · intro hone
    show ((withServerHello hello rl).connState 1).parameters = _
    rw [connState_withServerHello_first hello hone hwrite]
    rfl

-- Behind the client's Finished flight only the version of epoch 1 is set.
theorem connState_withServerHello_negotiated (hello : ServerHello) {rl : RecordLayer}
    (hwrite : rl.writeEpochNr = 1) :
    (withServerHello hello rl).connState 1 =
      { rl.connState 1 with protocolVersion := hello.serverVersion } := by
  have hlt := rl.writeEpochNr_lt_length
  have hnext : 1 ≠ rl.nextEpochNr := by
    unfold RecordLayer.nextEpochNr
    omega
  unfold withServerHello
  simp only [hwrite]
  rw [RecordLayer.connState_updateConnectionState_ne _ (by decide),
    RecordLayer.connState_updateConnectionState_self,
    RecordLayer.connState_updateConnectionState_ne _ hnext]
  rw [RecordLayer.updateConnectionState_epochs_length, ← hwrite]
  exact hlt

/-! ## Before the first ServerHelloDone -/

/-- Nothing is expected, the client writes in epoch 0, and `current` is the last ServerHello so far. -/
structure Selecting (crypto : Crypto) (current : Option ServerHello) (f : FlightState) : Prop where
  inv : Inv crypto f
  expectedResponses : f.expectedResponses = none
  writeEpochNr : f.recordLayer.writeEpochNr = 0
  clear : current = none → (f.recordLayer.connState 1).cipherSuite =
    some CipherSuites.TLS_NULL_WITH_NULL_NULL
  selected : ∀ hello, current = some hello →
    f.recordLayer.nextEpoch.connectionState.cipherSuite = CipherSuites.byId hello.cipherSuite ∧
      (f.recordLayer.nextEpochNr = 1 → f.recordLayer.parameters 1 = hello.parameters)

theorem Selecting.serverHello {current : Option ServerHello} (h : Selecting crypto current f)
    (hello : ServerHello) : Selecting crypto (some hello)
      { f with recordLayer := withServerHello hello f.recordLayer } where
  inv := by
    have hends := handleServerHello_ends hello h.inv (.inl h.expectedResponses)
    exact (hends.of_ok (handleServerHello_eq hello f)).1.inv
  expectedResponses := h.expectedResponses
  writeEpochNr := h.writeEpochNr
  clear := by
    intro hnone
    cases hnone
  selected := by
    intro hello' heq
    rw [← Option.some.inj heq]
    exact parameters_withServerHello_selecting hello h.writeEpochNr

/-! ## Behind it -/

/-- The keys are installed and the client's Finished flight is sent.  Epoch 1 has the parameters of
`selected`, with the version of one of `versions`. -/
structure Negotiated (crypto : Crypto) (transcript : List Bytes) (selected : ServerHello)
    (versions : List ServerHello) (f : FlightState) : Prop where
  inv : Inv crypto f
  expectedResponses : f.expectedResponses = some [.finished]
  writeEpochNr : f.recordLayer.writeEpochNr = 1
  psk : selected.parameters.isPSK = true
  parameters : ∃ hello ∈ versions, f.recordLayer.parameters 1 =
    { selected.parameters with protocolVersion := hello.serverVersion }
  finished : ∃ keyExchange finished, ClientFinished crypto (f.recordLayer.connState 1) transcript
    f.allHandshakeData f.recordLayer.udpSocket keyExchange finished

-- The secrets and the suite are what the verify data depends on.
theorem ClientFinished.congr {c c' : ConnectionState} {before after sent : List Bytes}
    {keyExchange finished : Handshake}
    (h : ClientFinished crypto c before after sent keyExchange finished)
    (hsuite : c'.cipherSuite = c.cipherSuite) (hmaster : c'.masterSecret = c.masterSecret) :
    ClientFinished crypto c' before after sent keyExchange finished where
  flight := h.flight
  allHandshakeData := h.allHandshakeData
  verifyData := by
    rcases h.verifyData with ⟨data, hbody, hdata⟩
    refine ⟨data, hbody, ?_⟩
    rw [← hdata]
    unfold FlightState.verifyData
    rw [hsuite, hmaster]

theorem Answers.negotiated {current : Option ServerHello} (h : Selecting crypto current f)
    (hanswers : Answers crypto f f') :
    ∃ selected, current = some selected ∧
      Negotiated crypto f.allHandshakeData selected [selected] f' := by
  rcases hanswers.psk with ⟨suite, hsuite, hpsk⟩
  rcases hanswers.answered with ⟨f1, hkeys, hsent⟩
  have hnext : f.recordLayer.nextEpochNr = 1 := by
    rw [RecordLayer.nextEpochNr, hkeys.readEpochNr, hkeys.writeEpochNr]
    rfl
  have hnextSuite : (f.recordLayer.connState 1).cipherSuite = some suite := by
    rw [← hnext]
    exact hsuite
  cases current with
  | none =>
      -- the NULL suite has no key exchange
      rw [h.clear rfl] at hnextSuite
      rw [← Option.some.inj hnextSuite] at hpsk
      cases hpsk
  | some selected =>
      rcases h.selected selected rfl with ⟨_, hparameters⟩
      have hparameters := hparameters hnext
      have hselected : selected.parameters.cipherSuite = some suite := by
        rw [← hparameters]
        exact hnextSuite
      refine ⟨selected, rfl, hsent.inv, hsent.expectedResponses, hsent.writeEpochNr, ?_, ?_, ?_⟩
      · rw [Parameters.isPSK, hselected, Option.any_some]
        exact decide_eq_true hpsk
      · refine ⟨selected, List.mem_singleton.mpr rfl, ?_⟩
        have hsame : f'.recordLayer.parameters 1 = f1.recordLayer.parameters 1 := by
          unfold RecordLayer.parameters
          rw [hsent.connState 1]
          rfl
        rw [hsame, hkeys.parameters, hparameters]
        rfl
      · rcases hsent.finished with ⟨keyExchange, finished, hfinished⟩
        rcases hkeys.changes with ⟨rl, rfl, _⟩
        refine ⟨keyExchange, finished, hfinished.congr ?_ ?_⟩
        · rw [hsent.connState 1]
        · rw [hsent.connState 1]

variable {transcript : List Bytes} {selected : ServerHello} {versions : List ServerHello}

theorem Negotiated.mono (h : Negotiated crypto transcript selected versions f)
    {versions' : List ServerHello} (hsub : versions ⊆ versions') :
    Negotiated crypto transcript selected versions' f where
  inv := h.inv
  expectedResponses := h.expectedResponses
  writeEpochNr := h.writeEpochNr
  psk := h.psk
  parameters := by
    rcases h.parameters with ⟨hello, hmem, hsame⟩
    exact ⟨hello, hsub hmem, hsame⟩
  finished := h.finished

theorem Negotiated.report (h : Negotiated crypto transcript selected versions f)
    (isHandshaking : Bool) (alert : Option Alert) (e : JsError) :
    Negotiated crypto transcript selected versions
      { f with
        isHandshaking := isHandshaking
        finishedCalls := f.finishedCalls ++ [⟨alert, some e⟩] } where
  inv := h.inv.withCall isHandshaking _
  expectedResponses := h.expectedResponses
  writeEpochNr := h.writeEpochNr
  psk := h.psk
  parameters := h.parameters
  finished := h.finished

theorem Negotiated.serverHello (h : Negotiated crypto transcript selected versions f)
    (hello : ServerHello) : Negotiated crypto transcript selected (hello :: versions)
      { f with recordLayer := withServerHello hello f.recordLayer } where
  inv := by
    have hends := handleServerHello_ends hello h.inv (.inr h.expectedResponses)
    exact (hends.of_ok (handleServerHello_eq hello f)).1.inv
  expectedResponses := h.expectedResponses
  writeEpochNr := h.writeEpochNr
  psk := h.psk
  parameters := by
    refine ⟨hello, List.mem_cons_self, ?_⟩
    rcases h.parameters with ⟨hello', _, hsame⟩
    show ((withServerHello hello f.recordLayer).connState 1).parameters = _
    rw [connState_withServerHello_negotiated hello h.writeEpochNr]
    have hsame : (f.recordLayer.connState 1).parameters = _ := hsame
    rw [ConnectionState.parameters, Parameters.mk.injEq] at hsame
    rw [ConnectionState.parameters, hsame.1, hsame.2.1]
  finished := by
    rcases h.finished with ⟨keyExchange, finished, hfinished⟩
    refine ⟨keyExchange, finished, hfinished.congr ?_ ?_⟩
    · show ((withServerHello hello f.recordLayer).connState 1).cipherSuite = _
      rw [connState_withServerHello_negotiated hello h.writeEpochNr]
    · show ((withServerHello hello f.recordLayer).connState 1).masterSecret = _
      rw [connState_withServerHello_negotiated hello h.writeEpochNr]

-- The rest of the flight changes no more than the version, whether its handling ends or throws.
theorem Negotiated.flight (opts : Options) {messages : List Handshake}
    (h : Negotiated crypto transcript selected versions f) :
    Ends (handleServerHelloDoneFlight opts crypto messages) f
      (fun _ => Negotiated crypto transcript selected
        (versions ++ messages.filterMap Handshake.serverHello?))
      (fun _ => Negotiated crypto transcript selected
        (versions ++ messages.filterMap Handshake.serverHello?)) := by
  induction messages generalizing f versions with
  | nil => exact h.mono (List.subset_append_left _ _)
  | cons msg messages ih =>
      have hstop : ∀ f1, Negotiated crypto transcript selected versions f1 →
          Negotiated crypto transcript selected
            (versions ++ (msg :: messages).filterMap Handshake.serverHello?) f1 :=
        fun f1 h1 => h1.mono (List.subset_append_left _ _)
      have hother : msg.serverHello? = none → ∀ f1,
          Negotiated crypto transcript selected versions f1 →
          Ends (handleServerHelloDoneFlight opts crypto messages) f1
            (fun _ => Negotiated crypto transcript selected
              (versions ++ (msg :: messages).filterMap Handshake.serverHello?))
            (fun _ => Negotiated crypto transcript selected
              (versions ++ (msg :: messages).filterMap Handshake.serverHello?)) := by
        intro hnone f1 h1
        rw [List.filterMap_cons_none hnone]
        exact ih h1
      rw [handleServerHelloDoneFlight]
      cases hbody : msg.body with
      | serverHello hello =>
          have hsome : msg.serverHello? = some hello := by rw [Handshake.serverHello?, hbody]
          simp only [pure_bind]
          rw [ends_bind, ends_of_eq_ok (handleServerHello_eq hello f)]
          rw [List.filterMap_cons_some hsome]
          apply (ih (h.serverHello hello)).mono
          · intro _ f1 h1
            exact h1.mono (by simp)
          · intro _ f1 h1
            exact h1.mono (by simp)
      | serverKeyExchange rawData =>
          have hnone : msg.serverHello? = none := by rw [Handshake.serverHello?, hbody]
          simp only [pure_bind]
          rw [ends_bind]
          apply (handleServerKeyExchange_ends rawData).mono
          · intro _ f1 hsame
            subst hsame
            exact hother hnone f1 h
          · intro _ f1 hsame
            subst hsame
            exact hstop f1 h
      | serverHelloDone =>
          rw [ends_bind]
          apply (handleServerHelloDone_answers opts h.inv).mono
          · intro _ f1 hcases
            rcases hcases with ⟨_, hanswers⟩ | ⟨rfl, hrefuses⟩
            · -- keys are only installed while epoch 0 is written
              rcases hanswers.answered with ⟨_, hkeys, _⟩
              have hzero := hkeys.writeEpochNr
              rw [h.writeEpochNr] at hzero
              cases hzero
            · rcases hrefuses.reports with ⟨alert, e, rfl⟩
              exact hstop _ (h.report f.isHandshaking alert e)
          · intro _ f1 hsame
            subst hsame
            exact hstop f1 h
      | _ => exact hother (by rw [Handshake.serverHello?, hbody]) f h

/-! ## The whole flight -/

/-- No response is expected any more, and there are no keys. -/
structure GaveUp (transcript : List Bytes) (f : FlightState) : Prop where
  expectedResponses : f.expectedResponses = none
  writeEpochNr : f.recordLayer.writeEpochNr = 0
  allHandshakeData : f.allHandshakeData = transcript

/-- How the handler ends, whether it returns or throws. -/
inductive Outcome (crypto : Crypto) (current : Option ServerHello) (messages : List Handshake)
    (f f' : FlightState) : Prop
  | negotiated (selected : ServerHello) (hselected : selectedHello current messages = some selected)
      (h : Negotiated crypto f.allHandshakeData selected (selected :: laterHellos messages) f')
  | gaveUp (h : GaveUp f.allHandshakeData f')

def HasServerHelloDone (messages : List Handshake) : Prop :=
  ∃ m ∈ messages, m.msgType = .serverHelloDone

-- A message that is not the ServerHelloDone leaves the outcome to those behind it.
theorem Outcome.cons {current current' : Option ServerHello} {msg : Handshake}
    {messages : List Handshake} {f1 : FlightState}
    (h : Outcome crypto current' messages f1 f')
    (hselects : selectedHello current (msg :: messages) = selectedHello current' messages)
    (hlater : laterHellos (msg :: messages) = laterHellos messages)
    (hdata : f1.allHandshakeData = f.allHandshakeData) :
    Outcome crypto current (msg :: messages) f f' := by
  cases h with
  | negotiated selected hselected hnegotiated =>
      rw [← hlater, hdata] at hnegotiated
      exact .negotiated selected (hselects.trans hselected) hnegotiated
  | gaveUp hgave =>
      rw [hdata] at hgave
      exact .gaveUp hgave

/-- The handler installs keys for what the flight selects, or it gives up; where it does so at a
ServerHelloDone without throwing, it reports an error. -/
theorem handleServerHelloDoneFlight_outcome (opts : Options) {messages : List Handshake}
    {current : Option ServerHello} (h : Selecting crypto current f) :
    Ends (handleServerHelloDoneFlight opts crypto messages) f
      (fun _ f' => Outcome crypto current messages f f' ∧ (HasServerHelloDone messages →
        f'.recordLayer.writeEpochNr = 0 → f'.finishedCalls ≠ f.finishedCalls))
      (fun _ f' => Outcome crypto current messages f f') := by
  induction messages generalizing f current with
  | nil =>
      refine ⟨.gaveUp ⟨h.expectedResponses, h.writeEpochNr, rfl⟩, ?_⟩
      intro hdone
      rcases hdone with ⟨m, hm, _⟩
      cases hm
  | cons msg messages ih =>
      have hgaveUp : Outcome crypto current (msg :: messages) f f :=
        .gaveUp ⟨h.expectedResponses, h.writeEpochNr, rfl⟩
      -- a message that is no ServerHelloDone leaves the decision to the rest
      have hrest : ∀ {current' : Option ServerHello} {f1 : FlightState},
          msg.msgType ≠ .serverHelloDone →
          selectedHello current (msg :: messages) = selectedHello current' messages →
          laterHellos (msg :: messages) = laterHellos messages → Selecting crypto current' f1 →
          f1.allHandshakeData = f.allHandshakeData → f1.finishedCalls = f.finishedCalls →
          Ends (handleServerHelloDoneFlight opts crypto messages) f1
            (fun _ f' => Outcome crypto current (msg :: messages) f f' ∧
              (HasServerHelloDone (msg :: messages) → f'.recordLayer.writeEpochNr = 0 →
                f'.finishedCalls ≠ f.finishedCalls))
            (fun _ f' => Outcome crypto current (msg :: messages) f f') := by
        intro current' f1 htype hselects hlater h1 hdata hcalls
        apply (ih h1).mono
        · intro _ f' hf'
          refine ⟨hf'.1.cons hselects hlater hdata, fun hdone hwrite => ?_⟩
          rcases hdone with ⟨m, hm, hdone⟩
          rw [← hcalls]
          rcases List.mem_cons.mp hm with rfl | hm
          · exact absurd hdone htype
          · exact hf'.2 ⟨m, hm, hdone⟩ hwrite
        · exact fun _ f' hf' => hf'.cons hselects hlater hdata
      rw [handleServerHelloDoneFlight]
      cases hbody : msg.body with
      | serverHello hello =>
          simp only [pure_bind]
          rw [ends_bind, ends_of_eq_ok (handleServerHello_eq hello f)]
          exact hrest (Handshake.msgType_ne hbody HandshakeType.noConfusion)
            (by rw [selectedHello, hbody]) (by rw [laterHellos, hbody]) (h.serverHello hello) rfl rfl
      | serverKeyExchange rawData =>
          simp only [pure_bind]
          rw [ends_bind]
          apply (handleServerKeyExchange_ends rawData).mono
          · intro _ f1 hsame
            subst hsame
            exact hrest (Handshake.msgType_ne hbody HandshakeType.noConfusion)
              (by rw [selectedHello, hbody]) (by rw [laterHellos, hbody]) h rfl rfl
          · intro _ f1 hsame
            subst hsame
            exact hgaveUp
      | serverHelloDone =>
          have hselects : selectedHello current (msg :: messages) = current := by
            rw [selectedHello, hbody]
          have hlater : laterHellos (msg :: messages) =
              messages.filterMap Handshake.serverHello? := by rw [laterHellos, hbody]
          rw [ends_bind]
          apply (handleServerHelloDone_answers opts h.inv).mono
          · intro _ f1 hcases
            rcases hcases with ⟨rfl, hanswers⟩ | ⟨rfl, hrefuses⟩
            · rcases Answers.negotiated h hanswers with ⟨selected, hcurrent, hnegotiated⟩
              have hdone : ∀ f', Negotiated crypto f.allHandshakeData selected
                  ([selected] ++ messages.filterMap Handshake.serverHello?) f' →
                  Outcome crypto current (msg :: messages) f f' := by
                intro f' hf'
                rw [← hlater] at hf'
                exact .negotiated selected (hselects.trans hcurrent) hf'
              apply (hnegotiated.flight opts).mono
              · intro _ f' hf'
                refine ⟨hdone f' hf', fun _ hwrite => ?_⟩
                rw [hf'.writeEpochNr] at hwrite
                cases hwrite
              · exact fun _ f' hf' => hdone f' hf'
            · rcases hrefuses.reports with ⟨alert, e, rfl⟩
              refine ⟨.gaveUp ⟨h.expectedResponses, h.writeEpochNr, rfl⟩, fun _ _ hsame => ?_⟩
              exact List.cons_ne_nil _ _ (List.append_right_eq_self.mp hsame)
          · intro _ f1 hsame
            subst hsame
            exact hgaveUp
      | _ =>
          exact hrest (Handshake.msgType_ne hbody HandshakeType.noConfusion)
            (by rw [selectedHello, hbody]) (by rw [laterHellos, hbody]) h rfl rfl

/-! ## The other flights -/

-- Where the handshake stands when this ClientHello is sent.
def withHello (st : Standing) (hello : Handshake) (expectedResponses : List HandshakeType) :
    Standing :=
  { st with
    lastFlight := [hello]
    expectedResponses := some expectedResponses
    allHandshakeData := st.allHandshakeData ++
      if needsToHashMessage hello then [hello.toFragment.serialize] else [] }

theorem helloFlight_standing {seq : Nat} {hello : ClientHello}
    (expectedResponses : List HandshakeType) (hepochs : EpochsInv crypto f.keyed f.recordLayer)
    (hbuffer : f.bufferedOutgoingMessages = []) :
    Ends (sendFlight crypto [⟨seq, .clientHello hello⟩] expectedResponses) f
      (fun _ f' => f'.standing =
        withHello f.standing (f.numbered ⟨seq, .clientHello hello⟩) expectedResponses)
      (fun _ _ => False) := by
  have hmsg : (⟨seq, .clientHello hello⟩ : Handshake).msgType ≠ .finished := by
    intro h
    cases h
  apply (sendFlight_result hepochs hbuffer hmsg expectedResponses).mono
  · intro _ f' h
    rcases h with ⟨fragments, datagram, rl', _, _, hsent, rfl⟩
    have hcount := @outgoingMessages_countP (f.numbered ⟨seq, .clientHello hello⟩) hmsg fragments
    have hwrite : rl'.writeEpochNr = f.recordLayer.writeEpochNr := by
      rw [hsent.writeEpochNr, hcount, Nat.add_zero]
    have hparameters : (rl'.udpSend datagram).parameters = f.recordLayer.parameters := by
      funext i
      show (rl'.connState i).parameters = (f.recordLayer.connState i).parameters
      rw [hsent.connState i]
      rfl
    unfold standing
    rw [← hwrite, ← hparameters]
    rfl
  · exact fun _ _ h => h

-- The handler of a HelloVerifyRequest sends the ClientHello again, with the cookie.
theorem handleHelloVerifyRequest_standing (opts : Options) {messages : List Handshake}
    {seq seq' : Nat} {request : HelloVerifyRequest} {hello : ClientHello} (hinv : Inv crypto f)
    (hlast : messages.getLast? = some ⟨seq, .helloVerifyRequest request⟩)
    (hflight : f.lastFlight = [⟨seq', .clientHello hello⟩]) :
    Ends (handleHelloVerifyRequest opts crypto messages) f
      (fun _ f' => ∃ seq', f'.standing = withHello f.standing
        ⟨seq', .clientHello { hello with cookie := request.cookie }⟩ [.serverHelloDone])
      (fun _ _ => False) := by
  have hcookie : ∀ {f1 : FlightState}, Inv crypto f1 → f1.standing = f.standing →
      Ends (sendFlight crypto [⟨seq', .clientHello { hello with cookie := request.cookie }⟩]
        [.serverHelloDone]) f1
        (fun _ f' => ∃ seq', f'.standing = withHello f.standing
          ⟨seq', .clientHello { hello with cookie := request.cookie }⟩ [.serverHelloDone])
        (fun _ _ => False) := by
    intro f1 h1 hsame
    rw [← hsame]
    apply (helloFlight_standing [.serverHelloDone] h1.epochs h1.buffer).mono
    · exact fun _ _ h => ⟨_, h⟩
    · exact fun _ _ h => h
  unfold handleHelloVerifyRequest
  rw [ends_bind, ends_get, hlast, hflight]
  simp only [List.head?_cons]
  split
  · rw [ends_bind, ends_modify]
    show Ends _ f.resetWindow _ _
    apply hcookie
    · exact hinv.withRecordLayer (hinv.epochs.congr f.connState_resetWindow rfl) rfl
        (congrArg ConnectionState.cipherSuite (f.connState_resetWindow 1)) (List.Subset.refl _)
    · exact standing_withRecordLayer f rfl (RecordLayer.parameters_updateEpoch _ _ fun _ => rfl)
  · exact hcookie hinv rfl

-- The handler of a Finished message only reports.
theorem handleFinished_reports (messages : List Handshake) (f : FlightState) :
    Ends (handleFinished crypto messages) f
      (fun _ f' => ∃ isHandshaking finishedCalls, f' = { f with
        isHandshaking := isHandshaking
        finishedCalls := finishedCalls })
      (fun _ f' => f' = f) := by
  unfold handleFinished computeVerifyData finishedCallback
  split
  · simp only [ends_bind, ends_get]
    split
    · simp only [ends_pure, ends_modify]
      split
      · exact ⟨_, _, rfl⟩
      · exact ⟨_, _, rfl⟩
    · rfl
  · rfl

theorem handleFinished_standing (messages : List Handshake) (f : FlightState) :
    Ends (handleFinished crypto messages) f (fun _ f' => f'.standing = f.standing)
      (fun _ f' => f'.standing = f.standing) := by
  apply (handleFinished_reports messages f).mono
  · rintro _ f' ⟨_, _, rfl⟩
    rfl
  · rintro _ f' rfl
    rfl

/-! ## What a flight does to the handshake -/

/-- How the handler of a flight that was expected moves the handshake on. -/
inductive Advances (crypto : Crypto) (messages : List Handshake) (lastMsg : Handshake)
    (f f' : FlightState) : Prop
  | cookie (seq seq' : Nat) (request : HelloVerifyRequest) (hello : ClientHello)
      (hlast : lastMsg.body = .helloVerifyRequest request)
      (hflight : f.lastFlight = [⟨seq, .clientHello hello⟩])
      (hwrite : f.recordLayer.writeEpochNr = 0)
      (hstanding : f'.standing = withHello
        (ClientHandshakeHandler.beforeFlight messages lastMsg f).standing
        ⟨seq', .clientHello { hello with cookie := request.cookie }⟩ [.serverHelloDone])
  | answer (hlast : lastMsg.body = .serverHelloDone) (hwrite : f.recordLayer.writeEpochNr = 0)
      (houtcome : Outcome crypto none messages
        (ClientHandshakeHandler.beforeFlight messages lastMsg f) f')
      (hreports : f'.recordLayer.writeEpochNr = 0 → f'.finishedCalls ≠ f.finishedCalls)
  | finish (hlast : lastMsg.msgType = .finished) (hwrite : f.recordLayer.writeEpochNr = 1)
      (hexpected : f'.expectedResponses = none)
      (hsame : f'.recordLayer.writeEpochNr = 1 ∧
        f'.recordLayer.parameters = f.recordLayer.parameters)

-- Only the handler of the server's flight is called for a ServerHelloDone.
theorem Advances.outcome {messages : List Handshake} {lastMsg : Handshake}
    (h : Advances crypto messages lastMsg f f') (htype : lastMsg.msgType = .serverHelloDone) :
    Outcome crypto none messages (ClientHandshakeHandler.beforeFlight messages lastMsg f) f' ∧
      (f'.recordLayer.writeEpochNr = 0 → f'.finishedCalls ≠ f.finishedCalls) := by
  cases h with
  | cookie seq seq' request hello hlast hflight hwrite hstanding =>
      rw [Handshake.msgType, hlast] at htype
      cases htype
  | answer hlast hwrite houtcome hreports => exact ⟨houtcome, hreports⟩
  | finish hlast hwrite hexpected hsame =>
      rw [hlast] at htype
      cases htype

-- The state in which the handler is called.
theorem beforeFlight_inv (messages : List Handshake) (lastMsg : Handshake) (hinv : Inv crypto f) :
    Inv crypto (ClientHandshakeHandler.beforeFlight messages lastMsg f) :=
  ⟨hinv.epochs, hinv.buffer, .nothing⟩

theorem Outcome.report {current : Option ServerHello} {messages : List Handshake}
    (h : Outcome crypto current messages f f') (isHandshaking : Bool) (e : JsError) :
    Outcome crypto current messages f { f' with
      isHandshaking := isHandshaking
      finishedCalls := f'.finishedCalls ++ [⟨none, some e⟩] } := by
  cases h with
  | negotiated selected hselected h => exact .negotiated selected hselected (h.report _ _ _)
  | gaveUp h => exact .gaveUp ⟨h.expectedResponses, h.writeEpochNr, h.allHandshakeData⟩

theorem answered_serverHelloDone (opts : Options) {messages : List Handshake} {lastMsg : Handshake}
    (hinv : Inv crypto f) (hwrite : f.recordLayer.writeEpochNr = 0)
    (hclear : (f.recordLayer.connState 1).cipherSuite = some CipherSuites.TLS_NULL_WITH_NULL_NULL)
    (hdone : lastMsg.body = .serverHelloDone) (hlast : messages.getLast? = some lastMsg) :
    Advances crypto messages lastMsg f (f.answered opts crypto messages lastMsg) := by
  have htype : lastMsg.msgType = .serverHelloDone := by rw [Handshake.msgType, hdone]; rfl
  have hhas : HasServerHelloDone messages := ⟨lastMsg, List.mem_of_getLast? hlast, htype⟩
  have hselecting : Selecting crypto none
      (ClientHandshakeHandler.beforeFlight messages lastMsg f) := by
    refine ⟨beforeFlight_inv messages lastMsg hinv, rfl, hwrite, fun _ => hclear, ?_⟩
    intro hello hnone
    cases hnone
  have houtcome := @handleServerHelloDoneFlight_outcome crypto _ opts messages none hselecting
  unfold answered
  rw [htype]
  show Advances crypto messages lastMsg f (ClientHandshakeHandler.afterFlight lastMsg
    (handleServerHelloDoneFlight opts crypto messages _))
  cases hres : handleServerHelloDoneFlight opts crypto messages
      (ClientHandshakeHandler.beforeFlight messages lastMsg f) with
  | ok _ f1 =>
      have hends := houtcome.of_ok hres
      rw [ClientHandshakeHandler.afterFlight, if_neg (by rw [htype]; decide)]
      exact .answer hdone hwrite hends.1 (hends.2 hhas)
  | error e f1 =>
      have hends := houtcome.of_error hres
      refine .answer hdone hwrite (hends.report false e) fun _ => ?_
      -- sent or not, no call is taken back
      have hkept := (handleServerHelloDoneFlight_ends opts messages hselecting.inv (.inl rfl)).of_error hres
      rcases hkept.finishedCalls with ⟨calls, hcalls, _⟩
      show f1.finishedCalls ++ [⟨none, some e⟩] ≠ f.finishedCalls
      rw [hcalls, List.append_assoc]
      intro hsame
      exact List.append_ne_nil_of_right_ne_nil _ (List.cons_ne_nil _ _)
        (List.append_right_eq_self.mp hsame)

theorem answered_helloVerifyRequest (opts : Options) {messages : List Handshake}
    {lastMsg : Handshake} {seq : Nat} {hello : ClientHello} {request : HelloVerifyRequest}
    (hinv : Inv crypto f) (hwrite : f.recordLayer.writeEpochNr = 0)
    (hflight : f.lastFlight = [⟨seq, .clientHello hello⟩])
    (hrequest : lastMsg.body = .helloVerifyRequest request)
    (hlast : messages.getLast? = some lastMsg) :
    Advances crypto messages lastMsg f (f.answered opts crypto messages lastMsg) := by
  have htype : lastMsg.msgType = .helloVerifyRequest := by rw [Handshake.msgType, hrequest]; rfl
  have hmsg : messages.getLast? = some ⟨lastMsg.messageSeq, .helloVerifyRequest request⟩ := by
    rw [hlast, ← hrequest]
  have hsent := @handleHelloVerifyRequest_standing crypto _ opts messages _ seq request hello
    (beforeFlight_inv messages lastMsg hinv) hmsg hflight
  rcases hsent.exists_ok with ⟨_, f1, hok, seq', hstanding⟩
  refine .cookie seq seq' request hello hrequest hflight hwrite ?_
  unfold answered
  rw [htype]
  show (ClientHandshakeHandler.afterFlight lastMsg
    (handleHelloVerifyRequest opts crypto messages _)).standing = _
  rw [hok, ClientHandshakeHandler.afterFlight, if_neg (by rw [htype]; decide)]
  exact hstanding

theorem answered_finishedMessage (opts : Options) {messages : List Handshake} {lastMsg : Handshake}
    (hwrite : f.recordLayer.writeEpochNr = 1) (htype : lastMsg.msgType = .finished) :
    Advances crypto messages lastMsg f (f.answered opts crypto messages lastMsg) := by
  have hsame := @handleFinished_standing crypto messages
    (ClientHandshakeHandler.beforeFlight messages lastMsg f)
  have hkept : ∀ f1 : FlightState,
      f1.standing = (ClientHandshakeHandler.beforeFlight messages lastMsg f).standing →
      f1.expectedResponses = none ∧ f1.recordLayer.writeEpochNr = 1 ∧
        f1.recordLayer.parameters = f.recordLayer.parameters := by
    intro f1 h1
    unfold standing at h1
    rw [Standing.mk.injEq] at h1
    exact ⟨h1.2.2.2.1, h1.1.trans hwrite, h1.2.1⟩
  have hend : (f.answered opts crypto messages lastMsg).expectedResponses = none ∧
      (f.answered opts crypto messages lastMsg).recordLayer.writeEpochNr = 1 ∧
      (f.answered opts crypto messages lastMsg).recordLayer.parameters =
        f.recordLayer.parameters := by
    unfold answered
    rw [htype]
    show (ClientHandshakeHandler.afterFlight lastMsg (handleFinished crypto messages _)).expectedResponses =
        none ∧ (ClientHandshakeHandler.afterFlight lastMsg
          (handleFinished crypto messages _)).recordLayer.writeEpochNr = 1 ∧
      (ClientHandshakeHandler.afterFlight lastMsg
          (handleFinished crypto messages _)).recordLayer.parameters = f.recordLayer.parameters
    cases hres : handleFinished crypto messages
        (ClientHandshakeHandler.beforeFlight messages lastMsg f) with
    | ok _ f1 =>
        rw [ClientHandshakeHandler.afterFlight, if_pos htype]
        exact hkept f1 (hsame.of_ok hres)
    | error e f1 => exact hkept f1 (hsame.of_error hres)
  exact .finish htype hwrite hend.1 hend.2

/-- Only three kinds of messages end a flight that is expected. -/
theorem answered_advances (opts : Options) {messages : List Handshake} {lastMsg : Handshake}
    {expected : List HandshakeType} (hinv : Inv crypto f)
    (hexpected : f.expectedResponses = some expected) (hmem : lastMsg.msgType ∈ expected)
    (hlast : messages.getLast? = some lastMsg) :
    Advances crypto messages lastMsg f (f.answered opts crypto messages lastMsg) := by
  have hawaits := hinv.awaits
  rw [hexpected] at hawaits
  have hdone : lastMsg.msgType = .serverHelloDone → lastMsg.body = .serverHelloDone := by
    rcases lastMsg with ⟨seq, body⟩
    cases body <;> intro h <;> first | rfl | cases h
  cases hawaits with
  | hello seq hello hwrite hclear hflight =>
      rcases List.mem_cons.mp hmem with htype | htype
      · exact answered_serverHelloDone opts hinv hwrite hclear (hdone htype) hlast
      · have htype := List.mem_singleton.mp htype
        cases hbody : lastMsg.body with
        | helloVerifyRequest request =>
            exact answered_helloVerifyRequest opts hinv hwrite hflight hbody hlast
        | _ =>
            rw [Handshake.msgType, hbody] at htype
            cases htype
  | cookie hwrite hclear =>
      have htype := List.mem_singleton.mp hmem
      exact answered_serverHelloDone opts hinv hwrite hclear (hdone htype) hlast
  | finished hwrite hsent =>
      exact answered_finishedMessage opts hwrite (List.mem_singleton.mp hmem)

end FlightState

/-- A step leaves the handshake where it stands, or the handler of a flight moves it on. -/
theorem step_advances (opts : Options) {crypto : Crypto} {c : Config} (a : Action)
    (hinv : ClientInv crypto c.socket) :
    c.flight a = none ∧ (step opts crypto c a).socket.standing = c.socket.standing ∨
      ∃ messages lastMsg f, c.flight a = some (messages, lastMsg) ∧
        f = c.socket.handshakeHandler.toFlightState.answered opts crypto messages lastMsg ∧
        (step opts crypto c a).socket.standing = f.standing ∧
        FlightState.Advances crypto messages lastMsg c.socket.handshakeHandler.toFlightState f := by
  have hstanding := step_standing opts crypto c a
  cases hflight : c.flight a with
  | none =>
      rw [hflight] at hstanding
      exact .inl ⟨rfl, hstanding⟩
  | some flight =>
      rcases flight with ⟨messages, lastMsg⟩
      rw [hflight] at hstanding
      rcases Config.flight_expected hflight with ⟨expected, hexpected, hmem, hlast⟩
      exact .inr ⟨messages, lastMsg, _, rfl, rfl, hstanding,
        FlightState.answered_advances opts hinv.flight hexpected hmem hlast⟩

theorem step_answered (opts : Options) {crypto : Crypto} {c : Config} {a : Action}
    {messages : List Handshake} {lastMsg : Handshake} (hinv : ClientInv crypto c.socket)
    (hflight : c.flight a = some (messages, lastMsg)) :
    (step opts crypto c a).socket.standing =
        (c.socket.handshakeHandler.toFlightState.answered opts crypto messages lastMsg).standing ∧
      FlightState.Advances crypto messages lastMsg c.socket.handshakeHandler.toFlightState
        (c.socket.handshakeHandler.toFlightState.answered opts crypto messages lastMsg) := by
  rcases step_advances opts a hinv with
    ⟨hnone, _⟩ | ⟨messages', lastMsg', f, hflight', rfl, hstanding, hadvances⟩
  · rw [hnone] at hflight
    cases hflight
  · rw [hflight] at hflight'
    rcases Prod.mk.inj (Option.some.inj hflight') with ⟨rfl, rfl⟩
    exact ⟨hstanding, hadvances⟩

/-- Where the handshake stands when the client has sent its first ClientHello. -/
def Standing.initial (opts : Options) (random : Random) : Standing where
  writeEpochNr := 0
  parameters := RecordLayer.new.parameters
  lastFlight := [⟨0, .clientHello (ClientHandshakeHandler.clientHello opts random)⟩]
  expectedResponses := some [.serverHelloDone, .helloVerifyRequest]
  allHandshakeData := []

theorem client_standing (opts : Options) (crypto : Crypto) (random : Random) :
    (client opts crypto random).init.socket.standing = Standing.initial opts random := by
  have hparameters := RecordLayer.parameters_updateConnectionState .new 1
    (f := fun c => { c with clientRandom := some random.serialize }) fun _ => rfl
  apply client_sends (P := fun s : Socket => s.standing = Standing.initial opts random)
  intro f hello hf hhello
  have hepochs := FlightState.listening_epochs crypto random
  have hbuffer : f.bufferedOutgoingMessages = [] := by rw [hf]; rfl
  rw [← hf] at hepochs
  rw [hhello]
  apply (FlightState.helloFlight_standing [.serverHelloDone, .helloVerifyRequest] hepochs hbuffer).mono
  · intro _ f' h
    show f'.standing = _
    rw [h, hf, Standing.initial, ← hparameters]
    rfl
  · exact fun _ _ h => h

end DtlsClient
