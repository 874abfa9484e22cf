import DtlsClient.Properties.Wire

/-!
# What every step of a client writes

A step sends the flights of the handshake, alerts, and the data of the application, each as a datagram of
its own.  The handshake messages among them take consecutive numbers.
-/

open Library

namespace DtlsClient

/-- What goes out as one datagram. -/
inductive Sending where
  | flight (handshakes : List Handshake)
  | alert (a : Alert)
  | data (bytes : Bytes)

namespace Sending

/-- The fragments that a handshake message is sent in. -/
def fragmentsOf (handshake : Handshake) : List FragmentedHandshake :=
  match handshake.toFragment.split with
  | .ok fragments => fragments
  | .error _ => []

def messages : Sending → List Message
  | .flight handshakes => handshakes.flatMap fun h => FlightState.outgoingMessages h (fragmentsOf h)
  | .alert a => [⟨.alert, a.serialize⟩]
  | .data bytes => [⟨.applicationData, bytes⟩]

def handshakes : Sending → List Handshake
  | .flight handshakes => handshakes
  | _ => []

/-- The application data. -/
def data? : Sending → Option Bytes
  | .data bytes => some bytes
  | _ => none

/-- The types of the handshake messages of a flight. -/
def kind? : Sending → Option (List HandshakeType)
  | .flight handshakes => some (handshakes.map (·.msgType))
  | _ => none

theorem fragmentsOf_eq {handshake : Handshake} {fragments : List FragmentedHandshake}
    (h : handshake.toFragment.split = .ok fragments) : fragmentsOf handshake = fragments := by
  unfold fragmentsOf
  rw [h]

end Sending

namespace FlightState

variable {crypto : Crypto} {f f' f'' : FlightState}

/-- From one state to a later one this is sent, and the handshake messages take the next numbers. -/
structure Sends (crypto : Crypto) (f : FlightState) (sendings : List Sending) (f' : FlightState) :
    Prop where
  writes : RecordLayer.Writes crypto f.recordLayer (sendings.map Sending.messages) f'.recordLayer
  lastSentSeqNum :
    f'.lastSentSeqNum = f.lastSentSeqNum + (sendings.flatMap Sending.handshakes).length
  numbers : (sendings.flatMap Sending.handshakes).map (·.messageSeq) =
    (List.range (sendings.flatMap Sending.handshakes).length).map fun i : Nat =>
      (f.lastSentSeqNum + 1 + i).toNat

namespace Sends

theorem nothing (h : RecordLayer.WritesNothing f.recordLayer f'.recordLayer)
    (hseq : f'.lastSentSeqNum = f.lastSentSeqNum) : Sends crypto f [] f' where
  writes := .nothing h
  lastSentSeqNum := by
    rw [hseq]
    exact (Int.add_zero _).symm
  numbers := rfl

theorem refl (f : FlightState) : Sends crypto f [] f :=
  nothing (.refl _) rfl

theorem trans {sendings sendings' : List Sending} (h : Sends crypto f sendings f')
    (h' : Sends crypto f' sendings' f'') : Sends crypto f (sendings ++ sendings') f'' where
  writes := by
    rw [List.map_append]
    exact h.writes.trans h'.writes
  lastSentSeqNum := by
    rw [h'.lastSentSeqNum, h.lastSentSeqNum, List.flatMap_append, List.length_append]
    omega
  numbers := by
    have hshift : ∀ i : Nat, f'.lastSentSeqNum + 1 + i = f.lastSentSeqNum + 1 +
        ((sendings.flatMap Sending.handshakes).length + i : Nat) := by
      intro i
      rw [h.lastSentSeqNum]
      omega
    rw [List.flatMap_append, List.map_append, h.numbers, h'.numbers, List.length_append,
      List.range_add, List.map_append, List.map_map]
    simp only [hshift, Function.comp_def]

-- What is left of the states besides the record layer and the number does not matter.
theorem congr {sendings : List Sending} (h : Sends crypto f sendings f')
    (hrl : f''.recordLayer = f'.recordLayer) (hseq : f''.lastSentSeqNum = f'.lastSentSeqNum) :
    Sends crypto f sendings f'' where
  writes := hrl ▸ h.writes
  lastSentSeqNum := hseq.trans h.lastSentSeqNum
  numbers := h.numbers

end Sends

/-! ## Flights -/

-- A flight of one message that is not Finished.
theorem sendFlight_sends_one {handshake : Handshake}
    (hepochs : EpochsInv crypto f.keyed f.recordLayer) (hbuffer : f.bufferedOutgoingMessages = [])
    (hmsg : handshake.msgType ≠ .finished) (expectedResponses : List HandshakeType) :
    Ends (sendFlight crypto [handshake] expectedResponses) f
      (fun _ f' => Sends crypto f [.flight [f.numbered handshake]] f' ∧
        f'.expectedResponses = some expectedResponses)
      (fun _ _ => False) := by
  apply (sendFlight_result hepochs hbuffer hmsg expectedResponses).mono
  · rintro _ f' ⟨fragments, datagram, rl', hsplit, hok, hsent, rfl⟩
    have hmay : RecordLayer.MaySend f.keyed (outgoingMessages (f.numbered handshake) fragments)
        f.recordLayer :=
      RecordLayer.maySend_of_countP_eq_zero (outgoingMessages_countP hmsg fragments)
        hepochs.writeEpochNr
    refine ⟨⟨?_, rfl, by simp [Sending.handshakes, numbered]⟩, rfl⟩
    show RecordLayer.Writes crypto f.recordLayer
      [outgoingMessages _ (Sending.fragmentsOf (f.numbered handshake)) ++ []] (rl'.udpSend datagram)
    rw [Sending.fragmentsOf_eq hsplit, List.append_nil]
    exact .flight hepochs hmay hok
  · exact fun _ _ h => h

-- The numbers that its two messages take.
theorem sendFinishedFlight_numbers (identity : Bytes) (f : FlightState) :
    Ends (sendFinishedFlight crypto identity) f
      (fun _ f' => f'.lastSentSeqNum = f.lastSentSeqNum + 1 + 1 ∧
        f'.lastFlight.map (·.messageSeq) =
          [(f.lastSentSeqNum + 1).toNat, (f.lastSentSeqNum + 1 + 1).toNat])
      (fun _ _ => True) := by
  unfold sendFinishedFlight sendFlightBegin
  simp only [ends_bind, ends_modify, ends_get]
  apply (sendFlightProcessPartial_ends _ _ rfl).mono
  · rintro _ f1 ⟨fragments, _, rfl⟩
    unfold computeVerifyData
    simp only [ends_bind, ends_get]
    split
    · rw [ends_pure]
      apply (sendFlightProcessPartial_ends _ _ rfl).mono
      · rintro _ f2 ⟨fragments', _, rfl⟩
        unfold sendFlightFinish callRecordLayer
        simp only [ends_bind, ends_modify, ends_get, ends_onPart]
        exact ends_of_forall _ _ (fun _ _ => ⟨rfl, rfl⟩) fun _ _ => trivial
      · exact fun _ _ _ => trivial
    · trivial
  · exact fun _ _ _ => trivial

-- The flight of ClientKeyExchange and Finished.
theorem FinishedFlight.sends {identity : Bytes} {keyExchange finished : Handshake}
    {fragments fragments' : List FragmentedHandshake} {datagram : Bytes} {rl' : RecordLayer}
    (h : FinishedFlight crypto identity f keyExchange finished fragments fragments')
    (hepochs : EpochsInv crypto true f.recordLayer) (hwrite : f.recordLayer.writeEpochNr = 0)
    (hok : RecordLayer.processOutgoingMessages crypto
      (outgoingMessages keyExchange fragments ++ outgoingMessages finished fragments') f.recordLayer =
        .ok datagram rl')
    (hnumbers : [keyExchange, finished].map (·.messageSeq) =
      [(f.lastSentSeqNum + 1).toNat, (f.lastSentSeqNum + 1 + 1).toNat]) :
    Sends crypto f [.flight [keyExchange, finished]]
      ((f.withFinishedFlight keyExchange finished fragments fragments').withFlight [.finished]
        datagram rl') := by
  have hke : keyExchange.msgType ≠ .finished := by
    rw [h.keyExchange_type]
    decide
  have hmay : RecordLayer.MaySend true
      (outgoingMessages keyExchange fragments ++ outgoingMessages finished fragments')
      f.recordLayer := by
    refine ⟨?_, fun _ => rfl⟩
    rw [outgoingMessages_flight hke h.finished_type, countP_flight, hwrite]
  refine ⟨?_, ?_, ?_⟩
  · show RecordLayer.Writes crypto f.recordLayer
      [outgoingMessages keyExchange (Sending.fragmentsOf keyExchange) ++
        (outgoingMessages finished (Sending.fragmentsOf finished) ++ [])] (rl'.udpSend datagram)
    rw [Sending.fragmentsOf_eq h.keyExchange_split, Sending.fragmentsOf_eq h.finished_split,
      List.append_nil]
    exact .flight hepochs hmay hok
  · show f.lastSentSeqNum + 1 + 1 = f.lastSentSeqNum + 2
    omega
  · simpa [Sending.handshakes, List.range_succ] using hnumbers

theorem sendFinishedFlight_sends_two (identity : Bytes)
    (hepochs : EpochsInv crypto true f.recordLayer) (hwrite : f.recordLayer.writeEpochNr = 0)
    (hbuffer : f.bufferedOutgoingMessages = []) :
    Ends (sendFinishedFlight crypto identity) f
      (fun _ f' => ∃ keyExchange finished, keyExchange.msgType = .clientKeyExchange ∧
        finished.msgType = .finished ∧ Sends crypto f [.flight [keyExchange, finished]] f')
      (fun _ _ => False) := by
  apply ((sendFinishedFlight_result identity hepochs hwrite hbuffer).and
    (sendFinishedFlight_numbers identity f)).mono
  · rintro _ f' ⟨⟨keyExchange, finished, fragments, fragments', datagram, rl', hflight, hok, _, rfl⟩,
      _, hnumbers⟩
    exact ⟨keyExchange, finished, hflight.keyExchange_type, hflight.finished_type,
      hflight.sends hepochs hwrite hok hnumbers⟩
  · exact fun _ _ h => h.1

/-! ## The handlers -/

/-- Nothing was sent, and the write epoch is the same. -/
def StaysSilent (crypto : Crypto) (f f' : FlightState) : Prop :=
  Sends crypto f [] f' ∧ f'.recordLayer.writeEpochNr = f.recordLayer.writeEpochNr

/-- The Finished flight was sent, which switches to the next epoch, or nothing was. -/
def SendsFinishedOnce (crypto : Crypto) (f f' : FlightState) : Prop :=
  StaysSilent crypto f f' ∨ f.recordLayer.writeEpochNr = 0 ∧ f'.recordLayer.writeEpochNr = 1 ∧
    ∃ keyExchange finished, keyExchange.msgType = .clientKeyExchange ∧
      finished.msgType = .finished ∧ Sends crypto f [.flight [keyExchange, finished]] f'

theorem StaysSilent.refl (f : FlightState) : StaysSilent crypto f f := ⟨.refl f, rfl⟩

theorem StaysSilent.trans (h : StaysSilent crypto f f') (h' : StaysSilent crypto f' f'') :
    StaysSilent crypto f f'' := ⟨h.1.trans h'.1, h'.2.trans h.2⟩

theorem SendsFinishedOnce.refl (f : FlightState) : SendsFinishedOnce crypto f f := .inl (.refl f)

theorem SendsFinishedOnce.trans (h : SendsFinishedOnce crypto f f')
    (h' : SendsFinishedOnce crypto f' f'') : SendsFinishedOnce crypto f f'' := by
  rcases h with ⟨hsilent, hsame⟩ | ⟨hzero, hone, keyExchange, finished, hke, hfin, hsends⟩
  · rcases h' with h' | ⟨hzero, hone, keyExchange, finished, hke, hfin, hsends⟩
    · exact .inl (.trans ⟨hsilent, hsame⟩ h')
    · exact .inr ⟨hsame.symm.trans hzero, hone, keyExchange, finished, hke, hfin, hsilent.trans hsends⟩
  · rcases h' with ⟨hsilent, hsame⟩ | ⟨hzero, _⟩
    · refine .inr ⟨hzero, hsame.trans hone, keyExchange, finished, hke, hfin, ?_⟩
      have hall := hsends.trans hsilent
      rw [List.append_nil] at hall
      exact hall
    · omega

-- The windows are none of what is written.
theorem writesNothing_resetWindow (f : FlightState) :
    RecordLayer.WritesNothing f.recordLayer f.resetWindow.recordLayer := by
  refine ⟨rfl, rfl, ?_, fun i _ => by rw [connState_resetWindow]⟩
  funext i
  show RecordLayer.numbers (RecordLayer.updateEpoch _ _ _) i = _
  unfold RecordLayer.numbers
  rcases RecordLayer.epoch_updateEpoch_cases f.recordLayer f.recordLayer.readEpochNr i
    (fun e => { e with antiReplayWindow := .reset }) with h | ⟨_, h⟩
  · rw [h]
  · rw [h]

/-- The ClientHello is sent again, or the message is not what the handler takes it for. -/
theorem handleHelloVerifyRequest_sends_one (opts : Options) (messages : List Handshake)
    (hinv : Inv crypto f) :
    Ends (handleHelloVerifyRequest opts crypto messages) f
      (fun _ f' => f'.expectedResponses = some [.serverHelloDone] ∧
        ∃ hello, hello.msgType = .clientHello ∧ Sends crypto f [.flight [hello]] f')
      (fun _ f' => f' = f) := by
  unfold handleHelloVerifyRequest
  rw [ends_bind, ends_get]
  split
  · rename_i seq request messageSeq hello _ _
    have hmsg : (⟨messageSeq, .clientHello { hello with cookie := request.cookie }⟩ :
        Handshake).msgType ≠ .finished := HandshakeType.noConfusion
    split
    · rw [ends_bind, ends_modify]
      show Ends _ f.resetWindow _ _
      have hepochs : EpochsInv crypto f.keyed f.resetWindow.recordLayer :=
        hinv.epochs.congr f.connState_resetWindow rfl
      apply (sendFlight_sends_one (f := f.resetWindow) hepochs hinv.buffer hmsg _).mono
      · intro _ f' h
        exact ⟨h.2, _, rfl, (Sends.nothing f.writesNothing_resetWindow rfl).trans h.1⟩
      · exact fun _ _ h => h.elim
    · apply (sendFlight_sends_one hinv.epochs hinv.buffer hmsg _).mono
      · exact fun _ f' h => ⟨h.2, _, rfl, h.1⟩
      · exact fun _ _ h => h.elim
  · rfl

-- Only the epoch after the current ones gets other parameters.
theorem specify_updateNextEpoch {rl : RecordLayer} (g : ConnectionState → ConnectionState)
    {i : Nat} (hi : i ≤ rl.writeEpochNr) :
    ((rl.updateConnectionState rl.nextEpochNr g).connState i).specify = (rl.connState i).specify := by
  have hne : i ≠ rl.nextEpochNr := by
    unfold RecordLayer.nextEpochNr
    omega
  rw [RecordLayer.connState_updateConnectionState_ne rl hne]

theorem specify_setVersion (rl : RecordLayer) (version : ProtocolVersion) (i j : Nat) :
    ((rl.updateConnectionState i fun c => { c with protocolVersion := version }).connState j).specify =
      (rl.connState j).specify := by
  rcases rl.connState_updateConnectionState_cases i j
    (fun c => { c with protocolVersion := version }) with h | ⟨_, h⟩
  · rw [h]
  · rw [h]
    rfl

theorem writesNothing_withServerHello (hello : ServerHello) (rl : RecordLayer) :
    RecordLayer.WritesNothing rl (withServerHello hello rl) where
  udpSocket := rfl
  writeEpochNr := rfl
  numbers := by
    unfold withServerHello
    simp only [RecordLayer.numbers_updateConnectionState]
  specify := by
    intro i hi
    unfold withServerHello
    simp only
    rw [specify_setVersion, specify_setVersion, specify_updateNextEpoch _ hi]

theorem installKeys_silent (psk : Bytes) (f : FlightState) :
    Ends (installKeys crypto psk) f (fun _ => StaysSilent crypto f) (fun _ f' => f' = f) := by
  unfold installKeys
  rw [ends_bind, ends_get]
  split
  · rfl
  · rw [ends_modify]
    refine ⟨.nothing ⟨rfl, rfl, ?_, fun i hi => ?_⟩ rfl, rfl⟩
    · exact RecordLayer.numbers_updateConnectionState _ _ _
    · exact specify_updateNextEpoch _ hi

theorem handleServerHelloDone_sends_once (opts : Options) (hinv : Inv crypto f) :
    Ends (handleServerHelloDone opts crypto) f (fun _ => SendsFinishedOnce crypto f)
      (fun _ => SendsFinishedOnce crypto f) := by
  unfold handleServerHelloDone
  rw [ends_bind, ends_get]
  split
  · exact .refl f
  · rename_i suite hsuite
    split
    · rename_i hpsk
      split
      · exact .refl f
      · rename_i identity psk hhead
        rw [ends_bind]
        apply ((installKeys_ends psk hinv hsuite hpsk).and (installKeys_silent psk f)).mono
        · rintro _ f1 ⟨hkeys, hsilent⟩
          rcases hkeys.changes with ⟨rl, rfl, _, hwrite, _⟩
          rw [ends_bind]
          apply ((sendFinishedFlight_sends_two identity hkeys.epochs hwrite hinv.buffer).and
            (sendFinishedFlight_ends identity hkeys.epochs hwrite hinv.buffer)).mono
          · rintro _ f2 ⟨⟨keyExchange, finished, hke, hfin, hsends⟩, hsent⟩
            exact .inr ⟨hkeys.writeEpochNr, hsent.writeEpochNr, keyExchange, finished, hke, hfin,
              hsilent.1.trans hsends⟩
          · exact fun _ _ h => h.1.elim
        · rintro _ f1 ⟨_, rfl⟩
          exact .refl f1
    · exact .inl ⟨.nothing (.refl _) rfl, rfl⟩

/-- However many ServerHelloDone messages the flight has, it is answered once. -/
theorem handleServerHelloDoneFlight_sends_once (opts : Options) (messages : List Handshake)
    (hinv : Inv crypto f) (hflight : f.InFlight) :
    Ends (handleServerHelloDoneFlight opts crypto messages) f
      (fun _ => SendsFinishedOnce crypto f) (fun _ => SendsFinishedOnce crypto f) := by
  induction messages generalizing f with
  | nil => exact .refl f
  | cons msg messages ih =>
      have hrest : ∀ (goOn : Bool) f1, (Handled crypto f f1 ∧ f1.InFlight) ∧
            SendsFinishedOnce crypto f f1 →
          Ends (if goOn then handleServerHelloDoneFlight opts crypto messages else pure ()) f1
            (fun _ => SendsFinishedOnce crypto f) (fun _ => SendsFinishedOnce crypto f) := by
        rintro goOn f1 ⟨⟨h1, hflight1⟩, hsends⟩
        cases goOn with
        | false => exact hsends
        | true => exact (ih h1.inv hflight1).mono (fun _ _ h => hsends.trans h) fun _ _ h => hsends.trans h
      have hsame : (Handled crypto f f ∧ f.InFlight) ∧ SendsFinishedOnce crypto f f :=
        ⟨⟨.refl hinv, hflight⟩, .refl f⟩
      rw [handleServerHelloDoneFlight]
      cases hbody : msg.body with
      | serverHello hello =>
          have hhello := handleServerHello_ends hello hinv hflight
          rw [ends_of_eq_ok (handleServerHello_eq hello f)] at hhello
          simp only [pure_bind]
          rw [ends_bind, ends_of_eq_ok (handleServerHello_eq hello f)]
          exact hrest true _
            ⟨hhello, .inl ⟨.nothing (writesNothing_withServerHello hello f.recordLayer) rfl, rfl⟩⟩
      | serverKeyExchange rawData =>
          simp only [pure_bind]
          rw [ends_bind]
          apply (handleServerKeyExchange_ends rawData).mono
          · rintro _ f1 rfl
            exact hrest true f1 hsame
          · rintro _ f1 rfl
            exact hsame.2
      | serverHelloDone =>
          rw [ends_bind]
          apply ((handleServerHelloDone_ends opts hinv hflight).and
            (handleServerHelloDone_sends_once opts hinv)).mono
          · exact hrest
          · exact fun _ _ h => h.2
      | _ => exact hrest true f hsame

/-! ## Phases -/

/-- How far the handshake has got, by what the client has sent last. -/
inductive Phase where
  | helloSent
  | cookieSent
  | finishedSent
  | ended
deriving DecidableEq

/-- The phase in which these responses are expected. -/
def Phase.awaiting : Option (List HandshakeType) → Phase
  | some [.serverHelloDone, .helloVerifyRequest] => helloSent
  | some [.serverHelloDone] => cookieSent
  | some [.finished] => finishedSent
  | _ => ended

/-- How a flight of the server moves the handshake on, with the flights that the client sends. -/
inductive Phase.Edge : Phase → List (List HandshakeType) → Phase → Prop
  | cookie : Edge helloSent [[.clientHello]] cookieSent
  | answer {phase : Phase} (hphase : phase = helloSent ∨ phase = cookieSent) :
      Edge phase [[.clientKeyExchange, .finished]] finishedSent
  | finish {phase : Phase} (hphase : phase ≠ ended) : Edge phase [] ended

/-- What is sent from one state to a later one moves the handshake on. -/
def MovesOn (crypto : Crypto) (f f' : FlightState) : Prop :=
  ∃ sendings, Sends crypto f sendings f' ∧ sendings.filterMap Sending.data? = [] ∧
    Phase.Edge (.awaiting f.expectedResponses) (sendings.filterMap Sending.kind?)
      (.awaiting f'.expectedResponses)

-- What is left to do after the handler concerns the transcript and the report.
theorem afterFlight_movesOn {lastMsg : Handshake} {x : FlightM Unit} {f0 : FlightState}
    (h : Ends x f0 (fun _ => MovesOn crypto f) (fun _ => MovesOn crypto f)) :
    MovesOn crypto f (ClientHandshakeHandler.afterFlight lastMsg (x f0)) := by
  cases hres : x f0 with
  | ok _ f1 =>
      rcases h.of_ok hres with ⟨sendings, hsends, hdata, hedge⟩
      unfold ClientHandshakeHandler.afterFlight
      simp only
      split
      · exact ⟨sendings, hsends.congr rfl rfl, hdata, hedge⟩
      · exact ⟨sendings, hsends, hdata, hedge⟩
  | error e f1 =>
      rcases h.of_error hres with ⟨sendings, hsends, hdata, hedge⟩
      exact ⟨sendings, hsends.congr rfl rfl, hdata, hedge⟩

-- The server's flight is answered with the Finished flight, or the handshake is given up.
theorem answered_movesOn_serverHelloDone (opts : Options) {messages : List Handshake}
    {lastMsg : Handshake} {expected : List HandshakeType} (hinv : Inv crypto f)
    (hexpected : f.expectedResponses = some expected) (hmem : lastMsg.msgType ∈ expected)
    (hlast : messages.getLast? = some lastMsg) (htype : lastMsg.msgType = .serverHelloDone)
    (hphase : Phase.awaiting f.expectedResponses = .helloSent ∨
      Phase.awaiting f.expectedResponses = .cookieSent) :
    MovesOn crypto f (f.answered opts crypto messages lastMsg) := by
  have hadvances := answered_advances opts hinv hexpected hmem hlast
  have hsends : SendsFinishedOnce crypto f (f.answered opts crypto messages lastMsg) := by
    have hflight := handleServerHelloDoneFlight_sends_once opts messages
      (beforeFlight_inv messages lastMsg hinv) (.inl rfl)
    have hbefore : StaysSilent crypto f (ClientHandshakeHandler.beforeFlight messages lastMsg f) :=
      ⟨.nothing (.refl _) rfl, rfl⟩
    have hafter : ∀ f1 f2 : FlightState, f2.recordLayer = f1.recordLayer →
        f2.lastSentSeqNum = f1.lastSentSeqNum → StaysSilent crypto f1 f2 := by
      intro f1 f2 hrl hseq
      refine ⟨.congr (.refl f1) hrl hseq, by rw [hrl]⟩
    unfold answered
    rw [htype]
    show SendsFinishedOnce crypto f (ClientHandshakeHandler.afterFlight lastMsg
      (handleServerHelloDoneFlight opts crypto messages _))
    cases hres : handleServerHelloDoneFlight opts crypto messages
        (ClientHandshakeHandler.beforeFlight messages lastMsg f) with
    | ok _ f1 =>
        rw [ClientHandshakeHandler.afterFlight, if_neg (by rw [htype]; decide)]
        exact .trans (.inl hbefore) (hflight.of_ok hres)
    | error e f1 =>
        exact .trans (.inl hbefore) (.trans (hflight.of_error hres) (.inl (hafter f1 _ rfl rfl)))
  have hzero : f.recordLayer.writeEpochNr = 0 := by
    cases hadvances with
    | cookie _ _ _ _ _ _ hwrite => exact hwrite
    | answer _ hwrite => exact hwrite
    | finish hfin => rw [htype] at hfin; cases hfin
  rcases hsends with ⟨hsilent, hsame⟩ | ⟨_, hone, keyExchange, finished, hke, hfin, hsent⟩
  · cases (hadvances.outcome htype).1 with
    | negotiated _ _ h =>
        have hwrite := h.writeEpochNr
        omega
    | gaveUp h =>
        refine ⟨[], hsilent, rfl, ?_⟩
        rw [h.expectedResponses]
        apply Phase.Edge.finish
        rcases hphase with hphase | hphase <;> rw [hphase] <;> decide
  · cases (hadvances.outcome htype).1 with
    | negotiated _ _ h =>
        refine ⟨_, hsent, rfl, ?_⟩
        rw [h.expectedResponses]
        show Phase.Edge _ [[keyExchange.msgType, finished.msgType]] _
        rw [hke, hfin]
        exact .answer hphase
    | gaveUp h =>
        have hwrite := h.writeEpochNr
        omega

/-- The handler of a flight that was expected moves the handshake on, by one edge. -/
theorem answered_movesOn (opts : Options) {messages : List Handshake} {lastMsg : Handshake}
    {expected : List HandshakeType} (hinv : Inv crypto f)
    (hexpected : f.expectedResponses = some expected) (hmem : lastMsg.msgType ∈ expected)
    (hlast : messages.getLast? = some lastMsg) :
    MovesOn crypto f (f.answered opts crypto messages lastMsg) := by
  have hbefore : Sends crypto f [] (ClientHandshakeHandler.beforeFlight messages lastMsg f) :=
    .nothing (.refl _) rfl
  have hawaits := hinv.awaits
  rw [hexpected] at hawaits
  cases hawaits with
  | hello seq hello hwrite hclear hflight =>
      rcases List.mem_cons.mp hmem with htype | htype
      · exact answered_movesOn_serverHelloDone opts hinv hexpected hmem hlast htype
          (by rw [hexpected]; exact .inl rfl)
      · unfold answered
        rw [List.mem_singleton.mp htype]
        apply afterFlight_movesOn
        apply (handleHelloVerifyRequest_sends_one opts messages
          (beforeFlight_inv messages lastMsg hinv)).mono
        · rintro _ f1 ⟨hcookie, clientHello, hkind, hsends⟩
          refine ⟨_, hbefore.trans hsends, rfl, ?_⟩
          rw [hexpected, hcookie]
          show Phase.Edge _ [[clientHello.msgType]] _
          rw [hkind]
          exact .cookie
        · rintro _ f1 rfl
          refine ⟨[], hbefore, rfl, ?_⟩
          rw [hexpected]
          exact .finish (by decide)
  | cookie hwrite hclear =>
      exact answered_movesOn_serverHelloDone opts hinv hexpected hmem hlast
        (List.mem_singleton.mp hmem) (by rw [hexpected]; exact .inr rfl)
  | finished hwrite hsent =>
      unfold answered
      rw [List.mem_singleton.mp hmem]
      apply afterFlight_movesOn
      apply (handleFinished_reports messages _).mono
      · rintro _ f1 ⟨_, _, rfl⟩
        refine ⟨[], hbefore.congr rfl rfl, rfl, ?_⟩
        rw [hexpected]
        exact .finish (by decide)
      · rintro _ f1 rfl
        refine ⟨[], hbefore, rfl, ?_⟩
        rw [hexpected]
        exact .finish (by decide)

end FlightState

/-! ## Alerts and application data -/

-- A message by itself is one datagram.
theorem RecordLayer.send_writes {crypto : Crypto} {keyed : Bool} {msg : Message} {rl : RecordLayer}
    (hepochs : EpochsInv crypto keyed rl) (hmsg : msg.type ≠ .changeCipherSpec) :
    Ends (send crypto msg) rl
      (fun _ rl' => EpochsInv crypto keyed rl' ∧ Writes crypto rl [[msg]] rl') (fun _ _ => False) := by
  have hcount : [msg].countP isChangeCipherSpec = 0 := by
    rw [List.countP_singleton, isChangeCipherSpec, decide_eq_false hmsg]
    rfl
  have hmay : MaySend keyed [msg] rl := maySend_of_countP_eq_zero hcount hepochs.writeEpochNr
  apply (send_ends hepochs hmsg).mono
  · rintro _ rl' ⟨buf, rl1, hok, hsent, rfl⟩
    refine ⟨hsent.inv.congr (fun _ => rfl) rfl, .flight hepochs hmay ?_⟩
    show EStateM.bind (processOutgoingMessage crypto msg) _ rl = _
    rw [EStateM.bind, hok]
    show EStateM.Result.ok (buf ++ []) rl1 = _
    rw [List.append_nil]
  · exact fun _ _ h => h

namespace Socket

variable {crypto : Crypto} {s : Socket} {f : FlightState}

/-- What is sent after `f` are alerts, and no epoch lacks its keys. -/
def SendsAlerts (crypto : Crypto) (f : FlightState) (s : Socket) : Prop :=
  (∃ keyed, EpochsInv crypto keyed s.recordLayer) ∧
    (∃ alerts : List Alert,
      FlightState.Sends crypto f (alerts.map .alert) s.handshakeHandler.toFlightState) ∧
    s.handshakeHandler.expectedResponses = f.expectedResponses

theorem SendsAlerts.refl (hinv : ClientInv crypto s) :
    SendsAlerts crypto s.handshakeHandler.toFlightState s :=
  ⟨⟨_, hinv.epochs⟩, ⟨[], .refl _⟩, rfl⟩

theorem SendsAlerts.of_handler_eq {s' : Socket} (h : SendsAlerts crypto f s)
    (hsame : s'.handshakeHandler = s.handshakeHandler) : SendsAlerts crypto f s' := by
  unfold SendsAlerts recordLayer
  rw [hsame]
  exact h

theorem sendAlert_sendsAlerts (h : SendsAlerts crypto f s) (alert : Alert)
    (callback : Option SendCallback) :
    Ends (sendAlert crypto alert callback) s (fun _ => SendsAlerts crypto f) (fun _ _ => False) := by
  rcases h with ⟨⟨keyed, hepochs⟩, ⟨alerts, hsends⟩, hexpected⟩
  have hmsg : (⟨.alert, alert.serialize⟩ : Message).type ≠ .changeCipherSpec := ContentType.noConfusion
  unfold sendAlert callRecordLayer
  rw [ends_bind, ends_onPart]
  apply (RecordLayer.send_writes hepochs hmsg).mono
  · rintro _ rl' ⟨hepochs', hwrites⟩
    refine ⟨⟨keyed, hepochs'⟩, ⟨alerts ++ [alert], ?_⟩, hexpected⟩
    rw [List.map_append]
    exact hsends.trans ⟨hwrites, (Int.add_zero _).symm, rfl⟩
  · exact fun _ _ h => h

theorem finishedCallback_sendsAlerts (h : SendsAlerts crypto f s) (call : FinishedCall) :
    Ends (finishedCallback crypto call) s (fun _ => SendsAlerts crypto f) (fun _ _ => False) := by
  unfold finishedCallback
  cases call.alert with
  | some alert => exact sendAlert_sendsAlerts h alert _
  | none => exact h.of_handler_eq (nextStep_handler call.err s)

/-- What follows the handler's flight are alerts. -/
theorem processIncomingMessage_sendsAlerts (opts : Options) (memory : MessageMemory)
    (msg : FragmentedHandshake) (hinv : ClientInv crypto s) :
    Ends (processIncomingMessage opts crypto memory msg) s
      (fun _ => SendsAlerts crypto
        (s.handshakeHandler.take opts crypto (.message memory msg)).toFlightState)
      (fun _ => SendsAlerts crypto
        (s.handshakeHandler.take opts crypto (.message memory msg)).toFlightState) := by
  have hepochs : ∃ keyed, EpochsInv crypto keyed
      (s.handshakeHandler.take opts crypto (.message memory msg)).recordLayer := by
    apply Ends.finalState (P := fun h : ClientHandshakeHandler =>
      ∃ keyed, EpochsInv crypto keyed h.recordLayer)
    apply (ClientHandshakeHandler.processIncomingMessage_ends opts memory msg hinv.flight).mono
    · rintro _ h (hsame | ⟨_, hhandled | ⟨_, _, _, _, _, _, _, hconfirmed⟩⟩)
      · rw [hsame]
        exact ⟨_, hinv.epochs⟩
      · exact ⟨_, hhandled.inv.epochs⟩
      · exact ⟨_, hconfirmed.inv.epochs⟩
    · rintro _ h ⟨_, hsame⟩
      rw [hsame]
      exact ⟨_, hinv.epochs⟩
  apply processIncomingMessage_keeps (P := SendsAlerts crypto
    (s.handshakeHandler.take opts crypto (.message memory msg)).toFlightState) opts rfl
  · exact ⟨hepochs, ⟨[], .refl _⟩, rfl⟩
  · refine ⟨hepochs, ⟨[], ?_⟩, rfl⟩
    exact (FlightState.Sends.refl _).congr rfl rfl
  · intro call _ s' hs'
    exact (finishedCallback_sendsAlerts hs' call).mono (fun _ _ h => h) fun _ _ h => h.elim

-- Any other message leads to one alert at most.
theorem handleMessage_sendsAlerts (opts : Options) (memory : MessageMemory) {msg : Message}
    (rinfo : RemoteInfo) (hinv : ClientInv crypto s) (hmsg : msg.type ≠ .handshake) :
    Ends (handleMessage opts crypto memory msg rinfo) s
      (fun _ => SendsAlerts crypto s.handshakeHandler.toFlightState)
      (fun _ => SendsAlerts crypto s.handshakeHandler.toFlightState) := by
  have hstart : SendsAlerts crypto s.handshakeHandler.toFlightState s := .refl hinv
  rcases msg with ⟨type, data⟩
  unfold handleMessage
  cases type with
  | handshake => exact absurd rfl hmsg
  | changeCipherSpec =>
      refine ⟨⟨_, hinv.epochs.advanceReadEpoch⟩, ⟨[], .nothing ⟨rfl, rfl, ?_, fun i _ => ?_⟩ rfl⟩, rfl⟩
      · funext i
        show RecordLayer.numbers (RecordLayer.advanceReadEpoch _) i = _
        rw [RecordLayer.numbers, RecordLayer.epoch_advanceReadEpoch]
        rfl
      · show ((RecordLayer.advanceReadEpoch _).connState i).specify = _
        rw [RecordLayer.connState_advanceReadEpoch]
        rfl
  | alert =>
      simp only
      split
      · exact hstart.of_handler_eq (killConnection_handler _ s)
      · split
        · exact (sendAlert_sendsAlerts hstart _ _).mono (fun _ _ h => h) fun _ _ h => h.elim
        · exact hstart
  | applicationData => exact hstart.of_handler_eq (deliver_handler ⟨.applicationData, data⟩ rinfo s).1
  | other n => exact hstart

end Socket

/-! ## Steps -/

/-- The data that `send` accepts in a step. -/
def acceptedData (crypto : Crypto) (t : Config × Action) : List Bytes :=
  match t.2 with
  | .send data => if returns (Socket.send crypto data) t.1.socket then [data] else []
  | _ => []

/-- What a step sends: perhaps a flight that moves the handshake on, then alerts, or the data that the
application was allowed to send. -/
structure StepSends (crypto : Crypto) (t : Config × Action) (c' : Config) (sendings : List Sending) :
    Prop where
  sends : FlightState.Sends crypto t.1.socket.handshakeHandler.toFlightState sendings
    c'.socket.handshakeHandler.toFlightState
  data : sendings.filterMap Sending.data? = acceptedData crypto t
  phase : sendings.filterMap Sending.kind? = [] ∧
      FlightState.Phase.awaiting c'.socket.handshakeHandler.expectedResponses =
        .awaiting t.1.socket.handshakeHandler.expectedResponses ∨
    FlightState.Phase.Edge (.awaiting t.1.socket.handshakeHandler.expectedResponses)
      (sendings.filterMap Sending.kind?) (.awaiting c'.socket.handshakeHandler.expectedResponses)

namespace Sending

theorem data_alerts (alerts : List Alert) : (alerts.map Sending.alert).filterMap data? = [] := by
  rw [List.filterMap_map, List.filterMap_eq_nil_iff]
  exact fun _ _ => rfl

theorem kind_alerts (alerts : List Alert) : (alerts.map Sending.alert).filterMap kind? = [] := by
  rw [List.filterMap_map, List.filterMap_eq_nil_iff]
  exact fun _ _ => rfl

end Sending

theorem Socket.SendsAlerts.stepSends {crypto : Crypto} {t : Config × Action} (c' : Config)
    (h : Socket.SendsAlerts crypto t.1.socket.handshakeHandler.toFlightState c'.socket)
    (hdata : acceptedData crypto t = []) : ∃ sendings, StepSends crypto t c' sendings := by
  rcases h with ⟨_, ⟨alerts, hsends⟩, hexpected⟩
  exact ⟨_, hsends, by rw [hdata, Sending.data_alerts], .inl ⟨Sending.kind_alerts alerts,
    by rw [hexpected]⟩⟩

-- A round of the loop sends the flight that answers the server's, and alerts after it.
theorem handleNext_sends (opts : Options) {crypto : Crypto} {c : Config}
    (hinv : ClientInv crypto c.socket) :
    ∃ sendings, StepSends crypto (c, .next) (c.handleNext opts crypto) sendings := by
  have halerts : Socket.SendsAlerts crypto
      (c.socket.handshakeHandler.toFlightState.behind opts crypto (c.flight .next))
      (c.handleNext opts crypto).socket := by
    apply Config.handleNext_flight (P := fun flight s => Socket.SendsAlerts crypto
      (c.socket.handshakeHandler.toFlightState.behind opts crypto flight) s) opts crypto
    · exact .refl hinv
    · intro memory fragment
      have hends := Socket.processIncomingMessage_sendsAlerts opts memory fragment hinv
      rw [ClientHandshakeHandler.take_flightState] at hends
      exact hends
    · intro d hmsg
      exact Socket.handleMessage_sendsAlerts opts d.memory d.rinfo hinv hmsg
  cases hflight : c.flight .next with
  | none =>
      rw [hflight] at halerts
      exact halerts.stepSends (t := (c, .next)) _ rfl
  | some flight =>
      rcases flight with ⟨messages, lastMsg⟩
      rcases Config.flight_expected hflight with ⟨expected, hexpected, hmem, hlast⟩
      rw [hflight, FlightState.behind] at halerts
      rcases FlightState.answered_movesOn opts hinv.flight hexpected hmem hlast with
        ⟨sendings, hsends, hdata, hedge⟩
      rcases halerts with ⟨_, ⟨alerts, hafter⟩, hsame⟩
      refine ⟨sendings ++ alerts.map .alert, hsends.trans hafter, ?_, .inr ?_⟩
      · rw [List.filterMap_append, hdata, Sending.data_alerts]
        rfl
      · rw [List.filterMap_append, Sending.kind_alerts, List.append_nil, hsame]
        exact hedge

-- The data is sent if the call returns; otherwise nothing happens.
theorem send_sends {crypto : Crypto} {c : Config} (data : Bytes) (hinv : ClientInv crypto c.socket) :
    ∃ sendings, StepSends crypto (c, .send data)
      { c with socket := finalState (Socket.send crypto data) c.socket } sendings := by
  have hmsg : (⟨.applicationData, data⟩ : Message).type ≠ .changeCipherSpec := ContentType.noConfusion
  have hends : Ends (Socket.send crypto data) c.socket
      (fun _ s' => FlightState.Sends crypto c.socket.handshakeHandler.toFlightState [.data data]
        s'.handshakeHandler.toFlightState ∧
        s'.handshakeHandler.expectedResponses = c.socket.handshakeHandler.expectedResponses)
      (fun _ s' => s' = c.socket) := by
    unfold Socket.send
    rw [ends_bind, ends_get]
    by_cases hclosed : c.socket.isClosed = true
    · rw [if_pos hclosed]
      rfl
    · rw [if_neg hclosed, ends_bind, ends_get]
      by_cases hfin : c.socket.handshakeFinished = true
      · rw [hfin]
        show Ends (Socket.callRecordLayer _) _ _ _
        unfold Socket.callRecordLayer
        rw [ends_onPart]
        apply (RecordLayer.send_writes hinv.epochs hmsg).mono
        · rintro _ rl' ⟨_, hwrites⟩
          exact ⟨⟨hwrites, (Int.add_zero _).symm, rfl⟩, rfl⟩
        · exact fun _ _ h => h.elim
      · rw [Bool.not_eq_true] at hfin
        rw [hfin]
        rfl
  unfold finalState
  cases hres : Socket.send crypto data c.socket with
  | ok _ s' =>
      rcases hends.of_ok hres with ⟨hsends, hexpected⟩
      refine ⟨_, hsends, ?_, .inl ⟨rfl, by rw [hexpected]⟩⟩
      simp [acceptedData, returns, hres, Sending.data?]
  | error e s' =>
      rw [hends.of_error hres]
      refine ⟨[], .refl _, ?_, .inl ⟨rfl, rfl⟩⟩
      simp [acceptedData, returns, hres]

/-- What a step of a client sends. -/
theorem step_sends (opts : Options) {crypto : Crypto} {c : Config} (a : Action)
    (hinv : ClientInv crypto c.socket) :
    ∃ sendings, StepSends crypto (c, a) (step opts crypto c a) sendings := by
  have hsame : ∀ (a : Action) (s : Socket), s.handshakeHandler = c.socket.handshakeHandler →
      acceptedData crypto (c, a) = [] →
      ∃ sendings, StepSends crypto (c, a) { c with socket := s } sendings := by
    intro a s hhandler hdata
    exact ((Socket.SendsAlerts.refl hinv).of_handler_eq hhandler).stepSends (t := (c, a))
      { c with socket := s } hdata
  have halert : ∀ (a : Action) (alert : Alert) (callback : Option SendCallback),
      acceptedData crypto (c, a) = [] → ∃ sendings, StepSends crypto (c, a)
        { c with socket := finalState (Socket.sendAlert crypto alert callback) c.socket }
        sendings := by
    intro a alert callback hdata
    have hsends := Ends.finalState (P := Socket.SendsAlerts crypto
        c.socket.handshakeHandler.toFlightState)
      ((Socket.sendAlert_sendsAlerts (.refl hinv) alert callback).mono (fun _ _ h => h)
        fun _ _ h => h.elim)
    exact hsends.stepSends (t := (c, a))
      { c with socket := finalState (Socket.sendAlert crypto alert callback) c.socket } hdata
  cases a with
  | datagram memory messageMemory udpMsg rinfo =>
      show ∃ sendings, StepSends crypto _ (Config.receiveDatagram crypto memory messageMemory udpMsg
        rinfo c) sendings
      unfold Config.receiveDatagram
      split
      · exact ⟨[], .nothing (RecordLayer.writesNothing_receive crypto memory udpMsg c.recordLayer) rfl,
          rfl, .inl ⟨rfl, rfl⟩⟩
      · exact hsame _ c.socket rfl rfl
  | next => exact handleNext_sends opts hinv
  | callback i => exact hsame _ _ (Socket.runCallback_handler i c.socket) rfl
  | handshakeTimeout => exact hsame _ _ (Socket.expectHandshake_handler c.socket) rfl
  | udpClose => exact hsame _ _ (Socket.udpOnClose_handler c.socket) rfl
  | udpError e => exact hsame _ _ (Socket.killConnection_handler (some e) c.socket) rfl
  | send data => exact send_sends data hinv
  | close => exact halert _ _ _ rfl
  | sendAlert alert => exact halert _ alert none rfl

-- What protects an epoch that is written stays the same in every run.
theorem foldl_specify (opts : Options) {crypto : Crypto} {c : Config} (hinv : ClientInv crypto c.socket)
    {i : Nat} (hi : i ≤ c.recordLayer.writeEpochNr) (later : List Action) :
    ((later.foldl (step opts crypto) c).recordLayer.connState i).specify =
      (c.recordLayer.connState i).specify := by
  induction later generalizing c with
  | nil => rfl
  | cons a later ih =>
      rcases step_sends opts a hinv with ⟨sendings, hstep⟩
      have hwrites := hstep.sends.writes
      rw [List.foldl_cons, ih (step_inv opts hinv a) (Nat.le_trans hi hwrites.writeEpochNr_le)]
      exact hwrites.specify hi

end DtlsClient
