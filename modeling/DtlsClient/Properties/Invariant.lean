import DtlsClient.Properties.Handlers
import DtlsClient.Run

/-!
# The invariant of a client

`ClientInv` holds in every state of every run.  `Moves` says how far one step can get.
-/

open Library

namespace DtlsClient

open FlightState

namespace RecordLayer

theorem send_ends {crypto : Crypto} {keyed : Bool} {msg : Message} {rl : RecordLayer}
    (hinv : EpochsInv crypto keyed rl) (hmsg : msg.type ≠ .changeCipherSpec) :
    Ends (send crypto msg) rl
      (fun _ rl' => ∃ buf rl1, processOutgoingMessage crypto msg rl = .ok buf rl1 ∧
        SentMessages crypto keyed [msg] rl rl1 ∧ rl' = rl1.udpSend buf) (fun _ _ => False) := by
  have hcount : [msg].countP isChangeCipherSpec = 0 := by
    rw [List.countP_singleton, isChangeCipherSpec, decide_eq_false hmsg]
    rfl
  have hends :=
    processOutgoingMessage_sent hinv (maySend_of_countP_eq_zero hcount hinv.writeEpochNr)
  rcases hends.exists_ok with ⟨buf, rl1, hok, hsent⟩
  unfold send
  rw [ends_bind, ends_of_eq_ok hok, ends_modify]
  exact ⟨buf, rl1, hok, hsent, rfl⟩

theorem SentMessages.write_eq {crypto : Crypto} {keyed : Bool} {msg : Message}
    {rl rl' : RecordLayer} (h : SentMessages crypto keyed [msg] rl rl')
    (hmsg : msg.type ≠ .changeCipherSpec) : rl'.writeEpochNr = rl.writeEpochNr := by
  rw [h.writeEpochNr, List.countP_singleton, isChangeCipherSpec, decide_eq_false hmsg]
  rfl

end RecordLayer

theorem ClientHandshakeHandler.storeMessage_ends (memory : MessageMemory)
    (msg : FragmentedHandshake) (h : ClientHandshakeHandler) :
    Ends (storeMessage memory msg) h
      (fun _ h' => h'.toFlightState = h.toFlightState)
      (fun _ h' => h'.toFlightState = h.toFlightState) := by
  unfold storeMessage
  split
  · unfold tryAssembleFragments
    simp only [ends_bind, ends_modify, ends_get]
    split
    · rfl
    · rfl
    · rfl
  · split
    · rfl
    · rfl

/-- The data of a `message` event, with its sender. -/
def SocketEvent.payload? : SocketEvent → Option (Bytes × RemoteInfo)
  | .message data rinfo => some (data, rinfo)
  | _ => none

/-- The application data that was emitted and then that which is buffered. -/
def Socket.payloads (s : Socket) : List (Bytes × RemoteInfo) :=
  s.events.filterMap SocketEvent.payload? ++ s.bufferedMessages.map fun m => (m.1.data, m.2)

/-- What holds between any two steps of a client. -/
structure ClientInv (crypto : Crypto) (s : Socket) : Prop where
  flight : Inv crypto s.handshakeHandler.toFlightState
  finishedCalls : s.handshakeHandler.finishedCalls = []
  finished : s.handshakeFinished = true →
    s.recordLayer.writeEpochNr = 1 ∧ s.handshakeHandler.expectedResponses = none
  buffered : s.handshakeFinished = true → s.bufferedMessages = []
  connected : s.events.count .connected = if s.handshakeFinished then 1 else 0
  callbacks : SendCallback.nextStep none ∉ s.pendingCallbacks

namespace ClientInv

variable {crypto : Crypto} {s : Socket}

-- The record layer may change by itself, as long as the write epoch and the suite of epoch 1 stay.
theorem setRecordLayer (h : ClientInv crypto s) {rl : RecordLayer}
    (hepochs : EpochsInv crypto s.handshakeHandler.keyed rl)
    (hwrite : rl.writeEpochNr = s.recordLayer.writeEpochNr)
    (hsuite : (rl.connState 1).cipherSuite = (s.recordLayer.connState 1).cipherSuite)
    (hudp : s.recordLayer.udpSocket ⊆ rl.udpSocket) : ClientInv crypto (s.setRecordLayer rl) where
  flight := h.flight.withRecordLayer hepochs hwrite hsuite hudp
  finishedCalls := h.finishedCalls
  finished := fun hf => ⟨hwrite.trans (h.finished hf).1, (h.finished hf).2⟩
  buffered := h.buffered
  connected := h.connected
  callbacks := h.callbacks

theorem epochs (h : ClientInv crypto s) :
    EpochsInv crypto (s.recordLayer.writeEpochNr == 1) s.recordLayer := h.flight.epochs

theorem receive (h : ClientInv crypto s) (memory : Nat → Memory) (buf : Bytes) :
    ClientInv crypto (s.setRecordLayer (s.recordLayer.receive crypto memory buf).2) := by
  refine h.setRecordLayer (h.epochs.receive memory buf) (RecordLayer.receive_writeEpochNr ..) ?_ ?_
  · rw [RecordLayer.connState_receive]
    split <;> rfl
  · rw [RecordLayer.receive_udpSocket]
    exact List.Subset.refl _

theorem advanceReadEpoch (h : ClientInv crypto s) :
    ClientInv crypto (s.setRecordLayer s.recordLayer.advanceReadEpoch) :=
  h.setRecordLayer h.epochs.advanceReadEpoch rfl
    (by rw [RecordLayer.connState_advanceReadEpoch]) (List.Subset.refl _)

theorem emit (h : ClientInv crypto s) {event : SocketEvent} (hne : event ≠ .connected) :
    ClientInv crypto (s.emit event) where
  flight := h.flight
  finishedCalls := h.finishedCalls
  finished := h.finished
  buffered := h.buffered
  connected := by
    show (s.events ++ [event]).count .connected = _
    rw [List.count_append, List.count_singleton, if_neg (by simpa using hne)]
    exact h.connected
  callbacks := h.callbacks

theorem setClosed (h : ClientInv crypto s) : ClientInv crypto { s with isClosed := true } :=
  ⟨h.flight, h.finishedCalls, h.finished, h.buffered, h.connected, h.callbacks⟩

theorem killConnection (h : ClientInv crypto s) (err : Option JsError) :
    ClientInv crypto (s.killConnection err) := by
  unfold Socket.killConnection
  split
  · exact h
  · cases err with
    | none => exact h.setClosed
    | some e => exact h.setClosed.emit nofun

theorem setCallbacks (h : ClientInv crypto s) {callbacks : List SendCallback}
    (hne : SendCallback.nextStep none ∉ callbacks) :
    ClientInv crypto { s with pendingCallbacks := callbacks } :=
  ⟨h.flight, h.finishedCalls, h.finished, h.buffered, h.connected, hne⟩

-- The calls of `finishedCallback` are taken from the handler before they are made.
theorem setHandler (h : ClientInv crypto s) {handler : ClientHandshakeHandler}
    (hflight : Inv crypto handler.toFlightState)
    (hfinished : s.handshakeFinished = true → handler.recordLayer.writeEpochNr = 1 ∧
      handler.expectedResponses = none) :
    ClientInv crypto { s with handshakeHandler := { handler with finishedCalls := [] } } where
  flight := ⟨hflight.epochs, hflight.buffer,
    hflight.awaits.congr rfl rfl (List.Subset.refl _) rfl (List.Subset.refl _)⟩
  finishedCalls := rfl
  finished := hfinished
  buffered := h.buffered
  connected := h.connected
  callbacks := h.callbacks

end ClientInv

/-! ## Steps that neither receive a datagram nor switch the read epoch -/

/-- How far such a step can get; the handshake is not reported as done. -/
structure Moves (crypto : Crypto) (s s' : Socket) : Prop where
  inv : ClientInv crypto s'
  progress : Progress s.handshakeHandler.toFlightState s'.handshakeHandler.toFlightState
  handshakeFinished : s'.handshakeFinished = s.handshakeFinished
  payloads : s'.payloads = s.payloads
  /-- once no response is expected any more, the handshake gets no further -/
  idle : s.handshakeHandler.expectedResponses = none →
    s'.handshakeHandler.expectedResponses = none ∧
      s'.recordLayer.writeEpochNr = s.recordLayer.writeEpochNr

theorem Socket.payloads_emit (s : Socket) {event : SocketEvent} (hnone : event.payload? = none) :
    (s.emit event).payloads = s.payloads := by
  unfold payloads emit
  rw [List.filterMap_append, List.filterMap_cons_none hnone, List.filterMap_nil, List.append_nil]

namespace Moves

variable {crypto : Crypto} {s s' s'' : Socket}

theorem refl (h : ClientInv crypto s) : Moves crypto s s :=
  ⟨h, .refl _, rfl, rfl, fun hidle => ⟨hidle, rfl⟩⟩

theorem trans (h : Moves crypto s s') (h' : Moves crypto s' s'') : Moves crypto s s'' :=
  ⟨h'.inv, h.progress.trans h'.progress, h'.handshakeFinished.trans h.handshakeFinished,
    h'.payloads.trans h.payloads, fun hidle =>
      have h1 := h.idle hidle
      have h2 := h'.idle h1.1
      ⟨h2.1, h2.2.trans h1.2⟩⟩

theorem of_handler_eq (hinv : ClientInv crypto s')
    (hhandler : s'.handshakeHandler = s.handshakeHandler)
    (hfinished : s'.handshakeFinished = s.handshakeFinished) (hpayloads : s'.payloads = s.payloads) :
    Moves crypto s s' :=
  ⟨hinv, by rw [hhandler]; exact .refl _, hfinished, hpayloads, fun hidle =>
    ⟨by rw [hhandler]; exact hidle, by unfold Socket.recordLayer; rw [hhandler]⟩⟩

-- A handler that only stores a message gets no further either.
theorem of_flightState_eq (hinv : ClientInv crypto s) {handler : ClientHandshakeHandler}
    (hsame : handler.toFlightState = s.handshakeHandler.toFlightState) :
    Moves crypto s { s with handshakeHandler := handler } where
  inv := by
    refine ⟨hsame ▸ hinv.flight, ?_, fun hfinished => ?_, hinv.buffered, hinv.connected,
      hinv.callbacks⟩
    · rw [hsame]
      exact hinv.finishedCalls
    · show handler.recordLayer.writeEpochNr = 1 ∧ handler.expectedResponses = none
      rw [hsame]
      exact hinv.finished hfinished
  progress := by
    show Progress _ handler.toFlightState
    rw [hsame]
    exact .refl _
  handshakeFinished := rfl
  payloads := rfl
  idle := by
    intro hidle
    show handler.expectedResponses = none ∧ handler.recordLayer.writeEpochNr = _
    rw [hsame]
    exact ⟨hidle, rfl⟩

theorem killConnection (h : ClientInv crypto s) (err : Option JsError) :
    Moves crypto s (s.killConnection err) := by
  refine .of_handler_eq (h.killConnection err) ?_ ?_ ?_ <;>
  · unfold Socket.killConnection
    split
    · rfl
    · cases err with
      | none => rfl
      | some e => first | rfl | exact Socket.payloads_emit _ rfl

end Moves

namespace Socket

variable {crypto : Crypto} {s : Socket}

theorem callSend_ends {msg : Message} (hmsg : msg.type ≠ .changeCipherSpec)
    (hinv : ClientInv crypto s) :
    Ends (callRecordLayer (RecordLayer.send crypto msg)) s (fun _ => Moves crypto s)
      (fun _ _ => False) := by
  unfold callRecordLayer
  rw [ends_onPart]
  refine (RecordLayer.send_ends hinv.epochs hmsg).mono (fun _ rl' h => ?_) fun _ _ h => h
  rcases h with ⟨buf, rl1, _, hsent, rfl⟩
  have hwrite := hsent.write_eq hmsg
  refine ⟨hinv.setRecordLayer ?_ hwrite ?_ ?_, ⟨hsent.readEpochNr, .inl hwrite, fun i => ?_⟩, rfl,
    rfl, fun hidle => ⟨hidle, hwrite⟩⟩
  · exact hsent.inv.congr (fun _ => rfl) rfl
  · show (rl1.connState 1).cipherSuite = _
    rw [hsent.connState 1]
  · show s.recordLayer.udpSocket ⊆ rl1.udpSocket ++ [buf]
    rw [hsent.udpSocket]
    exact List.subset_append_left _ _
  · show (rl1.connState i).cachedDecipher = _
    rw [hsent.connState i]
    rfl

theorem sendAlert_ends (alert : Alert) (callback : Option SendCallback)
    (hinv : ClientInv crypto s) (hne : callback ≠ some (.nextStep none)) :
    Ends (sendAlert crypto alert callback) s (fun _ => Moves crypto s) (fun _ _ => False) := by
  unfold sendAlert
  rw [ends_bind]
  have hmsg : (⟨.alert, alert.serialize⟩ : Message).type ≠ .changeCipherSpec := nofun
  refine (callSend_ends hmsg hinv).mono (fun _ s1 h1 => ?_) fun _ _ h => h
  rw [ends_modify]
  refine h1.trans (.of_handler_eq (h1.inv.setCallbacks ?_) rfl rfl rfl)
  rw [List.mem_append, not_or]
  refine ⟨h1.inv.callbacks, fun hmem => hne ?_⟩
  rw [Option.mem_toList] at hmem
  exact hmem

theorem close_ends (hinv : ClientInv crypto s) :
    Ends (close crypto) s (fun _ => Moves crypto s) (fun _ _ => False) :=
  sendAlert_ends _ _ hinv nofun

-- `send` only reaches the record layer where the handshake is done.
theorem send_moves (data : Bytes) (hinv : ClientInv crypto s) :
    Ends (send crypto data) s (fun _ => Moves crypto s) (fun _ => Moves crypto s) := by
  have hmsg : (⟨.applicationData, data⟩ : Message).type ≠ .changeCipherSpec := nofun
  have hsend : Ends (callRecordLayer (RecordLayer.send crypto ⟨.applicationData, data⟩)) s
      (fun _ => Moves crypto s) (fun _ => Moves crypto s) :=
    (callSend_ends hmsg hinv).mono (fun _ _ h => h) fun _ _ h => h.elim
  unfold send
  rw [ends_bind, ends_get]
  by_cases hclosed : s.isClosed = true
  · rw [if_pos hclosed]
    exact .refl hinv
  · rw [if_neg hclosed, ends_bind, ends_get]
    by_cases hfin : s.handshakeFinished = true
    · rw [hfin]
      exact hsend
    · rw [Bool.not_eq_true] at hfin
      rw [hfin]
      exact .refl hinv

-- A call that reports an error sends the alert that comes with it, or kills the connection.
theorem finishedCallback_ends {call : FinishedCall} (hinv : ClientInv crypto s)
    (hfail : call.err ≠ none) :
    Ends (finishedCallback crypto call) s (fun _ => Moves crypto s) (fun _ _ => False) := by
  rcases call with ⟨alert, err⟩
  cases err with
  | none => exact absurd rfl hfail
  | some e =>
      cases alert with
      | some alert => exact sendAlert_ends alert _ hinv nofun
      | none => exact Moves.killConnection hinv (some e)

theorem expectHandshake_moves (hinv : ClientInv crypto s) : Moves crypto s s.expectHandshake := by
  unfold expectHandshake
  split
  · exact Moves.killConnection hinv _
  · exact .refl hinv

theorem udpOnClose_moves (hinv : ClientInv crypto s) : Moves crypto s s.udpOnClose := by
  unfold udpOnClose
  split
  · exact .refl hinv
  · exact .of_handler_eq (hinv.setClosed.emit nofun) rfl rfl (payloads_emit _ rfl)

-- No callback that waits for an alert reports the handshake as done.
theorem runCallback_moves (i : Nat) (hinv : ClientInv crypto s) :
    Moves crypto s (Config.runCallback i s) := by
  unfold Config.runCallback
  split
  · exact .refl hinv
  · rename_i callback hcallback
    have hmem : callback ∈ s.pendingCallbacks := List.mem_of_getElem? hcallback
    have hrest : SendCallback.nextStep none ∉ s.pendingCallbacks.eraseIdx i :=
      fun hin => hinv.callbacks (List.mem_of_mem_eraseIdx hin)
    have hmove : Moves crypto s { s with pendingCallbacks := s.pendingCallbacks.eraseIdx i } :=
      .of_handler_eq (hinv.setCallbacks hrest) rfl rfl rfl
    cases callback with
    | closeUdp => exact hmove
    | nextStep err =>
        cases err with
        | none => exact absurd hmem hinv.callbacks
        | some e => exact hmove.trans (.killConnection hmove.inv (some e))

end Socket

/-! ## Handshake messages -/

namespace ClientHandshakeHandler

variable {crypto : Crypto}

/-- The messages form a flight when they follow the last processed one, and the last of them is one
that is expected. -/
theorem completeFlight_eq_some {h : ClientHandshakeHandler} {messages : List Handshake}
    {lastMsg : Handshake} :
    h.completeFlight = some (messages, lastMsg) ↔
      uninterrupted h.lastProcessedSeqNum h.completeMessages.keys = true ∧
      h.completeMessages.values = messages ∧ h.completeMessages.last? = some lastMsg ∧
      ∃ expected, h.expectedResponses = some expected ∧ lastMsg.msgType ∈ expected := by
  unfold completeFlight
  constructor
  · intro hflight
    split at hflight
    · rename_i hgap
      split at hflight
      · rename_i last expected hlast hexpected
        split at hflight
        · rename_i hmem
          rcases Prod.mk.inj (Option.some.inj hflight) with ⟨hvalues, rfl⟩
          exact ⟨hgap, hvalues, hlast, expected, hexpected, hmem⟩
        · cases hflight
      · cases hflight
    · cases hflight
  · rintro ⟨hgap, rfl, hlast, expected, hexpected, hmem⟩
    rw [if_pos hgap, hlast, hexpected]
    exact if_pos hmem

theorem completeFlight_expected {h : ClientHandshakeHandler} {messages : List Handshake}
    {lastMsg : Handshake} (hflight : h.completeFlight = some (messages, lastMsg)) :
    ∃ expected, h.expectedResponses = some expected ∧ lastMsg.msgType ∈ expected :=
  (completeFlight_eq_some.mp hflight).2.2.2

/-- A message leaves the flights alone unless it completes one that is expected. -/
theorem processIncomingMessage_ends (opts : Options) (memory : MessageMemory)
    (msg : FragmentedHandshake) {h : ClientHandshakeHandler}
    (hinv : Inv crypto h.toFlightState) :
    Ends (processIncomingMessage opts crypto memory msg) h
      (fun _ h' => h'.toFlightState = h.toFlightState ∨
        h.expectedResponses ≠ none ∧ (Handled crypto h.toFlightState h'.toFlightState ∨
          h.recordLayer.writeEpochNr = 1 ∧ FinishedFlightSent crypto h.toFlightState ∧
          ∃ h1 messages lastMsg, storeMessage memory msg h = .ok true h1 ∧
            h1.completeFlight = some (messages, lastMsg) ∧
            Confirmed crypto (h.transcript messages) messages h.toFlightState h'.toFlightState))
      (fun e h' => (∃ h1, storeMessage memory msg h = .error e h1) ∧
        h'.toFlightState = h.toFlightState) := by
  unfold processIncomingMessage
  rw [ends_bind]
  have hstore := storeMessage_ends memory msg h
  cases hres : storeMessage memory msg h with
  | error e h1 =>
      have hsame := hstore.of_error hres
      unfold Ends
      rw [hres]
      exact ⟨⟨h1, rfl⟩, hsame⟩
  | ok complete h1 =>
      have hsame := hstore.of_ok hres
      rw [ends_of_eq_ok hres]
      cases complete with
      | false => exact .inl hsame
      | true =>
          simp only [if_true, ends_bind, ends_get]
          split
          · rename_i messages lastMsg hflight
            rcases completeFlight_expected hflight with ⟨expected, hexpected, hmem⟩
            have hinv1 : Inv crypto h1.toFlightState := hsame ▸ hinv
            have hdata : h1.transcript messages = h.transcript messages := by
              rw [transcript, transcript, hsame]
            refine (handleFlight_ends opts hinv1 hexpected hmem).mono (fun _ h' hh => ?_)
              fun _ _ h => h.elim
            rw [hsame, hdata] at hh
            rw [hsame] at hexpected
            refine .inr ⟨fun hnone => Option.some_ne_none _ (hexpected.symm.trans hnone), ?_⟩
            rcases hh with hh | ⟨hwrite, hsent, hh⟩
            · exact .inl hh
            · exact .inr ⟨hwrite, hsent, h1, messages, lastMsg, rfl, hflight, hh⟩
          · exact .inl hsame

end ClientHandshakeHandler

/-- Processing the message completes a Finished flight whose verify data is the one that the server
computes with the secrets of the current read epoch.  The transcript is what was hashed so far,
the client's own Finished included, and the messages of the flight before the one that is verified. -/
structure VerifiedFinished (crypto : Crypto) (memory : MessageMemory) (msg : FragmentedHandshake)
    (s : Socket) : Prop where
  writeEpochNr : s.recordLayer.writeEpochNr = 1
  sent : FinishedFlightSent crypto s.handshakeHandler.toFlightState
  verified : ∃ h messages lastMsg seq received,
    ClientHandshakeHandler.storeMessage memory msg s.handshakeHandler = .ok true h ∧
    h.completeFlight = some (messages, lastMsg) ∧
    messages.getLast? = some ⟨seq, .finished received⟩ ∧
    Verifies crypto s.recordLayer.currentReadEpoch.connectionState
      (s.handshakeHandler.transcript messages) received

/-- The step that reports the handshake as done. -/
structure Finishes (crypto : Crypto) (memory : MessageMemory) (msg : FragmentedHandshake)
    (s s' : Socket) : Prop where
  inv : ClientInv crypto s'
  progress : Progress s.handshakeHandler.toFlightState s'.handshakeHandler.toFlightState
  before : s.handshakeFinished = false
  after : s'.handshakeFinished = true
  payloads : s'.payloads = s.payloads
  verified : VerifiedFinished crypto memory msg s

namespace Socket

variable {crypto : Crypto} {s : Socket}

theorem nextStep_inv (hinv : ClientInv crypto s) (hfinished : s.handshakeFinished = false)
    (hwrite : s.recordLayer.writeEpochNr = 1)
    (hexpected : s.handshakeHandler.expectedResponses = none) :
    ClientInv crypto (s.nextStep none) where
  flight := hinv.flight
  finishedCalls := hinv.finishedCalls
  finished := fun _ => ⟨hwrite, hexpected⟩
  buffered := fun _ => rfl
  connected := by
    have hcount := hinv.connected
    rw [hfinished, if_neg Bool.false_ne_true] at hcount
    show List.count _ (s.events ++ [.connected] ++ _) = 1
    rw [List.count_append, List.count_append, hcount, List.count_eq_zero_of_not_mem (l := List.map _ _)]
    · rfl
    · intro hmem
      rcases List.mem_map.mp hmem with ⟨m, _, hm⟩
      cases hm
  callbacks := hinv.callbacks

theorem payloads_nextStep (s : Socket) : (s.nextStep none).payloads = s.payloads := by
  have hpayload : (SocketEvent.payload? ∘ fun m : Message × RemoteInfo =>
      SocketEvent.message m.1.data m.2) = some ∘ fun m => (m.1.data, m.2) := rfl
  unfold payloads nextStep emit
  have hconnected : List.filterMap SocketEvent.payload? [.connected] = [] := rfl
  simp only [List.filterMap_append, List.filterMap_map, hpayload, List.filterMap_eq_map,
    List.map_nil, List.append_nil, hconnected]

theorem finishedCallbacks_ends {calls : List FinishedCall} (hinv : ClientInv crypto s)
    (hfail : ∀ call ∈ calls, call.err ≠ none) :
    Ends (calls.forM (finishedCallback crypto)) s (fun _ => Moves crypto s) (fun _ _ => False) := by
  apply ends_forM (P := Moves crypto s)
  · intro call hcall s' hmove
    apply (finishedCallback_ends hmove.inv (hfail call hcall)).mono
    · exact fun _ _ h => hmove.trans h
    · exact fun _ _ h => h
  · exact .refl hinv

-- It throws only if the message cannot be stored.
theorem processIncomingMessage_ends (opts : Options) (memory : MessageMemory)
    (msg : FragmentedHandshake) (hinv : ClientInv crypto s) :
    Ends (processIncomingMessage opts crypto memory msg) s
      (fun _ s' => Moves crypto s s' ∨ Finishes crypto memory msg s s')
      (fun e s' => (∃ h, ClientHandshakeHandler.storeMessage memory msg s.handshakeHandler =
        .error e h) ∧ Moves crypto s s') := by
  unfold processIncomingMessage callHandler
  rw [ends_bind, ends_onPart]
  refine (ClientHandshakeHandler.processIncomingMessage_ends opts memory msg hinv.flight).mono
    (fun _ h hpost => ?_) fun _ h ⟨hthrown, hsame⟩ => ⟨hthrown, ?_⟩
  · simp only [ends_bind, ends_get, ends_onPart, ends_modify]
    have hnil := hinv.finishedCalls
    rcases hpost with hsame | ⟨hexpected, hpost⟩
    · -- without a call there is nothing to take from the handler
      have hcalls : h.finishedCalls = [] := by rw [hsame]; exact hnil
      rw [hcalls]
      left
      apply Moves.of_flightState_eq hinv
      rw [← hsame, ← hcalls]
    · have hunfinished : s.handshakeFinished = false := by
        by_contra hf
        rw [Bool.not_eq_false] at hf
        exact hexpected (hinv.finished hf).2
      have hvacuous : s.handshakeFinished = true → h.recordLayer.writeEpochNr = 1 ∧
          h.expectedResponses = none := fun hf => by rw [hunfinished] at hf; cases hf
      rcases hpost with hhandled | ⟨hwrite, hsent, h1, messages, lastMsg, hstore, hflight, hconf⟩
      · rcases hhandled.finishedCalls with ⟨calls, hcalls, hfail⟩
        rw [hnil, List.nil_append] at hcalls
        rw [hcalls]
        have hmove : Moves crypto s
            { s with handshakeHandler := { h with finishedCalls := [] } } :=
          ⟨hinv.setHandler hhandled.inv hvacuous, hhandled.progress.trans ⟨rfl, .inl rfl, fun _ => rfl⟩,
            rfl, rfl, fun hidle => absurd hidle hexpected⟩
        exact (finishedCallbacks_ends hmove.inv hfail).mono (fun _ _ h => .inl (hmove.trans h))
          fun _ _ h => h.elim
      · have hcalls := hconf.finishedCalls
        rw [hnil, List.nil_append] at hcalls
        rw [hcalls]
        have hwrite' : h.recordLayer.writeEpochNr = 1 := by
          have hprogress := hconf.progress.writeEpochNr
          omega
        right
        rcases hconf.verified with ⟨seq, received, hmsg, hverifies⟩
        exact ⟨nextStep_inv (hinv.setHandler hconf.inv hvacuous) hunfinished hwrite'
            hconf.expectedResponses,
          hconf.progress.trans ⟨rfl, .inl rfl, fun _ => rfl⟩, hunfinished, rfl, payloads_nextStep _,
          hwrite, hsent,
          h1, messages, lastMsg, seq, received, hstore, hflight, hmsg, hverifies⟩
  · exact .of_flightState_eq hinv hsame

theorem handleMessage_ends (opts : Options) (memory : MessageMemory) {msg : Message}
    (rinfo : RemoteInfo) (hccs : msg.type ≠ .changeCipherSpec) (hdata : msg.type ≠ .applicationData)
    (hinv : ClientInv crypto s) :
    Ends (handleMessage opts crypto memory msg rinfo) s
      (fun _ s' => Moves crypto s s' ∨ msg.type = .handshake ∧ ∃ fragment,
        FragmentedHandshake.fromBuffer memory.fragment msg.data = .ok fragment ∧
        Finishes crypto memory fragment s s')
      (fun _ => Moves crypto s) := by
  rcases msg with ⟨type, data⟩
  unfold handleMessage
  cases type with
  | handshake =>
      simp only
      split
      · exact .refl hinv
      · rename_i fragment hfragment
        refine (processIncomingMessage_ends opts memory fragment hinv).mono (fun _ s' h => ?_)
          fun _ _ h => h.2
        rcases h with h | h
        · exact .inl h
        · exact .inr ⟨trivial, fragment, hfragment, h⟩
  | changeCipherSpec => exact absurd rfl hccs
  | alert =>
      simp only
      split
      · exact .inl (.killConnection hinv _)
      · split
        · exact (close_ends hinv).mono (fun _ _ h => .inl h) fun _ _ h => h.elim
        · exact .inl (.refl hinv)
  | applicationData => exact absurd rfl hdata
  | other n => exact .inl (.refl hinv)

-- The state after application data is emitted or buffered.
def deliver (msg : Message) (rinfo : RemoteInfo) (s : Socket) : Socket :=
  if s.handshakeFinished then s.emit (.message msg.data rinfo)
  else { s with bufferedMessages := s.bufferedMessages ++ [(msg, rinfo)] }

theorem deliver_inv (msg : Message) (rinfo : RemoteInfo) (hinv : ClientInv crypto s) :
    ClientInv crypto (s.deliver msg rinfo) := by
  unfold deliver
  split
  · exact hinv.emit nofun
  · rename_i hunfinished
    exact ⟨hinv.flight, hinv.finishedCalls, hinv.finished, fun hf => absurd hf hunfinished,
      hinv.connected, hinv.callbacks⟩

theorem deliver_handler (msg : Message) (rinfo : RemoteInfo) (s : Socket) :
    (s.deliver msg rinfo).handshakeHandler = s.handshakeHandler ∧
      (s.deliver msg rinfo).handshakeFinished = s.handshakeFinished := by
  unfold deliver
  split <;> exact ⟨rfl, rfl⟩

theorem payloads_deliver (msg : Message) (rinfo : RemoteInfo) (hinv : ClientInv crypto s) :
    (s.deliver msg rinfo).payloads = s.payloads ++ [(msg.data, rinfo)] := by
  unfold deliver payloads
  split
  · rename_i hfinished
    have hnil := hinv.buffered hfinished
    simp only [emit, hnil, List.map_nil, List.append_nil, List.filterMap_append]
    rfl
  · simp only [List.map_append, List.append_assoc, List.map_cons, List.map_nil]

end Socket

/-! ## Every step -/

/-- What a step can do. -/
inductive StepCase (crypto : Crypto) (c : Config) (a : Action) (c' : Config) : Prop
  /-- It receives a datagram. -/
  | receives (memory : Nat → Memory) (messageMemory : Nat → MessageMemory) (udpMsg : Bytes)
      (rinfo : RemoteInfo) (haction : a = .datagram memory messageMemory udpMsg rinfo)
      (htakes : c.takesDatagram = true)
      (hnext : c' = ⟨c.socket.setRecordLayer (c.recordLayer.receive crypto memory udpMsg).2,
        Config.deliveries messageMemory rinfo (c.recordLayer.receive crypto memory udpMsg).1⟩)
  /-- A ChangeCipherSpec switches the read epoch. -/
  | switches (d : Delivery) (pending : List Delivery) (haction : a = .next)
      (hpending : c.pending = d :: pending) (hmsg : d.msg.type = .changeCipherSpec)
      (hnext : c' = ⟨c.socket.setRecordLayer c.recordLayer.advanceReadEpoch, pending⟩)
  /-- Application data is emitted or buffered. -/
  | delivers (d : Delivery) (pending : List Delivery) (haction : a = .next)
      (hpending : c.pending = d :: pending) (hmsg : d.msg.type = .applicationData)
      (hnext : c' = ⟨c.socket.deliver d.msg d.rinfo, pending⟩)
  /-- A handshake message completes the Finished flight. -/
  | finishes (d : Delivery) (fragment : FragmentedHandshake) (haction : a = .next)
      (hpending : c.pending = d :: c'.pending) (hmsg : d.msg.type = .handshake)
      (hfragment : FragmentedHandshake.fromBuffer d.memory.fragment d.msg.data = .ok fragment)
      (hfinishes : Finishes crypto d.memory fragment c.socket c'.socket)
  | moves (hmoves : Moves crypto c.socket c'.socket) (hpending : c'.pending.Sublist c.pending)

-- What handling a message ensures, however it ends, holds after the next round of the loop.
theorem Config.handleNext_socket {P : Socket → Prop} (opts : Options) (crypto : Crypto) {c : Config}
    (hidle : c.pending = [] → P c.socket)
    (hhandles : ∀ d pending, c.pending = d :: pending →
      Ends (Socket.handleMessage opts crypto d.memory d.msg d.rinfo) c.socket
        (fun _ => P) (fun _ => P)) : P (c.handleNext opts crypto).socket := by
  unfold Config.handleNext
  cases hpending : c.pending with
  | nil => exact hidle hpending
  | cons d pending =>
      have hends := hhandles d pending hpending
      cases hres : Socket.handleMessage opts crypto d.memory d.msg d.rinfo c.socket with
      | ok _ s' =>
          simp only [hres]
          exact hends.of_ok hres
      | error e s' =>
          simp only [hres]
          exact hends.of_error hres

theorem handleNext_cases (opts : Options) {crypto : Crypto} {c : Config}
    (hinv : ClientInv crypto c.socket) :
    StepCase crypto c .next (c.handleNext opts crypto) := by
  unfold Config.handleNext
  cases hpending : c.pending with
  | nil => exact .moves (.refl hinv) (List.Sublist.refl _)
  | cons d pending =>
      by_cases hccs : d.msg.type = .changeCipherSpec
      · have heq : Socket.handleMessage opts crypto d.memory d.msg d.rinfo c.socket =
            .ok () (c.socket.setRecordLayer c.recordLayer.advanceReadEpoch) := by
          unfold Socket.handleMessage
          rw [hccs]
          rfl
        simp only [heq]
        exact .switches d pending rfl hpending hccs rfl
      · by_cases hdata : d.msg.type = .applicationData
        · have heq : Socket.handleMessage opts crypto d.memory d.msg d.rinfo c.socket =
              .ok () (c.socket.deliver d.msg d.rinfo) := by
            unfold Socket.handleMessage
            rw [hdata]
            rfl
          simp only [heq]
          exact .delivers d pending rfl hpending hdata rfl
        · have hends := Socket.handleMessage_ends opts d.memory d.rinfo hccs hdata hinv
          cases hres : Socket.handleMessage opts crypto d.memory d.msg d.rinfo c.socket with
          | ok _ s' =>
              simp only [hres]
              rcases hends.of_ok hres with h | ⟨hmsg, fragment, hfragment, h⟩
              · exact .moves h (hpending ▸ List.sublist_cons_self d pending)
              · exact .finishes d fragment rfl hpending hmsg hfragment h
          | error e s' =>
              simp only [hres]
              exact .moves (hends.of_error hres) (List.nil_sublist _)

theorem step_cases (opts : Options) {crypto : Crypto} {c : Config}
    (hinv : ClientInv crypto c.socket) (a : Action) :
    StepCase crypto c a (step opts crypto c a) := by
  cases a with
  | datagram memory messageMemory udpMsg rinfo =>
      by_cases htakes : c.takesDatagram = true
      · refine .receives memory messageMemory udpMsg rinfo rfl htakes ?_
        show Config.receiveDatagram crypto memory messageMemory udpMsg rinfo c = _
        rw [Config.receiveDatagram, if_pos htakes]
      · have hsame : step opts crypto c (.datagram memory messageMemory udpMsg rinfo) = c := by
          show Config.receiveDatagram crypto memory messageMemory udpMsg rinfo c = _
          rw [Config.receiveDatagram, if_neg htakes]
        rw [hsame]
        exact .moves (.refl hinv) (List.Sublist.refl _)
  | next => exact handleNext_cases opts hinv
  | callback i => exact .moves (Socket.runCallback_moves i hinv) (List.Sublist.refl _)
  | handshakeTimeout => exact .moves (Socket.expectHandshake_moves hinv) (List.Sublist.refl _)
  | udpClose => exact .moves (Socket.udpOnClose_moves hinv) (List.Sublist.refl _)
  | udpError e => exact .moves (Moves.killConnection hinv (some e)) (List.Sublist.refl _)
  | send data => exact .moves (Socket.send_moves data hinv).finalState (List.Sublist.refl _)
  | close =>
      exact .moves (((Socket.close_ends hinv).mono (fun _ _ h => h)
        fun _ _ h => h.elim).finalState) (List.Sublist.refl _)
  | sendAlert alert =>
      have hne : (none : Option SendCallback) ≠ some (.nextStep none) := (Option.some_ne_none _).symm
      exact .moves (((Socket.sendAlert_ends alert none hinv hne).mono (fun _ _ h => h)
        fun _ _ h => h.elim).finalState) (List.Sublist.refl _)

-- Records are only received where a datagram is taken.
theorem Config.receivedRecords_cases {c : Config} {a : Action} {p : DTLSCiphertext}
    (hp : p ∈ c.receivedRecords a) :
    ∃ memory messageMemory udpMsg rinfo, a = .datagram memory messageMemory udpMsg rinfo ∧
      c.takesDatagram = true ∧ c.receivedRecords a = c.recordLayer.admitted memory udpMsg := by
  cases a with
  | datagram memory messageMemory udpMsg rinfo =>
      by_cases htakes : c.takesDatagram = true
      · have hrecords : c.receivedRecords (.datagram memory messageMemory udpMsg rinfo) =
            c.recordLayer.admitted memory udpMsg := if_pos htakes
        exact ⟨memory, messageMemory, udpMsg, rinfo, rfl, htakes, hrecords⟩
      · have hnil : c.receivedRecords (.datagram memory messageMemory udpMsg rinfo) = [] :=
          if_neg htakes
        rw [hnil] at hp
        cases hp
  | _ => cases hp

theorem step_inv (opts : Options) {crypto : Crypto} {c : Config}
    (hinv : ClientInv crypto c.socket) (a : Action) :
    ClientInv crypto (step opts crypto c a).socket := by
  cases step_cases opts hinv a with
  | receives memory _ udpMsg _ _ _ hnext => rw [hnext]; exact hinv.receive memory udpMsg
  | switches _ _ _ _ _ hnext => rw [hnext]; exact hinv.advanceReadEpoch
  | delivers d _ _ _ _ hnext => rw [hnext]; exact Socket.deliver_inv d.msg d.rinfo hinv
  | finishes _ _ _ _ _ _ hfinishes => exact hfinishes.inv
  | moves hmoves _ => exact hmoves.inv

-- What sending the first flight ensures, however it ends, holds where a client starts.
theorem client_starts {P : Socket → Prop} {opts : Options} {crypto : Crypto} {random : Random}
    (h : Ends (Socket.udpOnListening opts crypto random) .new (fun _ => P) (fun _ => P)) :
    P (client opts crypto random).init.socket := by
  unfold client
  generalize Socket.udpOnListening opts crypto random = x at h ⊢
  exact h.finalState

/-- The state in which the ClientHello is sent when the socket listens. -/
def FlightState.listening (random : Random) : FlightState :=
  updateNextEpoch (fun c => { c with clientRandom := some random.serialize })
    Socket.new.handshakeHandler.toFlightState

theorem FlightState.listening_epochs (crypto : Crypto) (random : Random) :
    EpochsInv crypto (listening random).keyed (listening random).recordLayer := by
  have hepochs : EpochsInv crypto false (RecordLayer.updateConnectionState 1
      (fun c => { c with clientRandom := some random.serialize }) .new) :=
    (EpochsInv.new crypto).updateConnectionState 1 fun h => h.setClientRandom _
  exact hepochs

-- What sending the ClientHello ensures holds where a client starts.  State and message are variables
-- because a flight of a given message is computed wherever its type is looked at.
theorem client_sends {P : Socket → Prop} {opts : Options} {crypto : Crypto} {random : Random}
    (h : ∀ f hello, f = FlightState.listening random →
      hello = ⟨0, .clientHello (ClientHandshakeHandler.clientHello opts random)⟩ →
      Ends (sendFlight crypto [hello] [.serverHelloDone, .helloVerifyRequest]) f
        (fun _ f' => P { Socket.new with
          handshakeHandler := { Socket.new.handshakeHandler with toFlightState := f' } })
        (fun _ _ => False)) :
    P (client opts crypto random).init.socket := by
  apply client_starts
  unfold Socket.udpOnListening Socket.callHandler ClientHandshakeHandler.renegotiate
    ClientHandshakeHandler.callFlight
  simp only [ends_onPart, ends_bind, ends_modify]
  generalize hhello :
    (⟨0, .clientHello (ClientHandshakeHandler.clientHello opts random)⟩ : Handshake) = hello
  exact (h _ hello rfl hhello.symm).mono (fun _ _ h => h) fun _ _ h => h.elim

theorem client_init (opts : Options) (crypto : Crypto) (random : Random) :
    ∃ s, (client opts crypto random).init = ⟨s, []⟩ ∧ ClientInv crypto s ∧
      s.recordLayer.readEpochNr = 0 ∧
      (∀ i, (s.recordLayer.connState i).cachedDecipher = none) ∧ s.payloads = [] := by
  have hpending : (client opts crypto random).init = ⟨(client opts crypto random).init.socket, []⟩ := by
    rw [client]
  refine ⟨_, hpending, ?_⟩
  apply client_sends (P := fun s : Socket => ClientInv crypto s ∧ s.recordLayer.readEpochNr = 0 ∧
    (∀ i, (s.recordLayer.connState i).cachedDecipher = none) ∧ s.payloads = [])
  intro f hello hf hhello
  have hepochs := FlightState.listening_epochs crypto random
  have hmsg : hello.msgType ≠ .finished := by rw [hhello]; exact HandshakeType.noConfusion
  have hbuffer : f.bufferedOutgoingMessages = [] := by rw [hf]; rfl
  rw [← hf] at hepochs
  apply (sendFlight_ends hepochs hbuffer hmsg _).mono
  · intro _ f' h
    subst hf hhello
    have hawaits : Awaits crypto f' f'.expectedResponses := by
      rw [h.expectedResponses]
      exact .hello _ _ h.writeEpochNr (h.cipherSuite 1) h.lastFlight
    refine ⟨⟨⟨h.epochs, h.buffer, hawaits⟩, h.finishedCalls, fun hfinished => ?_,
      fun _ => rfl, rfl, List.not_mem_nil⟩, h.progress.readEpochNr, fun i => ?_, rfl⟩
    · exact absurd hfinished Bool.false_ne_true
    · apply (h.progress.cachedDecipher i).trans
      rcases i with _ | _ | i <;> rfl
  · exact fun _ _ h => h

/-- The invariant holds in every state of every run. -/
theorem run_inv (opts : Options) (crypto : Crypto) (random : Random) (actions : List Action) :
    ClientInv crypto ((client opts crypto random).run actions).socket := by
  apply (client opts crypto random).invariant (P := fun c => ClientInv crypto c.socket)
  · rcases client_init opts crypto random with ⟨s, hinit, hinv, _⟩
    rw [hinit]
    exact hinv
  · exact fun _ a h => step_inv opts h a

theorem trace_inv {opts : Options} {crypto : Crypto} {random : Random} {actions : List Action}
    {t : Config × Action} (ht : t ∈ (client opts crypto random).trace actions) :
    ClientInv crypto t.1.socket := by
  rcases (client opts crypto random).mem_trace ht with ⟨before, _, _, hrun⟩
  rw [← hrun]
  exact run_inv opts crypto random before

end DtlsClient
