import DtlsClient.Properties.Retransmission

/-!
# What a step does to the handshake

A step either completes a flight that is expected, and then the handler of that flight decides what
becomes of the handshake, or it leaves the handshake where it stands.
-/

open Library

namespace DtlsClient

/-- Where a handshake stands. -/
structure Standing where
  writeEpochNr : Nat
  parameters : Nat → Parameters
  lastFlight : List Handshake
  expectedResponses : Option (List HandshakeType)
  allHandshakeData : List Bytes

namespace FlightState

def standing (f : FlightState) : Standing where
  writeEpochNr := f.recordLayer.writeEpochNr
  parameters := f.recordLayer.parameters
  lastFlight := f.lastFlight
  expectedResponses := f.expectedResponses
  allHandshakeData := f.allHandshakeData

theorem standing_withRecordLayer (f : FlightState) {rl : RecordLayer}
    (hwrite : rl.writeEpochNr = f.recordLayer.writeEpochNr)
    (hparameters : rl.parameters = f.recordLayer.parameters) :
    { f with recordLayer := rl }.standing = f.standing := by
  unfold standing
  rw [← hwrite, ← hparameters]

end FlightState

namespace Socket

def standing (s : Socket) : Standing := s.handshakeHandler.toFlightState.standing

/-- However it ends, the handshake stands where it stood. -/
abbrev KeepsStanding {α : Type} (x : SocketM α) (s : Socket) : Prop :=
  Ends x s (fun _ s' => s'.standing = s.standing) (fun _ s' => s'.standing = s.standing)

variable {crypto : Crypto}

theorem callSend_standing {msg : Message} (hmsg : msg.type ≠ .changeCipherSpec) (s : Socket) :
    KeepsStanding (callRecordLayer (RecordLayer.send crypto msg)) s := by
  have hnumber : ∀ rl : RecordLayer, rl.numbered.parameters = rl.parameters :=
    fun rl => rl.parameters_updateEpoch rl.writeEpochNr fun _ => rfl
  have hcipher : ∀ (rl : RecordLayer) (i : Nat),
      (RecordLayer.updateConnectionState i .withCipher rl).parameters = rl.parameters :=
    fun rl i => rl.parameters_updateConnectionState i fun _ => rfl
  have hkeeps := RecordLayer.processOutgoingMessage_preserves
    (P := fun rl => rl.writeEpochNr = s.recordLayer.writeEpochNr ∧
      rl.parameters = s.recordLayer.parameters)
    (fun rl h => ⟨h.1, (hnumber rl).trans h.2⟩) (fun rl i h => ⟨h.1, (hcipher rl i).trans h.2⟩)
    crypto (fun hccs => absurd hccs hmsg) ⟨rfl, rfl⟩
  unfold KeepsStanding callRecordLayer RecordLayer.send
  rw [ends_onPart, ends_bind]
  apply hkeeps.mono
  · exact fun _ _ h => FlightState.standing_withRecordLayer _ h.1 h.2
  · exact fun _ _ h => FlightState.standing_withRecordLayer _ h.1 h.2

theorem sendAlert_standing (alert : Alert) (callback : Option SendCallback) (s : Socket) :
    KeepsStanding (sendAlert crypto alert callback) s := by
  have hmsg : (⟨.alert, alert.serialize⟩ : Message).type ≠ .changeCipherSpec := by
    intro h
    cases h
  unfold KeepsStanding sendAlert
  rw [ends_bind]
  apply (callSend_standing hmsg s).mono
  · exact fun _ _ h => h
  · exact fun _ _ h => h

theorem send_standing (data : Bytes) (s : Socket) : KeepsStanding (send crypto data) s := by
  have hmsg : (⟨.applicationData, data⟩ : Message).type ≠ .changeCipherSpec := by
    intro h
    cases h
  unfold KeepsStanding send
  simp only [ends_bind, ends_get]
  by_cases hclosed : s.isClosed = true
  · rw [if_pos hclosed]
    rfl
  · rw [if_neg hclosed]
    show Ends (if (!s.handshakeFinished) = true then _ else _) s _ _
    by_cases hfinished : (!s.handshakeFinished) = true
    · rw [if_pos hfinished]
      rfl
    · rw [if_neg hfinished]
      exact callSend_standing hmsg s

theorem finishedCallback_standing (call : FinishedCall) (s : Socket) :
    KeepsStanding (finishedCallback crypto call) s := by
  unfold KeepsStanding finishedCallback
  cases call.alert with
  | some alert => exact sendAlert_standing alert _ s
  | none =>
      show (s.nextStep call.err).standing = s.standing
      rw [standing, nextStep_handler, standing]

-- The handshake after a message stands where the handler has got it.
theorem processIncomingMessage_standing (opts : Options) (memory : MessageMemory)
    (msg : FragmentedHandshake) (s : Socket) :
    Ends (processIncomingMessage opts crypto memory msg) s
      (fun _ s' => s'.standing = (s.handshakeHandler.take opts crypto (.message memory msg)).standing)
      (fun _ s' =>
        s'.standing = (s.handshakeHandler.take opts crypto (.message memory msg)).standing) := by
  apply processIncomingMessage_keeps (P := fun s' => s'.standing =
    (s.handshakeHandler.take opts crypto (.message memory msg)).standing) opts rfl
  · rfl
  · rfl
  · intro call _ s' hs'
    apply (finishedCallback_standing call s').mono
    · exact fun _ _ hsame => hsame.trans hs'
    · exact fun _ _ hsame => hsame.trans hs'

-- A message that completes no flight is only stored.
theorem processIncomingMessage_stored (opts : Options) {memory : MessageMemory}
    {msg : FragmentedHandshake} (hcalls : s.handshakeHandler.finishedCalls = [])
    (hnone : s.handshakeHandler.flightOf (.message memory msg) = none) :
    Ends (processIncomingMessage opts crypto memory msg) s
      (fun _ s' => s' = { s with handshakeHandler := s.handshakeHandler.stored memory msg })
      (fun _ s' => s' = { s with handshakeHandler := s.handshakeHandler.stored memory msg }) := by
  have hnil : (s.handshakeHandler.stored memory msg).finishedCalls = [] := by
    rw [(s.handshakeHandler.stored_spec memory msg).flightState]
    exact hcalls
  apply processIncomingMessage_keeps
    (P := fun s' => s' = { s with handshakeHandler := s.handshakeHandler.stored memory msg }) opts
    (ClientHandshakeHandler.take_of_none hnone)
  · rfl
  · rw [← hnil]
  · intro call hcall
    rw [hnil] at hcall
    cases hcall

-- A message that is no handshake message leaves the handshake where it stands.
theorem handleMessage_standing (opts : Options) (memory : MessageMemory) {msg : Message}
    (rinfo : RemoteInfo) (s : Socket) (hmsg : msg.type ≠ .handshake) :
    KeepsStanding (handleMessage opts crypto memory msg rinfo) s := by
  rcases msg with ⟨type, data⟩
  unfold KeepsStanding handleMessage
  cases type with
  | handshake => exact absurd rfl hmsg
  | changeCipherSpec =>
      exact FlightState.standing_withRecordLayer _ rfl (RecordLayer.parameters_advanceReadEpoch _)
  | alert =>
      simp only
      split
      · show (s.killConnection _).standing = s.standing
        rw [standing, killConnection_handler, standing]
      · split
        · exact sendAlert_standing _ _ s
        · rfl
  | applicationData =>
      show (s.deliver ⟨.applicationData, data⟩ rinfo).standing = s.standing
      rw [standing, (deliver_handler ⟨.applicationData, data⟩ rinfo s).1, standing]
  | other n => rfl

end Socket

/-! ## The flight of a step -/

-- The flight that is complete when the message is processed, with its last message.
def Delivery.flight (d : Delivery) (handler : ClientHandshakeHandler) :
    Option (List Handshake × Handshake) :=
  match d.msg.type with
  | .handshake =>
      match FragmentedHandshake.fromBuffer d.memory.fragment d.msg.data with
      | .error _ => none
      | .ok fragment => handler.flightOf (.message d.memory fragment)
  | _ => none

/-- The flight whose handler a step calls. -/
def Config.flight (c : Config) : Action → Option (List Handshake × Handshake)
  | .next => c.pending.head?.bind fun d => d.flight c.socket.handshakeHandler
  | _ => none

namespace ClientHandshakeHandler

theorem completeFlight_getLast {h : ClientHandshakeHandler} {messages : List Handshake}
    {lastMsg : Handshake} (hflight : h.completeFlight = some (messages, lastMsg)) :
    messages.getLast? = some lastMsg := by
  rcases completeFlight_eq_some.mp hflight with ⟨_, rfl, hlast, _⟩
  rw [IndexMap.values, List.getLast?_map]
  exact hlast

-- Storing the message made the flight complete.
theorem flightOf_some {h : ClientHandshakeHandler} {memory : MessageMemory}
    {msg : FragmentedHandshake} {flight : List Handshake × Handshake}
    (hflight : h.flightOf (.message memory msg) = some flight) :
    ∃ h1, storeMessage memory msg h = .ok true h1 ∧ h1.completeFlight = some flight ∧
      h1.toFlightState = h.toFlightState := by
  have hsame := (h.stored_spec memory msg).flightState
  have hflight : flightIn (storeMessage memory msg h) = some flight := hflight
  unfold stored finalState at hsame
  cases hres : storeMessage memory msg h with
  | error e h1 =>
      rw [hres] at hflight
      cases hflight
  | ok complete h1 =>
      rw [hres] at hflight hsame
      cases complete with
      | false => cases hflight
      | true => exact ⟨h1, rfl, hflight, hsame⟩

-- A flight is only handled if it is expected.
theorem flightOf_expected {h : ClientHandshakeHandler} {memory : MessageMemory}
    {msg : FragmentedHandshake} {messages : List Handshake} {lastMsg : Handshake}
    (hflight : h.flightOf (.message memory msg) = some (messages, lastMsg)) :
    ∃ expected, h.expectedResponses = some expected ∧ lastMsg.msgType ∈ expected ∧
      messages.getLast? = some lastMsg := by
  rcases flightOf_some hflight with ⟨h1, _, hcomplete, hsame⟩
  rcases completeFlight_expected hcomplete with ⟨expected, hexpected, hmem⟩
  rw [hsame] at hexpected
  exact ⟨expected, hexpected, hmem, completeFlight_getLast hcomplete⟩

end ClientHandshakeHandler

-- The step that completes a flight processes a handshake message.
theorem Config.flight_eq_some {c : Config} {a : Action} {flight : List Handshake × Handshake}
    (hflight : c.flight a = some flight) :
    a = .next ∧ ∃ d pending fragment, c.pending = d :: pending ∧ d.msg.type = .handshake ∧
      FragmentedHandshake.fromBuffer d.memory.fragment d.msg.data = .ok fragment ∧
      c.socket.handshakeHandler.flightOf (.message d.memory fragment) = some flight := by
  unfold Config.flight at hflight
  cases a with
  | next =>
      refine ⟨rfl, ?_⟩
      cases hpending : c.pending with
      | nil =>
          rw [hpending] at hflight
          cases hflight
      | cons d pending =>
          rw [hpending] at hflight
          have hflight : d.flight c.socket.handshakeHandler = some flight := hflight
          unfold Delivery.flight at hflight
          split at hflight
          · rename_i htype
            split at hflight
            · cases hflight
            · rename_i fragment hfragment
              exact ⟨d, pending, fragment, rfl, htype, hfragment, hflight⟩
          · cases hflight
  | _ => cases hflight

theorem Config.flight_expected {c : Config} {a : Action} {messages : List Handshake}
    {lastMsg : Handshake} (hflight : c.flight a = some (messages, lastMsg)) :
    ∃ expected, c.socket.handshakeHandler.expectedResponses = some expected ∧
      lastMsg.msgType ∈ expected ∧ messages.getLast? = some lastMsg := by
  rcases Config.flight_eq_some hflight with ⟨_, d, _, fragment, _, _, _, hflightOf⟩
  exact ClientHandshakeHandler.flightOf_expected hflightOf

/-- What the handler of a flight makes of the handshake. -/
def FlightState.answered (opts : Options) (crypto : Crypto) (messages : List Handshake)
    (lastMsg : Handshake) (f : FlightState) : FlightState :=
  ClientHandshakeHandler.afterFlight lastMsg (handle opts crypto lastMsg.msgType messages
    (ClientHandshakeHandler.beforeFlight messages lastMsg f))

-- The handshake behind a step, which may have completed a flight.
def FlightState.behind (opts : Options) (crypto : Crypto) (f : FlightState) :
    Option (List Handshake × Handshake) → FlightState
  | none => f
  | some (messages, lastMsg) => f.answered opts crypto messages lastMsg

namespace ClientHandshakeHandler

-- A message that completes a flight has it answered.
theorem take_answered (opts : Options) (crypto : Crypto) {h : ClientHandshakeHandler}
    {memory : MessageMemory} {msg : FragmentedHandshake} {messages : List Handshake}
    {lastMsg : Handshake} (hflight : h.flightOf (.message memory msg) = some (messages, lastMsg)) :
    (h.take opts crypto (.message memory msg)).toFlightState =
      h.toFlightState.answered opts crypto messages lastMsg := by
  rcases flightOf_some hflight with ⟨h1, hstored, hcomplete, hsame⟩
  rw [take_message, hstored]
  simp only [proceed, hcomplete]
  rw [finalState_handleFlight, hsame]
  rfl

theorem take_flightState (opts : Options) (crypto : Crypto) (h : ClientHandshakeHandler)
    (memory : MessageMemory) (msg : FragmentedHandshake) :
    (h.take opts crypto (.message memory msg)).toFlightState =
      h.toFlightState.behind opts crypto (h.flightOf (.message memory msg)) := by
  cases hflight : h.flightOf (.message memory msg) with
  | none =>
      rw [take_of_none hflight, (h.stored_spec memory msg).flightState]
      rfl
  | some flight =>
      rcases flight with ⟨messages, lastMsg⟩
      exact take_answered opts crypto hflight

end ClientHandshakeHandler

-- What processing a message ensures for the flight that it completes holds after the next round.
theorem Config.handleNext_flight {P : Option (List Handshake × Handshake) → Socket → Prop}
    (opts : Options) (crypto : Crypto) {c : Config} (hidle : P none c.socket)
    (hmessage : ∀ memory fragment,
      Ends (Socket.processIncomingMessage opts crypto memory fragment) c.socket
        (fun _ => P (c.socket.handshakeHandler.flightOf (.message memory fragment)))
        (fun _ => P (c.socket.handshakeHandler.flightOf (.message memory fragment))))
    (hother : ∀ d : Delivery, d.msg.type ≠ .handshake →
      Ends (Socket.handleMessage opts crypto d.memory d.msg d.rinfo) c.socket
        (fun _ => P none) (fun _ => P none)) :
    P (c.flight .next) (c.handleNext opts crypto).socket := by
  apply Config.handleNext_socket (P := P (c.flight .next)) opts crypto
  · intro hpending
    unfold Config.flight
    rw [hpending]
    exact hidle
  · intro d pending hpending
    have hflight : c.flight .next = d.flight c.socket.handshakeHandler := by
      unfold Config.flight
      rw [hpending]
      rfl
    rw [hflight]
    by_cases hmsg : d.msg.type = .handshake
    · unfold Socket.handleMessage Delivery.flight
      simp only [hmsg]
      cases FragmentedHandshake.fromBuffer d.memory.fragment d.msg.data with
      | error e => exact hidle
      | ok fragment => exact hmessage d.memory fragment
    · have hnone : d.flight c.socket.handshakeHandler = none := by
        unfold Delivery.flight
        split
        · exact absurd (by assumption) hmsg
        · rfl
      rw [hnone]
      exact hother d hmsg

theorem handleNext_standing (opts : Options) (crypto : Crypto) (c : Config) :
    (c.handleNext opts crypto).socket.standing =
      (c.socket.handshakeHandler.toFlightState.behind opts crypto (c.flight .next)).standing := by
  apply Config.handleNext_flight (P := fun flight s' =>
    s'.standing = (c.socket.handshakeHandler.toFlightState.behind opts crypto flight).standing)
    opts crypto
  · rfl
  · intro memory fragment
    have hends := @Socket.processIncomingMessage_standing crypto opts memory fragment c.socket
    rw [ClientHandshakeHandler.take_flightState] at hends
    exact hends
  · exact fun d hmsg => Socket.handleMessage_standing opts d.memory d.rinfo c.socket hmsg

/-- The handshake moves on by the flights that are completed, and by nothing else. -/
theorem step_standing (opts : Options) (crypto : Crypto) (c : Config) (a : Action) :
    (step opts crypto c a).socket.standing =
      (c.socket.handshakeHandler.toFlightState.behind opts crypto (c.flight a)).standing := by
  have hhandler : ∀ s : Socket, s.handshakeHandler = c.socket.handshakeHandler →
      s.standing = c.socket.standing := by
    intro s hsame
    unfold Socket.standing
    rw [hsame]
  cases a with
  | next => exact handleNext_standing opts crypto c
  | datagram memory messageMemory udpMsg rinfo =>
      show (Config.receiveDatagram crypto memory messageMemory udpMsg rinfo c).socket.standing = _
      unfold Config.receiveDatagram
      split
      · exact FlightState.standing_withRecordLayer _ (RecordLayer.receive_writeEpochNr ..)
          (RecordLayer.parameters_receive ..)
      · rfl
  | callback i => exact hhandler _ (Socket.runCallback_handler i c.socket)
  | handshakeTimeout => exact hhandler _ (Socket.expectHandshake_handler c.socket)
  | udpClose => exact hhandler _ (Socket.udpOnClose_handler c.socket)
  | udpError e => exact hhandler _ (Socket.killConnection_handler (some e) c.socket)
  | send data =>
      exact Ends.finalState (P := fun s : Socket => s.standing = c.socket.standing)
        (Socket.send_standing data c.socket)
  | close =>
      exact Ends.finalState (P := fun s : Socket => s.standing = c.socket.standing)
        (Socket.sendAlert_standing _ _ c.socket)
  | sendAlert alert =>
      exact Ends.finalState (P := fun s : Socket => s.standing = c.socket.standing)
        (Socket.sendAlert_standing alert none c.socket)

end DtlsClient
