import DtlsClient.Properties.Invariant
import DtlsClient.Properties.Reassembly

/-!
# Where the buffers of the handshake handler change

A received handshake message is stored, and a flight that is complete empties the buffer of complete
messages.  Nothing else that a socket does touches them.
-/

open Library

namespace DtlsClient

namespace ClientHandshakeHandler

def buffers (h : ClientHandshakeHandler) :
    Int × List FragmentedHandshake × IndexMap Handshake :=
  (h.lastProcessedSeqNum, h.incompleteMessages, h.completeMessages)

/-! ## The handler of a flight -/

-- What the handler knows when the handler of a flight begins.
def beforeFlight (messages : List Handshake) (lastMsg : Handshake) (s : FlightState) : FlightState :=
  { s with
    expectedResponses := none
    allHandshakeData := s.allHandshakeData ++
      ((if lastMsg.msgType = .finished then messages.dropLast else messages).filter
        FlightState.needsToHashMessage).map fun m => m.toFragment.serialize }

-- What it knows when the handler is done.
def afterFlight (lastMsg : Handshake) : EStateM.Result JsError FlightState Unit → FlightState
  | .ok _ s =>
      if lastMsg.msgType = .finished then
        { s with allHandshakeData := s.allHandshakeData ++ [lastMsg.toFragment.serialize] }
      else s
  | .error e s =>
      { s with isHandshaking := false, finishedCalls := s.finishedCalls ++ [⟨none, some e⟩] }

theorem finalState_handleFlight (opts : Options) (crypto : Crypto) (messages : List Handshake)
    (lastMsg : Handshake) (h : ClientHandshakeHandler) :
    finalState (handleFlight opts crypto messages lastMsg) h =
      { h with
        toFlightState := afterFlight lastMsg (FlightState.handle opts crypto lastMsg.msgType messages
          (beforeFlight messages lastMsg h.toFlightState))
        lastProcessedSeqNum := lastMsg.messageSeq
        completeMessages := .empty } := by
  generalize hafter : ({ h with
    toFlightState := afterFlight lastMsg (FlightState.handle opts crypto lastMsg.msgType messages
      (beforeFlight messages lastMsg h.toFlightState))
    lastProcessedSeqNum := lastMsg.messageSeq
    completeMessages := .empty } : ClientHandshakeHandler) = after
  apply Ends.finalState (P := fun h' => h' = after)
  unfold handleFlight FlightState.bufferHandshakeData FlightState.finishedCallback callFlight
  simp only [ends_bind, ends_modify, ends_get, ends_onPart, List.map_map, Function.comp_def]
  -- the state in which the handler of the flight is called
  cases hres : FlightState.handle opts crypto lastMsg.msgType messages
    (beforeFlight messages lastMsg h.toFlightState) with
  | ok a s =>
      rw [hres] at hafter
      unfold beforeFlight at hres
      simp only [hres, ends_bind, ends_modify]
      rw [← hafter, afterFlight]
      by_cases hfin : lastMsg.msgType = .finished
      · rw [if_pos hfin, if_pos hfin]
        rfl
      · rw [if_neg hfin, if_neg hfin]
        rfl
  | error e s =>
      rw [hres] at hafter
      unfold beforeFlight at hres
      simp only [hres, ends_bind, ends_modify]
      rw [← hafter]
      rfl

/-- How the handler goes on after a message is stored. -/
def proceed (opts : Options) (crypto : Crypto) :
    EStateM.Result JsError ClientHandshakeHandler Bool → ClientHandshakeHandler
  | .ok true h =>
      match h.completeFlight with
      | some (messages, lastMsg) => finalState (handleFlight opts crypto messages lastMsg) h
      | none => h
  | .ok false h => h
  | .error _ h => h

theorem finalState_processIncomingMessage (opts : Options) (crypto : Crypto)
    (memory : MessageMemory) (msg : FragmentedHandshake) (h : ClientHandshakeHandler) :
    finalState (processIncomingMessage opts crypto memory msg) h =
      proceed opts crypto (storeMessage memory msg h) := by
  unfold processIncomingMessage
  rw [finalState_bind]
  cases storeMessage memory msg h with
  | error e h1 => rfl
  | ok complete h1 =>
      cases complete with
      | false => rfl
      | true =>
          show finalState (match h1.completeFlight with
              | some (messages, lastMsg) => handleFlight opts crypto messages lastMsg
              | none => pure ()) h1 =
            match h1.completeFlight with
            | some (messages, lastMsg) => finalState (handleFlight opts crypto messages lastMsg) h1
            | none => h1
          cases h1.completeFlight <;> rfl

-- A flight does not touch the fragments.
theorem proceed_incompleteMessages (opts : Options) (crypto : Crypto)
    (result : EStateM.Result JsError ClientHandshakeHandler Bool) :
    (proceed opts crypto result).incompleteMessages =
      match result with
      | .ok _ h => h.incompleteMessages
      | .error _ h => h.incompleteMessages := by
  cases result with
  | error e h => rfl
  | ok complete h =>
      cases complete with
      | false => rfl
      | true =>
          unfold proceed
          simp only
          cases h.completeFlight with
          | none => rfl
          | some flight =>
              simp only [finalState_handleFlight]

end ClientHandshakeHandler

namespace Socket

/-! ## The rest of the socket -/

def buffers (s : Socket) : Int × List FragmentedHandshake × IndexMap Handshake :=
  s.handshakeHandler.buffers

/-- However it ends, the buffers stay. -/
abbrev KeepsBuffers {α : Type} (x : SocketM α) (s : Socket) : Prop :=
  Ends x s (fun _ s' => s'.buffers = s.buffers) (fun _ s' => s'.buffers = s.buffers)

theorem callRecordLayer_buffers {α : Type} (x : EStateM JsError RecordLayer α) (s : Socket) :
    KeepsBuffers (callRecordLayer x) s := by
  unfold KeepsBuffers callRecordLayer
  rw [ends_onPart]
  exact ends_of_forall _ _ (fun _ _ => rfl) fun _ _ => rfl

theorem sendAlert_buffers (crypto : Crypto) (alert : Alert) (callback : Option SendCallback)
    (s : Socket) : KeepsBuffers (sendAlert crypto alert callback) s := by
  unfold KeepsBuffers sendAlert
  rw [ends_bind]
  apply (callRecordLayer_buffers _ s).mono
  · exact fun _ _ h => h
  · exact fun _ _ h => h

theorem send_buffers (crypto : Crypto) (data : Bytes) (s : Socket) :
    KeepsBuffers (send crypto data) s := by
  unfold KeepsBuffers send
  simp only [ends_bind, ends_get]
  by_cases hclosed : s.isClosed = true
  · rw [if_pos hclosed]
    rfl
  · rw [if_neg hclosed]
    show Ends (if (!s.handshakeFinished) = true then _ else _) s _ _
    by_cases hfinished : (!s.handshakeFinished) = true
    · rw [if_pos hfinished]
      rfl
    · rw [if_neg hfinished]
      exact callRecordLayer_buffers _ s

theorem killConnection_handler (err : Option JsError) (s : Socket) :
    (s.killConnection err).handshakeHandler = s.handshakeHandler := by
  unfold killConnection
  split
  · rfl
  · cases err <;> rfl

theorem nextStep_handler (err : Option JsError) (s : Socket) :
    (s.nextStep err).handshakeHandler = s.handshakeHandler := by
  cases err with
  | none => rfl
  | some e => exact killConnection_handler (some e) s

theorem runCallback_handler (i : Nat) (s : Socket) :
    (Config.runCallback i s).handshakeHandler = s.handshakeHandler := by
  unfold Config.runCallback
  split
  · rfl
  · rename_i callback _
    cases callback with
    | closeUdp => rfl
    | nextStep err => exact nextStep_handler err _

theorem expectHandshake_handler (s : Socket) :
    s.expectHandshake.handshakeHandler = s.handshakeHandler := by
  unfold expectHandshake
  split
  · exact killConnection_handler _ s
  · rfl

theorem udpOnClose_handler (s : Socket) : s.udpOnClose.handshakeHandler = s.handshakeHandler := by
  unfold udpOnClose
  split <;> rfl

theorem finishedCallback_buffers (crypto : Crypto) (call : FinishedCall) (s : Socket) :
    KeepsBuffers (finishedCallback crypto call) s := by
  unfold KeepsBuffers finishedCallback
  cases call.alert with
  | some alert => exact sendAlert_buffers crypto alert _ s
  | none =>
      show (s.nextStep call.err).handshakeHandler.buffers = _
      rw [nextStep_handler]
      rfl

-- What the handler leaves and its callbacks keep holds behind the message.
theorem processIncomingMessage_keeps {P : Socket → Prop} (opts : Options) {crypto : Crypto}
    {memory : MessageMemory} {msg : FragmentedHandshake} {s : Socket} {h : ClientHandshakeHandler}
    (hh : finalState (ClientHandshakeHandler.processIncomingMessage opts crypto memory msg)
      s.handshakeHandler = h) (hthrown : P { s with handshakeHandler := h })
    (hstart : P { s with handshakeHandler := { h with finishedCalls := [] } })
    (hcalls : ∀ call ∈ h.finishedCalls, ∀ s', P s' →
      Ends (finishedCallback crypto call) s' (fun _ => P) (fun _ => P)) :
    Ends (processIncomingMessage opts crypto memory msg) s (fun _ => P) (fun _ => P) := by
  have hhandler : Ends (ClientHandshakeHandler.processIncomingMessage opts crypto memory msg)
      s.handshakeHandler (fun _ h' => h' = h) (fun _ h' => h' = h) :=
    ends_of_finalState (P := fun h' => h' = h) hh
  unfold processIncomingMessage callHandler
  rw [ends_bind, ends_onPart]
  apply hhandler.mono
  · rintro _ h' rfl
    simp only [ends_bind, ends_get, ends_onPart, ends_modify]
    exact ends_forM hcalls hstart
  · rintro _ h' rfl
    exact hthrown

-- The buffers after a message are those that the handler leaves.
theorem processIncomingMessage_buffers (opts : Options) (crypto : Crypto) (memory : MessageMemory)
    (msg : FragmentedHandshake) (s : Socket) :
    Ends (processIncomingMessage opts crypto memory msg) s
      (fun _ s' => s'.buffers = (ClientHandshakeHandler.proceed opts crypto
        (ClientHandshakeHandler.storeMessage memory msg s.handshakeHandler)).buffers)
      (fun _ s' => s'.buffers = (ClientHandshakeHandler.proceed opts crypto
        (ClientHandshakeHandler.storeMessage memory msg s.handshakeHandler)).buffers) := by
  generalize hafter : ClientHandshakeHandler.proceed opts crypto
    (ClientHandshakeHandler.storeMessage memory msg s.handshakeHandler) = after
  rw [← ClientHandshakeHandler.finalState_processIncomingMessage] at hafter
  apply processIncomingMessage_keeps (P := fun s' => s'.buffers = after.buffers) opts hafter
  · rfl
  · rfl
  · intro call _ s' hs'
    apply (finishedCallback_buffers crypto call s').mono
    · exact fun _ _ hsame => hsame.trans hs'
    · exact fun _ _ hsame => hsame.trans hs'

-- A message that is no handshake message leaves the buffers alone.
theorem handleMessage_buffers (opts : Options) (crypto : Crypto) (memory : MessageMemory)
    {msg : Message} (rinfo : RemoteInfo) (s : Socket) (hmsg : msg.type ≠ .handshake) :
    KeepsBuffers (handleMessage opts crypto memory msg rinfo) s := by
  rcases msg with ⟨type, data⟩
  unfold KeepsBuffers handleMessage
  cases type with
  | handshake => exact absurd rfl hmsg
  | changeCipherSpec => rfl
  | alert =>
      simp only
      split
      · show (s.killConnection _).handshakeHandler.buffers = _
        rw [killConnection_handler]
        rfl
      · split
        · exact sendAlert_buffers crypto _ _ s
        · rfl
  | applicationData =>
      show (s.deliver ⟨.applicationData, data⟩ rinfo).handshakeHandler.buffers = _
      rw [(deliver_handler ⟨.applicationData, data⟩ rinfo s).1]
      rfl
  | other n => rfl

end Socket

end DtlsClient
