import DtlsClient.Properties.FlightSteps

/-!
# After the close

A closed socket takes no datagram and no timer any more.  What is left of the datagram that closed
it is processed nevertheless, and the loop of `udp_onMessage` does not look at `_isClosed`, nor do
`close` and `sendAlert`.  Where they have nothing to act on, the socket stays quiet.
-/

open Library

namespace DtlsClient

/-- The events that `_isClosed` is to stop. -/
def SocketEvent.isDelivery : SocketEvent → Bool
  | .connected => true
  | .message _ _ => true
  | .error _ => false
  | .close => false

/-- Neither has a `connected` or a `message` event been emitted, nor a record been handed to the UDP
socket. -/
structure Quiet (s s' : Socket) : Prop where
  events : s'.events.filter SocketEvent.isDelivery = s.events.filter SocketEvent.isDelivery
  udpSocket : s'.recordLayer.udpSocket = s.recordLayer.udpSocket

theorem Quiet.refl (s : Socket) : Quiet s s := ⟨rfl, rfl⟩

theorem Quiet.trans {s s' s'' : Socket} (h : Quiet s s') (h' : Quiet s' s'') : Quiet s s'' :=
  ⟨h'.events.trans h.events, h'.udpSocket.trans h.udpSocket⟩

/-- The loop of `udp_onMessage` acts on the message, whether the socket is closed or not: a flight that
is complete is answered, `close_notify` is replied to, and application data is emitted once the
handshake is done. -/
def Delivery.actedOn (d : Delivery) (s : Socket) : Bool :=
  match d.msg.type with
  | .handshake => (d.flight s.handshakeHandler).isSome
  | .alert =>
      (Alert.fromBuffer d.msg.data).level = AlertLevel.warning ∧
      (Alert.fromBuffer d.msg.data).description = AlertDescription.closeNotify
  | .applicationData => s.handshakeFinished
  | _ => false

/-- The action does what only an open socket should do, without looking at `_isClosed`. -/
def Action.heedless (c : Config) : Action → Bool
  | .next => c.pending.head?.any fun d => d.actedOn c.socket
  | .close => true
  | .sendAlert _ => true
  | _ => false

namespace Socket

variable {crypto : Crypto} {s : Socket}

theorem killConnection_closed (hclosed : s.isClosed = true) (err : Option JsError) :
    s.killConnection err = s := by
  rw [killConnection, if_pos hclosed]

/-- What an action leaves of a closed socket. -/
structure StaysQuiet (s s' : Socket) : Prop where
  isClosed : s'.isClosed = true
  quiet : Quiet s s'

theorem StaysQuiet.refl (hclosed : s.isClosed = true) : StaysQuiet s s := ⟨hclosed, .refl s⟩

theorem processIncomingMessage_quiet (opts : Options) {memory : MessageMemory}
    {msg : FragmentedHandshake} (hinv : ClientInv crypto s) (hclosed : s.isClosed = true)
    (hnone : s.handshakeHandler.flightOf (.message memory msg) = none) :
    Ends (processIncomingMessage opts crypto memory msg) s
      (fun _ => StaysQuiet s) (fun _ => StaysQuiet s) := by
  have hudp : (s.handshakeHandler.stored memory msg).recordLayer.udpSocket =
      s.recordLayer.udpSocket := by
    rw [(s.handshakeHandler.stored_spec memory msg).flightState]
    rfl
  apply (processIncomingMessage_stored opts hinv.finishedCalls hnone).mono
  · rintro _ s' rfl
    exact ⟨hclosed, rfl, hudp⟩
  · rintro _ s' rfl
    exact ⟨hclosed, rfl, hudp⟩

theorem handleMessage_quiet (opts : Options) {d : Delivery} (hinv : ClientInv crypto s)
    (hclosed : s.isClosed = true) (hacted : d.actedOn s = false) :
    Ends (handleMessage opts crypto d.memory d.msg d.rinfo) s
      (fun _ => StaysQuiet s) (fun _ => StaysQuiet s) := by
  unfold Delivery.actedOn at hacted
  unfold handleMessage
  cases htype : d.msg.type with
  | handshake =>
      simp only [htype, Delivery.flight] at hacted
      cases hfragment : FragmentedHandshake.fromBuffer d.memory.fragment d.msg.data with
      | error e => exact .refl hclosed
      | ok fragment =>
          simp only [hfragment, Option.isSome_eq_false_iff, Option.isNone_iff_eq_none] at hacted
          exact processIncomingMessage_quiet opts hinv hclosed hacted
  | changeCipherSpec => exact ⟨hclosed, rfl, rfl⟩
  | alert =>
      simp only [htype, decide_eq_false_iff_not] at hacted
      by_cases hfatal : (Alert.fromBuffer d.msg.data).level = AlertLevel.fatal
      · simp only [hfatal, if_true]
        rw [ends_modify, killConnection_closed hclosed]
        exact .refl hclosed
      · simp only [hfatal, hacted, if_false]
        exact .refl hclosed
  | applicationData =>
      simp only [htype] at hacted
      show StaysQuiet s (if s.handshakeFinished = true then _ else _)
      rw [hacted, if_neg Bool.false_ne_true]
      exact ⟨hclosed, rfl, rfl⟩
  | other n => exact .refl hclosed

-- The callback of an alert that was sent before the close finds the socket closed.
theorem runCallback_quiet (i : Nat) (hinv : ClientInv crypto s) (hclosed : s.isClosed = true) :
    StaysQuiet s (Config.runCallback i s) := by
  unfold Config.runCallback
  cases hcallback : s.pendingCallbacks[i]? with
  | none => exact .refl hclosed
  | some callback =>
      cases callback with
      | closeUdp => exact ⟨hclosed, rfl, rfl⟩
      | nextStep err =>
          cases err with
          | none => exact absurd (List.mem_of_getElem? hcallback) hinv.callbacks
          | some e =>
              have hkill := killConnection_closed
                (s := { s with pendingCallbacks := s.pendingCallbacks.eraseIdx i }) hclosed (some e)
              show StaysQuiet s (killConnection (some e) _)
              rw [hkill]
              exact ⟨hclosed, rfl, rfl⟩

end Socket

open Socket

/-- A step of a closed socket that is not heedless is quiet. -/
theorem step_quiet (opts : Options) {crypto : Crypto} {c : Config} {a : Action}
    (hinv : ClientInv crypto c.socket) (hclosed : c.socket.isClosed = true)
    (hheeds : a.heedless c = false) : StaysQuiet c.socket (step opts crypto c a).socket := by
  cases a with
  | datagram memory messageMemory udpMsg rinfo =>
      have htakes : c.takesDatagram = false := by rw [Config.takesDatagram, hclosed]; rfl
      have hsame : step opts crypto c (.datagram memory messageMemory udpMsg rinfo) = c := by
        show Config.receiveDatagram crypto memory messageMemory udpMsg rinfo c = c
        rw [Config.receiveDatagram, htakes, if_neg Bool.false_ne_true]
      rw [hsame]
      exact .refl hclosed
  | next =>
      apply Config.handleNext_socket (P := StaysQuiet c.socket) opts crypto fun _ => .refl hclosed
      intro d pending hpending
      have hacted : d.actedOn c.socket = false := by
        unfold Action.heedless at hheeds
        rw [hpending] at hheeds
        exact hheeds
      exact handleMessage_quiet opts hinv hclosed hacted
  | callback i => exact runCallback_quiet i hinv hclosed
  | handshakeTimeout =>
      show StaysQuiet c.socket c.socket.expectHandshake
      rw [expectHandshake, hclosed]
      exact .refl hclosed
  | udpClose =>
      show StaysQuiet c.socket c.socket.udpOnClose
      rw [udpOnClose, if_pos hclosed]
      exact .refl hclosed
  | udpError e =>
      show StaysQuiet c.socket (c.socket.killConnection (some e))
      rw [killConnection_closed hclosed]
      exact .refl hclosed
  | send data =>
      have hends : Ends (Socket.send crypto data) c.socket (fun _ => StaysQuiet c.socket)
          (fun _ => StaysQuiet c.socket) := by
        unfold Socket.send
        rw [ends_bind, ends_get, if_pos hclosed]
        exact .refl hclosed
      exact hends.finalState
  | close => cases hheeds
  | sendAlert alert => cases hheeds

/-- In a run without heedless actions on a closed socket, nothing is emitted or sent any more from the
moment it is closed. -/
theorem quiet_afterClose (opts : Options) (crypto : Crypto) (random : Random)
    (before after : List Action)
    (hclosed : ((client opts crypto random).run before).socket.isClosed = true)
    (hheeds : ∀ t ∈ (client opts crypto random).trace (before ++ after),
      t.1.socket.isClosed = true → t.2.heedless t.1 = false) :
    ((client opts crypto random).run (before ++ after)).socket.isClosed = true ∧
      Quiet ((client opts crypto random).run before).socket
        ((client opts crypto random).run (before ++ after)).socket := by
  have hkept := (client opts crypto random).invariant_after
    (P := fun c => ClientInv crypto c.socket ∧
      StaysQuiet ((client opts crypto random).run before).socket c.socket)
    (C := fun t => t.1.socket.isClosed = true → t.2.heedless t.1 = false)
    ⟨run_inv opts crypto random before, .refl hclosed⟩ (fun c a ⟨hinv, hquiet⟩ hheed => by
      have hstep := step_quiet opts hinv hquiet.isClosed (hheed hquiet.isClosed)
      exact ⟨step_inv opts hinv a, hstep.isClosed, hquiet.quiet.trans hstep.quiet⟩) hheeds
  exact ⟨hkept.2.isClosed, hkept.2.quiet⟩

namespace Sample

def fatalAlert : Bytes := record .alert 1 1 (sealed [2, 40])

def closeByAlert : List Action :=
  completeHandshake ++ [datagram (fatalAlert ++ record .changeCipherSpec 1 2 (sealed [1])), .next]

def dataAfterAlert : List Action :=
  completeHandshake ++
    [datagram (fatalAlert ++ record .applicationData 1 2 (sealed [0x2a])), .next]

end Sample

-- The record after the fatal alert is a ChangeCipherSpec.
theorem quiet_afterClose_sample :
    Quiet ((client Sample.opts Sample.crypto Sample.random).run Sample.closeByAlert).socket
      ((client Sample.opts Sample.crypto Sample.random).run
        (Sample.closeByAlert ++ [.next, .udpClose, .send [0x2a]])).socket := by
  have hclosed : ((client Sample.opts Sample.crypto Sample.random).run
      Sample.closeByAlert).socket.isClosed = true := by decide +kernel
  have hheeds : ∀ t ∈ (client Sample.opts Sample.crypto Sample.random).trace
      (Sample.closeByAlert ++ [.next, .udpClose, .send [0x2a]]),
      t.1.socket.isClosed = true → t.2.heedless t.1 = false := by decide +kernel
  have hquiet := quiet_afterClose Sample.opts Sample.crypto Sample.random Sample.closeByAlert
    [.next, .udpClose, .send [0x2a]] hclosed hheeds
  exact hquiet.2

-- Application data in the same datagram as the fatal alert before it is emitted.
theorem quiet_afterClose_dataAfterAlert :
    (Sample.run Sample.dataAfterAlert).socket.isClosed = true ∧
      ¬ Quiet (Sample.run Sample.dataAfterAlert).socket
        (Sample.run (Sample.dataAfterAlert ++ [.next])).socket := by
  refine ⟨by decide +kernel, fun hquiet => ?_⟩
  have hevents : (Sample.run (Sample.dataAfterAlert ++ [.next])).socket.events.filter
      SocketEvent.isDelivery ≠
      (Sample.run Sample.dataAfterAlert).socket.events.filter SocketEvent.isDelivery := by
    decide +kernel
  exact hevents hquiet.events

end DtlsClient
