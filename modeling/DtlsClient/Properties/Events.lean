import DtlsClient.Lifetime
import DtlsClient.Properties.Invariant

/-!
# The events an application sees

They are a word of an automaton with two flags: `connected` sets the one, and the first `error` or `close`
the other.  There is no `message` before `connected` and no second end.  The flags are those of the
socket.
-/

open Library

namespace DtlsClient

/-- What an application knows of a socket from its events. -/
structure View where
  handshakeFinished : Bool
  isClosed : Bool
deriving DecidableEq, Repr

namespace View

/-- The socket before its first event. -/
def new : View := ⟨false, false⟩

def next (v : View) : SocketEvent → Option View
  | .connected => some { v with handshakeFinished := true }
  | .message _ _ => if v.handshakeFinished then some v else none
  | .error _ => if v.isClosed then none else some { v with isClosed := true }
  | .close => if v.isClosed then none else some { v with isClosed := true }

def after (v : View) (events : List SocketEvent) : Option View := events.foldlM next v

theorem after_append (v : View) (events more : List SocketEvent) :
    v.after (events ++ more) = (v.after events).bind fun v => v.after more :=
  List.foldlM_append

theorem after_singleton (v : View) (event : SocketEvent) : v.after [event] = v.next event :=
  bind_pure _

-- Messages change nothing once the handshake is finished.
theorem after_messages {v : View} (h : v.handshakeFinished = true)
    (messages : List (Message × RemoteInfo)) :
    v.after (messages.map fun m => .message m.1.data m.2) = some v := by
  induction messages with
  | nil => rfl
  | cons m messages ih =>
      rw [List.map_cons, after, List.foldlM_cons, next, if_pos h]
      exact ih

end View

namespace Socket

def view (s : Socket) : View := ⟨s.handshakeFinished, s.isClosed⟩

/-- Events were added, and the flags are what they say. -/
def Extends (s s' : Socket) : Prop :=
  ∃ more, s'.events = s.events ++ more ∧ s.view.after more = some s'.view

variable {crypto : Crypto} {s s' : Socket}

theorem Extends.nothing (hevents : s'.events = s.events) (hview : s'.view = s.view) : s.Extends s' :=
  ⟨[], by rw [hevents, List.append_nil], by rw [hview]; rfl⟩

theorem Extends.refl (s : Socket) : s.Extends s := .nothing rfl rfl

theorem Extends.trans {s'' : Socket} (h : s.Extends s') (h' : s'.Extends s'') : s.Extends s'' := by
  rcases h with ⟨more, hevents, hafter⟩
  rcases h' with ⟨more', hevents', hafter'⟩
  refine ⟨more ++ more', by rw [hevents', hevents, List.append_assoc], ?_⟩
  rw [View.after_append, hafter]
  exact hafter'

theorem Extends.event {event : SocketEvent} (hevents : s'.events = s.events ++ [event])
    (hnext : s.view.next event = some s'.view) : s.Extends s' :=
  ⟨[event], hevents, by rw [View.after_singleton, hnext]⟩

/-- However it ends, only events were added. -/
abbrev AddsEvents {α : Type} (x : SocketM α) (s : Socket) : Prop :=
  Ends x s (fun _ s' => s.Extends s') (fun _ s' => s.Extends s')

theorem callRecordLayer_extends {α : Type} (x : EStateM JsError RecordLayer α) (s : Socket) :
    AddsEvents (callRecordLayer x) s := by
  unfold AddsEvents callRecordLayer
  rw [ends_onPart]
  exact ends_of_forall _ _ (fun _ _ => .nothing rfl rfl) fun _ _ => .nothing rfl rfl

theorem callHandler_view {α : Type} (x : HandlerM α) (s : Socket) :
    Ends (callHandler x) s (fun _ s' => s'.events = s.events ∧ s'.view = s.view)
      (fun _ s' => s'.events = s.events ∧ s'.view = s.view) := by
  unfold callHandler
  rw [ends_onPart]
  exact ends_of_forall _ _ (fun _ _ => ⟨rfl, rfl⟩) fun _ _ => ⟨rfl, rfl⟩

theorem sendAlert_extends (alert : Alert) (callback : Option SendCallback) (s : Socket) :
    AddsEvents (sendAlert crypto alert callback) s := by
  unfold AddsEvents sendAlert
  rw [ends_bind]
  apply (callRecordLayer_extends _ s).mono
  · exact fun _ _ h => h.trans (.nothing rfl rfl)
  · exact fun _ _ h => h

theorem killConnection_extends (s : Socket) (e : JsError) : s.Extends (s.killConnection (some e)) := by
  unfold killConnection
  by_cases hclosed : s.isClosed = true
  · rw [if_pos hclosed]
    exact .refl s
  · rw [if_neg hclosed]
    exact .event rfl (if_neg hclosed)

theorem udpOnClose_extends (s : Socket) : s.Extends s.udpOnClose := by
  unfold udpOnClose
  by_cases hclosed : s.isClosed = true
  · rw [if_pos hclosed]
    exact .refl s
  · rw [if_neg hclosed]
    exact .event rfl (if_neg hclosed)

theorem expectHandshake_extends (s : Socket) : s.Extends s.expectHandshake := by
  unfold expectHandshake
  split
  · exact killConnection_extends s _
  · exact .refl s

-- The buffered messages come right behind `connected`.
theorem nextStep_extends (s : Socket) (err : Option JsError) : s.Extends (s.nextStep err) := by
  cases err with
  | some e => exact killConnection_extends s e
  | none =>
      refine ⟨.connected :: s.bufferedMessages.map fun m => .message m.1.data m.2, ?_, ?_⟩
      · exact List.append_assoc ..
      · rw [View.after, List.foldlM_cons]
        exact View.after_messages rfl s.bufferedMessages

theorem finishedCallback_extends (call : FinishedCall) (s : Socket) :
    AddsEvents (finishedCallback crypto call) s := by
  unfold AddsEvents finishedCallback
  cases call.alert with
  | some alert => exact sendAlert_extends alert _ s
  | none => exact nextStep_extends s call.err

theorem processIncomingMessage_extends (opts : Options) (memory : MessageMemory)
    (msg : FragmentedHandshake) (s : Socket) :
    AddsEvents (processIncomingMessage opts crypto memory msg) s := by
  unfold AddsEvents processIncomingMessage callHandler
  simp only [ends_bind, ends_onPart, ends_get, ends_modify]
  apply ends_of_forall
  · intro _ handler
    apply ends_forM (P := s.Extends)
    · intro call _ s' h
      apply (finishedCallback_extends call s').mono
      · exact fun _ _ h' => h.trans h'
      · exact fun _ _ h' => h.trans h'
    · exact .nothing rfl rfl
  · exact fun _ _ => .nothing rfl rfl

theorem handleMessage_extends (opts : Options) (memory : MessageMemory) (msg : Message)
    (rinfo : RemoteInfo) (s : Socket) : AddsEvents (handleMessage opts crypto memory msg rinfo) s := by
  rcases msg with ⟨type, data⟩
  unfold AddsEvents handleMessage
  cases type with
  | handshake =>
      simp only
      split
      · exact .refl s
      · exact processIncomingMessage_extends opts memory _ s
  | changeCipherSpec => exact .nothing rfl rfl
  | alert =>
      simp only
      split
      · exact killConnection_extends s _
      · split
        · exact sendAlert_extends _ _ s
        · exact .refl s
  | applicationData =>
      rw [ends_modify]
      by_cases hfinished : s.handshakeFinished = true
      · rw [if_pos hfinished]
        exact .event rfl (if_pos hfinished)
      · rw [if_neg hfinished]
        exact .nothing rfl rfl
  | other n => exact .refl s

theorem send_extends (data : Bytes) (s : Socket) : AddsEvents (send crypto data) s := by
  unfold AddsEvents send
  rw [ends_bind, ends_get]
  by_cases hclosed : s.isClosed = true
  · rw [if_pos hclosed]
    exact .refl s
  · rw [if_neg hclosed, ends_bind, ends_get]
    cases s.handshakeFinished with
    | true => exact callRecordLayer_extends _ s
    | false => exact .refl s

theorem runCallback_extends (i : Nat) (s : Socket) : s.Extends (Config.runCallback i s) := by
  unfold Config.runCallback
  split
  · exact .refl s
  · rename_i callback _
    have hrest : s.Extends { s with pendingCallbacks := s.pendingCallbacks.eraseIdx i } :=
      .nothing rfl rfl
    cases callback with
    | closeUdp => exact hrest
    | nextStep err => exact hrest.trans (nextStep_extends _ err)

theorem udpOnListening_view (opts : Options) (crypto : Crypto) (random : Random) (s : Socket) :
    (finalState (udpOnListening opts crypto random) s).events = s.events ∧
      (finalState (udpOnListening opts crypto random) s).view = s.view :=
  (callHandler_view (ClientHandshakeHandler.renegotiate opts crypto random) s).finalState

theorem udpOnListening_extends (opts : Options) (crypto : Crypto) (random : Random) (s : Socket) :
    s.Extends (finalState (udpOnListening opts crypto random) s) :=
  .nothing (udpOnListening_view opts crypto random s).1 (udpOnListening_view opts crypto random s).2

end Socket

/-- Every step of a client keeps to the automaton. -/
theorem step_extends (opts : Options) (crypto : Crypto) (c : Config) (a : Action) :
    c.socket.Extends (step opts crypto c a).socket := by
  cases a with
  | datagram memory messageMemory udpMsg rinfo =>
      show c.socket.Extends (c.receiveDatagram crypto memory messageMemory udpMsg rinfo).socket
      unfold Config.receiveDatagram
      split
      · exact .nothing rfl rfl
      · exact .refl _
  | next =>
      exact Config.handleNext_socket (P := c.socket.Extends) opts crypto (fun _ => .refl _)
        fun d _ _ => Socket.handleMessage_extends opts d.memory d.msg d.rinfo c.socket
  | callback i => exact Socket.runCallback_extends i c.socket
  | handshakeTimeout => exact Socket.expectHandshake_extends c.socket
  | udpClose => exact Socket.udpOnClose_extends c.socket
  | udpError e => exact Socket.killConnection_extends c.socket e
  | send data => exact (Socket.send_extends data c.socket).finalState
  | close => exact (Socket.sendAlert_extends _ _ c.socket).finalState
  | sendAlert alert => exact (Socket.sendAlert_extends alert none c.socket).finalState

/-! ## What the automaton ensures -/

/-- An `error` or `close` event. -/
def SocketEvent.isEnd : SocketEvent → Bool
  | .error _ => true
  | .close => true
  | _ => false

namespace View

variable {v v' : View} {events : List SocketEvent} {event : SocketEvent}

theorem next_cases (h : v.next event = some v') :
    (event = .connected ∧ v' = ⟨true, v.isClosed⟩) ∨
      ((∃ data rinfo, event = .message data rinfo) ∧ v.handshakeFinished = true ∧ v' = v) ∨
      (event.isEnd = true ∧ v.isClosed = false ∧ v' = ⟨v.handshakeFinished, true⟩) := by
  rcases v with ⟨finished, closed⟩
  cases event with
  | connected => exact .inl ⟨rfl, (Option.some.inj h).symm⟩
  | message data rinfo =>
      cases finished with
      | true => exact .inr (.inl ⟨⟨data, rinfo, rfl⟩, rfl, (Option.some.inj h).symm⟩)
      | false => cases h
  | error e =>
      cases closed with
      | true => cases h
      | false => exact .inr (.inr ⟨rfl, rfl, (Option.some.inj h).symm⟩)
  | close =>
      cases closed with
      | true => cases h
      | false => exact .inr (.inr ⟨rfl, rfl, (Option.some.inj h).symm⟩)

/-- `connected` was emitted where the one flag is set, and one `error` or `close` where the other is. -/
theorem after_new (h : new.after events = some v) :
    (v.handshakeFinished = true ↔ .connected ∈ events) ∧
      events.countP SocketEvent.isEnd = v.isClosed.toNat := by
  induction events using List.reverseRecOn generalizing v with
  | nil =>
      rcases Option.some.inj h with rfl
      exact ⟨by simp [new], rfl⟩
  | append_singleton events event ih =>
      rw [after_append] at h
      rcases Option.bind_eq_some_iff.mp h with ⟨w, hbefore, hnext⟩
      rw [after_singleton] at hnext
      rcases ih hbefore with ⟨hconnected, hends⟩
      rw [List.countP_append, hends, List.mem_append, ← hconnected, List.mem_singleton]
      rcases next_cases hnext with ⟨rfl, rfl⟩ | ⟨⟨data, rinfo, rfl⟩, hfinished, rfl⟩ | ⟨hend, hopen, rfl⟩
      · exact ⟨by simp, rfl⟩
      · exact ⟨by simp [hfinished], rfl⟩
      · refine ⟨?_, ?_⟩
        · cases event <;> simp [SocketEvent.isEnd] at hend ⊢
        · rw [hopen, List.countP_singleton, if_pos hend]
          rfl

-- No flag is taken back.
theorem after_le (h : v.after events = some v') :
    (v.handshakeFinished = true → v'.handshakeFinished = true) ∧
      (v.isClosed = true → v'.isClosed = true) := by
  induction events generalizing v with
  | nil =>
      rcases Option.some.inj h with rfl
      exact ⟨id, id⟩
  | cons event events ih =>
      rw [after, List.foldlM_cons] at h
      rcases Option.bind_eq_some_iff.mp h with ⟨w, hnext, hafter⟩
      rcases ih hafter with ⟨hfinished, hclosed⟩
      rcases next_cases hnext with ⟨_, rfl⟩ | ⟨_, _, rfl⟩ | ⟨_, _, rfl⟩
      · exact ⟨fun _ => hfinished rfl, hclosed⟩
      · exact ⟨hfinished, hclosed⟩
      · exact ⟨hfinished, fun _ => hclosed rfl⟩

end View

namespace Socket.Extends

variable {s s' : Socket}

theorem was_open (h : s.Extends s') (hopen : s'.isClosed = false) : s.isClosed = false := by
  rcases h with ⟨more, _, hafter⟩
  apply Bool.eq_false_of_not_eq_true
  intro hclosed
  have hclosed' : s'.isClosed = true := (View.after_le hafter).2 hclosed
  rw [hopen] at hclosed'
  cases hclosed'

theorem was_unfinished (h : s.Extends s') (hunfinished : s'.handshakeFinished = false) :
    s.handshakeFinished = false := by
  rcases h with ⟨more, _, hafter⟩
  apply Bool.eq_false_of_not_eq_true
  intro hfinished
  have hfinished' : s'.handshakeFinished = true := (View.after_le hafter).1 hfinished
  rw [hunfinished] at hfinished'
  cases hfinished'

theorem after_new (h : Socket.new.Extends s) : View.new.after s.events = some s.view := by
  rcases h with ⟨more, hevents, hafter⟩
  rw [hevents]
  exact hafter

end Socket.Extends

end DtlsClient
