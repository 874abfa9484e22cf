import DtlsClient.Properties.Authenticity
import DtlsClient.Properties.Malformed
import Mathlib.Data.List.TakeWhile

/-!
# Delivery of application data

Between `receive` and its `message` event a payload waits in the loop of `udp_onMessage`, and then in
`bufferedMessages` until the handshake is done.  What was emitted, what is buffered and what waits in the
loop make up what was received, as long as no exception leaves the loop.
-/

open Library

namespace DtlsClient

/-! ## The order of the events -/

/-- No `message` comes before `connected`. -/
def ConnectedFirst (events : List SocketEvent) : Prop :=
  ∀ event ∈ events.takeWhile (fun event => event ≠ .connected), event.payload? = none

namespace ConnectedFirst

variable {events : List SocketEvent}

theorem append_quiet (h : ConnectedFirst events) {more : List SocketEvent}
    (hmore : ∀ event ∈ more, event.payload? = none) : ConnectedFirst (events ++ more) := by
  intro event hevent
  rw [List.takeWhile_append] at hevent
  split at hevent
  · rename_i hlength
    have hall : events.takeWhile (fun event => event ≠ .connected) = events :=
      (List.takeWhile_prefix _).eq_of_length hlength
    rcases List.mem_append.mp hevent with hevent | hevent
    · apply h
      rw [hall]
      exact hevent
    · exact hmore event ((List.takeWhile_subset _) hevent)
  · exact h event hevent

-- Once `connected` is there, anything may follow.
theorem append_after (h : ConnectedFirst events) (hconnected : .connected ∈ events)
    (more : List SocketEvent) : ConnectedFirst (events ++ more) := by
  intro event hevent
  rw [List.takeWhile_append, if_neg] at hevent
  · exact h event hevent
  · intro hlength
    have hall : events.takeWhile (fun event => event ≠ .connected) = events :=
      (List.takeWhile_prefix _).eq_of_length hlength
    rw [← hall] at hconnected
    have hne := List.mem_takeWhile_imp hconnected
    simp at hne

end ConnectedFirst

namespace Socket

/-- The payloads of the `message` events. -/
def emitted (s : Socket) : List (Bytes × RemoteInfo) := s.events.filterMap SocketEvent.payload?

variable {crypto : Crypto} {s : Socket}

/-- However it ends, no `message` has come before `connected`. -/
abbrev KeepsOrder {α : Type} (x : SocketM α) (s : Socket) : Prop :=
  Ends x s (fun _ s' => ConnectedFirst s'.events) (fun _ s' => ConnectedFirst s'.events)

theorem callRecordLayer_order {α : Type} (x : EStateM JsError RecordLayer α)
    (h : ConnectedFirst s.events) : KeepsOrder (callRecordLayer x) s := by
  unfold KeepsOrder callRecordLayer
  rw [ends_onPart]
  exact ends_of_forall _ _ (fun _ _ => h) fun _ _ => h

theorem sendAlert_order (alert : Alert) (callback : Option SendCallback)
    (h : ConnectedFirst s.events) : KeepsOrder (sendAlert crypto alert callback) s := by
  unfold KeepsOrder sendAlert
  rw [ends_bind]
  apply (callRecordLayer_order _ h).mono
  · exact fun _ _ h' => h'
  · exact fun _ _ h' => h'

theorem emit_order (h : ConnectedFirst s.events) {event : SocketEvent}
    (hnone : event.payload? = none) : ConnectedFirst (s.emit event).events := by
  apply h.append_quiet
  intro event' hevent
  rw [List.mem_singleton.mp hevent]
  exact hnone

theorem killConnection_order (h : ConnectedFirst s.events) (err : Option JsError) :
    ConnectedFirst (s.killConnection err).events := by
  unfold killConnection
  split
  · exact h
  · cases err with
    | none => exact h
    | some e => exact emit_order (s := { s with isClosed := true }) h rfl

-- The buffered messages are emitted after `connected`.
theorem nextStep_order (h : ConnectedFirst s.events) (err : Option JsError) :
    ConnectedFirst (s.nextStep err).events := by
  cases err with
  | some e => exact killConnection_order h (some e)
  | none =>
      have hconnected : ConnectedFirst (s.emit .connected).events := emit_order h rfl
      exact hconnected.append_after (by simp [emit]) _

theorem finishedCallback_order (call : FinishedCall) (h : ConnectedFirst s.events) :
    KeepsOrder (finishedCallback crypto call) s := by
  unfold KeepsOrder finishedCallback
  cases call.alert with
  | some alert => exact sendAlert_order alert _ h
  | none => exact nextStep_order h call.err

theorem processIncomingMessage_order (opts : Options) (memory : MessageMemory)
    (msg : FragmentedHandshake) (h : ConnectedFirst s.events) :
    KeepsOrder (processIncomingMessage opts crypto memory msg) s := by
  unfold KeepsOrder processIncomingMessage callHandler
  simp only [ends_bind, ends_onPart, ends_get, ends_modify]
  apply ends_of_forall
  · intro _ handler
    exact ends_forM (P := fun s' : Socket => ConnectedFirst s'.events)
      (fun call _ s' h' => finishedCallback_order call h') h
  · exact fun _ _ => h

theorem deliver_order (msg : Message) (rinfo : RemoteInfo) (hinv : ClientInv crypto s)
    (h : ConnectedFirst s.events) : ConnectedFirst (s.deliver msg rinfo).events := by
  unfold deliver
  by_cases hfinished : s.handshakeFinished = true
  · rw [if_pos hfinished]
    have hcount := hinv.connected
    rw [if_pos hfinished] at hcount
    exact h.append_after (List.count_pos_iff.mp (by omega)) _
  · rw [if_neg hfinished]
    exact h

theorem handleMessage_order (opts : Options) (memory : MessageMemory) (msg : Message)
    (rinfo : RemoteInfo) (hinv : ClientInv crypto s) (h : ConnectedFirst s.events) :
    KeepsOrder (handleMessage opts crypto memory msg rinfo) s := by
  rcases msg with ⟨type, data⟩
  unfold KeepsOrder handleMessage
  cases type with
  | handshake =>
      simp only
      split
      · exact h
      · exact processIncomingMessage_order opts memory _ h
  | changeCipherSpec => exact h
  | alert =>
      simp only
      split
      · exact killConnection_order h _
      · split
        · exact sendAlert_order _ _ h
        · exact h
  | applicationData => exact deliver_order ⟨.applicationData, data⟩ rinfo hinv h
  | other n => exact h

theorem send_order (data : Bytes) (h : ConnectedFirst s.events) :
    KeepsOrder (send crypto data) s := by
  unfold KeepsOrder send
  rw [ends_bind, ends_get]
  by_cases hclosed : s.isClosed = true
  · rw [if_pos hclosed]
    exact h
  · rw [if_neg hclosed, ends_bind, ends_get]
    by_cases hfinished : s.handshakeFinished = true
    · rw [hfinished]
      exact callRecordLayer_order _ h
    · rw [Bool.not_eq_true] at hfinished
      rw [hfinished]
      exact h

theorem runCallback_order (i : Nat) (h : ConnectedFirst s.events) :
    ConnectedFirst (Config.runCallback i s).events := by
  unfold Config.runCallback
  split
  · exact h
  · rename_i callback _
    cases callback with
    | closeUdp => exact h
    | nextStep err =>
        exact nextStep_order (s := { s with pendingCallbacks := s.pendingCallbacks.eraseIdx i }) h
          err

end Socket

open Socket

theorem step_order (opts : Options) {crypto : Crypto} {c : Config} (a : Action)
    (hinv : ClientInv crypto c.socket) (h : ConnectedFirst c.socket.events) :
    ConnectedFirst (step opts crypto c a).socket.events := by
  cases a with
  | datagram memory messageMemory udpMsg rinfo =>
      show ConnectedFirst (c.receiveDatagram crypto memory messageMemory udpMsg rinfo).socket.events
      unfold Config.receiveDatagram
      split
      · exact h
      · exact h
  | next =>
      exact Config.handleNext_socket (P := fun s => ConnectedFirst s.events) opts crypto
        (fun _ => h) fun d _ _ => handleMessage_order opts d.memory d.msg d.rinfo hinv h
  | callback i => exact runCallback_order i h
  | handshakeTimeout =>
      show ConnectedFirst c.socket.expectHandshake.events
      unfold expectHandshake
      split
      · exact killConnection_order h _
      · exact h
  | udpClose =>
      show ConnectedFirst c.socket.udpOnClose.events
      unfold udpOnClose
      split
      · exact h
      · exact emit_order (s := { c.socket with isClosed := true }) h rfl
  | udpError e => exact killConnection_order h (some e)
  | send data => exact (send_order data h).finalState
  | close => exact (sendAlert_order _ _ h).finalState
  | sendAlert alert => exact (sendAlert_order alert none h).finalState

/-! ## What becomes of a payload -/

/-- The application data among the messages that `receive` returns in a step. -/
def returnedData (crypto : Crypto) (t : Config × Action) : List (Bytes × RemoteInfo) :=
  match t.2 with
  | .datagram memory _ udpMsg rinfo =>
      if t.1.takesDatagram then
        ((t.1.recordLayer.receive crypto memory udpMsg).1.filter
          fun m => m.type = .applicationData).map fun m => (m.data, rinfo)
      else []
  | _ => []

/-- What was emitted, what is buffered, and what waits in the loop of `udp_onMessage`. -/
def Config.payloads (c : Config) : List (Bytes × RemoteInfo) :=
  c.socket.payloads ++ c.pendingPayloads

/-- The round of the loop processes a message that throws, while application data of the same datagram
still waits. -/
def LosesData (t : Config × Action) : Prop :=
  t.2 = .next ∧ ∃ d pending, t.1.pending = d :: pending ∧
    ¬Digestible t.1.socket.handshakeHandler.incompleteMessages [(d.memory, d.msg)] ∧
    ∃ waiting ∈ pending, waiting.msg.type = .applicationData

-- A message passes its own payload on, if it has one.
theorem Socket.handleMessage_payloads (opts : Options) {crypto : Crypto} {s : Socket} (d : Delivery)
    (hinv : ClientInv crypto s) :
    Ends (handleMessage opts crypto d.memory d.msg d.rinfo) s
      (fun _ s' => s'.payloads = s.payloads ++
        if d.msg.type = .applicationData then [(d.msg.data, d.rinfo)] else [])
      (fun _ s' => s'.payloads = s.payloads ∧ d.msg.type ≠ .applicationData) := by
  by_cases hdata : d.msg.type = .applicationData
  · have hok : handleMessage opts crypto d.memory d.msg d.rinfo s =
        .ok () (s.deliver d.msg d.rinfo) := by
      unfold handleMessage
      rw [hdata]
      rfl
    rw [ends_of_eq_ok hok, if_pos hdata]
    exact payloads_deliver d.msg d.rinfo hinv
  · rw [if_neg hdata, List.append_nil]
    by_cases hccs : d.msg.type = .changeCipherSpec
    · have hok : handleMessage opts crypto d.memory d.msg d.rinfo s =
          .ok () (s.setRecordLayer s.recordLayer.advanceReadEpoch) := by
        unfold handleMessage
        rw [hccs]
        rfl
      rw [ends_of_eq_ok hok]
      rfl
    · apply (handleMessage_ends opts d.memory d.rinfo hccs hdata hinv).mono
      · intro _ s' h
        rcases h with hmoves | ⟨_, _, _, hfinishes⟩
        · exact hmoves.payloads
        · exact hfinishes.payloads
      · exact fun _ s' hmoves => ⟨hmoves.payloads, hdata⟩

theorem pendingPayloads_eq_nil {c : Config}
    (h : ∀ waiting ∈ c.pending, waiting.msg.type ≠ .applicationData) : c.pendingPayloads = [] := by
  unfold Config.pendingPayloads
  rw [List.map_eq_nil_iff, List.filter_eq_nil_iff]
  intro waiting hwaiting
  rw [decide_eq_true_eq]
  exact h waiting hwaiting

/-- A round of the loop passes the payloads on, unless it loses some. -/
theorem handleNext_payloads (opts : Options) {crypto : Crypto} {c : Config}
    (hinv : ClientInv crypto c.socket) :
    (¬LosesData (c, .next) ∧ (c.handleNext opts crypto).payloads = c.payloads) ∨
      (LosesData (c, .next) ∧ (c.handleNext opts crypto).payloads.length < c.payloads.length) := by
  unfold Config.handleNext
  cases hpending : c.pending with
  | nil =>
      left
      refine ⟨?_, rfl⟩
      intro ⟨_, d, pending, hcons, _⟩
      rw [hpending] at hcons
      cases hcons
  | cons d pending =>
      have hpayloads := handleMessage_payloads opts d hinv
      have hdigests := handleMessage_digests opts d.memory d.msg d.rinfo hinv
      cases hres : handleMessage opts crypto d.memory d.msg d.rinfo c.socket with
      | ok _ s' =>
          simp only [hres]
          left
          constructor
          · intro ⟨_, d', pending', hcons, hthrows, _⟩
            rw [hpending] at hcons
            rcases List.cons.inj hcons with ⟨rfl, _⟩
            exact hthrows (((hdigests.of_ok hres).2 []).mpr trivial)
          · unfold Config.payloads
            rw [hpayloads.of_ok hres, pendingPayloads_cons hpending, List.append_assoc]
            rfl
      | error e s' =>
          simp only [hres]
          rcases hpayloads.of_error hres with ⟨hsame, hdata⟩
          have hlost : Config.payloads ⟨s', []⟩ = c.socket.payloads := by
            unfold Config.payloads
            rw [hsame]
            exact List.append_nil _
          have hrest : c.payloads = c.socket.payloads ++
              Config.pendingPayloads ⟨c.socket, pending⟩ := by
            unfold Config.payloads
            rw [pendingPayloads_cons hpending, if_neg hdata, List.nil_append]
          rw [hlost, hrest]
          by_cases hwaits : ∃ waiting ∈ pending, waiting.msg.type = .applicationData
          · right
            refine ⟨⟨rfl, d, pending, hpending, hdigests.of_error hres [], hwaits⟩, ?_⟩
            rcases hwaits with ⟨waiting, hwaiting, hwaits⟩
            have hmem : waiting ∈ pending.filter fun d => d.msg.type = .applicationData :=
              List.mem_filter.mpr ⟨hwaiting, by rw [hwaits]; rfl⟩
            have hpos := List.length_pos_of_mem hmem
            simp only [Config.pendingPayloads, List.length_append, List.length_map]
            omega
          · left
            constructor
            · intro ⟨_, d', pending', hcons, _, hwaits'⟩
              rw [hpending] at hcons
              rcases List.cons.inj hcons with ⟨_, rfl⟩
              exact hwaits hwaits'
            · rw [pendingPayloads_eq_nil, List.append_nil]
              intro waiting hwaiting hdata'
              exact hwaits ⟨waiting, hwaiting, hdata'⟩

-- Whatever else happens leaves them alone.
theorem step_keeps_payloads (opts : Options) {crypto : Crypto} {c : Config} {a : Action}
    (hinv : ClientInv crypto c.socket) (hnext : a ≠ .next)
    (hdatagram : ∀ memory messageMemory udpMsg rinfo,
      a ≠ .datagram memory messageMemory udpMsg rinfo) :
    (step opts crypto c a).payloads = c.payloads ++ returnedData crypto (c, a) := by
  have hsocket : (step opts crypto c a).socket.payloads = c.socket.payloads := by
    cases step_cases opts hinv a with
    | receives memory messageMemory udpMsg rinfo haction _ _ =>
        exact absurd haction (hdatagram memory messageMemory udpMsg rinfo)
    | switches _ _ haction _ _ _ => exact absurd haction hnext
    | delivers _ _ haction _ _ _ => exact absurd haction hnext
    | finishes _ _ haction _ _ _ _ => exact absurd haction hnext
    | moves hmoves _ => exact hmoves.payloads
  unfold Config.payloads
  rw [hsocket]
  cases a with
  | datagram memory messageMemory udpMsg rinfo => exact absurd rfl (hdatagram _ _ _ _)
  | next => exact absurd rfl hnext
  | _ => exact (List.append_nil _).symm

theorem receiveDatagram_payloads {crypto : Crypto} {c : Config} (memory : Nat → Memory)
    (messageMemory : Nat → MessageMemory) (udpMsg : Bytes) (rinfo : RemoteInfo) :
    (c.receiveDatagram crypto memory messageMemory udpMsg rinfo).payloads =
      c.payloads ++ returnedData crypto (c, .datagram memory messageMemory udpMsg rinfo) := by
  unfold Config.receiveDatagram returnedData
  simp only
  by_cases htakes : c.takesDatagram = true
  · have hempty := htakes
    unfold Config.takesDatagram at hempty
    rw [Bool.and_eq_true, List.isEmpty_iff] at hempty
    have hnil : c.pendingPayloads = [] := by
      unfold Config.pendingPayloads
      rw [hempty.2]
      rfl
    rw [if_pos htakes, if_pos htakes]
    unfold Config.payloads
    rw [hnil, List.append_nil, pendingPayloads_deliveries]
    rfl
  · rw [if_neg htakes, if_neg htakes, List.append_nil]

/-- A step adds the application data that it receives, and otherwise passes the payloads on, unless it
loses some. -/
theorem step_payloads (opts : Options) {crypto : Crypto} {c : Config} (a : Action)
    (hinv : ClientInv crypto c.socket) :
    (¬LosesData (c, a) ∧
      (step opts crypto c a).payloads = c.payloads ++ returnedData crypto (c, a)) ∨
    (LosesData (c, a) ∧
      (step opts crypto c a).payloads.length < (c.payloads ++ returnedData crypto (c, a)).length) := by
  by_cases hnext : a = .next
  · subst hnext
    have hnone : returnedData crypto (c, .next) = [] := rfl
    rw [hnone, List.append_nil]
    exact handleNext_payloads opts hinv
  · left
    refine ⟨fun hloses => hnext hloses.1, ?_⟩
    cases a with
    | datagram memory messageMemory udpMsg rinfo =>
        exact receiveDatagram_payloads memory messageMemory udpMsg rinfo
    | _ =>
        apply step_keeps_payloads opts hinv hnext
        intro _ _ _ _ haction
        cases haction

/-! ## Runs -/

/-- Over a whole run nothing is lost in the loop, or less arrives than was received. -/
theorem run_payloads (opts : Options) (crypto : Crypto) (random : Random) (actions : List Action) :
    let received := ((client opts crypto random).trace actions).flatMap (returnedData crypto)
    let c := (client opts crypto random).run actions
    ((∀ t ∈ (client opts crypto random).trace actions, ¬LosesData t) ∧ c.payloads = received) ∨
      ((∃ t ∈ (client opts crypto random).trace actions, LosesData t) ∧
        c.payloads.length < received.length) := by
  apply (client opts crypto random).run_induction (P := fun actions c =>
    let received := ((client opts crypto random).trace actions).flatMap (returnedData crypto)
    ((∀ t ∈ (client opts crypto random).trace actions, ¬LosesData t) ∧ c.payloads = received) ∨
      ((∃ t ∈ (client opts crypto random).trace actions, LosesData t) ∧
        c.payloads.length < received.length))
  · left
    rcases client_init opts crypto random with ⟨s, hinit, _, _, _, hpayloads⟩
    refine ⟨fun t ht => absurd ht List.not_mem_nil, ?_⟩
    rw [hinit]
    unfold Config.payloads
    rw [hpayloads]
    rfl
  · intro actions a ih
    have hstep := step_payloads opts a (run_inv opts crypto random actions)
    rw [(client opts crypto random).trace_concat, List.flatMap_append, List.flatMap_singleton]
    simp only [List.mem_append, List.mem_singleton, List.length_append] at hstep ih ⊢
    show _ ∧ (step opts crypto _ a).payloads = _ ∨ _ ∧ (step opts crypto _ a).payloads.length < _
    rcases ih with ⟨hkept, heq⟩ | ⟨⟨t, ht, hloses⟩, hlt⟩
    · rcases hstep with ⟨hkeeps, hnext⟩ | ⟨hloses, hnext⟩
      · left
        refine ⟨fun t ht => ?_, by rw [hnext, heq]⟩
        rcases ht with ht | rfl
        · exact hkept t ht
        · exact hkeeps
      · right
        rw [heq] at hnext
        exact ⟨⟨_, .inr rfl, hloses⟩, hnext⟩
    · right
      refine ⟨⟨t, .inl ht, hloses⟩, ?_⟩
      rcases hstep with ⟨_, hnext⟩ | ⟨_, hnext⟩
      · rw [hnext, List.length_append]
        omega
      · omega

theorem init_events (opts : Options) (crypto : Crypto) (random : Random) :
    (client opts crypto random).init.socket.events = [] := by
  apply client_starts (P := fun s : Socket => s.events = [])
  unfold udpOnListening callHandler
  rw [ends_onPart]
  generalize ClientHandshakeHandler.renegotiate opts crypto random = x
  exact ends_of_forall x _ (fun _ _ => rfl) fun _ _ => rfl

theorem run_connectedFirst (opts : Options) (crypto : Crypto) (random : Random)
    (actions : List Action) :
    ConnectedFirst ((client opts crypto random).run actions).socket.events := by
  apply (client opts crypto random).run_induction
    (P := fun _ c => ConnectedFirst c.socket.events)
  · rw [init_events]
    exact fun event hevent => absurd hevent List.not_mem_nil
  · exact fun actions a h => step_order opts a (run_inv opts crypto random actions) h

-- Before the handshake is done nothing is emitted.
theorem emitted_unfinished {crypto : Crypto} {s : Socket} (hinv : ClientInv crypto s)
    (hfirst : ConnectedFirst s.events) (hunfinished : s.handshakeFinished = false) :
    s.emitted = [] := by
  have hcount := hinv.connected
  rw [hunfinished, if_neg Bool.false_ne_true, List.count_eq_zero] at hcount
  have hall : s.events.takeWhile (fun event => event ≠ .connected) = s.events := by
    rw [List.takeWhile_eq_self_iff]
    intro event hevent
    rw [decide_eq_true_eq]
    intro hconnected
    exact hcount (hconnected ▸ hevent)
  unfold ConnectedFirst at hfirst
  rw [hall] at hfirst
  exact List.filterMap_eq_nil_iff.mpr hfirst

/-- Once the handshake is done, the payloads that were emitted, followed by those that the loop of
`udp_onMessage` has yet to reach, are the ones that were received; before that none is emitted.  No
payload is emitted before `connected`. -/
structure DeliversInOrder (opts : Options) (crypto : Crypto) (random : Random)
    (actions : List Action) : Prop where
  connectedFirst : ConnectedFirst ((client opts crypto random).run actions).socket.events
  finished : ((client opts crypto random).run actions).socket.handshakeFinished = true →
    ((client opts crypto random).run actions).socket.emitted ++
        ((client opts crypto random).run actions).pendingPayloads =
      ((client opts crypto random).trace actions).flatMap (returnedData crypto)
  unfinished : ((client opts crypto random).run actions).socket.handshakeFinished = false →
    ((client opts crypto random).run actions).socket.emitted = []

/-- Application data is delivered in order, without loss or duplication, exactly if no exception leaves
the loop of `udp_onMessage` while some of it still waits there. -/
theorem deliversInOrder_iff (opts : Options) (crypto : Crypto) (random : Random)
    (actions : List Action) :
    DeliversInOrder opts crypto random actions ↔
      (((client opts crypto random).run actions).socket.handshakeFinished = true →
        ∀ t ∈ (client opts crypto random).trace actions, ¬LosesData t) := by
  have hinv := run_inv opts crypto random actions
  have hfirst := run_connectedFirst opts crypto random actions
  have hpayloads := run_payloads opts crypto random actions
  -- once the handshake is done, nothing is buffered any more
  have hall : ((client opts crypto random).run actions).socket.handshakeFinished = true →
      ((client opts crypto random).run actions).payloads =
        ((client opts crypto random).run actions).socket.emitted ++
          ((client opts crypto random).run actions).pendingPayloads := by
    intro hfinished
    unfold Config.payloads Socket.payloads
    rw [hinv.buffered hfinished, List.map_nil, List.append_nil]
    rfl
  constructor
  · intro hdelivers hfinished
    rcases hpayloads with ⟨hkept, _⟩ | ⟨_, hlt⟩
    · exact hkept
    · rw [hall hfinished, hdelivers.finished hfinished] at hlt
      exact absurd hlt (Nat.lt_irrefl _)
  · intro hkept
    refine ⟨hfirst, fun hfinished => ?_, emitted_unfinished hinv hfirst⟩
    rcases hpayloads with ⟨_, heq⟩ | ⟨⟨t, ht, hloses⟩, _⟩
    · rw [← hall hfinished]
      exact heq
    · exact absurd hloses (hkept hfinished t ht)

namespace Sample

def dataBehindTruncated : List Action :=
  completeHandshake ++
    [datagram (record .handshake 1 1 (sealed [0]) ++ record .applicationData 1 2 (sealed [0x2a])),
      .next]

end Sample

/-- Application data behind a handshake record of one byte is lost. -/
theorem deliversInOrder_truncated :
    ¬DeliversInOrder Sample.opts Sample.crypto Sample.random Sample.dataBehindTruncated := by
  have hfinished : ((client Sample.opts Sample.crypto Sample.random).run
      Sample.dataBehindTruncated).socket.handshakeFinished = true := by decide +kernel
  have hlost : ((client Sample.opts Sample.crypto Sample.random).run
        Sample.dataBehindTruncated).socket.emitted ++
      ((client Sample.opts Sample.crypto Sample.random).run
        Sample.dataBehindTruncated).pendingPayloads ≠
      ((client Sample.opts Sample.crypto Sample.random).trace
        Sample.dataBehindTruncated).flatMap (returnedData Sample.crypto) := by decide +kernel
  exact fun hdelivers => hlost (hdelivers.finished hfinished)

end DtlsClient
