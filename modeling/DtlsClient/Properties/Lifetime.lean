import DtlsClient.Properties.Events

/-!
# From `createSocket` to the end

A socket is a client from the moment its UDP socket listens, and nothing but a failure can be seen of it
before.  As long as it is neither connected nor closed, the right timer is running.
-/

open Library

namespace DtlsClient

/-! ## The options -/

theorem createSocket_eq_ok {options : SocketOptions} {l : Lifetime} :
    createSocket (some options) = .ok l ↔
      (∀ check ∈ options.checks, check.1 = true) ∧ l = .new options := by
  cases hfailed : options.checks.find? fun check => !check.1 with
  | some check =>
      have hchecked : checkOptions (some options) = .error (.error check.2) := by
        unfold checkOptions
        simp only [hfailed]
      have hcreated : createSocket (some options) = .error (.error check.2) := by
        unfold createSocket
        rw [hchecked]
        rfl
      rw [hcreated]
      constructor
      · intro h
        cases h
      · rintro ⟨hall, _⟩
        have hfails := List.find?_some hfailed
        rw [hall check (List.mem_of_find?_eq_some hfailed)] at hfails
        cases hfails
  | none =>
      have hchecked : checkOptions (some options) = .ok options := by
        unfold checkOptions
        simp only [hfailed]
      have hcreated : createSocket (some options) = .ok (.new options) := by
        unfold createSocket
        rw [hchecked]
        rfl
      rw [hcreated]
      rw [List.find?_eq_none] at hfailed
      constructor
      · intro h
        exact ⟨fun check hcheck => by simpa using hfailed check hcheck, (Except.ok.inj h).symm⟩
      · rintro ⟨_, rfl⟩
        rfl

-- The remote port is checked less strictly than the local one.
example : (JsValue.number .nan).inPortRange = true ∧ (JsValue.number .nan).isInteger = false := by
  decide

theorem JsNumber.timerDelay_finite {q : Rat} (hle : 100 ≤ q) (hshort : q ≤ 2147483647) :
    100 ≤ (JsNumber.finite q).timerDelay ∧ (JsNumber.finite q).timerDelay ≤ 2147483647 := by
  have hlow : (100 : Int) ≤ q.floor := by
    rw [← Rat.floor_intCast 100]
    exact Rat.floor_monotone hle
  have hhigh : q.floor ≤ (2147483647 : Int) := by
    rw [← Rat.floor_intCast 2147483647]
    exact Rat.floor_monotone hshort
  have hinside : ¬(q < 1 ∨ 2147483647 < q) := by
    rw [not_or, Rat.not_lt, Rat.not_lt]
    exact ⟨Rat.le_trans (by decide) hle, hshort⟩
  rw [timerDelay, if_neg hinside]
  omega

-- The delay is 100 ms at least, unless the timeout is too long for a timer.
theorem SocketOptions.delay_cases (options : SocketOptions) :
    (100 ≤ options.delay ∧ options.delay ≤ 2147483647) ∨
      options.delay = 1 ∧ JsNumber.lt 2147483647 options.effectiveTimeout = true := by
  have hlarge : options.effectiveTimeout = .finite 100 ∨
      JsNumber.lt (.finite 100) options.effectiveTimeout = true := by
    unfold effectiveTimeout
    generalize (options.timeout.filter fun n => !n.isFalsy).getD 1000 = n
    by_cases hn : JsNumber.lt 100 n = true
    · rw [if_pos hn]
      exact .inr hn
    · rw [if_neg hn]
      exact .inl rfl
  unfold delay
  generalize options.effectiveTimeout = n at hlarge ⊢
  cases n with
  | nan => rcases hlarge with hlarge | hlarge <;> cases hlarge
  | infinity negative =>
      right
      cases negative with
      | true => rcases hlarge with hlarge | hlarge <;> cases hlarge
      | false => exact ⟨rfl, rfl⟩
  | finite q =>
      have hle : 100 ≤ q := by
        rcases hlarge with hlarge | hlarge
        · rw [JsNumber.finite.inj hlarge]
        · exact Rat.le_of_lt (of_decide_eq_true hlarge)
      by_cases hlong : 2147483647 < q
      · right
        exact ⟨by rw [JsNumber.timerDelay, if_pos (.inr hlong)], decide_eq_true hlong⟩
      · left
        exact JsNumber.timerDelay_finite hle (Rat.not_lt.mp hlong)

-- Without `connected` only an end can be seen.
theorem View.after_new_unfinished {v : View} {events : List SocketEvent}
    (h : new.after events = some v) (hunfinished : v.handshakeFinished = false) :
    if v.isClosed then ∃ event, events = [event] ∧ event.isEnd = true else events = [] := by
  rcases after_new h with ⟨hconnected, hends⟩
  have hall : ∀ event ∈ events, event.isEnd = true := by
    intro event hevent
    rcases List.append_of_mem hevent with ⟨before, rest, rfl⟩
    rw [after_append] at h
    rcases Option.bind_eq_some_iff.mp h with ⟨w, _, hrest⟩
    rw [after, List.foldlM_cons] at hrest
    rcases Option.bind_eq_some_iff.mp hrest with ⟨w', hnext, hlater⟩
    have hunfinished' : w'.handshakeFinished = false := by
      apply Bool.eq_false_of_not_eq_true
      intro hfinished
      rw [(after_le hlater).1 hfinished] at hunfinished
      cases hunfinished
    rcases next_cases hnext with ⟨rfl, rfl⟩ | ⟨_, hfinished, rfl⟩ | ⟨hend, _, _⟩
    · cases hunfinished'
    · rw [hunfinished'] at hfinished
      cases hfinished
    · exact hend
  rw [List.countP_eq_length.mpr hall] at hends
  cases hclosed : v.isClosed with
  | false =>
      rw [hclosed] at hends
      exact List.eq_nil_of_length_eq_zero hends
  | true =>
      rw [hclosed] at hends
      rcases List.length_eq_one_iff.mp hends with ⟨event, rfl⟩
      exact ⟨event, rfl, hall event List.mem_cons_self⟩

-- What was created can be killed.
theorem Socket.killConnection_waits (isClosed : Bool) (events : List SocketEvent) (e : JsError) :
    { Socket.new with
      isClosed := (killConnection (some e) { Socket.new with isClosed, events }).isClosed
      events := (killConnection (some e) { Socket.new with isClosed, events }).events } =
    killConnection (some e) { Socket.new with isClosed, events } := by
  cases isClosed with
  | true => rfl
  | false => rfl

namespace Lifetime

variable {opts : Options} {crypto : Crypto} {options : SocketOptions} {l : Lifetime}

/-! ## A client and what comes before -/

/-- The socket is a client, or still what it was created as, up to its end. -/
structure RefinesClient (opts : Options) (crypto : Crypto) (l : Lifetime) : Prop where
  isExtended : Socket.new.Extends l.socket
  waits : l.udpConnected = false → l.config =
    ⟨{ Socket.new with isClosed := l.socket.isClosed, events := l.socket.events }, []⟩
  isClient : l.udpConnected = true →
    ∃ random actions, l.config = (client opts crypto random).run actions

theorem RefinesClient.listening (h : RefinesClient opts crypto l) (random : Random) :
    RefinesClient opts crypto (l.udpOnListening opts crypto random) := by
  unfold udpOnListening
  by_cases hrefused : (l.udpConnected || l.socket.isClosed) = true
  · rw [if_pos hrefused]
    exact h
  · rw [if_neg hrefused]
    rw [Bool.not_eq_true, Bool.or_eq_false_iff] at hrefused
    have hconfig := h.waits hrefused.1
    have hafter := h.isExtended.after_new
    have hnew : l.socket.view = View.new := by
      rw [Socket.view, hrefused.2, socket, hconfig]
      rfl
    rw [hnew] at hafter
    have hnone : l.socket.events = [] := View.after_new_unfinished hafter rfl
    rw [hnone, hrefused.2] at hconfig
    have hsocket : l.socket = Socket.new := congrArg Config.socket hconfig
    have hpending : l.config.pending = [] := congrArg Config.pending hconfig
    have hextends := Socket.udpOnListening_extends opts crypto random l.socket
    have hclient : (⟨finalState (Socket.udpOnListening opts crypto random) l.socket,
        l.config.pending⟩ : Config) = (client opts crypto random).run [] := by
      rw [hsocket, hpending]
      rfl
    generalize finalState (Socket.udpOnListening opts crypto random) l.socket = s
      at hextends hclient ⊢
    refine ⟨h.isExtended.trans hextends, fun hwaits => ?_, fun _ => ⟨random, [], hclient⟩⟩
    cases hwaits

theorem RefinesClient.act (h : RefinesClient opts crypto l) (a : DtlsClient.Action) :
    RefinesClient opts crypto (l.act opts crypto a) := by
  unfold Lifetime.act
  by_cases htakes : l.takes a = true
  · rw [if_pos htakes]
    refine ⟨h.isExtended.trans (step_extends opts crypto l.config a), fun hwaits => ?_,
      fun hconnected => ?_⟩
    · -- only an end can come
      have hwaits : l.udpConnected = false := hwaits
      have hconfig := h.waits hwaits
      generalize hsocket : l.socket = s at hconfig
      show DtlsClient.step opts crypto l.config a = ⟨{ Socket.new with
        isClosed := (DtlsClient.step opts crypto l.config a).socket.isClosed
        events := (DtlsClient.step opts crypto l.config a).socket.events }, []⟩
      rw [hconfig]
      cases a with
      | udpClose =>
          cases s.isClosed with
          | true => rfl
          | false => rfl
      | udpError e => rw [DtlsClient.step, ← Socket.killConnection_waits s.isClosed s.events e]
      | _ =>
          have htakes : l.udpConnected = true := htakes
          rw [hwaits] at htakes
          cases htakes
    · rcases h.isClient hconnected with ⟨random, actions, hconfig⟩
      refine ⟨random, actions ++ [a], ?_⟩
      rw [(client opts crypto random).run_concat, ← hconfig]
      rfl
  · rw [if_neg htakes]
    exact h

theorem callTimer_cases (l : Lifetime) (timer : Timer) :
    l.callTimer timer = l.socket ∨ ∃ e, l.callTimer timer = l.socket.killConnection (some e) := by
  cases timer with
  | expectConnection =>
      show l.expectConnection = _ ∨ ∃ e, l.expectConnection = _
      unfold expectConnection
      split
      · exact .inr ⟨_, rfl⟩
      · exact .inl rfl
  | expectHandshake =>
      show l.socket.expectHandshake = _ ∨ ∃ e, l.socket.expectHandshake = _
      unfold Socket.expectHandshake
      split
      · exact .inr ⟨_, rfl⟩
      · exact .inl rfl

theorem callTimer_extends (l : Lifetime) (timer : Timer) : l.socket.Extends (l.callTimer timer) := by
  rcases l.callTimer_cases timer with hsame | ⟨e, hkilled⟩
  · rw [hsame]
    exact .refl _
  · rw [hkilled]
    exact Socket.killConnection_extends _ e

-- For a client every timer is the one of its runs, or does nothing.
theorem callTimer_client {timer : Timer} (hconnected : l.udpConnected = true)
    (h : ∃ random actions, l.config = (client opts crypto random).run actions) :
    ∃ random actions, { l.config with socket := l.callTimer timer } =
      (client opts crypto random).run actions := by
  rcases h with ⟨random, actions, hconfig⟩
  cases timer with
  | expectConnection =>
      have hsame : l.callTimer .expectConnection = l.config.socket := by
        show l.expectConnection = _
        rw [expectConnection, hconnected, Bool.not_true, Bool.and_false, if_neg Bool.false_ne_true]
        rfl
      exact ⟨random, actions, by rw [hsame, hconfig]⟩
  | expectHandshake =>
      refine ⟨random, actions ++ [.handshakeTimeout], ?_⟩
      rw [(client opts crypto random).run_concat, ← hconfig]
      rfl

theorem RefinesClient.timeout (h : RefinesClient opts crypto l) :
    RefinesClient opts crypto l.timeout := by
  unfold Lifetime.timeout
  cases l.connectionTimeout with
  | none => exact h
  | some running =>
      rcases running with ⟨timer, due⟩
      simp only
      split
      · exact h
      · refine ⟨?_, fun hwaits => ?_, fun hconnected => callTimer_client hconnected
          (h.isClient hconnected)⟩
        · exact h.isExtended.trans (l.callTimer_extends timer)
        · have hconfig := h.waits hwaits
          have hpending : l.config.pending = [] := congrArg Config.pending hconfig
          have hsocket : l.socket = { Socket.new with
              isClosed := l.socket.isClosed, events := l.socket.events } :=
            congrArg Config.socket hconfig
          show (⟨l.callTimer timer, l.config.pending⟩ : Config) = ⟨{ Socket.new with
            isClosed := (l.callTimer timer).isClosed, events := (l.callTimer timer).events }, []⟩
          rw [hpending]
          rcases l.callTimer_cases timer with hsame | ⟨e, hkilled⟩
          · rw [hsame, ← hsocket]
          · rw [hkilled, hsocket, Socket.killConnection_waits]

/-- The same for every step. -/
theorem step_refines (h : RefinesClient opts crypto l) (a : Action) :
    RefinesClient opts crypto (l.step opts crypto a) := by
  cases a with
  | listening random => exact h.listening random
  | timeout => exact h.timeout
  | elapse => exact ⟨h.isExtended, h.waits, h.isClient⟩
  | act a _ => exact h.act a

/-! ## The timer -/

/-- What the running timer calls. -/
def timer (l : Lifetime) : Timer := if l.udpConnected then .expectHandshake else .expectConnection

/-- What is reported when it fires in time. -/
def timeoutError (l : Lifetime) : JsError :=
  .error (if l.udpConnected then "The DTLS handshake timed out" else "The connection timed out")

theorem callTimer_timer (hopen : l.socket.isClosed = false)
    (hunfinished : l.socket.handshakeFinished = false) :
    l.callTimer l.timer =
      { l.socket with isClosed := true, events := l.socket.events ++ [.error l.timeoutError] } := by
  have hkilled : l.callTimer l.timer = l.socket.killConnection (some l.timeoutError) := by
    unfold timer timeoutError
    cases hconnected : l.udpConnected with
    | true =>
        show l.socket.expectHandshake = _
        rw [Socket.expectHandshake, hopen, hunfinished]
        rfl
    | false =>
        show l.expectConnection = _
        rw [expectConnection, hopen, hconnected]
        rfl
  rw [hkilled, Socket.killConnection, hopen]
  rfl

/-- While the socket is neither closed nor done with the handshake, the timer is running, since the socket
was created or since it listens, of which `P` holds; once it is done with the handshake, no timer is. -/
structure Watched (P : Nat → Prop) (l : Lifetime) : Prop where
  finished : l.socket.handshakeFinished = true → l.connectionTimeout = none
  running : l.socket.isClosed = false → l.socket.handshakeFinished = false →
    ∃ since, l.connectionTimeout = some (l.timer, since + l.options.delay) ∧
      if l.udpConnected then P since else since = 0

variable {P : Nat → Prop}

theorem Watched.new (options : SocketOptions) : Watched P (.new options) where
  finished := by
    intro hfinished
    cases hfinished
  running := fun _ _ => ⟨0, by rw [Nat.zero_add]; rfl, rfl⟩

theorem Watched.listening (h : Watched P l) (hwaits : l.udpConnected = false →
      l.socket.handshakeFinished = false)
    (hnow : l.udpConnected = false → l.socket.isClosed = false → P l.now) (random : Random) :
    Watched P (l.udpOnListening opts crypto random) := by
  unfold udpOnListening
  by_cases hrefused : (l.udpConnected || l.socket.isClosed) = true
  · rw [if_pos hrefused]
    exact h
  · rw [if_neg hrefused]
    rw [Bool.not_eq_true, Bool.or_eq_false_iff] at hrefused
    generalize hsocket : finalState (Socket.udpOnListening opts crypto random) l.socket = s
    refine ⟨fun hfinished => ?_, fun _ _ => ⟨l.now, rfl, hnow hrefused.1 hrefused.2⟩⟩
    -- the handshake has only begun
    have hview := (Socket.udpOnListening_view opts crypto random l.socket).2
    rw [hsocket] at hview
    have hsame : s.handshakeFinished = l.socket.handshakeFinished := congrArg View.handshakeFinished hview
    have hfinished : s.handshakeFinished = true := hfinished
    rw [hsame, hwaits hrefused.1] at hfinished
    cases hfinished

theorem Watched.act (h : Watched P l) (a : DtlsClient.Action) : Watched P (l.act opts crypto a) := by
  unfold Lifetime.act
  split
  · have hextends := step_extends opts crypto l.config a
    generalize DtlsClient.step opts crypto l.config a = c at hextends ⊢
    refine ⟨fun hdone => ?_, fun hopen hunfinished => ?_⟩
    · have hdone : c.socket.handshakeFinished = true := hdone
      show (if clears a l.config c then none else l.connectionTimeout) = none
      cases hbefore : l.config.socket.handshakeFinished with
      | true =>
          split
          · rfl
          · exact h.finished hbefore
      | false =>
          have hclears : clears a l.config c = true := by
            unfold clears
            rw [hbefore, hdone]
            rfl
          rw [if_pos hclears]
    · have hopen : c.socket.isClosed = false := hopen
      have hunfinished : c.socket.handshakeFinished = false := hunfinished
      have hclears : clears a l.config c = false := by
        unfold clears
        rw [hunfinished, hopen, Bool.and_false, Bool.and_false]
        cases a <;> rfl
      rcases h.running (hextends.was_open hopen) (hextends.was_unfinished hunfinished) with
        ⟨since, hrunning, hsince⟩
      refine ⟨since, ?_, hsince⟩
      show (if clears a l.config c then none else l.connectionTimeout) = _
      rw [hclears, hrunning]
      rfl
  · exact h

theorem Watched.timeout (h : Watched P l) : Watched P l.timeout := by
  unfold Lifetime.timeout
  cases hrunning : l.connectionTimeout with
  | none => exact h
  | some running =>
      rcases running with ⟨timer, due⟩
      simp only
      split
      · exact h
      · refine ⟨fun _ => rfl, fun hopen hunfinished => ?_⟩
        have hopen : (l.callTimer timer).isClosed = false := hopen
        have hunfinished : (l.callTimer timer).handshakeFinished = false := hunfinished
        -- it was the right timer, which has closed the socket
        have hopen' := (l.callTimer_extends timer).was_open hopen
        have hunfinished' := (l.callTimer_extends timer).was_unfinished hunfinished
        rcases h.running hopen' hunfinished' with ⟨since, hsame, _⟩
        rw [hrunning] at hsame
        have htimer : timer = l.timer := congrArg Prod.fst (Option.some.inj hsame)
        rw [htimer, callTimer_timer hopen' hunfinished'] at hopen
        cases hopen

theorem Watched.step (h : Watched P l) (hrefines : RefinesClient opts crypto l)
    (hnow : l.udpConnected = false → l.socket.isClosed = false → P l.now) (a : Action) :
    Watched P (l.step opts crypto a) := by
  cases a with
  | listening random =>
      refine h.listening (fun hwaits => ?_) hnow random
      rw [socket, hrefines.waits hwaits]
      rfl
  | timeout => exact h.timeout
  | elapse => exact ⟨h.finished, h.running⟩
  | act a _ => exact h.act a

theorem step_options (l : Lifetime) (a : Action) : (l.step opts crypto a).options = l.options := by
  cases a with
  | listening random =>
      show (l.udpOnListening opts crypto random).options = _
      unfold udpOnListening
      split <;> rfl
  | timeout =>
      show l.timeout.options = _
      unfold Lifetime.timeout
      split
      · rfl
      · split <;> rfl
  | elapse => rfl
  | act a _ =>
      show (l.act opts crypto a).options = _
      unfold Lifetime.act
      split <;> rfl

end Lifetime

/-! ## Whole lives -/

section

variable (opts : Options) (crypto : Crypto) (options : SocketOptions)
  (actions : List Lifetime.Action)

theorem lifetime_refines : ((lifetime opts crypto options).run actions).RefinesClient opts crypto := by
  apply (lifetime opts crypto options).invariant (P := Lifetime.RefinesClient opts crypto)
  · refine ⟨.refl _, fun _ => rfl, fun hconnected => ?_⟩
    cases hconnected
  · exact fun _ a h => Lifetime.step_refines h a

theorem lifetime_options : ((lifetime opts crypto options).run actions).options = options :=
  (lifetime opts crypto options).invariant (P := fun l => l.options = options) rfl
    (fun l a h => (l.step_options a).trans h) actions

/-- A socket is a client from the moment its UDP socket listens, whatever holds of every run of a client.
Before, it is as it was created, until an error or the end of its UDP socket closes it. -/
theorem lifetime_refinesClient (options : SocketOptions) (actions : List Lifetime.Action) :
    let l := (lifetime opts crypto options).run actions
    (l.udpConnected = true → ∃ random clientActions,
      l.config = (client opts crypto random).run clientActions) ∧
    (l.udpConnected = false → l.config = ⟨.new, []⟩ ∨ ∃ event : SocketEvent, event.isEnd = true ∧
      l.config = ⟨{ Socket.new with isClosed := true, events := [event] }, []⟩) := by
  intro l
  have h : l.RefinesClient opts crypto := lifetime_refines opts crypto options actions
  refine ⟨h.isClient, fun hwaits => ?_⟩
  have hconfig := h.waits hwaits
  have hunfinished : l.socket.view.handshakeFinished = false := by
    rw [Lifetime.socket, hconfig]
    rfl
  have hevents := View.after_new_unfinished h.isExtended.after_new hunfinished
  cases hclosed : l.socket.isClosed with
  | false =>
      have hview : l.socket.view.isClosed = false := hclosed
      rw [hview, if_neg Bool.false_ne_true] at hevents
      rw [hevents, hclosed] at hconfig
      exact .inl hconfig
  | true =>
      have hview : l.socket.view.isClosed = true := hclosed
      rw [hview, if_pos rfl] at hevents
      rcases hevents with ⟨event, hevents, hend⟩
      rw [hevents, hclosed] at hconfig
      exact .inr ⟨event, hend, hconfig⟩

theorem lifetime_isWatched : ((lifetime opts crypto options).run actions).Watched fun _ => True :=
  (lifetime opts crypto options).run_induction (P := fun _ l => l.Watched fun _ => True)
    (.new options) (fun actions a h => h.step (lifetime_refines opts crypto options actions)
      (fun _ _ => trivial) a) actions

/-- As long as the socket is neither closed nor done with the handshake, the timer of its phase is running,
and closes it with an error when it fires.  A socket that is done with the handshake is not timed. -/
theorem lifetime_watched (options : SocketOptions) (actions : List Lifetime.Action) :
    let l := (lifetime opts crypto options).run actions
    (l.socket.handshakeFinished = true → l.connectionTimeout = none) ∧
    (l.socket.isClosed = false → l.socket.handshakeFinished = false →
      ∃ due, l.connectionTimeout = some (l.timer, due) ∧
        (due ≤ l.now → l.timeout.socket = { l.socket with
          isClosed := true
          events := l.socket.events ++ [.error l.timeoutError] })) := by
  intro l
  have h : l.Watched fun _ => True := lifetime_isWatched opts crypto options actions
  refine ⟨h.finished, fun hopen hunfinished => ?_⟩
  rcases h.running hopen hunfinished with ⟨since, hrunning, _⟩
  refine ⟨_, hrunning, fun hdue => ?_⟩
  rw [Lifetime.timeout, hrunning]
  simp only
  rw [if_neg (Nat.not_lt.mpr hdue)]
  exact Lifetime.callTimer_timer hopen hunfinished

/-- No timer has been due for more than `lateness` milliseconds. -/
def Lifetime.Prompt (lateness : Nat) (l : Lifetime) : Prop :=
  ∀ running ∈ l.connectionTimeout, l.now ≤ running.2 + lateness

instance (lateness : Nat) (l : Lifetime) : Decidable (l.Prompt lateness) :=
  inferInstanceAs (Decidable (∀ running ∈ l.connectionTimeout, l.now ≤ running.2 + lateness))

-- The UDP socket listens in time.
theorem lifetime_listensPromptly {lateness : Nat}
    (hprompt : ∀ t ∈ (lifetime opts crypto options).trace actions, t.1.Prompt lateness) :
    ((lifetime opts crypto options).run actions).Watched (· ≤ options.delay + lateness) := by
  have hrun := (lifetime opts crypto options).invariant_of_trace
    (P := fun l => l.Watched (· ≤ options.delay + lateness) ∧ l.RefinesClient opts crypto ∧
      l.options = options) (C := fun t => t.1.Prompt lateness)
    ⟨.new options, lifetime_refines opts crypto options [], rfl⟩ ?_ hprompt
  · exact hrun.1
  · rintro l a ⟨hwatched, hrefines, hoptions⟩ hprompt
    refine ⟨hwatched.step hrefines (fun hwaits hopen => ?_) a, Lifetime.step_refines hrefines a,
      (l.step_options a).trans hoptions⟩
    have hunfinished : l.socket.handshakeFinished = false := by
      rw [Lifetime.socket, hrefines.waits hwaits]
      rfl
    rcases hwatched.running hopen hunfinished with ⟨since, hrunning, hsince⟩
    rw [hwaits, if_neg Bool.false_ne_true] at hsince
    have hnow : l.now ≤ since + l.options.delay + lateness := hprompt _ hrunning
    rw [hsince, hoptions, Nat.zero_add] at hnow
    exact hnow

/-- Where every timer fires within `lateness` milliseconds, the UDP socket listens in time and the handshake
takes no longer than as much again, or the socket is closed. -/
theorem lifetime_settles (lateness : Nat)
    (hprompt : ∀ t ∈ (lifetime opts crypto options).trace actions, t.1.Prompt lateness)
    (hlast : ((lifetime opts crypto options).run actions).Prompt lateness) :
    let l := (lifetime opts crypto options).run actions
    (options.delay + lateness < l.now → l.udpConnected = true ∨ l.socket.isClosed = true) ∧
    (2 * (options.delay + lateness) < l.now →
      l.socket.handshakeFinished = true ∨ l.socket.isClosed = true) := by
  intro l
  have hwatched := lifetime_listensPromptly opts crypto options actions hprompt
  have hoptions : l.options = options := lifetime_options opts crypto options actions
  have hrefines := lifetime_refines opts crypto options actions
  -- how long the timer can have been running
  have hbound : l.socket.isClosed = false → l.socket.handshakeFinished = false →
      ∃ since, l.now ≤ since + (options.delay + lateness) ∧
        if l.udpConnected then since ≤ options.delay + lateness else since = 0 := by
    intro hopen hunfinished
    rcases hwatched.running hopen hunfinished with ⟨since, hrunning, hsince⟩
    have hnow : l.now ≤ since + l.options.delay + lateness := hlast _ hrunning
    rw [hoptions, Nat.add_assoc] at hnow
    exact ⟨since, hnow, hsince⟩
  cases hclosed : l.socket.isClosed with
  | true => exact ⟨fun _ => .inr rfl, fun _ => .inr rfl⟩
  | false =>
      cases hfinished : l.socket.handshakeFinished with
      | true =>
          refine ⟨fun _ => .inl ?_, fun _ => .inl rfl⟩
          by_contra hwaits
          rw [Bool.not_eq_true] at hwaits
          rw [Lifetime.socket, hrefines.waits hwaits] at hfinished
          cases hfinished
      | false =>
          rcases hbound hclosed hfinished with ⟨since, hnow, hsince⟩
          cases hlistens : l.udpConnected with
          | true =>
              rw [hlistens, if_pos rfl] at hsince
              exact ⟨fun _ => .inl rfl, fun hlate => by omega⟩
          | false =>
              rw [hlistens, if_neg Bool.false_ne_true] at hsince
              exact ⟨fun hlate => by omega, fun hlate => by omega⟩

end

namespace Sample

def socketOptions : SocketOptions where
  type := .string "udp4"
  address := .string "127.0.0.1"
  port := .number 5684
  psk := .object
  timeout := some 100

/-- The UDP socket listens, no server answers, and the timer fires 3 milliseconds late. -/
def unanswered : List Lifetime.Action :=
  List.replicate 5 .elapse ++ [.listening random] ++ List.replicate 103 .elapse ++ [.timeout] ++
    List.replicate 103 .elapse

end Sample

theorem lifetime_settles_sample :
    ((lifetime Sample.opts Sample.crypto Sample.socketOptions).run Sample.unanswered).socket.isClosed =
      true := by
  have hlast : ((lifetime Sample.opts Sample.crypto Sample.socketOptions).run
        Sample.unanswered).Prompt 5 ∧
      2 * (Sample.socketOptions.delay + 5) <
        ((lifetime Sample.opts Sample.crypto Sample.socketOptions).run Sample.unanswered).now ∧
      ((lifetime Sample.opts Sample.crypto Sample.socketOptions).run
        Sample.unanswered).socket.handshakeFinished = false := by
    decide +kernel
  have hsettles := lifetime_settles Sample.opts Sample.crypto Sample.socketOptions Sample.unanswered 5
    (by decide +kernel) hlast.1
  generalize (lifetime Sample.opts Sample.crypto Sample.socketOptions).run Sample.unanswered = l
    at hsettles hlast ⊢
  rcases hsettles.2 hlast.2.1 with hfinished | hclosed
  · rw [hlast.2.2] at hfinished
    cases hfinished
  · exact hclosed

end DtlsClient
