import Mathlib.Data.List.Induction

/-!
# State machines and their runs

A machine takes one action after the other.  `run` is the state it is left in, `trace` lists each
action with the state it was taken in.  The rules carry an invariant from one step to all runs, or
to the runs whose steps all meet a condition.
-/

namespace Library

structure Machine (σ α : Type) where
  init : σ
  step : σ → α → σ

namespace Machine

variable {σ α : Type} (m : Machine σ α)

def run (actions : List α) : σ := actions.foldl m.step m.init

def traceFrom : σ → List α → List (σ × α)
  | _, [] => []
  | s, a :: actions => (s, a) :: traceFrom (m.step s a) actions

def trace (actions : List α) : List (σ × α) := m.traceFrom m.init actions

theorem run_concat (actions : List α) (a : α) :
    m.run (actions ++ [a]) = m.step (m.run actions) a := by
  rw [run, List.foldl_append, List.foldl_cons, List.foldl_nil, run]

theorem traceFrom_append (s : σ) (before after : List α) :
    m.traceFrom s (before ++ after) =
      m.traceFrom s before ++ m.traceFrom (before.foldl m.step s) after := by
  induction before generalizing s with
  | nil => rfl
  | cons a before ih =>
      rw [List.cons_append, traceFrom, traceFrom, ih, List.foldl_cons, List.cons_append]

theorem trace_concat (actions : List α) (a : α) :
    m.trace (actions ++ [a]) = m.trace actions ++ [(m.run actions, a)] := by
  rw [trace, traceFrom_append]
  rfl

theorem forall_trace_concat {P : σ × α → Prop} {actions : List α} {a : α} :
    (∀ t ∈ m.trace (actions ++ [a]), P t) ↔
      (∀ t ∈ m.trace actions, P t) ∧ P (m.run actions, a) := by
  rw [trace_concat, List.forall_mem_append, List.forall_mem_singleton]

theorem trace_subset {before actions : List α} (h : before <+: actions) :
    m.trace before ⊆ m.trace actions := by
  rcases h with ⟨after, rfl⟩
  rw [trace, trace, traceFrom_append]
  exact List.subset_append_left _ _

-- Induction along a run, from its first action to its last.
theorem run_induction {P : List α → σ → Prop} (init : P [] m.init)
    (step : ∀ actions a, P actions (m.run actions) → P (actions ++ [a]) (m.step (m.run actions) a))
    (actions : List α) : P actions (m.run actions) := by
  induction actions using List.reverseRecOn with
  | nil => exact init
  | append_singleton actions a ih =>
      rw [run_concat]
      exact step actions a ih

/-- What holds at the start and is kept by every step holds in every state that is reached. -/
theorem invariant {P : σ → Prop} (init : P m.init) (step : ∀ s a, P s → P (m.step s a))
    (actions : List α) : P (m.run actions) :=
  m.run_induction (P := fun _ s => P s) init (fun _ _ h => step _ _ h) actions

-- The same for the runs whose steps all meet a condition.
theorem invariant_of_trace {P : σ → Prop} {C : σ × α → Prop} (init : P m.init)
    (step : ∀ s a, P s → C (s, a) → P (m.step s a)) {actions : List α}
    (h : ∀ t ∈ m.trace actions, C t) : P (m.run actions) := by
  revert h
  refine m.run_induction (P := fun actions s => (∀ t ∈ m.trace actions, C t) → P s)
    (fun _ => init) (fun actions a ih h => ?_) actions
  rw [forall_trace_concat] at h
  exact step _ _ (ih h.1) h.2

-- The same from a state on that a run has reached.
theorem invariant_after {P : σ → Prop} {C : σ × α → Prop} {before after : List α}
    (start : P (m.run before)) (step : ∀ s a, P s → C (s, a) → P (m.step s a))
    (h : ∀ t ∈ m.trace (before ++ after), C t) : P (m.run (before ++ after)) := by
  induction after using List.reverseRecOn with
  | nil =>
      rw [List.append_nil]
      exact start
  | append_singleton after a ih =>
      rw [← List.append_assoc, forall_trace_concat] at h
      rw [← List.append_assoc, run_concat]
      exact step _ _ (ih h.1) h.2

/-- Two runs whose actions are alike stay related, as long as the steps of the first one meet the
condition under which alike actions keep the relation. -/
theorem run_related {R : σ → σ → Prop} {alike : α → α → Prop} {C : σ × α → Prop}
    (init : R m.init m.init)
    (step : ∀ s s' a a', R s s' → alike a a' → C (s, a) → R (m.step s a) (m.step s' a'))
    {actions actions' : List α} (hactions : List.Forall₂ alike actions actions')
    (h : ∀ t ∈ m.trace actions, C t) : R (m.run actions) (m.run actions') := by
  have hfrom : ∀ s s', R s s' → (∀ t ∈ m.traceFrom s actions, C t) →
      R (actions.foldl m.step s) (actions'.foldl m.step s') := by
    clear h
    induction hactions with
    | nil => exact fun s s' hs _ => hs
    | cons ha hrest ih =>
        intro s s' hs htrace
        rw [traceFrom, List.forall_mem_cons] at htrace
        exact ih _ _ (step _ _ _ _ hs ha htrace.1) htrace.2
  exact hfrom m.init m.init init h

-- Every state in which a run takes an action is reached by the actions before.
theorem mem_trace {actions : List α} {t : σ × α} (h : t ∈ m.trace actions) :
    ∃ before after, actions = before ++ t.2 :: after ∧ m.run before = t.1 := by
  induction actions using List.reverseRecOn with
  | nil => cases h
  | append_singleton actions a ih =>
      rw [trace_concat, List.mem_append, List.mem_singleton] at h
      rcases h with h | rfl
      · rcases ih h with ⟨before, after, rfl, hrun⟩
        exact ⟨before, after ++ [a], by simp, hrun⟩
      · exact ⟨actions, [], rfl, rfl⟩

end Machine

/-! ## Places in a row of inputs -/

-- Where `p` holds once in all lists together, the list in which it does is at one place.
theorem split_unique {α β : Type} {f : α → List β} {p : β → Bool}
    {l before before' after after' : List α} {x x' : α} (hone : (l.flatMap f).countP p = 1)
    (hsplit : l = before ++ x :: after)
    (hsplit' : l = before' ++ x' :: after') (hx : 0 < (f x).countP p) (hx' : 0 < (f x').countP p) :
    before = before' ∧ x = x' := by
  induction before generalizing l before' with
  | nil =>
      rw [List.nil_append] at hsplit
      cases before' with
      | nil =>
          rw [List.nil_append, hsplit] at hsplit'
          exact ⟨rfl, (List.cons.inj hsplit').1⟩
      | cons y before' =>
          rw [hsplit, List.cons_append] at hsplit'
          rw [hsplit, (List.cons.inj hsplit').2, List.flatMap_cons, List.flatMap_append,
            List.flatMap_cons, List.countP_append, List.countP_append, List.countP_append] at hone
          omega
  | cons y before ih =>
      rw [List.cons_append] at hsplit
      rw [hsplit, List.flatMap_cons, List.countP_append] at hone
      have hrest : 0 < ((before ++ x :: after).flatMap f).countP p := by
        rw [List.flatMap_append, List.flatMap_cons, List.countP_append, List.countP_append]
        omega
      cases before' with
      | nil =>
          rw [List.nil_append, hsplit] at hsplit'
          rw [(List.cons.inj hsplit').1] at hone
          omega
      | cons y' before' =>
          rw [List.cons_append, hsplit] at hsplit'
          rcases List.cons.inj hsplit' with ⟨rfl, htail⟩
          rcases ih (by omega) rfl htail with ⟨rfl, heq⟩
          exact ⟨rfl, heq⟩

end Library
