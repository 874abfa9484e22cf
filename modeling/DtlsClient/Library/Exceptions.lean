import Mathlib.Tactic.Common

/-!
# Programs with a state and exceptions

`Ends x s Q E`: run from `s`, the program `x` returns into `Q` or throws into `E`.  An exception
keeps the state it was thrown in.  `onPart` runs a program on a part of the state.
-/

namespace Library

variable {ε σ τ α β : Type}

def Ends (x : EStateM ε σ α) (s : σ) (Q : α → σ → Prop) (E : ε → σ → Prop) : Prop :=
  match x s with
  | .ok a s' => Q a s'
  | .error e s' => E e s'

/-- Runs `x` on the part of the state that `part` reads and `setPart` replaces. -/
def onPart (part : σ → τ) (setPart : σ → τ → σ) (x : EStateM ε τ α) : EStateM ε σ α := fun s =>
  match x (part s) with
  | .ok a t => .ok a (setPart s t)
  | .error e t => .error e (setPart s t)

/-- The state a program is left in, whichever way it ends. -/
def finalState (x : EStateM ε σ α) (s : σ) : σ :=
  match x s with
  | .ok _ s' => s'
  | .error _ s' => s'

def returns (x : EStateM ε σ α) (s : σ) : Bool :=
  match x s with
  | .ok _ _ => true
  | .error _ _ => false

@[simp] theorem ok_bind (a : α) (f : α → Except ε β) : (Except.ok a >>= f) = f a := rfl

@[simp] theorem error_bind (e : ε) (f : α → Except ε β) :
    ((Except.error e : Except ε α) >>= f) = .error e := rfl

-- A computation without a state that goes through, goes through in each of its parts.
theorem bind_eq_ok {x : Except ε α} {f : α → Except ε β} {b : β} :
    (x >>= f) = .ok b ↔ ∃ a, x = .ok a ∧ f a = .ok b := by
  show Except.bind x f = _ ↔ _
  cases x with
  | error e => exact ⟨nofun, fun ⟨_, h, _⟩ => nomatch h⟩
  | ok a => exact ⟨fun h => ⟨a, rfl, h⟩, fun ⟨_, ha, h⟩ => by rw [Except.ok.inj ha]; exact h⟩

theorem finalState_bind (x : EStateM ε σ α) (f : α → EStateM ε σ β) (s : σ) :
    finalState (x >>= f) s =
      match x s with
      | .ok a s' => finalState (f a) s'
      | .error _ s' => s' := by
  show finalState (EStateM.bind x f) s = _
  unfold finalState EStateM.bind
  cases x s <;> rfl

theorem bind_congr_at {x y : EStateM ε σ α} {s : σ} (h : x s = y s) (f : α → EStateM ε σ β) :
    (x >>= f) s = (y >>= f) s := by
  show EStateM.bind x f s = EStateM.bind y f s
  unfold EStateM.bind
  rw [h]

theorem onPart_congr_at {part : σ → τ} {x y : EStateM ε τ α} {s : σ} (h : x (part s) = y (part s))
    (setPart : σ → τ → σ) : onPart part setPart x s = onPart part setPart y s := by
  unfold onPart
  rw [h]

section Rules

variable {s : σ} {Q Q' : α → σ → Prop} {E E' : ε → σ → Prop}

@[simp] theorem ends_pure (a : α) : Ends (pure a : EStateM ε σ α) s Q E ↔ Q a s := Iff.rfl

@[simp] theorem ends_get {Q : σ → σ → Prop} : Ends (get : EStateM ε σ σ) s Q E ↔ Q s s := Iff.rfl

@[simp] theorem ends_modify {Q : Unit → σ → Prop} (f : σ → σ) :
    Ends (modify f : EStateM ε σ Unit) s Q E ↔ Q () (f s) := Iff.rfl

@[simp] theorem ends_bind (x : EStateM ε σ α) (f : α → EStateM ε σ β) {Q : β → σ → Prop} :
    Ends (x >>= f) s Q E ↔ Ends x s (fun a s' => Ends (f a) s' Q E) E := by
  show Ends (EStateM.bind x f) s Q E ↔ _
  unfold Ends EStateM.bind
  cases x s <;> rfl

@[simp] theorem ends_onPart (part : σ → τ) (setPart : σ → τ → σ) (x : EStateM ε τ α) :
    Ends (onPart part setPart x) s Q E ↔
      Ends x (part s) (fun a t => Q a (setPart s t)) (fun e t => E e (setPart s t)) := by
  unfold Ends onPart
  cases x (part s) <;> rfl

theorem Ends.mono {x : EStateM ε σ α} (h : Ends x s Q E) (hQ : ∀ a s', Q a s' → Q' a s')
    (hE : ∀ e s', E e s' → E' e s') : Ends x s Q' E' := by
  unfold Ends at *
  cases hx : x s with
  | ok a s' => rw [hx] at h; exact hQ a s' h
  | error e s' => rw [hx] at h; exact hE e s' h

theorem Ends.and {x : EStateM ε σ α} (h : Ends x s Q E) (h' : Ends x s Q' E') :
    Ends x s (fun a s' => Q a s' ∧ Q' a s') (fun e s' => E e s' ∧ E' e s') := by
  unfold Ends at *
  cases hx : x s with
  | ok a s' => rw [hx] at h h'; exact ⟨h, h'⟩
  | error e s' => rw [hx] at h h'; exact ⟨h, h'⟩

theorem Ends.of_ok {x : EStateM ε σ α} {a : α} {s' : σ} (h : Ends x s Q E) (hx : x s = .ok a s') :
    Q a s' := by
  unfold Ends at h
  rw [hx] at h
  exact h

theorem Ends.of_error {x : EStateM ε σ α} {e : ε} {s' : σ} (h : Ends x s Q E)
    (hx : x s = .error e s') : E e s' := by
  unfold Ends at h
  rw [hx] at h
  exact h

-- What a program that returns ensures, where it does return.
theorem Ends.of_returns {x : EStateM ε σ α} (h : Ends x s Q E) (hx : returns x s = true) :
    ∃ a, Q a (Library.finalState x s) := by
  unfold returns at hx
  cases hres : x s with
  | ok a s' =>
      refine ⟨a, ?_⟩
      unfold Library.finalState
      rw [hres]
      exact h.of_ok hres
  | error e s' =>
      rw [hres] at hx
      cases hx

theorem Ends.exists_ok {x : EStateM ε σ α} (h : Ends x s Q (fun _ _ => False)) :
    ∃ a s', x s = .ok a s' ∧ Q a s' := by
  cases hx : x s with
  | ok a s' => exact ⟨a, s', rfl, h.of_ok hx⟩
  | error e s' => exact (h.of_error hx).elim

theorem ends_of_forall (x : EStateM ε σ α) (s : σ) (hQ : ∀ a s', Q a s') (hE : ∀ e s', E e s') :
    Ends x s Q E := by
  unfold Ends
  cases x s with
  | ok a s' => exact hQ a s'
  | error e s' => exact hE e s'

-- A program is what it does, whichever way it ends.
theorem eq_of_ends {x : EStateM ε σ α} {result : EStateM.Result ε σ α}
    (h : Ends x s (fun a s' => .ok a s' = result) (fun e s' => .error e s' = result)) :
    x s = result := by
  cases hx : x s with
  | ok a s' => exact h.of_ok hx
  | error e s' => exact h.of_error hx

theorem ends_of_eq_ok {x : EStateM ε σ α} {a : α} {s' : σ} (hx : x s = .ok a s') :
    Ends x s Q E ↔ Q a s' := by
  unfold Ends
  rw [hx]

theorem ends_of_eq_error {x : EStateM ε σ α} {e : ε} {s' : σ} (hx : x s = .error e s') :
    Ends x s Q E ↔ E e s' := by
  unfold Ends
  rw [hx]

theorem not_returns {x : EStateM ε σ α} (h : Ends x s (fun _ _ => False) E) :
    returns x s = false := by
  unfold returns
  cases hx : x s with
  | ok a s' => exact (h.of_ok hx).elim
  | error e s' => rfl

theorem returns_bind {x : EStateM ε σ α} {f : α → EStateM ε σ β} {a : α} {s' : σ}
    (hx : x s = .ok a s') : returns (x >>= f) s = returns (f a) s' := by
  show returns (EStateM.bind x f) s = _
  unfold returns EStateM.bind
  rw [hx]

-- A loop keeps what every round keeps, and throws as its rounds do.
theorem ends_forM {ι : Type} {P : σ → Prop} {f : ι → EStateM ε σ Unit} {xs : List ι}
    (hf : ∀ i ∈ xs, ∀ s, P s → Ends (f i) s (fun _ => P) E) (hs : P s) :
    Ends (xs.forM f) s (fun _ => P) E := by
  induction xs generalizing s with
  | nil => exact hs
  | cons i xs ih =>
      show Ends (f i >>= fun _ => xs.forM f) s (fun _ => P) E
      rw [ends_bind]
      apply (hf i List.mem_cons_self s hs).mono
      · intro _ s' hs'
        exact ih (fun j hj => hf j (List.mem_cons_of_mem i hj)) hs'
      · exact fun _ _ h => h

-- What a program ensures however it ends, its final state meets.
theorem Ends.finalState {x : EStateM ε σ α} {P : σ → Prop}
    (h : Ends x s (fun _ => P) (fun _ => P)) : P (finalState x s) := by
  unfold Ends at h
  unfold Library.finalState
  cases hx : x s with
  | ok a s' => rw [hx] at h; exact h
  | error e s' => rw [hx] at h; exact h

theorem ends_of_finalState {x : EStateM ε σ α} {P : σ → Prop}
    (h : P (Library.finalState x s)) : Ends x s (fun _ => P) (fun _ => P) := by
  unfold Library.finalState at h
  unfold Ends
  cases hx : x s with
  | ok a s' => rw [hx] at h; exact h
  | error e s' => rw [hx] at h; exact h

end Rules

end Library
