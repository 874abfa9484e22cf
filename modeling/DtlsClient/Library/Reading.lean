import Mathlib.Logic.Function.Basic
import DtlsClient.Library.Exceptions

/-!
# Readers that may find something unknown

A reader returns a value and how far it read.  Beside its input it may look at something unknown, such as
memory that nobody has written to.  `Reads m₀ m₁ read loose strict` says of the reader `read`:

* `loose` is how far it reads, or `none` if it throws;
* `strict` is the same as long as the value does not depend on the unknown, and `none` otherwise.

Two unknowns are enough to see a dependence; `m₀` and `m₁` are two that show every one.
-/

namespace Library

variable {ε μ α β γ : Type} {m₀ m₁ : μ}

inductive Reads (m₀ m₁ : μ) (read : μ → Except ε (α × Nat)) : Option Nat → Option Nat → Prop
  | throws (e : ε) (hread : ∀ m, read m = .error e) : Reads m₀ m₁ read none none
  | inside (value : α) (n : Nat) (hread : ∀ m, read m = .ok (value, n)) :
      Reads m₀ m₁ read (some n) (some n)
  | outside (value : μ → α) (n : Nat) (hread : ∀ m, read m = .ok (value m, n))
      (hdiffer : value m₀ ≠ value m₁) : Reads m₀ m₁ read (some n) none

namespace Reads

variable {read : μ → Except ε (α × Nat)} {loose strict : Option Nat}

/-- The unknown makes no difference exactly if the reader does not look at it or throws anyway. -/
theorem same_iff (h : Reads m₀ m₁ read loose strict) :
    (∀ m m', read m = read m') ↔ strict.isSome = true ∨ loose = none := by
  cases h with
  | throws e hread => exact ⟨fun _ => .inr rfl, fun _ m m' => (hread m).trans (hread m').symm⟩
  | inside value n hread =>
      exact ⟨fun _ => .inl rfl, fun _ m m' => (hread m).trans (hread m').symm⟩
  | outside value n hread hdiffer =>
      constructor
      · intro hsame
        have heq := hsame m₀ m₁
        rw [hread, hread] at heq
        exact absurd (congrArg Prod.fst (Except.ok.inj heq)) hdiffer
      · rintro (hstrict | hloose)
        · cases hstrict
        · cases hloose

theorem exists_ok (h : Reads m₀ m₁ read loose strict) (hloose : loose.isSome = true) (m : μ) :
    ∃ value n, loose = some n ∧ read m = .ok (value, n) := by
  cases h with
  | throws e hread => cases hloose
  | inside value n hread => exact ⟨value, n, rfl, hread m⟩
  | outside value n hread _ => exact ⟨value m, n, rfl, hread m⟩

-- A reader does not throw exactly if it reads any distance.
theorem ok_iff (h : Reads m₀ m₁ read loose strict) (m : μ) :
    (∃ r, read m = .ok r) ↔ loose.isSome = true := by
  constructor
  · rintro ⟨r, hok⟩
    cases h with
    | throws e hread =>
        rw [hread m] at hok
        cases hok
    | inside => rfl
    | outside => rfl
  · intro hloose
    rcases h.exists_ok hloose m with ⟨value, n, _, hok⟩
    exact ⟨(value, n), hok⟩

theorem congr {read' : μ → Except ε (α × Nat)} (h : Reads m₀ m₁ read loose strict)
    (heq : ∀ m, read' m = read m) : Reads m₀ m₁ read' loose strict := by
  rw [funext heq]
  exact h

theorem count (h : Reads m₀ m₁ read loose strict) (f : Nat → Nat) :
    Reads m₀ m₁ (fun m => read m >>= fun r => (pure (r.1, f r.2) : Except ε (α × Nat)))
      (loose.map f) (strict.map f) := by
  cases h with
  | throws e hread =>
      apply throws e
      intro m
      rw [hread m, error_bind]
  | inside value n hread =>
      apply inside value
      intro m
      rw [hread m]
      rfl
  | outside value n hread hdiffer =>
      apply outside value
      · intro m
        rw [hread m]
        rfl
      · exact hdiffer

-- Two readers one after the other.  Where the second one begins depends on the first one, and both
-- values are part of the result.
theorem bind {next : Nat → μ → Except ε (β × Nat)} {nextLoose nextStrict : Nat → Option Nat}
    (pair : α → β → γ) (total : Nat → Nat → Nat) (h : Reads m₀ m₁ read loose strict)
    (hnext : ∀ n, Reads m₀ m₁ (next n) (nextLoose n) (nextStrict n))
    (hpair : Function.Injective2 pair) :
    Reads m₀ m₁
      (fun m => read m >>= fun r => next r.2 m >>= fun r' =>
        (pure (pair r.1 r'.1, total r.2 r'.2) : Except ε (γ × Nat)))
      (loose.bind fun n => (nextLoose n).map (total n))
      (strict.bind fun n => (nextStrict n).map (total n)) := by
  cases h with
  | throws e hread =>
      apply throws e
      intro m
      rw [hread m, error_bind]
  | inside value n hread =>
      have hnext := hnext n
      simp only [hread, ok_bind, Option.bind_some]
      generalize nextLoose n = loose' at hnext
      generalize nextStrict n = strict' at hnext
      cases hnext with
      | throws e hread' =>
          apply throws e
          intro m
          rw [hread' m, error_bind]
      | inside value' n' hread' =>
          apply inside (pair value value')
          intro m
          rw [hread' m]
          rfl
      | outside value' n' hread' hdiffer =>
          apply outside fun m => pair value (value' m)
          · intro m
            rw [hread' m]
            rfl
          · exact fun heq => hdiffer (hpair heq).2
  | outside value n hread hdiffer =>
      have hnext := hnext n
      simp only [hread, ok_bind, Option.bind_some, Option.bind_none]
      generalize nextLoose n = loose' at hnext
      generalize nextStrict n = strict' at hnext
      cases hnext with
      | throws e hread' =>
          apply throws e
          intro m
          rw [hread' m, error_bind]
      | inside value' n' hread' =>
          apply outside fun m => pair (value m) value'
          · intro m
            rw [hread' m]
            rfl
          · exact fun heq => hdiffer (hpair heq).1
      | outside value' n' hread' _ =>
          apply outside fun m => pair (value m) (value' m)
          · intro m
            rw [hread' m]
            rfl
          · exact fun heq => hdiffer (hpair heq).1

end Reads

end Library
