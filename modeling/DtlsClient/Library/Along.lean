import DtlsClient.Library.Exceptions
import Mathlib.Logic.Relation

/-!
# Programs that use a component

A component is a part of the state that a program only changes by the component's own operations, one
after the other: the steps of a relation.  `Along` says so of a program, whichever way it ends, and follows
the structure of the program.
-/

namespace Library

open Relation

variable {ε σ τ υ α β : Type}

/-- However the program ends, it has taken the part of the state along steps of `S`. -/
def Along (S : τ → τ → Prop) (part : σ → τ) (x : EStateM ε σ α) : Prop :=
  ∀ s, Ends x s (fun _ s' => ReflTransGen S (part s) (part s'))
    (fun _ s' => ReflTransGen S (part s) (part s'))

section Rules

variable {S : τ → τ → Prop} {part : σ → τ}

theorem Along.finalState {x : EStateM ε σ α} (h : Along S part x) (s : σ) :
    ReflTransGen S (part s) (part (Library.finalState x s)) :=
  Ends.finalState (P := fun s' => ReflTransGen S (part s) (part s')) (h s)

theorem along_pure (a : α) : Along S part (pure a : EStateM ε σ α) := fun _ => .refl

theorem along_throw (e : ε) : Along S part (throw e : EStateM ε σ α) := fun _ => .refl

theorem along_get : Along S part (get : EStateM ε σ σ) := fun _ => .refl

theorem along_modify {f : σ → σ} (hf : ∀ s, ReflTransGen S (part s) (part (f s))) :
    Along S part (modify f : EStateM ε σ Unit) := hf

-- A change somewhere else.
theorem along_modify_eq {f : σ → σ} (hf : ∀ s, part (f s) = part s) :
    Along S part (modify f : EStateM ε σ Unit) :=
  along_modify fun s => by rw [hf]

theorem Along.bind {x : EStateM ε σ α} {f : α → EStateM ε σ β} (hx : Along S part x)
    (hf : ∀ a, Along S part (f a)) : Along S part (x >>= f) := by
  intro s
  rw [ends_bind]
  apply (hx s).mono
  · intro a s' hs'
    apply (hf a s').mono
    · exact fun _ _ h => hs'.trans h
    · exact fun _ _ h => hs'.trans h
  · exact fun _ _ h => h

-- A part that is only taken where `c` holds, and what comes behind it in both cases.
theorem along_when {c : Prop} [Decidable c] {x : EStateM ε σ Unit} {f : Unit → EStateM ε σ α}
    (hx : Along S part x) (hf : ∀ u, Along S part (f u)) :
    Along S part (if c then x >>= f else f ()) := by
  split
  · exact hx.bind hf
  · exact hf ()

theorem Along.onPart {inner : σ → υ} {setInner : σ → υ → σ} {part' : υ → τ} {x : EStateM ε υ α}
    (hx : Along S part' x) (hpart : ∀ s, part s = part' (inner s))
    (hset : ∀ s t, part (setInner s t) = part' t) :
    Along S part (Library.onPart inner setInner x) := by
  intro s
  rw [ends_onPart, hpart]
  apply (hx (inner s)).mono
  · exact fun _ t h => by rw [hset]; exact h
  · exact fun _ t h => by rw [hset]; exact h

theorem along_forM {ι : Type} {f : ι → EStateM ε σ Unit} (hf : ∀ i, Along S part (f i))
    (xs : List ι) : Along S part (xs.forM f) := by
  induction xs with
  | nil => exact along_pure ()
  | cons i xs ih => exact (hf i).bind fun _ => ih

end Rules

end Library
