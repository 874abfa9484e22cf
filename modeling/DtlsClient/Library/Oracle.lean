import Mathlib.Logic.Function.Basic

/-!
# Questions to an oracle

A computation with an oracle asks a question when its result depends on the oracle's answer to it.
-/

namespace Library

variable {Question Answer Result : Type}

/-- The result differs for two oracles that differ in the answer to this question only. -/
def Asks (computation : (Question → Answer) → Result) (q : Question) : Prop :=
  ∃ oracle oracle' : Question → Answer, (∀ other, other ≠ q → oracle other = oracle' other) ∧
    computation oracle ≠ computation oracle'

/-- A computation that goes on with one answer, and makes a difference between two answers, asks
that one question. -/
theorem asks_one_iff {computation : (Question → Answer) → Result} {q : Question}
    {continuation : Answer → Result}
    (hone : ∀ oracle, computation oracle = continuation (oracle q)) {answer answer' : Answer}
    (hdiffers : continuation answer ≠ continuation answer') (asked : Question) :
    Asks computation asked ↔ asked = q := by
  classical
  constructor
  · intro h
    rcases h with ⟨oracle, oracle', hagree, hne⟩
    by_contra hother
    apply hne
    rw [hone, hone, hagree q fun hq => hother hq.symm]
  · intro h
    subst h
    refine ⟨fun _ => answer, Function.update (fun _ => answer) asked answer', ?_, ?_⟩
    · intro other hother
      rw [Function.update_of_ne hother]
    · rw [hone, hone, Function.update_self]
      exact hdiffers

end Library
