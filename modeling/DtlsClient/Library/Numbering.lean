import Mathlib.Data.List.Nodup
import Mathlib.Data.List.Perm.Subperm
import Mathlib.Data.List.Range

/-!
# Numbers within epochs

A sender numbers what it sends within an epoch from 0 on, and goes from one epoch to the next.  `issued`
lists the pairs of epoch and number that it has given, first to last.
-/

namespace Library

/-- Each epoch up to `current` has given the numbers below its next one. -/
def issued (current : Nat) (next : Nat → Nat) : List (Nat × Nat) :=
  (List.range (current + 1)).flatMap fun epoch => (List.range (next epoch)).map fun n => (epoch, n)

variable {current : Nat} {next next' : Nat → Nat}

@[simp] theorem mem_issued {key : Nat × Nat} :
    key ∈ issued current next ↔ key.1 ≤ current ∧ key.2 < next key.1 := by
  rcases key with ⟨epoch, n⟩
  simp only [issued, List.mem_flatMap, List.mem_range, List.mem_map, Prod.mk.injEq]
  constructor
  · rintro ⟨epoch, hepoch, n, hn, rfl, rfl⟩
    exact ⟨by omega, hn⟩
  · rintro ⟨hepoch, hn⟩
    exact ⟨epoch, by omega, n, hn, rfl, rfl⟩

theorem issued_nodup (current : Nat) (next : Nat → Nat) : (issued current next).Nodup := by
  rw [issued, List.nodup_flatMap]
  constructor
  · intro epoch _
    apply List.nodup_range.map
    intro n n' heq
    exact (Prod.mk.inj heq).2
  · apply List.Pairwise.imp _ List.nodup_range
    intro epoch epoch' hne key hkey hkey'
    rcases List.mem_map.mp hkey with ⟨n, _, rfl⟩
    rcases List.mem_map.mp hkey' with ⟨n', _, heq⟩
    exact hne (Prod.mk.inj heq).1.symm

-- The current epoch gives its next number.
theorem issued_next (h : ∀ epoch, next' epoch = next epoch + if epoch = current then 1 else 0) :
    issued current next' = issued current next ++ [(current, next current)] := by
  have hbefore : ((List.range current).flatMap fun epoch =>
      (List.range (next' epoch)).map fun n => (epoch, n)) =
      (List.range current).flatMap fun epoch => (List.range (next epoch)).map fun n => (epoch, n) := by
    apply List.flatMap_congr
    intro epoch hepoch
    have hlt := List.mem_range.mp hepoch
    rw [h, if_neg (by omega), Nat.add_zero]
  rw [issued, issued, List.range_succ, List.flatMap_append, List.flatMap_append, hbefore,
    List.flatMap_singleton, List.flatMap_singleton, h, if_pos rfl, List.range_succ, List.map_append,
    List.append_assoc]
  rfl

-- An epoch that follows starts without numbers.
theorem issued_switch (h : next (current + 1) = 0) :
    issued (current + 1) next = issued current next := by
  rw [issued, issued, List.range_succ, List.flatMap_append, List.flatMap_singleton, h, List.range_zero,
    List.map_nil, List.append_nil]

/-! ## What arrives -/

-- Things that arrive with different keys arrive no more often than they were sent.
theorem subperm_map_of_nodup {α β κ : Type} (key : α → κ) (f : α → β) {arrived sent : List α}
    (hnodup : (arrived.map key).Nodup) (hsent : ∀ a ∈ arrived, a ∈ sent) :
    (arrived.map f).Subperm (sent.map f) := by
  rcases List.subperm_of_subset hnodup.of_map hsent with ⟨some, hperm, hsublist⟩
  exact ⟨some.map f, hperm.map f, hsublist.map f⟩

end Library
