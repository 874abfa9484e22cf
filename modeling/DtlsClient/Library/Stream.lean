import Mathlib.Algebra.Ring.Nat
import Mathlib.Data.Stream.Init
import Mathlib.Data.Vector.Basic

/-!
# Streams of blocks

An infinite stream made of blocks of one size, and the consecutive pieces of given lengths that are
cut off a stream.
-/

namespace Library

variable {α : Type}

/-! ## Blocks -/

section Blocks

variable {size : Nat} [NeZero size]

/-- The blocks one after the other. -/
def concatBlocks (block : Nat → List.Vector α size) : Stream' α := fun i =>
  (block (i / size)).get ⟨i % size, Nat.mod_lt i (Nat.pos_of_neZero size)⟩

theorem concatBlocks_eq_append (block : Nat → List.Vector α size) :
    concatBlocks block =
      Stream'.appendStream' (block 0).toList (concatBlocks fun i => block (i + 1)) := by
  have hpos := Nat.pos_of_neZero size
  have hlength := (block 0).toList_length
  ext i
  by_cases hfirst : i < size
  · have hinside : i < (block 0).toList.length := by omega
    have hdiv : i / size = 0 := Nat.div_eq_of_lt hfirst
    have hmod : i % size = i := Nat.mod_eq_of_lt hfirst
    rw [Stream'.get_append_left _ _ _ hinside]
    show (block (i / size)).get ⟨i % size, _⟩ = _
    simp only [hdiv, hmod]
    exact List.Vector.get_eq_get_toList (block 0) ⟨i, hfirst⟩
  · -- the elements behind the first block are those of the stream of the other blocks
    have hrest : i = (block 0).toList.length + (i - size) := by omega
    have hdiv : i / size = (i - size) / size + 1 := Nat.div_eq_sub_div hpos (by omega)
    have hmod : i % size = (i - size) % size := Nat.mod_eq_sub_mod (by omega)
    rw [hrest, Stream'.get_append_right, ← hrest]
    show (block (i / size)).get ⟨i % size, _⟩ = (block ((i - size) / size + 1)).get _
    simp only [hdiv, hmod]

-- As much of the stream as is whole blocks.
theorem take_concatBlocks (block : Nat → List.Vector α size) (count : Nat) :
    (concatBlocks block).take (count * size) =
      (List.range count).flatMap fun i => (block i).toList := by
  induction count generalizing block with
  | zero => rw [Nat.zero_mul, Stream'.take_zero, List.range_zero, List.flatMap_nil]
  | succ count ih =>
      have hlength : (count + 1) * size = (block 0).toList.length + count * size := by
        rw [List.Vector.toList_length, Nat.succ_mul, Nat.add_comm]
      rw [concatBlocks_eq_append, hlength, ← Stream'.append_take, ih, List.range_succ_eq_map,
        List.flatMap_cons, List.flatMap_map]

end Blocks

/-! ## Pieces -/

/-- The consecutive pieces of these lengths from the start of the stream. -/
def cut : List Nat → Stream' α → List (List α)
  | [], _ => []
  | length :: lengths, s => s.take length :: cut lengths (s.drop length)

theorem cut_lengths (lengths : List Nat) (s : Stream' α) :
    (cut lengths s).map List.length = lengths := by
  induction lengths generalizing s with
  | nil => rfl
  | cons length lengths ih => rw [cut, List.map_cons, ih, Stream'.length_take]

-- Nothing lies between two pieces.
theorem cut_flatten (lengths : List Nat) (s : Stream' α) :
    (cut lengths s).flatten = s.take lengths.sum := by
  induction lengths generalizing s with
  | nil => rfl
  | cons length lengths ih =>
      rw [cut, List.flatten_cons, ih, List.sum_cons, Stream'.take_add]

end Library
