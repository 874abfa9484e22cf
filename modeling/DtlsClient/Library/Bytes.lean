import Mathlib.Data.List.Induction
import Mathlib.Algebra.Ring.Nat

/-!
# Byte strings

Buffers are lists of bytes.  `slice` follows the negative-index and clamping rules of the usual
dynamic-language slice, `overwrite` copies one buffer into another at an offset and clamps at the
end of the target.
-/

namespace Library

abbrev Bytes := List UInt8

/-- An index of a slice: negative indices count from the end, and everything is clamped. -/
def sliceIndex (length : Nat) (i : Int) : Nat :=
  if i < 0 then (length + i).toNat else min i.toNat length

def slice {α : Type} (b : List α) (start stop : Int) : List α :=
  (b.take (sliceIndex b.length stop)).drop (sliceIndex b.length start)

/-- Copies `source` into `target` from index `offset` on; what does not fit is dropped. -/
def overwrite {α : Type} : List α → Nat → List α → List α
  | target, _, [] => target
  | [], _, _ => []
  | _ :: target, 0, b :: source => b :: overwrite target 0 source
  | t :: target, offset + 1, source => t :: overwrite target offset source

@[simp] theorem overwrite_length {α : Type} (target : List α) (offset : Nat) (source : List α) :
    (overwrite target offset source).length = target.length := by
  fun_induction overwrite target offset source with
  | case1 => rfl
  | case2 => rfl
  | case3 t target b source ih => simp only [List.length_cons, ih]
  | case4 t target offset source _ ih => simp only [List.length_cons, ih]

-- Reading back: inside the copied range the source, elsewhere the old target.
theorem overwrite_getElem? {α : Type} (target : List α) (offset : Nat) (source : List α) (i : Nat)
    (hi : i < target.length) :
    (overwrite target offset source)[i]? =
      if offset ≤ i ∧ i < offset + source.length then source[i - offset]? else target[i]? := by
  fun_induction overwrite target offset source generalizing i with
  | case1 target offset => rw [if_neg (by simp only [List.length_nil]; omega)]
  | case2 => simp only [List.length_nil] at hi; omega
  | case3 t target b source ih =>
      cases i with
      | zero => simp
      | succ i =>
          have h := ih i (by simpa using hi)
          simp only [List.getElem?_cons_succ, h, List.length_cons, Nat.zero_add, Nat.sub_zero,
            Nat.zero_le, true_and, Nat.add_lt_add_iff_right]
  | case4 t target offset source hne ih =>
      cases i with
      | zero =>
          rw [if_neg (by omega)]
          simp
      | succ i =>
          have h := ih i (by simpa using hi)
          have hrange : (offset + 1 ≤ i + 1 ∧ i + 1 < offset + 1 + source.length) ↔
              (offset ≤ i ∧ i < offset + source.length) := by omega
          simp only [List.getElem?_cons_succ, h, Nat.succ_eq_add_one, hrange,
            Nat.add_sub_add_right]

theorem overwrite_append {α : Type} (front target source : List α) :
    overwrite (front ++ target) front.length source = front ++ overwrite target 0 source := by
  cases source with
  | nil =>
      rw [overwrite, overwrite]
  | cons b source =>
      induction front with
      | nil => rfl
      | cons t front ih =>
          rw [List.cons_append, List.length_cons, overwrite, ih, List.cons_append]
          exact List.cons_ne_nil _ _

theorem overwrite_zero {α : Type} {target source : List α} (h : source.length ≤ target.length) :
    overwrite target 0 source = source ++ target.drop source.length := by
  induction source generalizing target with
  | nil =>
      rw [overwrite]
      rfl
  | cons b source ih =>
      cases target with
      | nil => simp at h
      | cons t target =>
          rw [overwrite, ih (by simpa using h)]
          rfl

-- Copying what already stands there changes nothing.
theorem overwrite_self {α : Type} {target source : List α} {offset : Nat}
    (h : source <+: target.drop offset) : overwrite target offset source = target := by
  fun_induction overwrite target offset source with
  | case1 => rfl
  | case2 => rfl
  | case3 t target b source ih =>
      rw [List.drop_zero, List.cons_prefix_cons] at h
      rw [ih h.2, h.1]
  | case4 t target offset source _ ih => rw [ih h]

/-! ## Slices of a concatenation -/

section Slices

variable {α : Type} {start stop : Int}

@[simp] theorem sliceIndex_natCast {length i : Nat} (h : i ≤ length) :
    sliceIndex length i = i := by
  rw [sliceIndex, if_neg (by omega), Int.toNat_natCast, Nat.min_eq_left h]

-- An index that counts from the end; `-0` does not.
theorem sliceIndex_neg {length n : Nat} (hpos : 0 < n) :
    sliceIndex length (-n) = length - n := by
  rw [sliceIndex, if_pos (by omega)]
  omega

theorem slice_append (front middle back : List α)
    (hstart : sliceIndex (front ++ (middle ++ back)).length start = front.length)
    (hstop : sliceIndex (front ++ (middle ++ back)).length stop = front.length + middle.length) :
    slice (front ++ (middle ++ back)) start stop = middle := by
  rw [slice, hstart, hstop, ← List.append_assoc, ← List.length_append, List.take_left,
    List.drop_left]

theorem slice_left (front back : List α) : slice (front ++ back) 0 front.length = front := by
  apply slice_append [] front back
  · rfl
  · rw [sliceIndex_natCast (by simp)]
    exact (Nat.zero_add _).symm

theorem slice_right (front back : List α) :
    slice (front ++ back) front.length (front ++ back).length = back := by
  have h := @slice_append _ front.length (front ++ back).length front back []
  rw [List.append_nil] at h
  apply h
  · exact sliceIndex_natCast (by simp)
  · rw [sliceIndex_natCast (Nat.le_refl _), List.length_append]

-- All but the last bytes, and only these.
theorem slice_dropLast (front back : List α) (hback : 0 < back.length) :
    slice (front ++ back) 0 (-back.length) = front := by
  apply slice_append [] front back
  · rfl
  · rw [sliceIndex_neg hback, List.nil_append, List.length_append, Nat.add_sub_cancel]
    exact (Nat.zero_add _).symm

theorem slice_takeLast (front back : List α) (hback : 0 < back.length) :
    slice (front ++ back) (-back.length) (front ++ back).length = back := by
  have h := @slice_append _ (-back.length) (front ++ back).length front back []
  rw [List.append_nil] at h
  apply h
  · rw [sliceIndex_neg hback, List.length_append, Nat.add_sub_cancel]
  · rw [sliceIndex_natCast (Nat.le_refl _), List.length_append]

theorem slice_between (front middle back : List α) (hback : 0 < back.length) :
    slice (front ++ (middle ++ back)) front.length (-back.length) = middle := by
  apply slice_append
  · exact sliceIndex_natCast (by simp)
  · rw [sliceIndex_neg hback, List.length_append, List.length_append]
    omega

-- The slices of any buffer, whose ends may lie outside it.

theorem slice_front (b : List α) (n : Nat) : slice b 0 n = b.take n := by
  have hstart : sliceIndex b.length 0 = 0 := rfl
  have hstop : sliceIndex b.length n = min n b.length := by
    rw [sliceIndex, if_neg (by omega), Int.toNat_natCast]
  rw [slice, hstart, hstop, List.drop_zero, ← List.take_eq_take_min]

theorem slice_rest (b : List α) (n : Nat) : slice b n b.length = b.drop n := by
  have hstart : sliceIndex b.length n = min n b.length := by
    rw [sliceIndex, if_neg (by omega), Int.toNat_natCast]
  rw [slice, hstart, sliceIndex_natCast (Nat.le_refl _), List.take_length, ← List.drop_eq_drop_min]

theorem slice_butLast (b : List α) {n : Nat} (hpos : 0 < n) :
    slice b 0 (-n) = b.take (b.length - n) := by
  have hstart : sliceIndex b.length 0 = 0 := rfl
  rw [slice, hstart, sliceIndex_neg hpos, List.drop_zero]

theorem slice_last (b : List α) {n : Nat} (hpos : 0 < n) :
    slice b (-n) b.length = b.drop (b.length - n) := by
  rw [slice, sliceIndex_neg hpos, sliceIndex_natCast (Nat.le_refl _), List.take_length]

theorem slice_inner (b : List α) (front : Nat) {n : Nat} (hpos : 0 < n) :
    slice b front (-n) = (b.take (b.length - n)).drop front := by
  have hstart : sliceIndex b.length front = min front b.length := by
    rw [sliceIndex, if_neg (by omega), Int.toNat_natCast]
  rw [slice, sliceIndex_neg hpos, hstart]
  by_cases hin : front ≤ b.length
  · rw [Nat.min_eq_left hin]
  · have hlength : (b.take (b.length - n)).length ≤ b.length := by
      rw [List.length_take]
      omega
    rw [List.drop_eq_nil_of_le (by omega), List.drop_eq_nil_of_le (by omega)]

end Slices

/-- The number whose bytes, most significant first, are these. -/
def bigEndian (b : Bytes) : Nat := b.foldl (fun value byte => value * 256 + byte.toNat) 0

@[simp] theorem bigEndian_concat (b : Bytes) (byte : UInt8) :
    bigEndian (b ++ [byte]) = bigEndian b * 256 + byte.toNat := by
  rw [bigEndian, List.foldl_append]
  rfl

theorem bigEndian_lt (b : Bytes) : bigEndian b < 256 ^ b.length := by
  induction b using List.reverseRecOn with
  | nil => exact Nat.one_pos
  | append_singleton b byte ih =>
      rw [bigEndian_concat, List.length_append, List.length_singleton, pow_succ]
      have hbyte : byte.toNat < 256 := byte.toNat_lt
      omega

/-! ## Bytes at a place of a buffer -/

/-- How many bytes they are, if they stand in the buffer from `offset` on. -/
def found (b source : Bytes) (offset : Nat) : Option Nat :=
  if b <+: source.drop offset then some b.length else none

theorem found_eq_some {b source : Bytes} {offset n : Nat} :
    found b source offset = some n ↔ b <+: source.drop offset ∧ b.length = n := by
  unfold found
  by_cases h : b <+: source.drop offset
  · simp [h]
  · simp [h]

@[simp] theorem found_nil (source : Bytes) (offset : Nat) : found [] source offset = some 0 :=
  if_pos List.nil_prefix

theorem found_append (b b' source : Bytes) (offset : Nat) :
    found (b ++ b') source offset =
      (found b source offset).bind fun n => (found b' source (offset + n)).map (n + ·) := by
  by_cases hb : b <+: source.drop offset
  · have hfirst : found b source offset = some b.length := if_pos hb
    rcases hb with ⟨rest, hrest⟩
    have hdrop : source.drop (offset + b.length) = rest := by
      rw [← List.drop_drop, ← hrest, List.drop_left]
    rw [hfirst, Option.bind_some, found, found, hdrop, ← hrest]
    by_cases hb' : b' <+: rest
    · rw [if_pos hb', if_pos ((List.prefix_append_right_inj b).mpr hb'), List.length_append]
      rfl
    · rw [if_neg hb', if_neg (fun h => hb' ((List.prefix_append_right_inj b).mp h))]
      rfl
  · have hfirst : found b source offset = none := if_neg hb
    rw [hfirst]
    exact if_neg fun h => hb ((List.prefix_append b b').trans h)

-- Bytes that are read off the place are there, unless the buffer ends before.
theorem found_eq_take {b source : Bytes} {offset : Nat} (hpos : 0 < b.length)
    (hb : offset + b.length ≤ source.length → (source.drop offset).take b.length = b) :
    found b source offset = if offset + b.length ≤ source.length then some b.length else none := by
  by_cases hin : offset + b.length ≤ source.length
  · have hbegins : (source.drop offset).take b.length <+: source.drop offset := List.take_prefix _ _
    rw [hb hin] at hbegins
    rw [if_pos hin]
    exact if_pos hbegins
  · rw [if_neg hin]
    apply if_neg
    intro h
    have hlength := h.length_le
    rw [List.length_drop] at hlength
    omega

theorem eq_iff_found {b source : Bytes} : b = source ↔ found b source 0 = some source.length := by
  rw [found_eq_some, List.drop_zero]
  constructor
  · rintro rfl
    exact ⟨List.prefix_rfl, rfl⟩
  · rintro ⟨h, hlength⟩
    exact h.eq_of_length hlength

/-! ## Leaving out parts -/

section LeavingOut

variable {α β : Type} {p : α → Bool} {g : α → List β}

theorem flatten_filter_length_le (l : List α) :
    ((l.filter p).map g).flatten.length ≤ (l.map g).flatten.length := by
  induction l with
  | nil => exact Nat.le_refl _
  | cons a l ih =>
      rw [List.map_cons, List.flatten_cons, List.length_append]
      by_cases ha : p a = true
      · rw [List.filter_cons_of_pos ha, List.map_cons, List.flatten_cons, List.length_append]
        omega
      · rw [List.filter_cons_of_neg ha]
        omega

-- Without a part that is not empty the whole is shorter.
theorem flatten_filter_eq_iff (hne : ∀ a, g a ≠ []) {l : List α} :
    ((l.filter p).map g).flatten = (l.map g).flatten ↔ ∀ a ∈ l, p a = true := by
  constructor
  · intro heq
    by_contra hnot
    rw [← List.filter_eq_self] at hnot
    have hshorter : ((l.filter p).map g).flatten.length < (l.map g).flatten.length := by
      clear heq
      induction l with
      | nil => exact absurd rfl hnot
      | cons a l ih =>
          rw [List.map_cons, List.flatten_cons, List.length_append]
          by_cases ha : p a = true
          · rw [List.filter_cons_of_pos ha] at hnot ⊢
            rw [List.map_cons, List.flatten_cons, List.length_append]
            have hrest := ih fun h => hnot (by rw [h])
            omega
          · rw [List.filter_cons_of_neg ha]
            have hle := @flatten_filter_length_le _ _ p g l
            have hpos := List.length_pos_iff.mpr (hne a)
            omega
    rw [heq] at hshorter
    exact Nat.lt_irrefl _ hshorter
  · intro hall
    rw [List.filter_eq_self.mpr hall]

end LeavingOut

end Library
