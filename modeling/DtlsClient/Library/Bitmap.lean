import Mathlib.Tactic.Common

/-!
# Bitmaps

A list of machine words read as one string of bits, the lowest bit of the first word first.  Beyond the
last word all bits are clear.
-/

namespace Library

namespace Bitmap

variable {n : Nat}

/-- Bit `i` of the words. -/
def bit (words : List (BitVec n)) (i : Nat) : Bool := (words.getD (i / n) 0).getLsbD (i % n)

@[simp] theorem bit_nil (i : Nat) : bit ([] : List (BitVec n)) i = false := by
  rw [bit, List.getD_nil]
  exact BitVec.getLsbD_zero

theorem bit_cons_lt (word : BitVec n) (words : List (BitVec n)) {i : Nat} (hi : i < n) :
    bit (word :: words) i = word.getLsbD i := by
  rw [bit, Nat.div_eq_of_lt hi, Nat.mod_eq_of_lt hi, List.getD_cons_zero]

theorem bit_cons_add (hn : 0 < n) (word : BitVec n) (words : List (BitVec n)) (i : Nat) :
    bit (word :: words) (i + n) = bit words i := by
  rw [bit, Nat.add_div_right i hn, Nat.add_mod_right, List.getD_cons_succ, bit]

theorem bit_of_length_le (hn : 0 < n) {words : List (BitVec n)} {i : Nat}
    (h : words.length * n ≤ i) : bit words i = false := by
  have hout : words.length ≤ i / n := (Nat.le_div_iff_mul_le hn).mpr h
  rw [bit, List.getD_eq_getElem?_getD, List.getElem?_eq_none hout]
  exact BitVec.getLsbD_zero

-- Moving every word down by one moves every bit down by a word.
theorem bit_drop_one (hn : 0 < n) (words : List (BitVec n)) (i : Nat) :
    bit (words.drop 1 ++ [0]) i = bit words (i + n) := by
  cases words with
  | nil =>
      rw [bit_nil]
      show ([0].getD (i / n) (0 : BitVec n)).getLsbD (i % n) = false
      rw [List.getD_eq_getElem?_getD]
      cases i / n <;> exact BitVec.getLsbD_zero
  | cons word words =>
      rw [bit_cons_add hn, List.drop_succ_cons, List.drop_zero, bit, bit,
        List.getD_eq_getElem?_getD, List.getD_eq_getElem?_getD]
      by_cases hlt : i / n < words.length
      · rw [List.getElem?_append_left hlt]
      · have hge : words.length ≤ i / n := by omega
        -- what comes in at the end is clear, as is all beyond it
        rw [List.getElem?_append_right hge, List.getElem?_eq_none hge]
        cases i / n - words.length <;> rfl

theorem bit_modify_or {words : List (BitVec n)} {k : Nat} (hk : k < words.length) (mask : BitVec n)
    (i : Nat) :
    bit (words.modify k (· ||| mask)) i = (bit words i || (decide (i / n = k) && mask.getLsbD (i % n)))
    := by
  rw [bit, bit, List.getD_eq_getElem?_getD, List.getD_eq_getElem?_getD]
  by_cases hi : i / n = k
  · rw [hi, List.getElem?_modify_eq, List.getElem?_eq_getElem hk]
    show (words[k] ||| mask).getLsbD (i % n) = _
    rw [BitVec.getLsbD_or, decide_eq_true rfl, Bool.true_and]
    rfl
  · rw [List.getElem?_modify_ne _ _ (Ne.symm hi), decide_eq_false hi, Bool.false_and, Bool.or_false]

-- A word has the bit of a mask that is one bit wide.
theorem and_one_shiftLeft_eq {b : Nat} (hb : b < n) (word : BitVec n) :
    (word &&& 1#n <<< b == 1#n <<< b) = word.getLsbD b := by
  rw [Bool.eq_iff_iff, beq_iff_eq]
  constructor
  · intro h
    have hbit := congrArg (·.getLsbD b) h
    simp only [BitVec.getLsbD_and, BitVec.getLsbD_shiftLeft, hb, decide_true, Nat.lt_irrefl,
      decide_false, Bool.not_false, Nat.sub_self, Bool.true_and] at hbit
    have hone : (1#n).getLsbD 0 = true := by simp; omega
    rw [hone, Bool.and_true] at hbit
    exact hbit
  · intro h
    ext i hi
    rw [BitVec.getElem_and]
    by_cases hib : i = b
    · subst hib
      rw [← BitVec.getLsbD_eq_getElem hi, h, Bool.true_and]
    · have hclear : (1#n <<< b)[i] = false := by
        rw [BitVec.getElem_shiftLeft]
        simp
        omega
      rw [hclear, Bool.and_false]

end Bitmap

end Library
