import Mathlib.Tactic.Ring
import Mathlib.Tactic.Positivity
import DtlsClient.Lib.Runtime

/-!
# `lib/BitConverter` and `lib/util`

Numbers on the wire, big-endian.
-/

open Library

namespace DtlsClient

/-- The loop of `numberToBuffer`, which fills the buffer from its end: `value & 0xff` is the next
byte and `value >>>= 8` first takes the value modulo `2 ^ 32`. -/
def numberToBufferLoop : Nat → Int → Bytes
  | 0, _ => []
  | n + 1, value =>
      numberToBufferLoop n (value % 2 ^ 32 / 256) ++ [UInt8.ofNat (value % 256).toNat]

/-- The bit operators read `NaN` as `0`. -/
def numberToBuffer (value : Num) (size : Nat) : Bytes :=
  numberToBufferLoop (size / 8) (value.getD 0)

def bufferToNumberLoop (buf : Bytes) : Nat → Nat → Num → Num
  | 0, _, ret => ret
  | n + 1, offset, ret =>
      bufferToNumberLoop buf n (offset + 1)
        (ret.bind fun r => buf[offset]?.map fun b => r * 256 + b.toNat)

def bufferToNumber (buf : Bytes) (size offset : Nat) : Num :=
  bufferToNumberLoop buf (size / 8) offset (some 0)

/-- The loop of `fitToWholeBytes`.  The shift leaves at most 32 bits, so that five rounds reach
zero from any value. -/
def fitToWholeBytesLoop : Nat → Nat → Nat
  | 0, _ => 0
  | fuel + 1, value => if value = 0 then 0 else fitToWholeBytesLoop fuel (value % 2 ^ 32 / 256) + 1

def fitToWholeBytes (value : Nat) : Nat :=
  let ret := fitToWholeBytesLoop 5 value
  if ret = 0 then 1 else ret

theorem fitToWholeBytes_pos (value : Nat) : 0 < fitToWholeBytes value := by
  unfold fitToWholeBytes
  simp only
  split <;> omega

/-! ## What the two converters compute -/

@[simp] theorem numberToBufferLoop_length (n : Nat) (value : Int) :
    (numberToBufferLoop n value).length = n := by
  induction n generalizing value with
  | zero => rfl
  | succ n ih => rw [numberToBufferLoop, List.length_append, ih, List.length_singleton]

@[simp] theorem numberToBuffer_length (value : Num) (size : Nat) :
    (numberToBuffer value size).length = size / 8 :=
  numberToBufferLoop_length _ _

theorem bufferToNumberLoop_none (buf : Bytes) (n offset : Nat) :
    bufferToNumberLoop buf n offset none = none := by
  induction n generalizing offset with
  | zero => rfl
  | succ n ih => exact ih (offset + 1)

-- A number is read exactly when all its bytes lie inside the buffer.
theorem bufferToNumberLoop_isSome (buf : Bytes) (n offset : Nat) (ret : Int) :
    (bufferToNumberLoop buf n offset (some ret)).isSome = true ↔
      n = 0 ∨ offset + n ≤ buf.length := by
  induction n generalizing offset ret with
  | zero => simp [bufferToNumberLoop]
  | succ n ih =>
      rw [bufferToNumberLoop, Option.bind_some]
      by_cases hin : offset < buf.length
      · rw [List.getElem?_eq_getElem hin, Option.map_some, ih]
        omega
      · rw [List.getElem?_eq_none (by omega), Option.map_none, bufferToNumberLoop_none]
        simp only [Option.isSome_none, Bool.false_eq_true, false_iff]
        omega

theorem bufferToNumber_isSome {buf : Bytes} {size offset : Nat} (hsize : 8 ≤ size) :
    (bufferToNumber buf size offset).isSome = true ↔ offset + size / 8 ≤ buf.length := by
  rw [bufferToNumber, bufferToNumberLoop_isSome]
  omega

theorem bufferToNumberLoop_bounds {buf : Bytes} {n offset : Nat} {ret v : Int}
    (hret : 0 ≤ ret) (h : bufferToNumberLoop buf n offset (some ret) = some v) :
    0 ≤ v ∧ v < (ret + 1) * 256 ^ n := by
  induction n generalizing offset ret with
  | zero =>
      rcases Option.some.inj h with rfl
      exact ⟨hret, by omega⟩
  | succ n ih =>
      rw [bufferToNumberLoop, Option.bind_some] at h
      cases hb : buf[offset]? with
      | none => rw [hb, Option.map_none, bufferToNumberLoop_none] at h; cases h
      | some b =>
          rw [hb, Option.map_some] at h
          have hlt : b.toNat < 256 := b.toNat_lt
          rcases ih (by omega) h with ⟨hlo, hhi⟩
          refine ⟨hlo, lt_of_lt_of_le hhi ?_⟩
          calc (ret * 256 + b.toNat + 1) * 256 ^ n
              ≤ (ret + 1) * 256 * 256 ^ n :=
                mul_le_mul_of_nonneg_right (by omega) (by positivity)
            _ = (ret + 1) * 256 ^ (n + 1) := by ring

theorem bufferToNumber_bounds {buf : Bytes} {size offset : Nat} {v : Int}
    (h : bufferToNumber buf size offset = some v) : 0 ≤ v ∧ v < 256 ^ (size / 8) := by
  simpa using bufferToNumberLoop_bounds le_rfl h

-- What is read is the value of the bytes that are there.
theorem bufferToNumberLoop_eq {buf : Bytes} {n offset : Nat} (hin : offset + n ≤ buf.length)
    (ret : Nat) :
    bufferToNumberLoop buf n offset (some (ret : Int)) =
      some ((((buf.drop offset).take n).foldl (fun value byte => value * 256 + byte.toNat) ret : Nat)
        : Int) := by
  induction n generalizing offset ret with
  | zero => rfl
  | succ n ih =>
      have hlt : offset < buf.length := by omega
      have hnext := @ih (offset + 1) (by omega) (ret * 256 + buf[offset].toNat)
      rw [bufferToNumberLoop, Option.bind_some, List.getElem?_eq_getElem hlt, Option.map_some,
        List.drop_eq_getElem_cons hlt, List.take_succ_cons, List.foldl_cons, ← hnext]
      rfl

theorem bufferToNumber_eq {buf : Bytes} {size offset : Nat}
    (hin : offset + size / 8 ≤ buf.length) :
    bufferToNumber buf size offset =
      some (bigEndian ((buf.drop offset).take (size / 8)) : Int) :=
  bufferToNumberLoop_eq hin 0

theorem bufferToNumber_eq_none {buf : Bytes} {size offset : Nat} (hsize : 8 ≤ size)
    (hout : buf.length < offset + size / 8) : bufferToNumber buf size offset = none := by
  rw [← Option.not_isSome_iff_eq_none, bufferToNumber_isSome hsize]
  omega

-- What is written is the number modulo the size of the field, and of no more than four bytes.
theorem bigEndian_numberToBufferLoop (n value : Nat) :
    bigEndian (numberToBufferLoop n value) = value % 256 ^ min n 4 := by
  induction n generalizing value with
  | zero =>
      rw [Nat.zero_min, pow_zero, Nat.mod_one]
      rfl
  | succ n ih =>
      have hshift : ((value : Int) % 2 ^ 32 / 256) = ((value % 2 ^ 32 / 256 : Nat) : Int) := by omega
      have hbyte : ((value : Int) % 256).toNat = value % 256 := by omega
      rw [numberToBufferLoop, hshift, hbyte, bigEndian_concat, ih, UInt8.toNat_ofNat']
      by_cases hn : n + 1 ≤ 4
      · have hhigh : value % 2 ^ 32 / 256 % 256 ^ n = value / 256 % 256 ^ n := by
          have hdvd : 256 ^ n ∣ 2 ^ 24 := by
            have hthree : (2 : Nat) ^ 24 = 256 ^ 3 := by norm_num
            rw [hthree]
            exact Nat.pow_dvd_pow 256 (by omega)
          have hsplit : value % 2 ^ 32 / 256 = value / 256 % 2 ^ 24 := by omega
          rw [hsplit, Nat.mod_mod_of_dvd _ hdvd]
        have hpow : value % 256 ^ (n + 1) = value % 256 + 256 * (value / 256 % 256 ^ n) := by
          rw [pow_succ', Nat.mod_mul]
        rw [Nat.min_eq_left hn, Nat.min_eq_left (by omega), hhigh, hpow]
        omega
      · -- the first shift has left four bytes of the number
        rw [Nat.min_eq_right (by omega), Nat.min_eq_right (by omega)]
        omega

theorem numberToBufferLoop_bigEndian {b : Bytes} (hb : b.length ≤ 4) :
    numberToBufferLoop b.length (bigEndian b) = b := by
  induction b using List.reverseRecOn with
  | nil => rfl
  | append_singleton b byte ih =>
      rw [List.length_append, List.length_singleton] at hb ⊢
      have hlt := bigEndian_lt b
      have hthree : 256 ^ b.length ≤ 256 ^ 3 := Nat.pow_le_pow_right (by omega) (by omega)
      have hbyte : byte.toNat < 256 := byte.toNat_lt
      have hshift : (((bigEndian (b ++ [byte]) : Nat) : Int) % 2 ^ 32 / 256) =
          (bigEndian b : Int) := by
        rw [bigEndian_concat]
        omega
      have hlast : (((bigEndian (b ++ [byte]) : Nat) : Int) % 256).toNat = byte.toNat := by
        rw [bigEndian_concat]
        omega
      rw [numberToBufferLoop, hshift, hlast, ih (by omega), UInt8.ofNat_toNat]

end DtlsClient
