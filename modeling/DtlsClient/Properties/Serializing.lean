import DtlsClient.Properties.Parsing

/-!
# What the serializer writes is what the parser reads

Numbers and buffers at any place of the input, and the handshake fragments made of them.
-/

open Library

namespace DtlsClient

open TypeSpecs

/-! ## Numbers -/

theorem bufferToNumberLoop_shift (front buf : Bytes) (n offset : Nat) (ret : Num) :
    bufferToNumberLoop (front ++ buf) n (front.length + offset) ret =
      bufferToNumberLoop buf n offset ret := by
  induction n generalizing offset ret with
  | zero => rfl
  | succ n ih =>
      have hbyte : (front ++ buf)[front.length + offset]? = buf[offset]? := by
        rw [List.getElem?_append_right (by omega), Nat.add_sub_cancel_left]
      rw [bufferToNumberLoop, bufferToNumberLoop, hbyte, Nat.add_assoc, ih]

-- What stands in front of the place that is read makes no difference.
theorem bufferToNumber_shift (front buf : Bytes) (size offset : Nat) :
    bufferToNumber (front ++ buf) size (front.length + offset) = bufferToNumber buf size offset :=
  bufferToNumberLoop_shift front buf (size / 8) offset (some 0)

-- Nor does what stands behind it.
theorem bufferToNumber_append {buf : Bytes} {size offset : Nat}
    (hin : offset + size / 8 ≤ buf.length) (back : Bytes) :
    bufferToNumber (buf ++ back) size offset = bufferToNumber buf size offset := by
  rw [bufferToNumber_eq hin, bufferToNumber_eq (by rw [List.length_append]; omega),
    List.drop_append_of_le_length (by omega),
    List.take_append_of_le_length (by rw [List.length_drop]; omega)]

theorem bufferToNumber_at (front buf back : Bytes) {size offset : Nat}
    (hin : offset + size / 8 ≤ buf.length) :
    bufferToNumber (front ++ (buf ++ back)) size (front.length + offset) =
      bufferToNumber buf size offset := by
  rw [bufferToNumber_shift, bufferToNumber_append hin]

theorem bufferToNumber_numberToBuffer {size value : Nat} (hvalue : value < 256 ^ min (size / 8) 4) :
    bufferToNumber (numberToBuffer (some (value : Int)) size) size 0 = some (value : Int) := by
  have hlength := numberToBuffer_length (some (value : Int)) size
  rw [bufferToNumber_eq (by omega), List.drop_zero, List.take_of_length_le (by omega)]
  show some ((bigEndian (numberToBufferLoop (size / 8) (value : Int)) : Nat) : Int) = some _
  rw [bigEndian_numberToBufferLoop, Nat.mod_eq_of_lt hvalue]

-- A field with other fields on either side.
theorem bufferToNumber_field (front back : Bytes) {size offset value : Nat}
    (hvalue : value < 256 ^ min (size / 8) 4) (hfront : front.length = offset) :
    bufferToNumber (front ++ (numberToBuffer (some (value : Int)) size ++ back)) size offset =
      some (value : Int) := by
  have hin : 0 + size / 8 ≤ (numberToBuffer (some (value : Int)) size).length := by
    rw [numberToBuffer_length, Nat.zero_add]
  subst hfront
  exact (bufferToNumber_at front _ back hin).trans (bufferToNumber_numberToBuffer hvalue)

theorem numberToBuffer_bufferToNumber {buf : Bytes} {size offset : Nat} (hsize : size / 8 ≤ 4)
    (hin : offset + size / 8 ≤ buf.length) :
    numberToBuffer (bufferToNumber buf size offset) size = (buf.drop offset).take (size / 8) := by
  have hlength : ((buf.drop offset).take (size / 8)).length = size / 8 := by
    rw [List.length_take, List.length_drop]
    omega
  have hbytes := @numberToBufferLoop_bigEndian ((buf.drop offset).take (size / 8)) (by omega)
  rw [hlength] at hbytes
  rw [bufferToNumber_eq hin]
  exact hbytes

/-! ## Buffers -/

namespace TLSStruct

-- A buffer that lies inside the input.
theorem deserializeBuffer_inside (memory : Nat → Memory) {minLength : Option Nat}
    {maxLength : Nat} {buf : Bytes} {offset length : Nat}
    (hlength : declaredLength minLength maxLength buf offset = some (length : Int))
    (hin : offset + lengthBytes minLength maxLength + length ≤ buf.length) :
    deserializeBuffer memory minLength (some maxLength) buf offset =
      .ok ((buf.drop (offset + lengthBytes minLength maxLength)).take length,
        lengthBytes minLength maxLength + length) := by
  have hcontent : (buf.take (offset + lengthBytes minLength maxLength + length)).drop
      (offset + lengthBytes minLength maxLength) =
      (buf.drop (offset + lengthBytes minLength maxLength)).take length := by
    rw [List.drop_take, Nat.add_sub_cancel_left]
  rw [deserializeBuffer_some, hlength, allocUnsafe_natCast, ok_bind]
  simp only [List.length_map, List.length_range, copy]
  rw [if_neg (by omega), ok_bind, hcontent, overwrite_length, List.length_map, List.length_range,
    overwrite_all]
  · rfl
  · rw [List.length_map, List.length_range, List.length_take, List.length_drop]
    omega

-- A buffer without bounds is the rest of the input.
theorem deserializeBuffer_rest (memory : Nat → Memory) (minLength : Option Nat) {buf : Bytes}
    {offset : Nat} (hin : offset ≤ buf.length) :
    deserializeBuffer memory minLength none buf offset =
      .ok (buf.drop offset, (buf.drop offset).length) := by
  have hlength : ((buf.length : Int) - offset).toNat = (buf.drop offset).length := by
    rw [List.length_drop]
    omega
  rw [deserializeBuffer, allocUnsafe_nonneg _ (by omega), ok_bind, copy, if_neg (by omega), ok_bind,
    hlength, List.take_length, overwrite_all]
  · rfl
  · rw [List.length_map, List.length_range]

end TLSStruct

/-! ## Vectors -/

namespace Vector

variable {α : Type} {serializeItem : α → Bytes}

theorem serialize_optional_nil {minLength maxLength : Nat} :
    serialize serializeItem minLength maxLength true [] = [] := if_pos ⟨rfl, rfl⟩

theorem serialize_written {minLength maxLength : Nat} {optional : Bool} {values : List α}
    (hvariable : maxLength ≠ minLength) (hsome : ¬(values = [] ∧ optional = true)) :
    serialize serializeItem minLength maxLength optional values =
      numberToBuffer (some (values.map serializeItem).flatten.length)
        (8 * fitToWholeBytes maxLength) ++ (values.map serializeItem).flatten := by
  rw [serialize, if_neg (by rwa [List.length_eq_zero_iff])]
  exact if_pos hvariable

end Vector

/-! ## Fragments -/

namespace FragmentedHandshake

/-- The numbers have room in the fields of the header. -/
structure Fits (f : FragmentedHandshake) : Prop where
  msgType : f.msgType.toNat < 256 ^ 1 ∧ HandshakeType.ofNat f.msgType.toNat = f.msgType
  totalLength : f.totalLength < 256 ^ 3
  messageSeq : f.messageSeq < 256 ^ 2
  fragmentOffset : f.fragmentOffset < 256 ^ 3
  fragment : f.fragment.length < 256 ^ 3

theorem serialize_eq (f : FragmentedHandshake) :
    f.serialize = numberToBuffer (some f.msgType.toNat) 8 ++
      (numberToBuffer (some f.totalLength) 24 ++ (numberToBuffer (some f.messageSeq) 16 ++
      (numberToBuffer (some f.fragmentOffset) 24 ++
      (numberToBuffer (some f.fragment.length) 24 ++ f.fragment)))) := by
  show _ ++ (_ ++ (_ ++ (_ ++ ((_ ++ f.fragment) ++ [])))) = _
  rw [List.append_nil]
  rfl

theorem serialize_length (f : FragmentedHandshake) :
    f.serialize.length = headerLength + f.fragment.length := by
  rw [serialize_eq]
  simp only [List.length_append, numberToBuffer_length, headerLength]
  omega

/-- A fragment is read back, whatever follows it. -/
theorem fromBuffer_serialize (memory : Nat → Memory) {f : FragmentedHandshake} (hfits : f.Fits)
    (back : Bytes) : fromBuffer memory (f.serialize ++ back) = .ok f := by
  rcases hfits with ⟨⟨htype, hofNat⟩, htotal, hseq, hoffset, hlength⟩
  generalize hbuf : f.serialize ++ back = buf
  rw [serialize_eq] at hbuf
  simp only [List.append_assoc] at hbuf
  -- the header, field by field
  have h0 : bufferToNumber buf 8 0 = some (f.msgType.toNat : Int) := by
    rw [← hbuf]
    exact @bufferToNumber_field [] _ 8 0 _ htype rfl
  have h1 : bufferToNumber buf 24 1 = some (f.totalLength : Int) := by
    rw [← hbuf]
    exact bufferToNumber_field (numberToBuffer _ 8) _ htotal rfl
  have h4 : bufferToNumber buf 16 4 = some (f.messageSeq : Int) := by
    rw [← hbuf, ← List.append_assoc]
    exact bufferToNumber_field (numberToBuffer _ 8 ++ numberToBuffer _ 24) _ hseq rfl
  have h6 : bufferToNumber buf 24 6 = some (f.fragmentOffset : Int) := by
    rw [← hbuf, ← List.append_assoc, ← List.append_assoc]
    exact bufferToNumber_field ((numberToBuffer _ 8 ++ numberToBuffer _ 24) ++ numberToBuffer _ 16) _
      hoffset rfl
  have hfront : (((numberToBuffer (some (f.msgType.toNat : Int)) 8 ++
      numberToBuffer (some (f.totalLength : Int)) 24) ++
      numberToBuffer (some (f.messageSeq : Int)) 16) ++
      numberToBuffer (some (f.fragmentOffset : Int)) 24).length = 9 := rfl
  have h9 : bufferToNumber buf 24 9 = some (f.fragment.length : Int) := by
    rw [← hbuf, ← List.append_assoc, ← List.append_assoc, ← List.append_assoc]
    exact bufferToNumber_field _ _ hlength hfront
  -- and the fragment behind it
  have hcontent : (buf.drop 12).take f.fragment.length = f.fragment := by
    rw [← hbuf, ← List.append_assoc, ← List.append_assoc, ← List.append_assoc, ← List.append_assoc,
      List.drop_append_of_le_length (by rw [List.length_append, hfront]; exact le_rfl),
      List.drop_of_length_le (by rw [List.length_append, hfront]; exact le_rfl), List.nil_append,
      List.take_left]
  have hin : 9 + TLSStruct.lengthBytes (some 0) (2 ^ 24 - 1) + f.fragment.length ≤ buf.length := by
    have hlen := congrArg List.length hbuf
    simp only [List.length_append, numberToBuffer_length] at hlen
    show 9 + 3 + f.fragment.length ≤ buf.length
    omega
  have hdeclared : TLSStruct.declaredLength (some 0) (2 ^ 24 - 1) buf 9 =
      some (f.fragment.length : Int) := h9
  rw [fromBuffer_eq, TLSStruct.deserializeBuffer_inside memory hdeclared hin, ok_bind, h0, h1, h4,
    h6]
  show Except.ok (FragmentedHandshake.mk _ _ _ _ ((buf.drop 12).take f.fragment.length)) = _
  rw [hcontent]
  simp only [Int.toNat_natCast, hofNat]

end FragmentedHandshake

end DtlsClient
