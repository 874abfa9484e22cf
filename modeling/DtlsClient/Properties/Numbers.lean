import DtlsClient.Properties.Serializing
import DtlsClient.TLS.CipherSuite

/-!
# Numbers of every size

The writer shifts with an operator that leaves 32 bits, the reader multiplies.  They agree on the
numbers below `2 ^ 32` and on no other, which matters to the sequence numbers of 48 bits.
-/

open Library

namespace DtlsClient

/-- The bytes are the big-endian encoding of the number in `size` bits, and are read as the number. -/
def EncodesNumber (bytes : Bytes) (size value : Nat) : Prop :=
  (bytes.length = size / 8 ∧ bigEndian bytes = value) ∧
    bufferToNumber bytes size 0 = some (value : Int)

-- What is read from as many bytes as the number has is their value.
theorem encodesNumber_of_bigEndian {bytes : Bytes} {size value : Nat}
    (hlength : bytes.length = size / 8) (hvalue : bigEndian bytes = value) :
    EncodesNumber bytes size value := by
  refine ⟨⟨hlength, hvalue⟩, ?_⟩
  rw [bufferToNumber_eq (by omega), List.drop_zero, List.take_of_length_le (by omega), hvalue]

theorem encodesNumber_numberToBuffer_iff {size value : Nat} :
    EncodesNumber (numberToBuffer (some (value : Int)) size) size value ↔
      value < 256 ^ min (size / 8) 4 := by
  have hbytes : bigEndian (numberToBuffer (some (value : Int)) size) =
      value % 256 ^ min (size / 8) 4 := bigEndian_numberToBufferLoop (size / 8) value
  constructor
  · intro h
    have hpos : 0 < 256 ^ min (size / 8) 4 := Nat.pow_pos (by decide)
    rw [← h.1.2, hbytes]
    exact Nat.mod_lt value hpos
  · intro hlt
    apply encodesNumber_of_bigEndian (numberToBuffer_length _ _)
    rw [hbytes, Nat.mod_eq_of_lt hlt]

-- A number that fits its field is lost where the field is wider than 32 bits, and only there.
theorem encodesNumber_sized_iff {size value : Nat} (hsize : size ∈ [8, 16, 24, 32, 48])
    (hvalue : value < 2 ^ size) :
    EncodesNumber (numberToBuffer (some (value : Int)) size) size value ↔ value < 2 ^ 32 := by
  have hbound : 256 ^ min (size / 8) 4 = 2 ^ min size 32 := by
    simp only [List.mem_cons, List.not_mem_nil, or_false] at hsize
    rcases hsize with rfl | rfl | rfl | rfl | rfl <;> decide
  rw [encodesNumber_numberToBuffer_iff, hbound]
  by_cases hwide : size ≤ 32
  · have hle : 2 ^ size ≤ 2 ^ 32 := Nat.pow_le_pow_right (by decide) hwide
    rw [Nat.min_eq_left hwide]
    omega
  · rw [Nat.min_eq_right (by omega)]

/-! ## Sequence numbers -/

-- A field of a serialized structure, cut out at its place.
theorem field_cut (front field back : Bytes) :
    ((front ++ (field ++ back)).drop front.length).take field.length = field := by
  rw [List.drop_left, List.take_left]

theorem MACHeader.sequenceNumber_cut (header : MACHeader) :
    (header.serialize.drop 2).take 6 = numberToBuffer (some (header.sequenceNumber : Int)) 48 := by
  have hcut := field_cut (numberToBuffer (some (header.epoch : Int)) 16)
    (numberToBuffer (some (header.sequenceNumber : Int)) 48)
  simp only [numberToBuffer_length] at hcut
  exact hcut _

theorem DTLSCiphertext.sequenceNumber_cut (packet : DTLSCiphertext) :
    (packet.serialize.drop 5).take 6 = numberToBuffer (some (packet.sequenceNumber : Int)) 48 := by
  have hcut := field_cut
    (numberToBuffer (some (packet.type.toNat : Int)) 8 ++
      ((numberToBuffer packet.version.major 8 ++ (numberToBuffer packet.version.minor 8 ++ [])) ++
        numberToBuffer (some (packet.epoch : Int)) 16))
    (numberToBuffer (some (packet.sequenceNumber : Int)) 48)
  simp only [List.length_append, numberToBuffer_length, List.append_assoc] at hcut
  have hserialize : packet.serialize = _ ++ ((_ ++ (_ ++ [])) ++ (_ ++ _)) := rfl
  rw [hserialize]
  simp only [List.append_assoc]
  exact hcut _

/-- Of the numbers that fit, exactly those below `2 ^ 32` are encoded and read back; so are the
sequence numbers in the MAC header, in the additional data and in the record itself. -/
theorem numbers_encoded_iff (size value : Nat) (hsize : size ∈ [8, 16, 24, 32, 48])
    (hvalue : value < 2 ^ size) (packet : DTLSPacket) (hnumber : packet.sequenceNumber < 2 ^ 48)
    (fragmentLength : Int) :
    (EncodesNumber (numberToBuffer (some (value : Int)) size) size value ↔ value < 2 ^ 32) ∧
    (EncodesNumber ((DTLSCompressed.computeMACHeader packet).drop 2 |>.take 6) 48
      packet.sequenceNumber ↔ packet.sequenceNumber < 2 ^ 32) ∧
    (EncodesNumber ((AEADCipher.additionalData packet fragmentLength).drop 2 |>.take 6) 48
      packet.sequenceNumber ↔ packet.sequenceNumber < 2 ^ 32) ∧
    (EncodesNumber ((DTLSCiphertext.serialize packet).drop 5 |>.take 6) 48
      packet.sequenceNumber ↔ packet.sequenceNumber < 2 ^ 32) := by
  have hwritten := @encodesNumber_sized_iff 48 packet.sequenceNumber (by decide) hnumber
  refine ⟨encodesNumber_sized_iff hsize hvalue, ?_, ?_, ?_⟩
  · rw [DTLSCompressed.computeMACHeader, MACHeader.sequenceNumber_cut]
    exact hwritten
  · rw [AEADCipher.additionalData, MACHeader.sequenceNumber_cut]
    exact hwritten
  · rw [DTLSCiphertext.sequenceNumber_cut]
    exact hwritten

-- Six zero bytes are written for the first number that needs a fifth byte.
theorem numbers_encoded_lost :
    ¬ ∀ size ∈ [8, 16, 24, 32, 48], ∀ value : Nat, value < 2 ^ size →
      EncodesNumber (numberToBuffer (some (value : Int)) size) size value := by
  intro h
  have hread := (h 48 (by decide) (2 ^ 32) (by decide)).1.2
  revert hread
  decide

theorem numbers_encoded_largest :
    (EncodesNumber (numberToBuffer (some ((255 : Nat) : Int)) 8) 8 255 ↔ 255 < 2 ^ 32) ∧
    (EncodesNumber
      ((DTLSCompressed.computeMACHeader ⟨.alert, ⟨some 254, some 253⟩, 1, 281474976710655, []⟩).drop 2
        |>.take 6) 48 281474976710655 ↔ 281474976710655 < 2 ^ 32) ∧
    (EncodesNumber
      ((AEADCipher.additionalData ⟨.alert, ⟨some 254, some 253⟩, 1, 281474976710655, []⟩ 0).drop 2
        |>.take 6) 48 281474976710655 ↔ 281474976710655 < 2 ^ 32) ∧
    (EncodesNumber
      ((DTLSCiphertext.serialize ⟨.alert, ⟨some 254, some 253⟩, 1, 281474976710655, []⟩).drop 5
        |>.take 6) 48 281474976710655 ↔ 281474976710655 < 2 ^ 32) :=
  numbers_encoded_iff 8 255 (by decide) (by decide)
    ⟨.alert, ⟨some 254, some 253⟩, 1, 281474976710655, []⟩ (by decide) 0

end DtlsClient
