import DtlsClient.Properties.Records

/-!
# Datagrams that end in the middle of a record

What is left of a record whose header is cut makes the parser throw, and the parse loop stops there.
What is left of a record whose fragment is cut is taken for the whole record: the bytes that are
missing are what the memory held before.
-/

open Library

namespace DtlsClient

namespace Record

variable {memory : Nat → Memory}

-- The length field is read as `NaN`.
theorem fromBuffer_cutHeader {buf : Bytes} {offset : Nat} (hcut : buf.length < offset + 13) :
    DTLSCiphertext.fromBuffer memory buf offset = .error .invalidLength := by
  have hlength : TLSStruct.declaredLength (some 0) (2048 + 2 ^ 14) buf (offset + 11) = none := by
    have hmissing : ¬(bufferToNumber buf 16 (offset + 11)).isSome = true := by
      rw [bufferToNumber_isSome (by decide)]
      omega
    exact Option.not_isSome_iff_eq_none.mp hmissing
  rw [DTLSCiphertext.fromBuffer_eq, TLSStruct.deserializeBuffer_some, hlength]
  rfl

theorem take_bytes (r : Record) {n : Nat} (hheader : 13 ≤ n) :
    r.bytes.take n = r.header ++ r.fragment.take (n - 13) := by
  have hwhole : r.header.length ≤ n := r.header_length.trans_le hheader
  rw [bytes, List.take_append, List.take_of_length_le hwhole, r.header_length]

/-- The record as it is read when only the first `n` bytes of it arrive, its header among them. -/
def cutPacket (memory : Memory) (r : Record) (n : Nat) : DTLSCiphertext :=
  { r.packet with
    fragment := r.fragment.take (n - 13) ++
      ((List.range r.fragment.length).map memory).drop (n - 13) }

theorem fromBuffer_cutFragment (front : Bytes) (r : Record) {n : Nat} (hheader : 13 ≤ n)
    (hcut : n < r.bytes.length) :
    DTLSCiphertext.fromBuffer memory (front ++ r.bytes.take n) front.length =
      .ok (r.cutPacket (memory (front.length + 11)) n, r.bytes.length) := by
  rw [bytes_length] at hcut
  have hshort : (r.fragment.take (n - 13)).length = n - 13 := by
    rw [List.length_take]
    omega
  rw [take_bytes r hheader, fromBuffer_header, List.take_of_length_le (by omega), overwrite_zero,
    hshort]
  · rfl
  · rw [hshort, List.length_map, List.length_range]
    omega

end Record

namespace RecordLayer

open Record

variable {memory : Nat → Memory} {records : List Record} {r : Record} {n : Nat}

theorem parseLoop_cutHeader (hheader : n < 13) :
    ParseLoop memory (datagram records ++ r.bytes.take n) 0 (records.map packet) := by
  have hlength : (datagram records ++ r.bytes.take n).length < (datagram records).length + 13 := by
    rw [List.length_append, List.length_take]
    omega
  have hback : ParseLoop memory (datagram records ++ r.bytes.take n) (datagram records).length [] := by
    rcases Nat.lt_or_ge (datagram records).length (datagram records ++ r.bytes.take n).length with
      hin | hend
    · exact .thrown hin (fromBuffer_cutHeader hlength)
    · exact .done hend
  have hall := parseLoop_append memory records (r.bytes.take n) hback
  rw [List.append_nil] at hall
  exact hall

theorem parseLoop_cutFragment (hheader : 13 ≤ n) (hcut : n < r.bytes.length) :
    ParseLoop memory (datagram records ++ r.bytes.take n) 0 (records.map packet ++
      [r.cutPacket (memory ((datagram records).length + 11)) n]) := by
  have hlength : (r.bytes.take n).length = n := by
    rw [List.length_take]
    omega
  have hin : (datagram records).length < (datagram records ++ r.bytes.take n).length := by
    rw [List.length_append, hlength]
    omega
  -- the loop goes on where the record would have ended, which is behind the datagram
  have hend : (datagram records ++ r.bytes.take n).length ≤
      (datagram records).length + r.bytes.length := by
    rw [List.length_append, hlength]
    omega
  apply parseLoop_append
  exact .packet hin (fromBuffer_cutFragment (datagram records) r hheader hcut) (by omega) (.done hend)

/-- From complete records and a part of a further one, the parse loop of `receive` collects exactly
the complete records if and only if the part is shorter than a header. -/
theorem parseLoop_truncated_iff (memory : Nat → Memory) (records : List Record) (r : Record)
    (hcut : n < r.bytes.length) :
    ParseLoop memory (datagram records ++ r.bytes.take n) 0 (records.map packet) ↔ n < 13 := by
  constructor
  · intro hloop
    rw [← Nat.not_le]
    intro hheader
    have hmore : ParseLoop memory (datagram records ++ r.bytes.take n) 0 (records.map packet ++
        [r.cutPacket (memory ((datagram records).length + 11)) n]) :=
      parseLoop_cutFragment hheader hcut
    have hsame := (parseLoop_iff.mp hloop).symm.trans (parseLoop_iff.mp hmore)
    have hlength := congrArg List.length hsame
    rw [List.length_append, List.length_singleton] at hlength
    omega
  · exact parseLoop_cutHeader

end RecordLayer

namespace Sample

/-- Two bytes of application data. -/
def twoBytes : Record where
  header := [23, 254, 253, 0, 0, 0, 0, 0, 0, 0, 0, 0, 2]
  fragment := [104, 105]
  header_length := rfl
  complete := by decide

end Sample

theorem RecordLayer.parseLoop_truncated_iff_sample :
    RecordLayer.ParseLoop (fun _ _ => 1) (Record.datagram [Sample.twoBytes] ++
      Sample.twoBytes.bytes.take 12) 0 [Sample.twoBytes.packet] :=
  (RecordLayer.parseLoop_truncated_iff (fun _ _ => 1) [Sample.twoBytes] Sample.twoBytes
    (by decide)).mpr (by decide)

/-- The second of the two bytes is missing, and the record comes with a byte of the memory. -/
theorem RecordLayer.parseLoop_missingByte :
    14 < Sample.twoBytes.bytes.length ∧
      ¬RecordLayer.ParseLoop (fun _ _ => 1) (Record.datagram [Sample.twoBytes] ++
        Sample.twoBytes.bytes.take 14) 0 [Sample.twoBytes.packet] ∧
      RecordLayer.ParseLoop (fun _ _ => 1) (Record.datagram [Sample.twoBytes] ++
        Sample.twoBytes.bytes.take 14) 0
        [Sample.twoBytes.packet, { Sample.twoBytes.packet with fragment := [104, 1] }] := by
  rw [RecordLayer.parseLoop_iff, RecordLayer.parseLoop_iff]
  decide +kernel

end DtlsClient
