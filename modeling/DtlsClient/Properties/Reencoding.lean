import DtlsClient.Properties.Serializing
import DtlsClient.Run

/-!
# Messages that are serialized again

The transcript holds the messages of the server as the client serializes them after parsing.
`encoded buf spec offset` is how many bytes of the input, from `offset` on, come out again.
-/

open Library

namespace DtlsClient

open TypeSpecs

/-! ## What comes out again -/

namespace Vector

/-- An optional vector without items is serialized to nothing, and any other one with the length that
its items really have. -/
def encoded (item : Nat → Option Nat) (maxLength : Nat) (optional : Bool) (buf : Bytes)
    (offset : Nat) : Option Nat :=
  let lengthBytes := fitToWholeBytes maxLength
  match bufferToNumber buf (8 * lengthBytes) offset with
  | none => if optional then some 0 else none
  | some length =>
      if length = 0 ∧ optional then some 0
      else
        (spanItems item length length.toNat 0 (offset + lengthBytes)).bind fun total =>
          if ((total % 256 ^ lengthBytes : Nat) : Int) = length then some (lengthBytes + total)
          else none

end Vector

namespace TLSStruct

mutual

def encodedComplex (buf : Bytes) : TypeSpecs.Complex → Nat → Option Nat
  | .number size, offset => if offset + size / 8 ≤ buf.length then some (size / 8) else none
  | .enum size, offset => if offset + size / 8 ≤ buf.length then some (size / 8) else none
  | .struct spec, offset => encoded buf spec offset

def encodedAll (buf : Bytes) : All → Nat → Option Nat
  | .complex spec, offset => encodedComplex buf spec offset
  | .vector itemSpec _ maxLength optional, offset =>
      Vector.encoded (fun pos => encodedComplex buf itemSpec pos) maxLength optional buf offset
  | .buffer minLength maxLength, offset => spanBuffer true minLength maxLength buf offset

def encoded (buf : Bytes) : StructSpec → Nat → Option Nat
  | .nil, _ => some 0
  | .cons _ type rest, offset =>
      (encodedAll buf type offset).bind fun n => (encoded buf rest (offset + n)).map (n + ·)

end

/-! The specifications whose serialization is as long as what was read. -/

mutual

def plainComplex : TypeSpecs.Complex → Bool
  | .number size => 8 ≤ size ∧ size / 8 ≤ 4
  | .enum size => 8 ≤ size ∧ size / 8 ≤ 4
  | .struct spec => plain spec

def plainAll : All → Bool
  | .complex spec => plainComplex spec
  | .vector itemSpec minLength maxLength optional =>
      plainComplex itemSpec &&
        decide (maxLength ≠ minLength ∧ fitToWholeBytes maxLength ≤ 4 ∧ optional = false)
  | .buffer _ maxLength => (maxLength.map fitToWholeBytes).all (· ≤ 4)

def plain : StructSpec → Bool
  | .nil => true
  | .cons _ type rest => plainAll type && plain rest

end

end TLSStruct

/-! ## Numbers and buffers -/

theorem found_numberToBuffer {buf : Bytes} {size offset : Nat} (hsize : 8 ≤ size)
    (hfour : size / 8 ≤ 4) :
    found (numberToBuffer (bufferToNumber buf size offset) size) buf offset =
      if offset + size / 8 ≤ buf.length then some (size / 8) else none := by
  have hlength := numberToBuffer_length (bufferToNumber buf size offset) size
  rw [found_eq_take, hlength]
  · omega
  · rw [hlength]
    exact fun hin => (numberToBuffer_bufferToNumber hfour hin).symm

-- A number is found where its field holds its residue.
theorem found_number {buf : Bytes} {size offset : Nat} {length : Int} (hsize : 8 ≤ size)
    (hfour : size / 8 ≤ 4) (hread : bufferToNumber buf size offset = some length) (value : Nat) :
    found (numberToBuffer (some (value : Int)) size) buf offset =
      if ((value % 256 ^ (size / 8) : Nat) : Int) = length then some (size / 8) else none := by
  have hin : offset + size / 8 ≤ buf.length := by
    rw [← bufferToNumber_isSome hsize, hread]
    rfl
  rw [bufferToNumber_eq hin, Option.some.injEq] at hread
  have hwritten : (numberToBuffer (some (value : Int)) size).length = size / 8 :=
    numberToBuffer_length _ _
  have hfield : ((buf.drop offset).take (size / 8)).length = size / 8 := by
    rw [List.length_take, List.length_drop]
    omega
  have hvalue : bigEndian (numberToBuffer (some (value : Int)) size) = value % 256 ^ (size / 8) := by
    have hloop := bigEndian_numberToBufferLoop (size / 8) value
    rw [Nat.min_eq_left hfour] at hloop
    exact hloop
  have hbegins : numberToBuffer (some (value : Int)) size <+: buf.drop offset ↔
      ((value % 256 ^ (size / 8) : Nat) : Int) = length := by
    rw [List.prefix_iff_eq_take, hwritten, ← hread, ← hvalue, Int.natCast_inj]
    refine ⟨fun heq => congrArg bigEndian heq, fun heq => ?_⟩
    -- at most four bytes are determined by their number
    have hbytes := @numberToBufferLoop_bigEndian ((buf.drop offset).take (size / 8)) (by omega)
    have hbytes' := @numberToBufferLoop_bigEndian (numberToBuffer (some (value : Int)) size)
      (by omega)
    rw [← hbytes, ← hbytes', heq, hwritten, hfield]
  unfold found
  rw [hwritten]
  simp only [hbegins]

namespace TLSStruct

theorem deserializeBuffer_ok {memory : Nat → Memory} {minLength : Option Nat} {maxLength : Nat}
    {buf value : Bytes} {offset n : Nat}
    (h : deserializeBuffer memory minLength (some maxLength) buf offset = .ok (value, n)) :
    declaredLength minLength maxLength buf offset = some (value.length : Int) ∧
      offset + lengthBytes minLength maxLength ≤ buf.length ∧
      n = lengthBytes minLength maxLength + value.length := by
  rw [deserializeBuffer_some] at h
  cases hdeclared : declaredLength minLength maxLength buf offset with
  | none => rw [hdeclared] at h; cases h
  | some length =>
      have hnonneg := declaredLength_nonneg hdeclared
      rw [hdeclared, allocUnsafe_nonneg _ hnonneg, ok_bind] at h
      simp only [copy] at h
      split at h
      · cases h
      · rename_i hstart
        rcases Prod.mk.inj (Except.ok.inj h) with ⟨hvalue, hn⟩
        have hlength : value.length = length.toNat := by
          rw [← hvalue, overwrite_length, List.length_map, List.length_range]
        rw [overwrite_length, List.length_map, List.length_range] at hn
        refine ⟨?_, by omega, by omega⟩
        congr 1
        omega

-- The bytes of a buffer that was read are those of its place, unless the input ends before.
theorem found_value {memory : Nat → Memory} {minLength : Option Nat} {maxLength : Nat}
    {buf value : Bytes} {offset n : Nat}
    (h : deserializeBuffer memory minLength (some maxLength) buf offset = .ok (value, n)) :
    found value buf (offset + lengthBytes minLength maxLength) =
      if offset + lengthBytes minLength maxLength + value.length ≤ buf.length then
        some value.length
      else none := by
  rcases deserializeBuffer_ok h with ⟨hdeclared, hstart, _⟩
  by_cases hpos : 0 < value.length
  · apply found_eq_take hpos
    intro hin
    rw [deserializeBuffer_inside memory hdeclared hin] at h
    exact (Prod.mk.inj (Except.ok.inj h)).1
  · have hnil : value = [] := List.eq_nil_of_length_eq_zero (by omega)
    rw [hnil, found_nil, if_pos (by simpa using hstart)]
    rfl

theorem deserializeBuffer_encoded {memory : Nat → Memory} {minLength maxLength : Option Nat}
    {buf value : Bytes} {offset n : Nat} (hplain : plainAll (.buffer minLength maxLength) = true)
    (h : deserializeBuffer memory minLength maxLength buf offset = .ok (value, n)) :
    (serializeBuffer minLength maxLength value).length = n ∧
      spanBuffer true minLength maxLength buf offset =
        found (serializeBuffer minLength maxLength value) buf offset := by
  cases maxLength with
  | none =>
      by_cases hin : offset ≤ buf.length
      · rw [deserializeBuffer_rest memory minLength hin] at h
        rcases Prod.mk.inj (Except.ok.inj h) with ⟨rfl, rfl⟩
        refine ⟨rfl, ?_⟩
        have hfound : found (buf.drop offset) buf offset = some (buf.drop offset).length :=
          if_pos List.prefix_rfl
        show spanBuffer true minLength none buf offset = found (buf.drop offset) buf offset
        rw [hfound, spanBuffer, if_pos hin, List.length_drop]
      · rw [deserializeBuffer, allocUnsafe, if_pos (by omega)] at h
        cases h
  | some maxLength =>
      have hvalue := found_value h
      rcases deserializeBuffer_ok h with ⟨hdeclared, hstart, hn⟩
      have hspan : spanBuffer true minLength (some maxLength) buf offset =
          if offset + lengthBytes minLength maxLength + value.length ≤ buf.length then
            some (lengthBytes minLength maxLength + value.length) else none := by
        simp only [spanBuffer, hdeclared, Option.bind_some, Int.toNat_natCast, true_and]
        rw [if_neg (by omega)]
        by_cases hin : offset + lengthBytes minLength maxLength + value.length ≤ buf.length
        · rw [if_neg (by omega), if_pos hin]
        · rw [if_pos (by omega), if_neg hin]
      unfold serializeBuffer
      by_cases hfixed : minLength = some maxLength
      · have hzero : lengthBytes minLength maxLength = 0 := if_pos hfixed
        rw [hzero, Nat.add_zero] at hvalue
        simp only [if_pos hfixed]
        rw [hzero, Nat.zero_add] at hn
        refine ⟨hn.symm, ?_⟩
        rw [hspan, hvalue, hzero, Nat.add_zero, Nat.zero_add]
      · have hbytes : lengthBytes minLength maxLength = fitToWholeBytes maxLength := if_neg hfixed
        have hfit : 8 * fitToWholeBytes maxLength / 8 = fitToWholeBytes maxLength := by omega
        have hread : bufferToNumber buf (8 * fitToWholeBytes maxLength) offset =
            some (value.length : Int) := by
          rw [declaredLength, if_neg hfixed] at hdeclared
          exact hdeclared
        have hpos := fitToWholeBytes_pos maxLength
        have hnumber : found (numberToBuffer (some (value.length : Int))
            (8 * fitToWholeBytes maxLength)) buf offset = some (fitToWholeBytes maxLength) := by
          rw [← hread, found_numberToBuffer (by omega) (by rw [hfit]; exact of_decide_eq_true hplain), hfit,
            if_pos (by omega)]
        simp only [if_neg hfixed]
        rw [hbytes] at hn hvalue hspan
        refine ⟨?_, ?_⟩
        · rw [List.length_append, numberToBuffer_length, hfit, hn]
        · rw [found_append, hnumber, Option.bind_some, hvalue, hspan]
          split <;> rfl

end TLSStruct

/-! ## Vectors -/

namespace Vector

section Items

variable {α : Type} {item : Nat → Except JsError (α × Nat)} {serializeItem : α → Bytes}
  {encodedItem : Nat → Option Nat} {buf : Bytes}

/-- What is known of an item: it is serialized to as many bytes as were read. -/
def ItemEncoded (item : Nat → Except JsError (α × Nat)) (serializeItem : α → Bytes)
    (encodedItem : Nat → Option Nat) (buf : Bytes) : Prop :=
  ∀ pos value n, item pos = .ok (value, n) →
    (serializeItem value).length = n ∧ encodedItem pos = found (serializeItem value) buf pos

theorem readItems_succ {length : Int} {fuel i offset total : Nat} {values : List α}
    (hlength : (i : Int) < length)
    (h : readItems item length (fuel + 1) i offset = .ok (values, total)) :
    ∃ value n rest, item offset = .ok (value, n) ∧ n ≠ 0 ∧
      readItems item length fuel (i + n) (offset + n) = .ok (rest, total) ∧
      values = value :: rest := by
  rw [readItems, if_pos hlength] at h
  rcases bind_eq_ok.mp h with ⟨⟨value, n⟩, hvalue, h⟩
  simp only at h
  by_cases hzero : n = 0
  · rw [if_pos hzero] at h
    cases h
  · rw [if_neg hzero] at h
    rcases bind_eq_ok.mp h with ⟨⟨rest, total'⟩, hrest, h⟩
    rcases Prod.mk.inj (Except.ok.inj h) with ⟨rfl, rfl⟩
    exact ⟨value, n, rest, hvalue, hzero, hrest, rfl⟩

theorem readItems_encoded (hitem : ItemEncoded item serializeItem encodedItem buf) {length : Int}
    {fuel i offset total : Nat} {values : List α}
    (h : readItems item length fuel i offset = .ok (values, total)) :
    total = i + ((values.map serializeItem).flatten).length ∧
      spanItems encodedItem length fuel i offset =
        (found (values.map serializeItem).flatten buf offset).map (i + ·) := by
  induction fuel generalizing i offset values total with
  | zero =>
      rcases Prod.mk.inj (Except.ok.inj h) with ⟨rfl, rfl⟩
      exact ⟨rfl, rfl⟩
  | succ fuel ih =>
      rw [spanItems]
      by_cases hlength : (i : Int) < length
      · rcases readItems_succ hlength h with ⟨value, n, rest, hvalue, hzero, hrest, rfl⟩
        rcases hitem offset value n hvalue with ⟨hn, hencoded⟩
        rcases ih hrest with ⟨htotal, hspan⟩
        rw [if_pos hlength, List.map_cons, List.flatten_cons, List.length_append, found_append,
          hencoded]
        refine ⟨by omega, ?_⟩
        by_cases hthere : found (serializeItem value) buf offset = none
        · rw [hthere]
          rfl
        · rcases Option.ne_none_iff_exists'.mp hthere with ⟨n', hn'⟩
          have heq : n' = n := (found_eq_some.mp hn').2.symm.trans hn
          subst heq
          rw [hn', Option.bind_some, Option.bind_some, if_neg hzero, hspan, Option.map_map]
          congr 1
          funext k
          exact Nat.add_assoc i n' k
      · rw [readItems, if_neg hlength] at h
        rw [if_neg hlength]
        rcases Prod.mk.inj (Except.ok.inj h) with ⟨rfl, rfl⟩
        exact ⟨rfl, rfl⟩

-- A vector has items exactly if it declares a length.
theorem readItems_nil_iff {length : Int} {offset total : Nat} {values : List α}
    (h : readItems item length length.toNat 0 offset = .ok (values, total)) :
    values = [] ↔ length ≤ 0 := by
  by_cases hlength : length ≤ 0
  · have hzero : length.toNat = 0 := by omega
    rw [hzero] at h
    rcases Prod.mk.inj (Except.ok.inj h) with ⟨rfl, rfl⟩
    exact ⟨fun _ => hlength, fun _ => rfl⟩
  · rcases Nat.exists_eq_succ_of_ne_zero (n := length.toNat) (by omega) with ⟨fuel, hfuel⟩
    rw [hfuel] at h
    rcases readItems_succ (by omega) h with ⟨value, _, rest, _, _, _, rfl⟩
    exact ⟨fun hnil => absurd hnil (List.cons_ne_nil _ _), fun hle => absurd hle hlength⟩

-- The length field reaches past the end of the input: an optional vector is absent, another is empty.
theorem encoded_unread {minLength maxLength offset : Nat} {optional : Bool}
    (hvariable : maxLength ≠ minLength) (hfour : fitToWholeBytes maxLength ≤ 4)
    (hread : bufferToNumber buf (8 * fitToWholeBytes maxLength) offset = none) :
    encoded encodedItem maxLength optional buf offset =
      found (serialize serializeItem minLength maxLength optional []) buf offset := by
  have hpos := fitToWholeBytes_pos maxLength
  have hfit : 8 * fitToWholeBytes maxLength / 8 = fitToWholeBytes maxLength := by omega
  cases optional with
  | true =>
      rw [serialize_optional_nil, found_nil]
      simp only [encoded, hread, if_true]
  | false =>
      have hout : ¬offset + 8 * fitToWholeBytes maxLength / 8 ≤ buf.length := by
        rw [← bufferToNumber_isSome (by omega), hread]
        exact Bool.false_ne_true
      have hzero := @found_numberToBuffer buf (8 * fitToWholeBytes maxLength) offset
        (by omega) (by omega)
      rw [hread, if_neg hout] at hzero
      rw [serialize_written hvariable (by simp), found_append]
      have hfield : found (numberToBuffer
          (some (([] : List α).map serializeItem).flatten.length)
          (8 * fitToWholeBytes maxLength)) buf offset = none := hzero
      rw [hfield]
      simp only [encoded, hread, Bool.false_eq_true, if_false]
      rfl

-- The length field is there, and the items behind it are read.
theorem encoded_read (hitem : ItemEncoded item serializeItem encodedItem buf)
    {minLength maxLength offset total : Nat} {optional : Bool} {length : Int} {values : List α}
    (hvariable : maxLength ≠ minLength) (hfour : fitToWholeBytes maxLength ≤ 4)
    (hread : bufferToNumber buf (8 * fitToWholeBytes maxLength) offset = some length)
    (hitems : readItems item length length.toNat 0 (offset + fitToWholeBytes maxLength) =
      .ok (values, total)) :
    encoded encodedItem maxLength optional buf offset =
      found (serialize serializeItem minLength maxLength optional values) buf offset := by
  have hpos := fitToWholeBytes_pos maxLength
  have hfit : 8 * fitToWholeBytes maxLength / 8 = fitToWholeBytes maxLength := by omega
  have hnil := readItems_nil_iff hitems
  have hnonneg := (bufferToNumber_bounds hread).1
  rcases readItems_encoded hitem hitems with ⟨htotal, hspan⟩
  simp only [encoded, hread]
  by_cases hnone : length = 0 ∧ optional = true
  · rw [if_pos hnone, hnil.mpr (by omega), hnone.2, serialize_optional_nil, found_nil]
  · have hsome : ¬(values = [] ∧ optional = true) := by
      intro hempty
      have hle := hnil.mp hempty.1
      exact hnone ⟨by omega, hempty.2⟩
    rw [if_neg hnone, serialize_written hvariable hsome, hspan, found_append,
      found_number (by omega) (by omega) hread, hfit]
    simp only [Nat.zero_add, Option.map_id']
    cases hthere : found (values.map serializeItem).flatten buf
        (offset + fitToWholeBytes maxLength) with
    | none => split <;> simp [hthere]
    | some k =>
        rcases (found_eq_some.mp hthere).2 with rfl
        rw [Option.bind_some]
        split
        · rw [Option.bind_some, hthere]
          rfl
        · rfl

/-- A vector of variable length, optional or not. -/
theorem fromBuffer_encoded (hitem : ItemEncoded item serializeItem encodedItem buf)
    {minLength maxLength offset n : Nat} {optional : Bool} {values : List α}
    (hvariable : maxLength ≠ minLength) (hfour : fitToWholeBytes maxLength ≤ 4)
    (h : fromBuffer item minLength maxLength optional buf offset = .ok (values, n)) :
    (optional = false → (serialize serializeItem minLength maxLength optional values).length = n) ∧
      encoded encodedItem maxLength optional buf offset =
        found (serialize serializeItem minLength maxLength optional values) buf offset := by
  have hpos := fitToWholeBytes_pos maxLength
  have hfit : 8 * fitToWholeBytes maxLength / 8 = fitToWholeBytes maxLength := by omega
  have hlength : ∀ total, total = (values.map serializeItem).flatten.length → optional = false →
      (serialize serializeItem minLength maxLength optional values).length =
        fitToWholeBytes maxLength + total := by
    intro total htotal hoptional
    rw [serialize_written hvariable (by simp [hoptional]), List.length_append,
      numberToBuffer_length, hfit, htotal]
  unfold fromBuffer at h
  by_cases hbuf : buf.length = 0
  · rw [if_pos hbuf] at h
    cases optional with
    | false => cases h
    | true =>
        rcases Prod.mk.inj (Except.ok.inj h) with ⟨rfl, rfl⟩
        refine ⟨fun hfalse => Bool.noConfusion hfalse, ?_⟩
        rw [serialize_optional_nil, found_nil, encoded,
          bufferToNumber_eq_none (by omega) (by omega)]
        rfl
  · rw [if_neg hbuf, deserialize, if_pos hvariable] at h
    rcases bind_eq_ok.mp h with ⟨⟨values', total⟩, hitems, h⟩
    rcases Prod.mk.inj (Except.ok.inj h) with ⟨rfl, rfl⟩
    rw [hfit] at hitems ⊢
    cases hread : bufferToNumber buf (8 * fitToWholeBytes maxLength) offset with
    | none =>
        rw [hread] at hitems
        rcases Prod.mk.inj (Except.ok.inj hitems) with ⟨rfl, rfl⟩
        exact ⟨hlength 0 rfl, encoded_unread hvariable hfour hread⟩
    | some length =>
        rw [hread] at hitems
        have htotal := (readItems_encoded hitem hitems).1
        exact ⟨hlength total (by omega), encoded_read hitem hvariable hfour hread hitems⟩

end Items

end Vector

/-! ## Whole specifications -/

namespace TLSStruct

variable {memory : Nat → Memory} {buf : Bytes}

theorem number_encoded {size offset n : Nat} {value : Num}
    (hplain : decide (8 ≤ size ∧ size / 8 ≤ 4) = true)
    (h : (.ok (bufferToNumber buf size offset, size / 8) : Except JsError (Num × Nat)) =
      .ok (value, n)) :
    (numberToBuffer value size).length = n ∧
      (if offset + size / 8 ≤ buf.length then some (size / 8) else none) =
        found (numberToBuffer value size) buf offset := by
  rcases Prod.mk.inj (Except.ok.inj h) with ⟨rfl, rfl⟩
  have hsize := of_decide_eq_true hplain
  exact ⟨numberToBuffer_length _ _, (found_numberToBuffer hsize.1 hsize.2).symm⟩

theorem encoded_cons {name : String} {type : All} {rest : StructSpec} {offset : Nat} {b b' : Bytes}
    (hfirst : encodedAll buf type offset = found b buf offset)
    (hrest : encoded buf rest (offset + b.length) = found b' buf (offset + b.length)) :
    encoded buf (.cons name type rest) offset = found (b ++ b') buf offset := by
  rw [encoded, found_append, hfirst]
  cases hthere : found b buf offset with
  | none => rfl
  | some n =>
      rcases (found_eq_some.mp hthere).2 with rfl
      rw [Option.bind_some, Option.bind_some, hrest]

mutual

theorem deserializeComplex_encoded : ∀ (spec : TypeSpecs.Complex), plainComplex spec = true →
    Vector.ItemEncoded (fun pos => deserializeComplex memory buf spec pos) (serializeComplex spec)
      (encodedComplex buf spec) buf
  | .number _, hplain => fun _ _ _ h => number_encoded hplain h
  | .enum _, hplain => fun _ _ _ h => number_encoded hplain h
  | .struct spec, hplain => fun _ _ _ h => deserialize_encoded spec hplain h

theorem deserializeAll_encoded : ∀ (spec : All), plainAll spec = true →
    ∀ {offset n : Nat} {value : spec.Val},
      deserializeAll memory buf spec offset = .ok (value, n) →
      (serializeAll spec value).length = n ∧
        encodedAll buf spec offset = found (serializeAll spec value) buf offset
  | .complex spec, hplain => fun h => deserializeComplex_encoded spec hplain _ _ _ h
  | .vector itemSpec _ _ _, hplain => by
      intro h
      rcases Bool.and_eq_true_iff.mp hplain with ⟨hitem, hvector⟩
      rcases of_decide_eq_true hvector with ⟨hvariable, hfour, hoptional⟩
      rcases Vector.fromBuffer_encoded (deserializeComplex_encoded itemSpec hitem) hvariable hfour h
        with ⟨hlength, hencoded⟩
      exact ⟨hlength hoptional, hencoded⟩
  | .buffer _ _, hplain => fun h => deserializeBuffer_encoded hplain h

theorem deserialize_encoded : ∀ (spec : StructSpec), plain spec = true →
    ∀ {offset n : Nat} {value : spec.Val},
      deserialize memory buf spec offset = .ok (value, n) →
      (serialize spec value).length = n ∧
        encoded buf spec offset = found (serialize spec value) buf offset
  | .nil, _ => by
      intro h
      rcases Prod.mk.inj (Except.ok.inj h) with ⟨_, rfl⟩
      exact ⟨rfl, (found_nil buf _).symm⟩
  | .cons name type rest, hplain => by
      intro h
      rcases bind_eq_ok.mp h with ⟨⟨first, readBytes⟩, hfirst, h⟩
      rcases bind_eq_ok.mp h with ⟨⟨others, delta⟩, hothers, h⟩
      rcases Prod.mk.inj (Except.ok.inj h) with ⟨rfl, rfl⟩
      rcases Bool.and_eq_true_iff.mp hplain with ⟨hplain, hplain'⟩
      rcases deserializeAll_encoded type hplain hfirst with ⟨hlength, hencoded⟩
      rcases deserialize_encoded rest hplain' hothers with ⟨hlength', hencoded'⟩
      subst hlength
      refine ⟨?_, encoded_cons hencoded hencoded'⟩
      rw [serialize, List.length_append, hlength']

end

/-- The last property may be an optional vector, which takes no bytes when it has no items. -/
def regular : StructSpec → Bool
  | .nil => true
  | .cons _ (.vector itemSpec minLength maxLength true) .nil =>
      plainAll (.vector itemSpec minLength maxLength false)
  | .cons _ type rest => plainAll type && regular rest

/-- What comes out again of a struct are the bytes of its serialization, if they stand in the input. -/
theorem encoded_eq {spec : StructSpec} (hregular : regular spec = true) {offset n : Nat}
    {value : spec.Val} (h : deserialize memory buf spec offset = .ok (value, n)) :
    encoded buf spec offset = found (serialize spec value) buf offset := by
  fun_induction regular spec generalizing offset n with
  | case1 => exact (found_nil buf offset).symm
  | case2 name itemSpec minLength maxLength =>
      rcases bind_eq_ok.mp h with ⟨⟨first, readBytes⟩, hfirst, h⟩
      rcases Prod.mk.inj (Except.ok.inj h) with ⟨rfl, _⟩
      rcases Bool.and_eq_true_iff.mp hregular with ⟨hitem, hvector⟩
      rcases of_decide_eq_true hvector with ⟨hvariable, hfour, _⟩
      have hencoded := (Vector.fromBuffer_encoded (deserializeComplex_encoded itemSpec hitem)
        hvariable hfour hfirst).2
      exact encoded_cons hencoded (found_nil buf _).symm
  | case3 name type rest hne ih =>
      rcases bind_eq_ok.mp h with ⟨⟨first, readBytes⟩, hfirst, h⟩
      rcases bind_eq_ok.mp h with ⟨⟨others, delta⟩, hothers, h⟩
      rcases Prod.mk.inj (Except.ok.inj h) with ⟨rfl, rfl⟩
      rcases Bool.and_eq_true_iff.mp hregular with ⟨hplain, hregular'⟩
      rcases deserializeAll_encoded type hplain hfirst with ⟨hlength, hencoded⟩
      subst hlength
      exact encoded_cons hencoded (ih hregular' hothers)

end TLSStruct

/-! ## Messages -/

namespace Handshake

/-- The body of a message comes out again: its fields lie inside it, every vector has items exactly of
the length that it declares, an optional one is there only if it has items, and nothing is left
over. -/
def reencodes (whole : FragmentedHandshake) : Bool :=
  match HandshakeMessages whole.msgType with
  | none => false
  | some msgClass =>
      TLSStruct.encoded whole.fragment msgClass.spec 0 = some whole.fragment.length

-- The header of a message that is not fragmented.
def header (msgType : HandshakeType) (length messageSeq : Nat) : Bytes :=
  numberToBuffer (some msgType.toNat) 8 ++ (numberToBuffer (some length) 24 ++
    (numberToBuffer (some messageSeq) 16 ++ (numberToBuffer (some 0) 24 ++
      numberToBuffer (some length) 24)))

/-- A message as the server has it in its transcript: the header, and the body that was sent. -/
def asSent (whole : FragmentedHandshake) : Bytes :=
  header whole.msgType whole.fragment.length whole.messageSeq ++ whole.fragment

theorem toFragment_serialize (message : Handshake) :
    message.toFragment.serialize =
      header message.msgType message.body.serialize.length message.messageSeq ++
        message.body.serialize := by
  rw [FragmentedHandshake.serialize_eq, header]
  simp only [List.append_assoc]
  rfl

theorem regular_spec {msgType : HandshakeType} {msgClass : HandshakeClass}
    (h : HandshakeMessages msgType = some msgClass) : TLSStruct.regular msgClass.spec = true := by
  cases msgType <;> cases h <;> decide

theorem map_toVal_ofVal (extensions : List Extension.spec.Val) :
    (extensions.map Extension.ofVal).map Extension.toVal = extensions := by
  rw [List.map_map]
  exact List.map_id _

-- The object that was made of the values is serialized to what the values are.
theorem serialize_ofVal {msgType : HandshakeType} {msgClass : HandshakeClass}
    (h : HandshakeMessages msgType = some msgClass) (value : msgClass.spec.Val) :
    (msgClass.ofVal value).msgType = msgType ∧
      (msgClass.ofVal value).serialize = TLSStruct.serialize msgClass.spec value := by
  cases msgType <;> cases h
  case clientHello =>
    rcases value with ⟨version, random, sessionId, cookie, suites, methods, extensions, _⟩
    exact ⟨rfl, congrArg (fun e => TLSStruct.serialize ClientHello.spec
      (version, random, sessionId, cookie, suites, methods, e, ())) (map_toVal_ofVal extensions)⟩
  case serverHello =>
    rcases value with ⟨version, random, sessionId, suite, method, extensions, _⟩
    exact ⟨rfl, congrArg (fun e => TLSStruct.serialize ServerHello.spec
      (version, random, sessionId, suite, method, e, ())) (map_toVal_ofVal extensions)⟩
  all_goals exact ⟨rfl, rfl⟩

-- A body that was accepted is serialized to itself exactly if all of it comes out again.
theorem body_serialize_iff {memory : Nat → Memory} {whole : FragmentedHandshake}
    {message : Handshake} (h : fromFragment memory whole = .ok message) :
    message.messageSeq = whole.messageSeq ∧ message.msgType = whole.msgType ∧
      (message.body.serialize = whole.fragment ↔ reencodes whole = true) := by
  unfold fromFragment at h
  split at h
  · cases h
  · unfold reencodes
    cases hclass : HandshakeMessages whole.msgType with
    | none => rw [hclass] at h; cases h
    | some msgClass =>
        rw [hclass] at h
        rcases bind_eq_ok.mp h with ⟨⟨value, n⟩, hvalue, h⟩
        rcases Except.ok.inj h with rfl
        rcases serialize_ofVal hclass value with ⟨htype, hserialize⟩
        refine ⟨rfl, htype, ?_⟩
        simp only [hserialize, decide_eq_true_eq]
        rw [eq_iff_found, TLSStruct.encoded_eq (regular_spec hclass) hvalue]

end Handshake

open FlightState in
/-- What the transcript gets for a message that was accepted is what the server sent exactly if its
body comes out again. -/
theorem bufferHandshakeData_asSent_iff {memory : Nat → Memory} {whole : FragmentedHandshake}
    {message : Handshake} (h : Handshake.fromFragment memory whole = .ok message)
    (s : FlightState) :
    (finalState (bufferHandshakeData [message.toFragment]) s).allHandshakeData =
        s.allHandshakeData ++ [Handshake.asSent whole] ↔
      Handshake.reencodes whole = true := by
  rcases Handshake.body_serialize_iff h with ⟨hseq, htype, hbody⟩
  show s.allHandshakeData ++ [message.toFragment.serialize] = _ ↔ _
  rw [List.append_cancel_left_eq, List.singleton_inj, Handshake.toFragment_serialize, htype, hseq,
    ← hbody]
  refine ⟨fun heq => List.append_inj_right heq ?_, fun heq => ?_⟩
  · simp only [Handshake.header, List.length_append, numberToBuffer_length]
  · rw [Handshake.asSent, heq]

namespace Sample

/-- The ServerHello with this extensions block. -/
def serverHelloWith (extensions : Bytes) : FragmentedHandshake where
  msgType := .serverHello
  totalLength := (serverHello ++ extensions).length
  messageSeq := 0
  fragmentOffset := 0
  fragment := serverHello ++ extensions

end Sample

open FlightState in
theorem bufferHandshakeData_asSent_iff_sample :
    (finalState (bufferHandshakeData [Sample.serverHelloParsed.toFragment])
        (ClientHandshakeHandler.reset .new).toFlightState).allHandshakeData =
      (ClientHandshakeHandler.reset .new).allHandshakeData ++
        [Handshake.asSent (Sample.serverHelloWith [])] ↔
      Handshake.reencodes (Sample.serverHelloWith []) = true :=
  @bufferHandshakeData_asSent_iff (fun _ _ => 0) (Sample.serverHelloWith [])
    Sample.serverHelloParsed (by rfl) (ClientHandshakeHandler.reset .new).toFlightState

open FlightState in
/-- An extensions block that is there but empty is parsed as if it were not there, and is lost. -/
theorem bufferHandshakeData_emptyExtensions :
    ¬∀ (memory : Nat → Memory) (whole : FragmentedHandshake) (message : Handshake)
      (s : FlightState), Handshake.fromFragment memory whole = .ok message →
        needsToHashMessage message = true →
        (finalState (bufferHandshakeData [message.toFragment]) s).allHandshakeData =
          s.allHandshakeData ++ [Handshake.asSent whole] := by
  intro hall
  have hlost := hall (fun _ _ => 0) (Sample.serverHelloWith [0, 0]) Sample.serverHelloParsed
    (ClientHandshakeHandler.reset .new).toFlightState (by rfl) (by rfl)
  revert hlost
  decide

end DtlsClient
