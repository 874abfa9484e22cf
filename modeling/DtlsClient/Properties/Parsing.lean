import DtlsClient.DTLS.Handshake
import DtlsClient.Library.Reading

/-!
# What the parser makes of received bytes

`span inside buf spec offset` is how far the parser reads from `offset` on, and `none` if it throws.  With
`inside` it is also `none` if a declared length reaches past the end of the input: then the parser
returns a buffer that still holds what was in the memory before.
-/

open Library

namespace DtlsClient

open TypeSpecs

/-! ## How far the parser reads -/

namespace Vector

-- `readItems`, without the items.
def spanItems (item : Nat → Option Nat) (length : Int) : Nat → Nat → Nat → Option Nat
  | 0, i, _ => some i
  | fuel + 1, i, offset =>
      if (i : Int) < length then
        (item offset).bind fun readBytes =>
          if readBytes = 0 then none
          else spanItems item length fuel (i + readBytes) (offset + readBytes)
      else some i

def spanAllItems (item : Nat → Option Nat) (length : Num) (offset : Nat) : Option Nat :=
  match length with
  | none => some 0
  | some length => spanItems item length length.toNat 0 offset

def span (item : Nat → Option Nat) (minLength maxLength : Nat) (optional : Bool) (buf : Bytes)
    (offset : Nat) : Option Nat :=
  if buf.length = 0 then
    if optional then some 0 else none
  else if maxLength ≠ minLength then
    let lengthBits := 8 * fitToWholeBytes maxLength
    (spanAllItems item (bufferToNumber buf lengthBits offset) (offset + lengthBits / 8)).map
      (lengthBits / 8 + ·)
  else spanAllItems item (some maxLength) offset

end Vector

namespace TLSStruct

-- The number of bytes that the length field of a buffer takes.
def lengthBytes (minLength : Option Nat) (maxLength : Nat) : Nat :=
  if minLength = some maxLength then 0 else fitToWholeBytes maxLength

-- The length that a buffer has or declares.
def declaredLength (minLength : Option Nat) (maxLength : Nat) (buf : Bytes) (offset : Nat) : Num :=
  if minLength = some maxLength then some maxLength
  else bufferToNumber buf (8 * fitToWholeBytes maxLength) offset

def spanBuffer (inside : Bool) (minLength maxLength : Option Nat) (buf : Bytes) (offset : Nat) :
    Option Nat :=
  match maxLength with
  | none => if offset ≤ buf.length then some (buf.length - offset) else none
  | some maxLength =>
      (declaredLength minLength maxLength buf offset).bind fun length =>
        let start := offset + lengthBytes minLength maxLength
        if buf.length < start then none
        else if inside ∧ buf.length < start + length.toNat then none
        else some (lengthBytes minLength maxLength + length.toNat)

mutual

def spanComplex (inside : Bool) (buf : Bytes) : TypeSpecs.Complex → Nat → Option Nat
  | .number size, _ => some (size / 8)
  | .enum size, _ => some (size / 8)
  | .struct spec, offset => span inside buf spec offset

def spanAll (inside : Bool) (buf : Bytes) : All → Nat → Option Nat
  | .complex spec, offset => spanComplex inside buf spec offset
  | .vector itemSpec minLength maxLength optional, offset =>
      Vector.span (fun pos => spanComplex inside buf itemSpec pos) minLength maxLength optional buf
        offset
  | .buffer minLength maxLength, offset => spanBuffer inside minLength maxLength buf offset

def span (inside : Bool) (buf : Bytes) : StructSpec → Nat → Option Nat
  | .nil, _ => some 0
  | .cons _ type rest, offset =>
      (spanAll inside buf type offset).bind fun readBytes =>
        (span inside buf rest (offset + readBytes)).map (readBytes + ·)

end

end TLSStruct

/-! ## The parser reads as far as that -/

theorem allocUnsafe_nonneg (memory : Memory) {length : Int} (hlength : 0 ≤ length) :
    allocUnsafe memory (some length) = .ok ((List.range length.toNat).map memory) := by
  unfold allocUnsafe
  exact if_neg (by omega)

theorem allocUnsafe_natCast (memory : Memory) (length : Nat) :
    allocUnsafe memory (some (length : Int)) = .ok ((List.range length).map memory) :=
  allocUnsafe_nonneg memory (Int.natCast_nonneg length)

-- Memory that holds zeros, and memory that holds ones.
def zeros : Nat → Memory := fun _ _ => 0
def ones : Nat → Memory := fun _ _ => 1

/-- How the parser depends on the memory it finds. -/
abbrev Parses {α : Type} (parse : (Nat → Memory) → Except JsError (α × Nat))
    (span : Bool → Option Nat) : Prop := Reads zeros ones parse (span false) (span true)

namespace Vector

section Items

variable {α : Type} {item : (Nat → Memory) → Nat → Except JsError (α × Nat)}
  {spanItem : Bool → Nat → Option Nat}

theorem readItems_parses (hitem : ∀ pos, Parses (fun memory => item memory pos) (spanItem · pos))
    (length : Int) (fuel i offset : Nat) :
    Parses (fun memory => readItems (item memory) length fuel i offset)
      (fun inside => spanItems (spanItem inside) length fuel i offset) := by
  induction fuel generalizing i offset with
  | zero => exact .inside [] i fun _ => rfl
  | succ fuel ih =>
      unfold readItems spanItems
      by_cases hlength : (i : Int) < length
      · simp only [if_pos hlength]
        -- an item, and then the items behind it
        let next := fun (n : Nat) (memory : Nat → Memory) =>
          if n = 0 then .error (.error "Zero or less bytes read while parsing TLS struct.")
          else readItems (item memory) length fuel (i + n) (offset + n)
        let nextSpan := fun (n : Nat) (inside : Bool) =>
          if n = 0 then none else spanItems (spanItem inside) length fuel (i + n) (offset + n)
        have hnext : ∀ n, Parses (next n) (nextSpan n) := by
          intro n
          by_cases hn : n = 0
          · simp only [next, nextSpan, if_pos hn]
            exact .throws _ fun _ => rfl
          · simp only [next, nextSpan, if_neg hn]
            exact ih (i + n) (offset + n)
        have hboth := (hitem offset).bind List.cons (fun _ total => total) hnext
          fun _ _ _ _ heq => List.cons.inj heq
        simp only [Option.map_id'] at hboth
        apply hboth.congr
        intro memory
        cases item memory offset with
        | error e => rfl
        | ok r =>
            simp only [ok_bind, next]
            by_cases hn : r.2 = 0
            · simp only [if_pos hn]
              rfl
            · simp only [if_neg hn]
      · simp only [if_neg hlength]
        exact .inside [] i fun _ => rfl

theorem items_parses (hitem : ∀ pos, Parses (fun memory => item memory pos) (spanItem · pos))
    (length : Num) (offset : Nat) :
    Parses (fun memory => items (item memory) length offset)
      (fun inside => spanAllItems (spanItem inside) length offset) := by
  cases length with
  | none => exact .inside [] 0 fun _ => rfl
  | some length => exact readItems_parses hitem length length.toNat 0 offset

theorem fromBuffer_parses (hitem : ∀ pos, Parses (fun memory => item memory pos) (spanItem · pos))
    (minLength maxLength : Nat) (optional : Bool) (buf : Bytes) (offset : Nat) :
    Parses (fun memory => fromBuffer (item memory) minLength maxLength optional buf offset)
      (fun inside => span (spanItem inside) minLength maxLength optional buf offset) := by
  unfold fromBuffer span
  by_cases hempty : buf.length = 0
  · simp only [if_pos hempty]
    cases optional with
    | true => exact .inside [] 0 fun _ => rfl
    | false => exact .throws _ fun _ => rfl
  · simp only [if_neg hempty]
    unfold deserialize
    by_cases hvariable : maxLength ≠ minLength
    · simp only [if_pos hvariable]
      generalize hlength : bufferToNumber buf (8 * fitToWholeBytes maxLength) offset = length
      exact (items_parses hitem length (offset + 8 * fitToWholeBytes maxLength / 8)).count
        (8 * fitToWholeBytes maxLength / 8 + ·)
    · simp only [if_neg hvariable]
      exact items_parses hitem (some maxLength) offset

end Items

end Vector

namespace TLSStruct

theorem overwrite_all {target source : Bytes} (h : target.length = source.length) :
    overwrite target 0 source = source := by
  rw [overwrite_zero h.ge, ← h, List.drop_length, List.append_nil]

-- What is copied from inside the input replaces all that the memory held.
theorem copied_inside {buf : Bytes} {start length : Nat} (hinside : start + length ≤ buf.length)
    (memory : Memory) :
    overwrite ((List.range length).map memory) 0 ((buf.take (start + length)).drop start) =
      (buf.drop start).take length := by
  rw [overwrite_all, List.drop_take, Nat.add_sub_cancel_left]
  rw [List.length_map, List.length_range, List.length_drop, List.length_take]
  omega

-- What is copied out of the input is all of the result exactly if it lies inside the input.
theorem copied_parses {buf : Bytes} {start : Nat} (hstart : start ≤ buf.length)
    (length offset readBytes : Nat) :
    Reads zeros ones (fun memory => (.ok (overwrite ((List.range length).map (memory offset)) 0
        ((buf.take (start + length)).drop start), readBytes) : Except JsError (Bytes × Nat)))
      (some readBytes) (if buf.length < start + length then none else some readBytes) := by
  have hsource : ((buf.take (start + length)).drop start).length =
      min (start + length) buf.length - start := by
    rw [List.length_drop, List.length_take]
  by_cases houtside : buf.length < start + length
  · rw [if_pos houtside]
    apply Reads.outside
    · exact fun memory => rfl
    · -- the last byte is one that the memory held before
      have hlast : ∀ memory : Nat → Memory,
          (overwrite ((List.range length).map (memory offset)) 0
            ((buf.take (start + length)).drop start))[length - 1]? =
              some (memory offset (length - 1)) := by
        intro memory
        rw [overwrite_getElem? _ _ _ _ (by rw [List.length_map, List.length_range]; omega),
          if_neg (by omega), List.getElem?_map, List.getElem?_range (by omega)]
        rfl
      intro heq
      have hbyte := congrArg (fun bytes : Bytes => bytes[length - 1]?) heq
      simp only [hlast] at hbyte
      have hdiffer : (0 : UInt8) ≠ 1 := by decide
      exact hdiffer (Option.some.inj hbyte)
  · rw [if_neg houtside]
    apply Reads.inside ((buf.drop start).take length)
    intro memory
    rw [copied_inside (Nat.le_of_not_lt houtside)]

theorem deserializeBuffer_some (memory : Nat → Memory) (minLength : Option Nat) (maxLength : Nat)
    (buf : Bytes) (offset : Nat) :
    deserializeBuffer memory minLength (some maxLength) buf offset = (do
      let ret ← allocUnsafe (memory offset) (declaredLength minLength maxLength buf offset)
      let start := offset + lengthBytes minLength maxLength
      let ret ← copy buf ret 0 start (start + ret.length)
      return (ret, lengthBytes minLength maxLength + ret.length)) := by
  unfold deserializeBuffer declaredLength lengthBytes
  by_cases hfixed : minLength = some maxLength
  · simp only [if_pos hfixed]
  · simp only [if_neg hfixed, Nat.mul_div_cancel_left _ (Nat.zero_lt_succ 7)]

theorem declaredLength_nonneg {minLength : Option Nat} {maxLength : Nat} {buf : Bytes}
    {offset : Nat} {length : Int}
    (h : declaredLength minLength maxLength buf offset = some length) : 0 ≤ length := by
  unfold declaredLength at h
  split at h
  · rw [← Option.some.inj h]
    omega
  · exact (bufferToNumber_bounds h).1

-- A buffer is copied from where its length field ends, as far as the input goes.
theorem deserializeBuffer_copied {minLength maxLength : Option Nat} {buf : Bytes} {offset k : Nat}
    (hspan : spanBuffer false minLength maxLength buf offset = some k) :
    ∃ start length, start ≤ buf.length ∧
      (∀ memory, deserializeBuffer memory minLength maxLength buf offset =
        .ok (overwrite ((List.range length).map (memory offset)) 0
          ((buf.take (start + length)).drop start), k)) ∧
      spanBuffer true minLength maxLength buf offset =
        if buf.length < start + length then none else some k := by
  cases maxLength with
  | none =>
      unfold spanBuffer at hspan ⊢
      by_cases hin : offset ≤ buf.length
      · simp only [if_pos hin] at hspan ⊢
        rcases Option.some.inj hspan with rfl
        have hlength : ((buf.length : Int) - offset).toNat = buf.length - offset := by omega
        have hnonneg : 0 ≤ (buf.length : Int) - offset := by omega
        have hend : offset + (buf.length - offset) = buf.length := by omega
        refine ⟨offset, buf.length - offset, hin, fun memory => ?_, ?_⟩
        · unfold deserializeBuffer
          rw [allocUnsafe_nonneg _ hnonneg, ok_bind, copy, if_neg (by omega), ok_bind, hlength, hend,
            overwrite_length, List.length_map, List.length_range]
          rfl
        · rw [hend, if_neg (Nat.lt_irrefl _)]
      · simp only [if_neg hin] at hspan
        cases hspan
  | some maxLength =>
      simp only [deserializeBuffer_some]
      unfold spanBuffer at hspan ⊢
      rcases Option.bind_eq_some_iff.mp hspan with ⟨length, hlength, hspan⟩
      by_cases hstart : buf.length < offset + lengthBytes minLength maxLength
      · simp only [if_pos hstart] at hspan
        cases hspan
      · simp only [if_neg hstart, Bool.false_eq_true, false_and, if_false] at hspan
        rcases Option.some.inj hspan with rfl
        refine ⟨offset + lengthBytes minLength maxLength, length.toNat, Nat.le_of_not_lt hstart,
          fun memory => ?_, ?_⟩
        · simp only [hlength, allocUnsafe_nonneg _ (declaredLength_nonneg hlength), ok_bind, copy,
            if_neg hstart, overwrite_length, List.length_map, List.length_range]
          rfl
        · simp only [hlength, Option.bind_some, if_neg hstart, true_and]

theorem deserializeBuffer_throws {minLength maxLength : Option Nat} {buf : Bytes} {offset : Nat}
    (hspan : spanBuffer false minLength maxLength buf offset = none) :
    (∃ e, ∀ memory, deserializeBuffer memory minLength maxLength buf offset = .error e) ∧
      spanBuffer true minLength maxLength buf offset = none := by
  cases maxLength with
  | none =>
      unfold spanBuffer at hspan ⊢
      by_cases hin : offset ≤ buf.length
      · simp only [if_pos hin] at hspan
        cases hspan
      · simp only [if_neg hin]
        refine ⟨⟨.outOfRange, fun memory => ?_⟩, trivial⟩
        unfold deserializeBuffer
        rw [allocUnsafe, if_pos (by omega)]
        rfl
  | some maxLength =>
      simp only [deserializeBuffer_some, spanBuffer] at hspan ⊢
      cases hlength : declaredLength minLength maxLength buf offset with
      | none => exact ⟨⟨_, fun _ => rfl⟩, rfl⟩
      | some length =>
          rw [hlength, Option.bind_some] at hspan
          by_cases hstart : buf.length < offset + lengthBytes minLength maxLength
          · refine ⟨⟨.outOfRange, fun memory => ?_⟩, by simp only [Option.bind_some, if_pos hstart]⟩
            simp only [allocUnsafe_nonneg _ (declaredLength_nonneg hlength), ok_bind, copy,
              if_pos hstart]
            rfl
          · simp only [if_neg hstart, Bool.false_eq_true, false_and, if_false] at hspan
            cases hspan

theorem deserializeBuffer_parses (minLength maxLength : Option Nat) (buf : Bytes) (offset : Nat) :
    Parses (fun memory => deserializeBuffer memory minLength maxLength buf offset)
      (fun inside => spanBuffer inside minLength maxLength buf offset) := by
  show Reads zeros ones _ (spanBuffer false minLength maxLength buf offset)
    (spanBuffer true minLength maxLength buf offset)
  cases hspan : spanBuffer false minLength maxLength buf offset with
  | none =>
      rcases deserializeBuffer_throws hspan with ⟨⟨e, hthrows⟩, hstrict⟩
      rw [hstrict]
      exact .throws e hthrows
  | some k =>
      rcases deserializeBuffer_copied hspan with ⟨start, length, hstart, hcopied, hstrict⟩
      rw [hstrict]
      exact (copied_parses hstart length offset k).congr hcopied

/-! The parser follows the specification, and so does what is known of it. -/

mutual

theorem deserializeComplex_parses (buf : Bytes) : ∀ (spec : TypeSpecs.Complex) (offset : Nat),
    Parses (fun memory => deserializeComplex memory buf spec offset)
      (fun inside => spanComplex inside buf spec offset)
  | .number size, offset => .inside (bufferToNumber buf size offset) (size / 8) fun _ => rfl
  | .enum size, offset => .inside (bufferToNumber buf size offset) (size / 8) fun _ => rfl
  | .struct spec, offset => deserialize_parses buf spec offset

theorem deserializeAll_parses (buf : Bytes) : ∀ (spec : All) (offset : Nat),
    Parses (fun memory => deserializeAll memory buf spec offset)
      (fun inside => spanAll inside buf spec offset)
  | .complex spec, offset => deserializeComplex_parses buf spec offset
  | .vector itemSpec minLength maxLength optional, offset =>
      Vector.fromBuffer_parses (deserializeComplex_parses buf itemSpec) minLength maxLength optional
        buf offset
  | .buffer minLength maxLength, offset => deserializeBuffer_parses minLength maxLength buf offset

theorem deserialize_parses (buf : Bytes) : ∀ (spec : StructSpec) (offset : Nat),
    Parses (fun memory => deserialize memory buf spec offset)
      (fun inside => span inside buf spec offset)
  | .nil, _ => .inside () 0 fun _ => rfl
  | .cons name type rest, offset => by
      have hall := deserializeAll_parses buf type offset
      have hrest := fun n => deserialize_parses buf rest (offset + n)
      have hboth := hall.bind Prod.mk (· + ·) hrest fun _ _ _ _ heq => Prod.mk.inj heq
      exact hboth

end

/-- Every declared length stays inside the input, or the parser throws. -/
def Inside (buf : Bytes) (spec : StructSpec) (offset : Nat) : Prop :=
  (span true buf spec offset).isSome = true ∨ span false buf spec offset = none

/-- Exactly then the parsed value consists of bytes of the input. -/
theorem deserialize_same_iff (buf : Bytes) (spec : StructSpec) (offset : Nat) :
    (∀ memory memory', deserialize memory buf spec offset = deserialize memory' buf spec offset) ↔
      Inside buf spec offset :=
  (deserialize_parses buf spec offset).same_iff

end TLSStruct

/-! ## The buffers of a parsed value -/

namespace Vector

section Values

variable {α : Type} {P : α → Prop} {item : Nat → Except JsError (α × Nat)} {spanItem : Nat → Option Nat}
  (hitem : ∀ pos k, spanItem pos = some k → ∀ value n, item pos = .ok (value, n) → n = k ∧ P value)

include hitem

theorem readItems_values {length : Int} {fuel i offset k : Nat} {values : List α} {n : Nat}
    (hspan : spanItems spanItem length fuel i offset = some k)
    (h : readItems item length fuel i offset = .ok (values, n)) : ∀ value ∈ values, P value := by
  induction fuel generalizing i offset k values n with
  | zero =>
      rw [← (Prod.mk.inj (Except.ok.inj h)).1]
      exact fun _ hv => absurd hv List.not_mem_nil
  | succ fuel ih =>
      unfold spanItems at hspan
      unfold readItems at h
      by_cases hlength : (i : Int) < length
      · rw [if_pos hlength] at hspan h
        rcases Option.bind_eq_some_iff.mp hspan with ⟨readBytes, hone, hspan⟩
        cases hread : item offset with
        | error e => rw [hread] at h; cases h
        | ok r =>
            rcases r with ⟨value, m⟩
            rcases hitem offset readBytes hone value m hread with ⟨rfl, hvalue⟩
            rw [hread] at h
            simp only [ok_bind] at h
            by_cases hzero : m = 0
            · rw [if_pos hzero] at hspan
              cases hspan
            · rw [if_neg hzero] at hspan h
              cases hrest : readItems item length fuel (i + m) (offset + m) with
              | error e => rw [hrest] at h; cases h
              | ok r =>
                  rw [hrest] at h
                  rw [← (Prod.mk.inj (Except.ok.inj h)).1, List.forall_mem_cons]
                  exact ⟨hvalue, ih hspan hrest⟩
      · rw [if_neg hlength] at h
        rw [← (Prod.mk.inj (Except.ok.inj h)).1]
        exact fun _ hv => absurd hv List.not_mem_nil

theorem items_values {length : Num} {offset k : Nat} {values : List α} {n : Nat}
    (hspan : spanAllItems spanItem length offset = some k)
    (h : items item length offset = .ok (values, n)) : ∀ value ∈ values, P value := by
  cases length with
  | none =>
      rw [← (Prod.mk.inj (Except.ok.inj h)).1]
      exact fun _ hv => absurd hv List.not_mem_nil
  | some length => exact readItems_values hitem hspan h

theorem fromBuffer_values {minLength maxLength : Nat} {optional : Bool} {buf : Bytes} {offset k : Nat}
    {values : List α} {n : Nat} (hspan : span spanItem minLength maxLength optional buf offset = some k)
    (h : fromBuffer item minLength maxLength optional buf offset = .ok (values, n)) :
    ∀ value ∈ values, P value := by
  unfold span at hspan
  unfold fromBuffer at h
  by_cases hempty : buf.length = 0
  · rw [if_pos hempty] at h
    cases optional with
    | true =>
        rw [← (Prod.mk.inj (Except.ok.inj h)).1]
        exact fun _ hv => absurd hv List.not_mem_nil
    | false => cases h
  · rw [if_neg hempty] at hspan h
    unfold deserialize at h
    by_cases hvariable : maxLength ≠ minLength
    · rw [if_pos hvariable] at hspan h
      rcases Option.map_eq_some_iff.mp hspan with ⟨total, htotal, _⟩
      cases hread : items item (bufferToNumber buf (8 * fitToWholeBytes maxLength) offset)
        (offset + 8 * fitToWholeBytes maxLength / 8) with
      | error e => simp only [hread] at h; cases h
      | ok r =>
          simp only [hread] at h
          rw [← (Prod.mk.inj (Except.ok.inj h)).1]
          exact items_values hitem htotal hread
    · rw [if_neg hvariable] at hspan h
      exact items_values hitem hspan h

end Values

end Vector

namespace TLSStruct

mutual

/-- The buffers in a parsed value. -/
def buffersOfComplex : (spec : TypeSpecs.Complex) → spec.Val → List Bytes
  | .number _, _ => []
  | .enum _, _ => []
  | .struct spec, value => buffersOf spec value

def buffersOfAll : (spec : All) → spec.Val → List Bytes
  | .complex spec, value => buffersOfComplex spec value
  | .vector itemSpec _ _ _, values => values.flatMap fun value => buffersOfComplex itemSpec value
  | .buffer _ _, value => [value]

def buffersOf : (spec : StructSpec) → spec.Val → List Bytes
  | .nil, _ => []
  | .cons _ type rest, value => buffersOfAll type value.1 ++ buffersOf rest value.2

end

theorem deserializeBuffer_slice (memory : Nat → Memory) {minLength maxLength : Option Nat} {buf : Bytes}
    {offset k : Nat} (hspan : spanBuffer true minLength maxLength buf offset = some k) :
    ∃ start length, deserializeBuffer memory minLength maxLength buf offset =
      .ok ((buf.drop start).take length, k) := by
  cases hloose : spanBuffer false minLength maxLength buf offset with
  | none =>
      rw [(deserializeBuffer_throws hloose).2] at hspan
      cases hspan
  | some k' =>
      rcases deserializeBuffer_copied hloose with ⟨start, length, _, hcopied, hstrict⟩
      rw [hstrict] at hspan
      by_cases houtside : buf.length < start + length
      · rw [if_pos houtside] at hspan
        cases hspan
      · rw [if_neg houtside] at hspan
        rw [← Option.some.inj hspan]
        exact ⟨start, length, by rw [hcopied, copied_inside (Nat.le_of_not_lt houtside)]⟩

-- Where a declared length stays inside, as far as the parser reads is what it says.
theorem readBytes_eq {α : Type} {parse : (Nat → Memory) → Except JsError (α × Nat)}
    {span : Bool → Option Nat} (h : Parses parse span) {k : Nat} (hspan : span true = some k)
    {memory : Nat → Memory} {value : α} {n : Nat} (hparse : parse memory = .ok (value, n)) : n = k := by
  unfold Parses at h
  rw [hspan] at h
  generalize span false = loose at h
  cases h with
  | inside value' _ hread =>
      rw [hread] at hparse
      exact (Prod.mk.inj (Except.ok.inj hparse)).2.symm

mutual

theorem buffersOfComplex_within (memory : Nat → Memory) (buf : Bytes) : ∀ (spec : TypeSpecs.Complex)
    (offset k : Nat), spanComplex true buf spec offset = some k → ∀ (value : spec.Val) (n : Nat),
    deserializeComplex memory buf spec offset = .ok (value, n) →
    ∀ bytes ∈ buffersOfComplex spec value, bytes <:+: buf
  | .number _, _, _, _, _, _, _ => fun _ hb => absurd hb List.not_mem_nil
  | .enum _, _, _, _, _, _, _ => fun _ hb => absurd hb List.not_mem_nil
  | .struct spec, offset, k, hspan, value, n, h => buffersOf_within memory buf spec offset k hspan value n h

theorem buffersOfAll_within (memory : Nat → Memory) (buf : Bytes) : ∀ (spec : All) (offset k : Nat),
    spanAll true buf spec offset = some k → ∀ (value : spec.Val) (n : Nat),
    deserializeAll memory buf spec offset = .ok (value, n) →
    ∀ bytes ∈ buffersOfAll spec value, bytes <:+: buf
  | .complex spec, offset, k, hspan, value, n, h =>
      buffersOfComplex_within memory buf spec offset k hspan value n h
  | .vector itemSpec minLength maxLength optional, offset, k, hspan, values, n, h => by
      intro bytes hbytes
      rcases List.mem_flatMap.mp hbytes with ⟨value, hvalue, hbytes⟩
      have hvalues := Vector.fromBuffer_values (P := fun value =>
        ∀ bytes ∈ buffersOfComplex itemSpec value, bytes <:+: buf)
        (fun pos k hpos value n hread =>
          ⟨readBytes_eq (deserializeComplex_parses buf itemSpec pos) hpos hread,
            buffersOfComplex_within memory buf itemSpec pos k hpos value n hread⟩) hspan h
      exact hvalues value hvalue bytes hbytes
  | .buffer minLength maxLength, offset, k, hspan, value, n, h => by
      intro bytes hbytes
      rcases deserializeBuffer_slice memory hspan with ⟨start, length, hread⟩
      have h : deserializeBuffer memory minLength maxLength buf offset = .ok (value, n) := h
      rw [hread] at h
      rw [List.mem_singleton.mp hbytes, ← (Prod.mk.inj (Except.ok.inj h)).1]
      exact (List.take_prefix _ _).isInfix.trans (List.drop_suffix _ _).isInfix

theorem buffersOf_within (memory : Nat → Memory) (buf : Bytes) : ∀ (spec : StructSpec) (offset k : Nat),
    span true buf spec offset = some k → ∀ (value : spec.Val) (n : Nat),
    deserialize memory buf spec offset = .ok (value, n) →
    ∀ bytes ∈ buffersOf spec value, bytes <:+: buf
  | .nil, _, _, _, _, _, _ => fun _ hb => absurd hb List.not_mem_nil
  | .cons name type rest, offset, k, hspan, value, n, h => by
      rcases Option.bind_eq_some_iff.mp hspan with ⟨readBytes, hfirst, hspan⟩
      rcases Option.map_eq_some_iff.mp hspan with ⟨k', hrest, _⟩
      rcases bind_eq_ok.mp h with ⟨⟨first, m⟩, hread, h⟩
      rcases bind_eq_ok.mp h with ⟨⟨others, m'⟩, hreadRest, h⟩
      rcases readBytes_eq (deserializeAll_parses buf type offset) hfirst hread with rfl
      rw [← (Prod.mk.inj (Except.ok.inj h)).1]
      show ∀ bytes ∈ buffersOfAll type first ++ buffersOf rest others, _
      rw [List.forall_mem_append]
      exact ⟨buffersOfAll_within memory buf type offset m hfirst first m hread,
        buffersOf_within memory buf rest (offset + m) k' hrest others m' hreadRest⟩

end

/-- A buffer that the parser returns is part of the input, if no declared length reaches past its end. -/
theorem deserialize_within {memory : Nat → Memory} {buf : Bytes} {spec : StructSpec} {offset n : Nat}
    {value : spec.Val} (hinside : Inside buf spec offset)
    (h : deserialize memory buf spec offset = .ok (value, n)) :
    ∀ bytes ∈ buffersOf spec value, bytes <:+: buf := by
  rcases hinside with hstrict | hthrows
  · rcases Option.isSome_iff_exists.mp hstrict with ⟨k, hspan⟩
    exact buffersOf_within memory buf spec offset k hspan value n h
  · have hok : (span false buf spec offset).isSome = true :=
      ((deserialize_parses buf spec offset).ok_iff memory).mp ⟨_, h⟩
    rw [hthrows] at hok
    cases hok

end TLSStruct

/-! ## Handshake fragments -/

namespace FragmentedHandshake

theorem fromBuffer_eq (memory : Nat → Memory) (buf : Bytes) :
    fromBuffer memory buf = (do
      let (fragment, _) ←
        TLSStruct.deserializeBuffer memory (some 0) (some (2 ^ 24 - 1)) buf 9
      ofVal (bufferToNumber buf 8 0, bufferToNumber buf 24 1, bufferToNumber buf 16 4,
        bufferToNumber buf 24 6, fragment, ())) := by
  unfold fromBuffer
  simp only [spec, TLSStruct.deserialize, TLSStruct.deserializeAll, TLSStruct.deserializeComplex,
    define.Enum, uint24, uint16, define.Number, define.Buffer, ok_bind, Nat.reduceAdd,
    Nat.reduceDiv]
  cases TLSStruct.deserializeBuffer memory (some 0) (some (2 ^ 24 - 1)) buf 9 <;> rfl

theorem ofVal_eq_ok {msgType totalLength messageSeq fragmentOffset : Num} {fragment : Bytes}
    {f : FragmentedHandshake} :
    ofVal (msgType, totalLength, messageSeq, fragmentOffset, fragment, ()) = .ok f ↔
      ∃ t n s o, msgType = some t ∧ totalLength = some n ∧ messageSeq = some s ∧
        fragmentOffset = some o ∧ f = ⟨.ofNat t.toNat, n.toNat, s.toNat, o.toNat, fragment⟩ := by
  constructor
  · intro h
    cases msgType <;> cases totalLength <;> cases messageSeq <;> cases fragmentOffset <;> cases h
    exact ⟨_, _, _, _, rfl, rfl, rfl, rfl, rfl⟩
  · rintro ⟨t, n, s, o, rfl, rfl, rfl, rfl, rfl⟩
    rfl

/-- A fragment parses exactly if its header is there: only the length of the fragment itself is
needed for an allocation, and it comes last. -/
theorem fromBuffer_ok_iff (memory : Nat → Memory) (buf : Bytes) :
    (∃ f, fromBuffer memory buf = .ok f) ↔ headerLength ≤ buf.length := by
  have hheader : headerLength = 12 := rfl
  have hlength : TLSStruct.declaredLength (some 0) (2 ^ 24 - 1) buf 9 = bufferToNumber buf 24 9 := rfl
  have hbytes : TLSStruct.lengthBytes (some 0) (2 ^ 24 - 1) = 3 := rfl
  have hparses := TLSStruct.deserializeBuffer_parses (some 0) (some (2 ^ 24 - 1)) buf 9
  rw [fromBuffer_eq]
  by_cases hlong : 12 ≤ buf.length
  · have hisSome : ∀ size offset, 8 ≤ size → offset + size / 8 ≤ 12 →
        ∃ v, bufferToNumber buf size offset = some v := fun size offset hsize hin =>
      Option.isSome_iff_exists.mp ((bufferToNumber_isSome hsize).mpr (by omega))
    rcases hisSome 8 0 (by omega) (by omega) with ⟨t, ht⟩
    rcases hisSome 24 1 (by omega) (by omega) with ⟨n, hn⟩
    rcases hisSome 16 4 (by omega) (by omega) with ⟨q, hq⟩
    rcases hisSome 24 6 (by omega) (by omega) with ⟨o, ho⟩
    rcases hisSome 24 9 (by omega) (by omega) with ⟨l, hl⟩
    have hspan : (TLSStruct.spanBuffer false (some 0) (some (2 ^ 24 - 1)) buf 9).isSome = true := by
      unfold TLSStruct.spanBuffer
      simp only [hlength, hl, hbytes, Option.bind_some]
      rw [if_neg (by omega), if_neg (by simp)]
      rfl
    rcases (hparses.ok_iff memory).mpr hspan with ⟨r, hr⟩
    rw [hr, ok_bind, ht, hn, hq, ho]
    exact ⟨fun _ => hheader ▸ hlong, fun _ => ⟨_, rfl⟩⟩
  · have hnone : bufferToNumber buf 24 9 = none := by
      rw [← Option.not_isSome_iff_eq_none, bufferToNumber_isSome (by omega)]
      omega
    rw [TLSStruct.deserializeBuffer_some, hlength, hnone]
    constructor
    · rintro ⟨f, hf⟩
      cases hf
    · intro h
      omega

-- A sequence number that was received is 16 bits wide.
theorem fromBuffer_messageSeq {memory : Nat → Memory} {buf : Bytes} {f : FragmentedHandshake}
    (h : fromBuffer memory buf = .ok f) : f.messageSeq < 2 ^ 16 := by
  rw [fromBuffer_eq, bind_eq_ok] at h
  rcases h with ⟨⟨fragment, _⟩, _, h⟩
  rcases ofVal_eq_ok.mp h with ⟨t, n, s, o, _, _, hseq, _, rfl⟩
  have hbounds := bufferToNumber_bounds hseq
  show s.toNat < 2 ^ 16
  omega

end FragmentedHandshake

/-! ## Whole messages -/

namespace Handshake

/-- A message of a known type whose fields are all there. -/
def readable (whole : FragmentedHandshake) : Bool :=
  match HandshakeMessages whole.msgType with
  | none => false
  | some msgClass => (TLSStruct.span false whole.fragment msgClass.spec 0).isSome

theorem fromFragment_ok_iff (memory : Nat → Memory) {whole : FragmentedHandshake}
    (hwhole : whole.isFragmented = false) :
    (∃ message, fromFragment memory whole = .ok message) ↔ readable whole = true := by
  unfold fromFragment readable
  rw [hwhole]
  simp only [Bool.false_eq_true, if_false]
  cases HandshakeMessages whole.msgType with
  | none =>
      constructor
      · rintro ⟨message, hok⟩
        cases hok
      · intro h
        cases h
  | some msgClass =>
      have hparses := TLSStruct.deserialize_parses whole.fragment msgClass.spec 0
      simp only
      rw [← hparses.ok_iff memory]
      constructor
      · rintro ⟨message, hok⟩
        rcases bind_eq_ok.mp hok with ⟨r, hr, _⟩
        exact ⟨r, hr⟩
      · rintro ⟨r, hr⟩
        rw [hr]
        exact ⟨_, rfl⟩

end Handshake

end DtlsClient
