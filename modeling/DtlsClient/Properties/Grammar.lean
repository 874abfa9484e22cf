import DtlsClient.Properties.Codec

/-!
# The grammar of a specification

`Derives` says that a value stands in the input as the specification has it: with declared lengths within
their bounds, with items that fill the length of their vector, and with all its bytes inside the input.
`layout` decides from the length fields alone whether there is such a value.  The parser finds it if
there is, and reads something else in many cases where there is none.
-/

open Library

namespace DtlsClient

open TypeSpecs

namespace TLSStruct

/-! ## What a specification describes -/

/-- The items stand one directly behind the other, and take `total` bytes together. -/
def DerivesItems {α : Type} (item : Nat → α → Nat → Prop) : Nat → List α → Nat → Prop
  | _, [], total => total = 0
  | offset, value :: values, total =>
      ∃ n rest, item offset value n ∧ DerivesItems item (offset + n) values rest ∧ total = n + rest

def DerivesNumber (size : Nat) (buf : Bytes) (offset : Nat) (value : Num) (n : Nat) : Prop :=
  offset + size / 8 ≤ buf.length ∧
    value = some (bigEndian ((buf.drop offset).take (size / 8)) : Int) ∧ n = size / 8

def DerivesVector {α : Type} (item : Nat → α → Nat → Prop) (minLength maxLength : Nat)
    (optional : Bool) (buf : Bytes) (offset : Nat) (values : List α) (n : Nat) : Prop :=
  -- an optional vector may be missing at the end of the input
  (optional = true ∧ buf.length ≤ offset ∧ values = [] ∧ n = 0) ∨
    ∃ length : Nat, declaredLength (some minLength) maxLength buf offset = some (length : Int) ∧
      minLength ≤ length ∧ length ≤ maxLength ∧
      DerivesItems item (offset + lengthBytes (some minLength) maxLength) values length ∧
      n = lengthBytes (some minLength) maxLength + length

def DerivesBuffer (minLength : Option Nat) (maxLength : Option Nat) (buf : Bytes) (offset : Nat)
    (value : Bytes) (n : Nat) : Prop :=
  match maxLength with
  | none => offset ≤ buf.length ∧ value = buf.drop offset ∧ n = value.length
  | some maxLength =>
      declaredLength minLength maxLength buf offset = some (value.length : Int) ∧
        (∀ length ∈ minLength, length ≤ value.length) ∧ value.length ≤ maxLength ∧
        offset + lengthBytes minLength maxLength + value.length ≤ buf.length ∧
        value = (buf.drop (offset + lengthBytes minLength maxLength)).take value.length ∧
        n = lengthBytes minLength maxLength + value.length

mutual

def DerivesComplex (buf : Bytes) : (spec : TypeSpecs.Complex) → Nat → spec.Val → Nat → Prop
  | .number size, offset, value, n => DerivesNumber size buf offset value n
  | .enum size, offset, value, n => DerivesNumber size buf offset value n
  | .struct spec, offset, value, n => Derives buf spec offset value n

def DerivesAll (buf : Bytes) : (spec : All) → Nat → spec.Val → Nat → Prop
  | .complex spec, offset, value, n => DerivesComplex buf spec offset value n
  | .vector itemSpec minLength maxLength optional, offset, values, n =>
      DerivesVector (fun pos item => DerivesComplex buf itemSpec pos item) minLength maxLength optional
        buf offset values n
  | .buffer minLength maxLength, offset, value, n =>
      DerivesBuffer minLength maxLength buf offset value n

/-- The value stands in the input from `offset` on, and takes `n` bytes. -/
def Derives (buf : Bytes) : (spec : StructSpec) → Nat → spec.Val → Nat → Prop
  | .nil, _, _, n => n = 0
  | .cons _ type rest, offset, value, n =>
      ∃ k l, DerivesAll buf type offset value.1 k ∧ Derives buf rest (offset + k) value.2 l ∧ n = k + l

end

/-! ## Where there is such a value -/

def layoutVector (item : Nat → Option Nat) (minLength maxLength : Nat) (optional : Bool) (buf : Bytes)
    (offset : Nat) : Option Nat :=
  if optional ∧ buf.length ≤ offset then some 0
  else
    (declaredLength (some minLength) maxLength buf offset).bind fun length =>
      let start := lengthBytes (some minLength) maxLength
      if minLength ≤ length ∧ length ≤ maxLength ∧
          Vector.spanItems item length length.toNat 0 (offset + start) = some length.toNat then
        some (start + length.toNat)
      else none

def layoutBuffer (minLength maxLength : Option Nat) (buf : Bytes) (offset : Nat) : Option Nat :=
  match maxLength with
  | none => if offset ≤ buf.length then some (buf.length - offset) else none
  | some maxLength =>
      (declaredLength minLength maxLength buf offset).bind fun length =>
        let start := lengthBytes minLength maxLength
        if (∀ shortest ∈ minLength, shortest ≤ length.toNat) ∧ length.toNat ≤ maxLength ∧
            offset + start + length.toNat ≤ buf.length then
          some (start + length.toNat)
        else none

mutual

def layoutComplex (buf : Bytes) : TypeSpecs.Complex → Nat → Option Nat
  | .number size, offset => if offset + size / 8 ≤ buf.length then some (size / 8) else none
  | .enum size, offset => if offset + size / 8 ≤ buf.length then some (size / 8) else none
  | .struct spec, offset => layout buf spec offset

def layoutAll (buf : Bytes) : All → Nat → Option Nat
  | .complex spec, offset => layoutComplex buf spec offset
  | .vector itemSpec minLength maxLength optional, offset =>
      layoutVector (fun pos => layoutComplex buf itemSpec pos) minLength maxLength optional buf offset
  | .buffer minLength maxLength, offset => layoutBuffer minLength maxLength buf offset

def layout (buf : Bytes) : StructSpec → Nat → Option Nat
  | .nil, _ => some 0
  | .cons _ type rest, offset =>
      (layoutAll buf type offset).bind fun n => (layout buf rest (offset + n)).map (n + ·)

end

/-! ## A value that is described has a layout -/

theorem layoutItems_of_derives {α : Type} {item : Nat → α → Nat → Prop} {layoutItem : Nat → Option Nat}
    (hitem : ∀ pos value n, item pos value n → layoutItem pos = some n ∧ n ≠ 0)
    {length : Int} {values : List α} {fuel i offset total : Nat}
    (hderives : DerivesItems item offset values total) (hlength : ((i + total : Nat) : Int) = length)
    (hfuel : total ≤ fuel) :
    Vector.spanItems layoutItem length fuel i offset = some (i + total) := by
  induction values generalizing fuel i offset total with
  | nil =>
      have htotal : total = 0 := hderives
      subst htotal
      cases fuel with
      | zero => rfl
      | succ fuel => rw [Vector.spanItems, if_neg (by omega)]; rfl
  | cons value values ih =>
      rcases hderives with ⟨n, rest, hvalue, hrest, rfl⟩
      rcases hitem offset value n hvalue with ⟨hlayout, hpos⟩
      rcases fuel with _ | fuel
      · omega
      · rw [Vector.spanItems, if_pos (by omega), hlayout, Option.bind_some, if_neg hpos,
          ih hrest (by omega) (by omega), Nat.add_assoc]

-- At the end of the input a length field cannot be read.
theorem declaredLength_end {minLength maxLength : Nat} {buf : Bytes} {offset : Nat}
    (hvariable : maxLength ≠ minLength) (hend : buf.length ≤ offset) :
    declaredLength (some minLength) maxLength buf offset = none := by
  have hpos := fitToWholeBytes_pos maxLength
  have hne : ¬(some minLength = some maxLength) := fun h => hvariable (Option.some.inj h).symm
  rw [declaredLength, if_neg hne, bufferToNumber_eq_none (by omega) (by omega)]

theorem layoutVector_of_derives {α : Type} {item : Nat → α → Nat → Prop}
    {layoutItem : Nat → Option Nat}
    (hitem : ∀ pos value n, item pos value n → layoutItem pos = some n ∧ n ≠ 0)
    {minLength maxLength : Nat} {optional : Bool} {buf : Bytes} {offset n : Nat} {values : List α}
    (hvariable : maxLength ≠ minLength)
    (hderives : DerivesVector item minLength maxLength optional buf offset values n) :
    layoutVector layoutItem minLength maxLength optional buf offset = some n := by
  rcases hderives with ⟨hoptional, hend, _, rfl⟩ | ⟨length, hdeclared, hmin, hmax, hitems, rfl⟩
  · exact if_pos ⟨hoptional, hend⟩
  · have hspan := @layoutItems_of_derives _ item layoutItem hitem length values length 0 _ _ hitems
      (by omega) (Nat.le_refl length)
    rw [Nat.zero_add] at hspan
    have hin : ¬(optional = true ∧ buf.length ≤ offset) := by
      intro h
      rw [declaredLength_end hvariable h.2] at hdeclared
      cases hdeclared
    rw [layoutVector, if_neg hin, hdeclared, Option.bind_some]
    simp only [Int.toNat_natCast]
    rw [if_pos ⟨by omega, by omega, hspan⟩]

theorem layoutBuffer_of_derives {minLength maxLength : Option Nat} {buf value : Bytes}
    {offset n : Nat} (hderives : DerivesBuffer minLength maxLength buf offset value n) :
    layoutBuffer minLength maxLength buf offset = some n := by
  cases maxLength with
  | none =>
      rcases hderives with ⟨hin, rfl, rfl⟩
      rw [layoutBuffer, if_pos hin, List.length_drop]
  | some maxLength =>
      rcases hderives with ⟨hdeclared, hmin, hmax, hin, _, rfl⟩
      simp only [layoutBuffer, hdeclared, Option.bind_some, Int.toNat_natCast]
      exact if_pos ⟨hmin, hmax, hin⟩

theorem layoutNumber_of_derives {size : Nat} {buf : Bytes} {offset n : Nat} {value : Num}
    (hderives : DerivesNumber size buf offset value n) :
    (if offset + size / 8 ≤ buf.length then some (size / 8) else none) = some n := by
  rcases hderives with ⟨hin, _, rfl⟩
  exact if_pos hin

theorem derives_pos {buf : Bytes} {spec : TypeSpecs.Complex} {offset n : Nat} {value : spec.Val}
    (hdelimited : delimitedComplex spec = true) (hbegins : beginsWithNumber spec = true)
    (hderives : DerivesComplex buf spec offset value n) : n ≠ 0 := by
  unfold beginsWithNumber at hbegins
  split at hbegins
  · have hsize := of_decide_eq_true hdelimited
    rcases hderives with ⟨_, _, rfl⟩
    omega
  · have hsize := of_decide_eq_true hdelimited
    rcases hderives with ⟨_, _, rfl⟩
    omega
  · have hsize := of_decide_eq_true (Bool.and_eq_true_iff.mp hdelimited).1
    rcases hderives with ⟨_, _, ⟨_, _, rfl⟩, _, rfl⟩
    omega
  · have hsize := of_decide_eq_true (Bool.and_eq_true_iff.mp hdelimited).1
    rcases hderives with ⟨_, _, ⟨_, _, rfl⟩, _, rfl⟩
    omega
  · cases hbegins

mutual

theorem layoutComplex_of_derives (buf : Bytes) : ∀ (spec : TypeSpecs.Complex) {offset n : Nat}
    {value : spec.Val}, delimitedComplex spec = true → DerivesComplex buf spec offset value n →
    layoutComplex buf spec offset = some n
  | .number _, _, _, _, _, hderives => layoutNumber_of_derives hderives
  | .enum _, _, _, _, _, hderives => layoutNumber_of_derives hderives
  | .struct spec, _, _, _, hdelimited, hderives => layout_of_derives buf spec hdelimited hderives

theorem layoutAll_of_derives (buf : Bytes) : ∀ (spec : All) {offset n : Nat} {value : spec.Val},
    delimitedAll spec = true → DerivesAll buf spec offset value n → layoutAll buf spec offset = some n
  | .complex spec, _, _, _, hdelimited, hderives =>
      layoutComplex_of_derives buf spec hdelimited hderives
  | .vector itemSpec _ _ _, _, _, _, hdelimited, hderives => by
      simp only [delimitedAll, Bool.and_eq_true] at hdelimited
      rcases hdelimited with ⟨⟨⟨hitem, hbegins⟩, _⟩, hvariable⟩
      exact layoutVector_of_derives (fun _ _ _ h =>
        ⟨layoutComplex_of_derives buf itemSpec hitem h, derives_pos hitem hbegins h⟩)
        (of_decide_eq_true hvariable).1 hderives
  | .buffer _ _, _, _, _, _, hderives => layoutBuffer_of_derives hderives

theorem layout_of_derives (buf : Bytes) : ∀ (spec : StructSpec) {offset n : Nat} {value : spec.Val},
    delimited spec = true → Derives buf spec offset value n → layout buf spec offset = some n
  | .nil, _, _, _, _, hderives => congrArg some (Eq.symm hderives)
  | .cons _ type rest, _, _, _, hdelimited, hderives => by
      rcases Bool.and_eq_true_iff.mp hdelimited with ⟨hfirst, hrest⟩
      rcases hderives with ⟨k, l, hvalue, hvalues, rfl⟩
      rw [layout, layoutAll_of_derives buf type hfirst hvalue, Option.bind_some,
        layout_of_derives buf rest hrest hvalues]
      rfl

end

/-! ## Where there is a layout, the parser finds the value -/

theorem derivesItems_of_layout {α : Type} {item : (Nat → Memory) → Nat → Except JsError (α × Nat)}
    {derivesItem : Nat → α → Nat → Prop} {layoutItem : Nat → Option Nat}
    (hitem : ∀ pos n, layoutItem pos = some n →
      ∃ value, (∀ memory, item memory pos = .ok (value, n)) ∧ derivesItem pos value n)
    {length : Int} {fuel i offset total : Nat}
    (hspan : Vector.spanItems layoutItem length fuel i offset = some total) :
    ∃ values k, (∀ memory, Vector.readItems (item memory) length fuel i offset = .ok (values, total)) ∧
      DerivesItems derivesItem offset values k ∧ total = i + k := by
  induction fuel generalizing i offset total with
  | zero => exact ⟨[], 0, fun _ => by rw [Vector.readItems, Option.some.inj hspan], rfl,
      (Option.some.inj hspan).symm⟩
  | succ fuel ih =>
      rw [Vector.spanItems] at hspan
      by_cases hlength : (i : Int) < length
      · rw [if_pos hlength, Option.bind_eq_some_iff] at hspan
        rcases hspan with ⟨n, hlayout, hspan⟩
        by_cases hzero : n = 0
        · rw [if_pos hzero] at hspan
          cases hspan
        · rw [if_neg hzero] at hspan
          rcases hitem offset n hlayout with ⟨value, hvalue, hderives⟩
          rcases ih hspan with ⟨values, k, hvalues, hrest, rfl⟩
          refine ⟨value :: values, n + k, fun memory => ?_, ⟨n, k, hderives, hrest, rfl⟩,
            Nat.add_assoc i n k⟩
          rw [Vector.readItems, if_pos hlength, hvalue, ok_bind]
          simp only
          rw [if_neg hzero, hvalues]
          rfl
      · rw [if_neg hlength] at hspan
        refine ⟨[], 0, fun memory => ?_, rfl, (Option.some.inj hspan).symm⟩
        rw [Vector.readItems, if_neg hlength, Option.some.inj hspan]

theorem derivesVector_of_layout {α : Type} {item : (Nat → Memory) → Nat → Except JsError (α × Nat)}
    {derivesItem : Nat → α → Nat → Prop} {layoutItem : Nat → Option Nat}
    (hitem : ∀ pos n, layoutItem pos = some n →
      ∃ value, (∀ memory, item memory pos = .ok (value, n)) ∧ derivesItem pos value n)
    {minLength maxLength : Nat} {optional : Bool} {buf : Bytes} {offset n : Nat}
    (hvariable : maxLength ≠ minLength)
    (hlayout : layoutVector layoutItem minLength maxLength optional buf offset = some n) :
    ∃ values m, (∀ memory, Vector.fromBuffer (item memory) minLength maxLength optional buf offset =
        .ok (values, m)) ∧
      DerivesVector derivesItem minLength maxLength optional buf offset values n ∧
      (optional = false → m = n) := by
  have hpos := fitToWholeBytes_pos maxLength
  have hfit : 8 * fitToWholeBytes maxLength / 8 = fitToWholeBytes maxLength := by omega
  have hne : ¬(some minLength = some maxLength) := fun h => hvariable (Option.some.inj h).symm
  have hbytes : lengthBytes (some minLength) maxLength = fitToWholeBytes maxLength := if_neg hne
  have hread : declaredLength (some minLength) maxLength buf offset =
      bufferToNumber buf (8 * fitToWholeBytes maxLength) offset := if_neg hne
  by_cases habsent : optional = true ∧ buf.length ≤ offset
  · rcases habsent with ⟨rfl, hend⟩
    rw [layoutVector, if_pos ⟨rfl, hend⟩] at hlayout
    have hderives : DerivesVector derivesItem minLength maxLength true buf offset [] n :=
      .inl ⟨rfl, hend, rfl, (Option.some.inj hlayout).symm⟩
    have habsent : ∃ m, ∀ memory, Vector.fromBuffer (item memory) minLength maxLength true buf
        offset = .ok ([], m) := Vector.fromBuffer_end item hvariable hend
    rcases habsent with ⟨m, hm⟩
    exact ⟨[], m, hm, hderives, fun h => Bool.noConfusion h⟩
  · rw [layoutVector, if_neg habsent, Option.bind_eq_some_iff] at hlayout
    rcases hlayout with ⟨length, hdeclared, hlayout⟩
    simp only at hlayout
    split at hlayout
    · rename_i hfills
      rcases hfills with ⟨hmin, hmax, hspan⟩
      rcases derivesItems_of_layout hitem hspan with ⟨values, k, hvalues, hderives, hk⟩
      have hnonneg := declaredLength_nonneg hdeclared
      rw [Nat.zero_add] at hk
      rw [hread] at hdeclared
      have hnonempty : ¬buf.length = 0 := by
        intro hempty
        rw [bufferToNumber_eq_none (by omega) (by omega)] at hdeclared
        cases hdeclared
      have hn := Option.some.inj hlayout
      refine ⟨values, n, fun memory => ?_, .inr ⟨k, ?_, by omega, by omega, hderives, by omega⟩,
        fun _ => rfl⟩
      · rw [hbytes] at hvalues
        rw [Vector.fromBuffer, if_neg hnonempty, Vector.deserialize, if_pos hvariable]
        simp only [hdeclared, Vector.items, hfit]
        rw [hvalues, ok_bind, ← hn, hbytes]
        rfl
      · rw [hread, hdeclared]
        congr 1
        omega
    · cases hlayout

theorem derivesBuffer_of_layout {minLength maxLength : Option Nat} {buf : Bytes} {offset n : Nat}
    (hlayout : layoutBuffer minLength maxLength buf offset = some n) :
    ∃ value, (∀ memory, deserializeBuffer memory minLength maxLength buf offset = .ok (value, n)) ∧
      DerivesBuffer minLength maxLength buf offset value n := by
  cases maxLength with
  | none =>
      rw [layoutBuffer] at hlayout
      by_cases hin : offset ≤ buf.length
      · rw [if_pos hin] at hlayout
        have hn := Option.some.inj hlayout
        refine ⟨buf.drop offset, fun memory => ?_, hin, rfl, ?_⟩
        · have hread := deserializeBuffer_rest memory minLength hin
          rw [hread, List.length_drop, hn]
        · rw [List.length_drop, hn]
      · rw [if_neg hin] at hlayout
        cases hlayout
  | some maxLength =>
      rw [layoutBuffer, Option.bind_eq_some_iff] at hlayout
      rcases hlayout with ⟨length, hdeclared, hlayout⟩
      simp only at hlayout
      split at hlayout
      · rename_i hbounds
        rcases hbounds with ⟨hmin, hmax, hin⟩
        have hnonneg := declaredLength_nonneg hdeclared
        rcases Int.eq_ofNat_of_zero_le hnonneg with ⟨length, rfl⟩
        rw [Int.toNat_natCast] at hmin hmax hin hlayout
        have hn := Option.some.inj hlayout
        have hlength : ((buf.drop (offset + lengthBytes minLength maxLength)).take length).length =
            length := by
          rw [List.length_take, List.length_drop]
          omega
        refine ⟨(buf.drop (offset + lengthBytes minLength maxLength)).take length, fun memory => ?_, ?_⟩
        · rw [deserializeBuffer_inside memory hdeclared hin, hn]
        · simp only [DerivesBuffer, hlength]
          exact ⟨hdeclared, hmin, hmax, hin, trivial, hn.symm⟩
      · cases hlayout

theorem derivesNumber_of_layout {size : Nat} {buf : Bytes} {offset n : Nat}
    (hlayout : (if offset + size / 8 ≤ buf.length then some (size / 8) else none) = some n) :
    size / 8 = n ∧ DerivesNumber size buf offset (bufferToNumber buf size offset) n := by
  by_cases hin : offset + size / 8 ≤ buf.length
  · rw [if_pos hin] at hlayout
    have hn := Option.some.inj hlayout
    exact ⟨hn, hin, bufferToNumber_eq hin, hn.symm⟩
  · rw [if_neg hin] at hlayout
    cases hlayout

mutual

theorem derivesComplex_of_layout (buf : Bytes) : ∀ (spec : TypeSpecs.Complex) {offset n : Nat},
    delimitedComplex spec = true → layoutComplex buf spec offset = some n →
    ∃ value, (∀ memory, deserializeComplex memory buf spec offset = .ok (value, n)) ∧
      DerivesComplex buf spec offset value n
  | .number _, _, _, _, hlayout => by
      rcases derivesNumber_of_layout hlayout with ⟨rfl, hderives⟩
      exact ⟨_, fun _ => rfl, hderives⟩
  | .enum _, _, _, _, hlayout => by
      rcases derivesNumber_of_layout hlayout with ⟨rfl, hderives⟩
      exact ⟨_, fun _ => rfl, hderives⟩
  | .struct spec, _, _, hdelimited, hlayout => derives_of_layout buf spec hdelimited hlayout

theorem derivesAll_of_layout (buf : Bytes) : ∀ (spec : All) {offset n : Nat},
    delimitedAll spec = true → layoutAll buf spec offset = some n →
    ∃ value, (∀ memory, deserializeAll memory buf spec offset = .ok (value, n)) ∧
      DerivesAll buf spec offset value n
  | .complex spec, _, _, hdelimited, hlayout => derivesComplex_of_layout buf spec hdelimited hlayout
  | .vector itemSpec _ _ _, offset, _, hdelimited, hlayout => by
      simp only [delimitedAll, Bool.and_eq_true] at hdelimited
      rcases hdelimited with ⟨⟨⟨hitem, _⟩, _⟩, hvariable⟩
      rcases of_decide_eq_true hvariable with ⟨hvariable, hoptional⟩
      have hitems := fun pos n => @derivesComplex_of_layout buf itemSpec pos n hitem
      rcases derivesVector_of_layout hitems hvariable hlayout with ⟨values, m, hvalues, hderives, hm⟩
      rw [hm hoptional] at hvalues
      exact ⟨values, hvalues, hderives⟩
  | .buffer _ _, _, _, _, hlayout => derivesBuffer_of_layout hlayout

theorem derives_of_layout (buf : Bytes) : ∀ (spec : StructSpec) {offset n : Nat},
    delimited spec = true → layout buf spec offset = some n →
    ∃ value, (∀ memory, deserialize memory buf spec offset = .ok (value, n)) ∧
      Derives buf spec offset value n
  | .nil, _, _, _, hlayout => by
      rcases Option.some.inj hlayout with rfl
      exact ⟨(), fun _ => rfl, rfl⟩
  | .cons _ type rest, offset, _, hdelimited, hlayout => by
      rcases Bool.and_eq_true_iff.mp hdelimited with ⟨hfirst, hrest⟩
      rw [layout, Option.bind_eq_some_iff] at hlayout
      rcases hlayout with ⟨k, hk, hlayout⟩
      rw [Option.map_eq_some_iff] at hlayout
      rcases hlayout with ⟨l, hl, rfl⟩
      rcases derivesAll_of_layout buf type hfirst hk with ⟨value, hvalue, hderives⟩
      rcases derives_of_layout buf rest hrest hl with ⟨values, hvalues, hderives'⟩
      refine ⟨(value, values), fun memory => ?_, k, l, hderives, hderives', rfl⟩
      rw [deserialize, hvalue, ok_bind]
      simp only
      rw [hvalues]
      rfl

end

/-! ## The specification of a whole message -/

theorem layout_of_derives_closed {buf : Bytes} {spec : StructSpec} (hclosed : closed spec = true)
    {offset n : Nat} {value : spec.Val} (hderives : Derives buf spec offset value n) :
    layout buf spec offset = some n := by
  fun_induction closed spec generalizing offset n with
  | case1 => exact congrArg some (Eq.symm hderives)
  | case2 name itemSpec minLength maxLength =>
      simp only [delimitedAll, Bool.and_eq_true] at hclosed
      rcases hclosed with ⟨⟨⟨hitem, hbegins⟩, _⟩, hvariable⟩
      rcases hderives with ⟨k, l, hvalue, hnil, rfl⟩
      have hl : l = 0 := hnil
      have hk : layoutAll buf (.vector itemSpec minLength maxLength true) offset = some k :=
        layoutVector_of_derives (fun _ _ _ h =>
          ⟨layoutComplex_of_derives buf itemSpec hitem h, derives_pos hitem hbegins h⟩)
          (of_decide_eq_true hvariable).1 hvalue
      rw [layout, hk, hl]
      rfl
  | case3 name =>
      rcases hderives with ⟨k, l, hvalue, hnil, rfl⟩
      have hl : l = 0 := hnil
      have hderives : DerivesBuffer none none buf offset value.1 k := hvalue
      have hk : layoutAll buf (.buffer none none) offset = some k := layoutBuffer_of_derives hderives
      rw [layout, hk, hl]
      rfl
  | case4 name type rest _ _ ih =>
      rcases Bool.and_eq_true_iff.mp hclosed with ⟨hfirst, hrest⟩
      rcases hderives with ⟨k, l, hvalue, hvalues, rfl⟩
      rw [layout, layoutAll_of_derives buf type hfirst hvalue, Option.bind_some, ih hrest hvalues]
      rfl

/-- Where there is a layout, the parser returns a value that the grammar derives. -/
theorem derives_of_layout_closed {buf : Bytes} {spec : StructSpec} (hclosed : closed spec = true)
    {offset n : Nat} (hlayout : layout buf spec offset = some n) :
    ∃ value m, (∀ memory, deserialize memory buf spec offset = .ok (value, m)) ∧
      Derives buf spec offset value n := by
  fun_induction closed spec generalizing offset n with
  | case1 =>
      rcases Option.some.inj hlayout with rfl
      exact ⟨(), 0, fun _ => rfl, rfl⟩
  | case2 name itemSpec minLength maxLength =>
      simp only [delimitedAll, Bool.and_eq_true] at hclosed
      rcases hclosed with ⟨⟨⟨hitem, _⟩, _⟩, hvariable⟩
      rw [layout, Option.bind_eq_some_iff] at hlayout
      rcases hlayout with ⟨k, hk, hlayout⟩
      rcases Option.some.inj hlayout with rfl
      have hitems := fun pos n => @derivesComplex_of_layout buf itemSpec pos n hitem
      rcases derivesVector_of_layout hitems (of_decide_eq_true hvariable).1 hk with
        ⟨values, m, hvalues, hderives, _⟩
      have hvalues : ∀ memory, deserializeAll memory buf (.vector itemSpec minLength maxLength true)
          offset = .ok (values, m) := hvalues
      refine ⟨(values, ()), m + 0, fun memory => ?_, k, 0, hderives, rfl, rfl⟩
      rw [deserialize, hvalues]
      rfl
  | case3 name =>
      rw [layout, Option.bind_eq_some_iff] at hlayout
      rcases hlayout with ⟨k, hk, hlayout⟩
      rcases Option.some.inj hlayout with rfl
      have hbuffer : layoutBuffer none none buf offset = some k := hk
      rcases derivesBuffer_of_layout hbuffer with ⟨value, hvalue, hderives⟩
      have hvalue : ∀ memory, deserializeAll memory buf (.buffer none none) offset =
          .ok (value, k) := hvalue
      refine ⟨(value, ()), k + 0, fun memory => ?_, k, 0, hderives, rfl, rfl⟩
      rw [deserialize, hvalue]
      rfl
  | case4 name type rest _ _ ih =>
      rcases Bool.and_eq_true_iff.mp hclosed with ⟨hfirst, hrest⟩
      rw [layout, Option.bind_eq_some_iff] at hlayout
      rcases hlayout with ⟨k, hk, hlayout⟩
      rw [Option.map_eq_some_iff] at hlayout
      rcases hlayout with ⟨l, hl, rfl⟩
      rcases derivesAll_of_layout buf type hfirst hk with ⟨value, hvalue, hderives⟩
      rcases ih hrest hl with ⟨values, m, hvalues, hderives'⟩
      refine ⟨(value, values), k + m, fun memory => ?_, k, l, hderives, hderives', rfl⟩
      rw [deserialize, hvalue, ok_bind]
      simp only
      rw [hvalues]
      rfl

end TLSStruct

/-! ## Handshake messages -/

namespace Handshake

/-- The body of the message stands in the body of the fragment as the specification of its class
describes it. -/
def FollowsGrammar (whole : FragmentedHandshake) (m : Handshake) : Prop :=
  ∃ msgClass value n, HandshakeMessages whole.msgType = some msgClass ∧
    m.body = msgClass.ofVal value ∧ TLSStruct.Derives whole.fragment msgClass.spec 0 value n

/-- The length fields of the body describe a body of its class. -/
def hasLayout (whole : FragmentedHandshake) : Bool :=
  match HandshakeMessages whole.msgType with
  | none => false
  | some msgClass => (TLSStruct.layout whole.fragment msgClass.spec 0).isSome

theorem FollowsGrammar.hasLayout {whole : FragmentedHandshake} {m : Handshake}
    (h : FollowsGrammar whole m) : hasLayout whole = true := by
  rcases h with ⟨msgClass, value, n, hclass, _, hderives⟩
  unfold Handshake.hasLayout
  rw [hclass]
  simp only
  rw [TLSStruct.layout_of_derives_closed (closed_spec hclass) hderives]
  rfl

/-- What `fromFragment` returns follows the grammar of its class exactly if the body has a layout, or
is refused. -/
theorem fromFragment_grammar_iff (whole : FragmentedHandshake) :
    (∀ memory m, fromFragment memory whole = .ok m → FollowsGrammar whole m) ↔
      (whole.isFragmented = false → readable whole = true → hasLayout whole = true) := by
  constructor
  · intro hgrammar hwhole hreadable
    rcases (fromFragment_ok_iff zeros hwhole).mpr hreadable with ⟨m, hm⟩
    exact (hgrammar zeros m hm).hasLayout
  · intro hlayout memory m hm
    have hwhole : whole.isFragmented = false := by
      by_contra hfragmented
      rw [Bool.not_eq_false] at hfragmented
      rw [fromFragment, if_pos hfragmented] at hm
      cases hm
    have hlayout := hlayout hwhole ((fromFragment_ok_iff memory hwhole).mp ⟨m, hm⟩)
    unfold hasLayout at hlayout
    cases hclass : HandshakeMessages whole.msgType with
    | none =>
        rw [hclass] at hlayout
        cases hlayout
    | some msgClass =>
        rw [hclass] at hlayout
        rcases Option.isSome_iff_exists.mp hlayout with ⟨n, hn⟩
        rcases TLSStruct.derives_of_layout_closed (closed_spec hclass) hn with
          ⟨value, k, hvalue, hderives⟩
        refine ⟨msgClass, value, n, hclass, ?_, hderives⟩
        rw [fromFragment, hwhole] at hm
        simp only [hclass, Bool.false_eq_true, if_false, hvalue, ok_bind] at hm
        rw [← Except.ok.inj hm]

/-- A cookie that declares five bytes, of which one is there. -/
theorem fromFragment_grammar_cutCookie :
    ¬∀ (memory : Nat → Memory) (whole : FragmentedHandshake) (m : Handshake),
      fromFragment memory whole = .ok m → FollowsGrammar whole m := by
  intro hgrammar
  have hfollows := hgrammar (fun _ _ => 0) ⟨.helloVerifyRequest, 4, 0, 0, [254, 253, 5, 1]⟩
    ⟨0, .helloVerifyRequest ⟨⟨some 254, some 253⟩, [1, 0, 0, 0, 0]⟩⟩ (by rfl)
  have hlayout := hfollows.hasLayout
  revert hlayout
  decide

-- The other two ways to leave the grammar: a session id of 33 bytes, and an odd number of bytes for
-- cipher suites of two bytes each.
example : readable ⟨.serverHello, 71, 0, 0, [254, 253] ++ List.replicate 32 0 ++ [33] ++
      List.replicate 33 0 ++ [0, 0, 0]⟩ = true ∧
    hasLayout ⟨.serverHello, 71, 0, 0, [254, 253] ++ List.replicate 32 0 ++ [33] ++
      List.replicate 33 0 ++ [0, 0, 0]⟩ = false := by decide

example : readable ⟨.clientHello, 44, 0, 0, [254, 253] ++ List.replicate 32 0 ++
      [0, 0, 0, 3, 0, 1, 0, 2, 1, 0]⟩ = true ∧
    hasLayout ⟨.clientHello, 44, 0, 0, [254, 253] ++ List.replicate 32 0 ++
      [0, 0, 0, 3, 0, 1, 0, 2, 1, 0]⟩ = false := by decide

end Handshake

end DtlsClient
