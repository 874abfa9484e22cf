import DtlsClient.Library.Codec
import DtlsClient.Properties.Serializing

/-!
# What is serialized is parsed back

The parser inverts the serializer on well-formed values, by induction on the specification.  Where a
specification ends with an optional vector or with a buffer that fills the rest, that property has to
stand at the end of the input.
-/

open Library

namespace DtlsClient

open TypeSpecs

namespace TLSStruct

/-! ## Well-formed values -/

/-- The number is in the unsigned range of a field of `size` bits. -/
def InRange (size : Nat) (value : Num) : Prop :=
  ∃ n : Nat, value = some (n : Int) ∧ n < 256 ^ (size / 8)

mutual

def WellFormedComplex : (spec : TypeSpecs.Complex) → spec.Val → Prop
  | .number size, value => InRange size value
  | .enum size, value => InRange size value
  | .struct spec, value => WellFormed spec value

/-- Numbers are in range, and buffers and vectors take a number of bytes within the declared bounds. -/
def WellFormedAll : (spec : All) → spec.Val → Prop
  | .complex spec, value => WellFormedComplex spec value
  | .vector itemSpec minLength maxLength _, items =>
      (∀ item ∈ items, WellFormedComplex itemSpec item) ∧
        minLength ≤ (items.map (serializeComplex itemSpec)).flatten.length ∧
        (items.map (serializeComplex itemSpec)).flatten.length ≤ maxLength
  | .buffer minLength maxLength, value =>
      (∀ length ∈ minLength, length ≤ value.length) ∧ ∀ length ∈ maxLength, value.length ≤ length

def WellFormed : (spec : StructSpec) → spec.Val → Prop
  | .nil, _ => True
  | .cons _ type rest, value => WellFormedAll type value.1 ∧ WellFormed rest value.2

end

instance (size : Nat) (value : Num) : Decidable (InRange size value) :=
  match value with
  | none => .isFalse (by intro ⟨_, h, _⟩; cases h)
  | some v =>
      if h : 0 ≤ v ∧ v.toNat < 256 ^ (size / 8) then
        .isTrue ⟨v.toNat, congrArg some (Int.toNat_of_nonneg h.1).symm, h.2⟩
      else
        .isFalse (by
          intro ⟨n, hn, hlt⟩
          rcases Option.some.inj hn with rfl
          exact h ⟨Int.natCast_nonneg n, hlt⟩)

mutual

def decideComplex : (spec : TypeSpecs.Complex) → (value : spec.Val) →
    Decidable (WellFormedComplex spec value)
  | .number size, value => inferInstanceAs (Decidable (InRange size value))
  | .enum size, value => inferInstanceAs (Decidable (InRange size value))
  | .struct spec, value => decideStruct spec value

def decideAll : (spec : All) → (value : spec.Val) → Decidable (WellFormedAll spec value)
  | .complex spec, value => decideComplex spec value
  | .vector itemSpec minLength maxLength _, items =>
      have : DecidablePred (WellFormedComplex itemSpec) := decideComplex itemSpec
      inferInstanceAs (Decidable ((∀ item ∈ items, WellFormedComplex itemSpec item) ∧
        minLength ≤ (items.map (serializeComplex itemSpec)).flatten.length ∧
        (items.map (serializeComplex itemSpec)).flatten.length ≤ maxLength))
  | .buffer minLength maxLength, value =>
      inferInstanceAs (Decidable ((∀ length ∈ minLength, length ≤ value.length) ∧
        ∀ length ∈ maxLength, value.length ≤ length))

def decideStruct : (spec : StructSpec) → (value : spec.Val) → Decidable (WellFormed spec value)
  | .nil, _ => .isTrue trivial
  | .cons _ type rest, value =>
      have := decideAll type value.1
      have := decideStruct rest value.2
      inferInstanceAs (Decidable (WellFormedAll type value.1 ∧ WellFormed rest value.2))

end

instance (spec : StructSpec) (value : spec.Val) : Decidable (WellFormed spec value) :=
  decideStruct spec value

/-! ## Specifications whose values delimit themselves -/

/-- The length field of a buffer or a vector has room for its maximum length. -/
def hasRoom (maxLength : Nat) : Bool :=
  fitToWholeBytes maxLength ≤ 4 ∧ maxLength < 256 ^ fitToWholeBytes maxLength

/-- An item of a vector begins with a number, so that it is not empty. -/
def beginsWithNumber : TypeSpecs.Complex → Bool
  | .number _ => true
  | .enum _ => true
  | .struct (.cons _ (.complex (.number _)) _) => true
  | .struct (.cons _ (.complex (.enum _)) _) => true
  | .struct _ => false

mutual

def delimitedComplex : TypeSpecs.Complex → Bool
  | .number size => 8 ≤ size ∧ size / 8 ≤ 4
  | .enum size => 8 ≤ size ∧ size / 8 ≤ 4
  | .struct spec => delimited spec

def delimitedAll : All → Bool
  | .complex spec => delimitedComplex spec
  | .vector itemSpec minLength maxLength optional =>
      delimitedComplex itemSpec && beginsWithNumber itemSpec && hasRoom maxLength &&
        decide (maxLength ≠ minLength ∧ optional = false)
  | .buffer _ maxLength => maxLength.any hasRoom

def delimited : StructSpec → Bool
  | .nil => true
  | .cons _ type rest => delimitedAll type && delimited rest

end

/-- The last property may also be an optional vector, or a buffer that fills the rest of the input. -/
def closed : StructSpec → Bool
  | .nil => true
  | .cons _ (.vector itemSpec minLength maxLength true) .nil =>
      delimitedAll (.vector itemSpec minLength maxLength false)
  | .cons _ (.buffer none none) .nil => true
  | .cons _ type rest => delimitedAll type && closed rest

/-! ## Numbers and buffers -/

theorem number_readsBack {size : Nat} {value : Num} (hsize : size / 8 ≤ 4)
    (hvalue : InRange size value) :
    ReadsBack (fun buf offset => (.ok (bufferToNumber buf size offset, size / 8) :
      Except JsError (Num × Nat))) (numberToBuffer value size) value := by
  intro front back
  rcases hvalue with ⟨n, rfl, hn⟩
  show Except.ok (bufferToNumber (front ++ (_ ++ back)) size front.length, size / 8) = _
  rw [bufferToNumber_field front back (by rw [Nat.min_eq_left hsize]; exact hn) rfl,
    numberToBuffer_length]

-- The bytes of a buffer stand behind its length field, if it has one.
theorem buffer_readsBack (memory : Nat → Memory) {minLength : Option Nat} {maxLength : Nat}
    {value : Bytes} (hroom : hasRoom maxLength = true)
    (hvalue : WellFormedAll (.buffer minLength (some maxLength)) value) :
    ReadsBack (fun buf offset => deserializeBuffer memory minLength (some maxLength) buf offset)
      (serializeBuffer minLength (some maxLength) value) value := by
  rcases of_decide_eq_true hroom with ⟨hfour, hmax⟩
  rcases hvalue with ⟨hmin, hle⟩
  have hle := hle maxLength rfl
  intro front back
  unfold serializeBuffer
  by_cases hfixed : minLength = some maxLength
  · have hlength : value.length = maxLength := Nat.le_antisymm hle (hmin maxLength hfixed)
    have hdeclared : declaredLength minLength maxLength (front ++ (value ++ back)) front.length =
        some (value.length : Int) := by
      rw [declaredLength, if_pos hfixed, hlength]
    have hzero : lengthBytes minLength maxLength = 0 := if_pos hfixed
    simp only [if_pos hfixed]
    rw [deserializeBuffer_inside memory hdeclared (by simp only [List.length_append]; omega), hzero,
      Nat.add_zero, Nat.zero_add, List.drop_left, List.take_left]
  · have hbytes : lengthBytes minLength maxLength = fitToWholeBytes maxLength := if_neg hfixed
    have hfit : 8 * fitToWholeBytes maxLength / 8 = fitToWholeBytes maxLength := by omega
    simp only [if_neg hfixed]
    rw [List.append_assoc]
    have hwritten := numberToBuffer_length (some (value.length : Int)) (8 * fitToWholeBytes maxLength)
    have hread := @number_readsBack (8 * fitToWholeBytes maxLength) (some (value.length : Int))
      (by omega) ⟨value.length, rfl, by rw [hfit]; omega⟩
    generalize numberToBuffer (some (value.length : Int)) (8 * fitToWholeBytes maxLength) = field
      at hwritten hread ⊢
    have hdeclared : declaredLength minLength maxLength (front ++ (field ++ (value ++ back)))
        front.length = some (value.length : Int) := by
      rw [declaredLength, if_neg hfixed]
      exact (Prod.mk.inj (Except.ok.inj (hread front (value ++ back)))).1
    have hdrop : (front ++ (field ++ (value ++ back))).drop
        (front.length + fitToWholeBytes maxLength) = value ++ back := by
      rw [← List.append_assoc, ← hfit, ← hwritten, ← List.length_append, List.drop_left]
    rw [deserializeBuffer_inside memory hdeclared (by simp only [List.length_append]; omega), hbytes,
      hdrop, List.take_left, List.length_append, hwritten, hfit]

end TLSStruct

/-! ## Vectors -/

namespace Vector

variable {α : Type} {item : Bytes → Nat → Except JsError (α × Nat)} {serializeItem : α → Bytes}
  {values : List α}

/-- Every item is read back, and takes at least one byte. -/
def ItemsReadBack (item : Bytes → Nat → Except JsError (α × Nat)) (serializeItem : α → Bytes)
    (values : List α) : Prop :=
  ∀ value ∈ values, ReadsBack item (serializeItem value) value ∧ serializeItem value ≠ []

theorem readItems_readsBack (hitems : ItemsReadBack item serializeItem values)
    (front back : Bytes) {fuel : Nat} (i : Nat)
    (hfuel : (values.map serializeItem).flatten.length ≤ fuel) :
    readItems (item (front ++ ((values.map serializeItem).flatten ++ back)))
      ((i + (values.map serializeItem).flatten.length : Nat) : Int) fuel i front.length =
        .ok (values, i + (values.map serializeItem).flatten.length) := by
  induction values generalizing front fuel i with
  | nil =>
      cases fuel with
      | zero => rfl
      | succ fuel => rw [readItems, if_neg (by simp)]; rfl
  | cons value values ih =>
      rcases hitems value List.mem_cons_self with ⟨hvalue, hne⟩
      have hpos : 0 < (serializeItem value).length := List.length_pos_iff.mpr hne
      rw [List.map_cons, List.flatten_cons, List.length_append] at hfuel ⊢
      rcases fuel with _ | fuel
      · omega
      · have hfuel' : (values.map serializeItem).flatten.length ≤ fuel := by omega
        have hrest := ih (fun v hv => hitems v (List.mem_cons_of_mem _ hv))
          (front ++ serializeItem value) (i + (serializeItem value).length) hfuel'
        rw [List.append_assoc, List.length_append, Nat.add_assoc] at hrest
        rw [readItems, if_pos (by omega), List.append_assoc, hvalue, ok_bind]
        simp only
        rw [if_neg (by omega), hrest]
        rfl

theorem fromBuffer_readsBack (hitems : ItemsReadBack item serializeItem values)
    {minLength maxLength : Nat} {optional : Bool} (hvariable : maxLength ≠ minLength)
    (hroom : TLSStruct.hasRoom maxLength = true) (hsome : ¬(values = [] ∧ optional = true))
    (hle : (values.map serializeItem).flatten.length ≤ maxLength) :
    ReadsBack (fun buf offset => fromBuffer (item buf) minLength maxLength optional buf offset)
      (serialize serializeItem minLength maxLength optional values) values := by
  rcases of_decide_eq_true hroom with ⟨hfour, hmax⟩
  have hpos := fitToWholeBytes_pos maxLength
  have hfit : 8 * fitToWholeBytes maxLength / 8 = fitToWholeBytes maxLength := by omega
  intro front back
  rw [serialize_written hvariable hsome, List.append_assoc]
  -- the length field, and behind it the items
  have hwritten := numberToBuffer_length (some ((values.map serializeItem).flatten.length : Int))
    (8 * fitToWholeBytes maxLength)
  have hread := @TLSStruct.number_readsBack (8 * fitToWholeBytes maxLength)
    (some ((values.map serializeItem).flatten.length : Int)) (by omega)
    ⟨_, rfl, by rw [hfit]; omega⟩ front ((values.map serializeItem).flatten ++ back)
  generalize numberToBuffer (some ((values.map serializeItem).flatten.length : Int))
    (8 * fitToWholeBytes maxLength) = field at hwritten hread ⊢
  have hnumber := (Prod.mk.inj (Except.ok.inj hread)).1
  have hrest := readItems_readsBack hitems (front ++ field) back 0
    (Nat.le_refl (values.map serializeItem).flatten.length)
  rw [List.append_assoc, List.length_append, hwritten, Nat.zero_add] at hrest
  show fromBuffer (item _) minLength maxLength optional _ front.length = _
  rw [fromBuffer, if_neg (by simp only [List.length_append]; omega), deserialize, if_pos hvariable]
  simp only [hnumber, items, Int.toNat_natCast]
  rw [hrest, ok_bind, List.length_append, hwritten]
  rfl

-- Where an optional vector is absent, its length field is read past the end of the input.
theorem fromBuffer_end {μ : Type} (item : μ → Nat → Except JsError (α × Nat))
    {minLength maxLength : Nat} (hvariable : maxLength ≠ minLength) {buf : Bytes} {offset : Nat}
    (hend : buf.length ≤ offset) :
    ∃ n, ∀ m, fromBuffer (item m) minLength maxLength true buf offset = .ok ([], n) := by
  have hpos := fitToWholeBytes_pos maxLength
  by_cases hempty : buf.length = 0
  · refine ⟨0, fun m => ?_⟩
    rw [fromBuffer, if_pos hempty]
    rfl
  · refine ⟨8 * fitToWholeBytes maxLength / 8 + 0, fun m => ?_⟩
    rw [fromBuffer, if_neg hempty, deserialize, if_pos hvariable]
    simp only
    rw [bufferToNumber_eq_none (by omega) (by omega)]
    rfl

end Vector

/-! ## Whole specifications -/

namespace TLSStruct

theorem serializeComplex_ne_nil {spec : TypeSpecs.Complex} (hplain : delimitedComplex spec = true)
    (hbegins : beginsWithNumber spec = true) (value : spec.Val) : serializeComplex spec value ≠ [] := by
  have hnumber : ∀ (size : Nat) (v : Num), decide (8 ≤ size ∧ size / 8 ≤ 4) = true →
      0 < (numberToBuffer v size).length := by
    intro size v hsize
    rw [numberToBuffer_length]
    have hsize := of_decide_eq_true hsize
    omega
  rw [← List.length_pos_iff]
  unfold beginsWithNumber at hbegins
  split at hbegins
  · exact hnumber _ _ hplain
  · exact hnumber _ _ hplain
  · have hfirst := hnumber _ value.1 (Bool.and_eq_true_iff.mp hplain).1
    show 0 < (numberToBuffer value.1 _ ++ serialize _ value.2).length
    rw [List.length_append]
    omega
  · have hfirst := hnumber _ value.1 (Bool.and_eq_true_iff.mp hplain).1
    show 0 < (numberToBuffer value.1 _ ++ serialize _ value.2).length
    rw [List.length_append]
    omega
  · cases hbegins

mutual

theorem complex_readsBack (memory : Nat → Memory) : ∀ (spec : TypeSpecs.Complex) {value : spec.Val},
    delimitedComplex spec = true → WellFormedComplex spec value →
    ReadsBack (fun buf offset => deserializeComplex memory buf spec offset)
      (serializeComplex spec value) value
  | .number _, _, hdelimited, hvalue => number_readsBack (of_decide_eq_true hdelimited).2 hvalue
  | .enum _, _, hdelimited, hvalue => number_readsBack (of_decide_eq_true hdelimited).2 hvalue
  | .struct spec, _, hdelimited, hvalue => struct_readsBack memory spec hdelimited hvalue

theorem all_readsBack (memory : Nat → Memory) : ∀ (spec : All) {value : spec.Val},
    delimitedAll spec = true → WellFormedAll spec value →
    ReadsBack (fun buf offset => deserializeAll memory buf spec offset) (serializeAll spec value)
      value
  | .complex spec, _, hdelimited, hvalue => complex_readsBack memory spec hdelimited hvalue
  | .vector itemSpec _ _ _, items, hdelimited, hvalue => by
      simp only [delimitedAll, Bool.and_eq_true] at hdelimited
      rcases hdelimited with ⟨⟨⟨hitem, hbegins⟩, hroom⟩, hvariable⟩
      rcases of_decide_eq_true hvariable with ⟨hvariable, hoptional⟩
      rcases hvalue with ⟨hitems, _, hle⟩
      refine Vector.fromBuffer_readsBack (fun value hmem => ?_) hvariable hroom ?_ hle
      · exact ⟨complex_readsBack memory itemSpec hitem (hitems value hmem),
          serializeComplex_ne_nil hitem hbegins value⟩
      · rw [hoptional]
        exact fun h => Bool.noConfusion h.2
  | .buffer _ maxLength, _, hdelimited, hvalue => by
      cases maxLength with
      | none => cases hdelimited
      | some maxLength => exact buffer_readsBack memory hdelimited hvalue

theorem struct_readsBack (memory : Nat → Memory) : ∀ (spec : StructSpec) {value : spec.Val},
    delimited spec = true → WellFormed spec value →
    ReadsBack (fun buf offset => deserialize memory buf spec offset) (serialize spec value) value
  | .nil, _, _, _ => fun _ _ => rfl
  | .cons _ type rest, _, hdelimited, hvalue => by
      rcases Bool.and_eq_true_iff.mp hdelimited with ⟨hfirst, hrest⟩
      rcases hvalue with ⟨hvalue, hvalues⟩
      exact (all_readsBack memory type hfirst hvalue).pair
        (struct_readsBack memory rest hrest hvalues)

end

/-- At the end of the input a value is read back from its serialization.  An absent vector counts as
read although it takes no bytes. -/
theorem closed_readsBack (memory : Nat → Memory) {spec : StructSpec} (hclosed : closed spec = true)
    {value : spec.Val} (hvalue : WellFormed spec value) (front : Bytes) :
    ∃ n, deserialize memory (front ++ serialize spec value) spec front.length = .ok (value, n) := by
  fun_induction closed spec generalizing front with
  | case1 => exact ⟨0, rfl⟩
  | case2 name itemSpec minLength maxLength =>
      rcases value with ⟨items, _⟩
      have hlast : ∃ n, deserializeAll memory
          (front ++ serializeAll (.vector itemSpec minLength maxLength true) items)
          (.vector itemSpec minLength maxLength true) front.length = .ok (items, n) := by
        simp only [delimitedAll, Bool.and_eq_true] at hclosed
        rcases hclosed with ⟨⟨⟨hitem, hbegins⟩, hroom⟩, hvariable⟩
        rcases of_decide_eq_true hvariable with ⟨hvariable, _⟩
        rcases hvalue.1 with ⟨hitems, _, hle⟩
        cases items with
        | nil =>
            have hnil : serializeAll (.vector itemSpec minLength maxLength true) [] = [] :=
              Vector.serialize_optional_nil
            rw [hnil, List.append_nil]
            rcases Vector.fromBuffer_end (deserializeComplex · front itemSpec) hvariable
              (Nat.le_refl front.length) with ⟨n, hn⟩
            exact ⟨n, hn memory⟩
        | cons item items =>
            have hsome : ¬(item :: items = [] ∧ true = true) := by simp
            have hread := Vector.fromBuffer_readsBack (fun value hmem =>
              ⟨complex_readsBack memory itemSpec hitem (hitems value hmem),
                serializeComplex_ne_nil hitem hbegins value⟩) hvariable hroom hsome hle front []
            rw [List.append_nil] at hread
            exact ⟨_, hread⟩
      rcases hlast with ⟨n, hlast⟩
      refine ⟨n + 0, ?_⟩
      show (deserializeAll memory (front ++ (serializeAll _ items ++ [])) _ _ >>= _) = _
      rw [List.append_nil, hlast]
      rfl
  | case3 name =>
      rcases value with ⟨value, _⟩
      refine ⟨value.length + 0, ?_⟩
      have hread := deserializeBuffer_rest memory none
        (show front.length ≤ (front ++ value).length by rw [List.length_append]; omega)
      rw [List.drop_left] at hread
      show (deserializeBuffer memory none none (front ++ (value ++ [])) _ >>= _) = _
      rw [List.append_nil, hread]
      rfl
  | case4 name type rest hvector hbuffer ih =>
      rcases Bool.and_eq_true_iff.mp hclosed with ⟨hfirst, hrest⟩
      rcases value with ⟨value, values⟩
      have hboth : serialize (.cons name type rest) (value, values) =
          serializeAll type value ++ serialize rest values := rfl
      have hread : deserializeAll memory (front ++ (serializeAll type value ++ serialize rest values))
          type front.length = .ok (value, (serializeAll type value).length) :=
        all_readsBack memory type hfirst hvalue.1 front (serialize rest values)
      rcases ih hrest hvalue.2 (front ++ serializeAll type value) with ⟨n, hvalues⟩
      rw [List.append_assoc, List.length_append] at hvalues
      refine ⟨(serializeAll type value).length + n, ?_⟩
      rw [hboth, deserialize, hread, ok_bind]
      simp only
      rw [hvalues]
      rfl

end TLSStruct

/-! ## Handshake messages -/

/-- Every field has a value that its specification allows. -/
def HandshakeBody.WellFormed : HandshakeBody → Prop
  | .helloRequest => TLSStruct.WellFormed emptySpec ()
  | .clientHello hello => TLSStruct.WellFormed ClientHello.spec hello.toVal
  | .serverHello hello => TLSStruct.WellFormed ServerHello.spec hello.toVal
  | .helloVerifyRequest request => TLSStruct.WellFormed HelloVerifyRequest.spec request.toVal
  | .serverKeyExchange rawData => TLSStruct.WellFormed ServerKeyExchange.spec (rawData, ())
  | .serverHelloDone => TLSStruct.WellFormed emptySpec ()
  | .clientKeyExchange rawData => TLSStruct.WellFormed ClientKeyExchange.spec (rawData, ())
  | .finished verifyData => TLSStruct.WellFormed Finished.spec (verifyData, ())

namespace Handshake

theorem closed_spec {msgType : HandshakeType} {msgClass : HandshakeClass}
    (h : HandshakeMessages msgType = some msgClass) : TLSStruct.closed msgClass.spec = true := by
  cases msgType <;> cases h <;> decide

theorem map_ofVal_toVal (extensions : List Extension) :
    (extensions.map Extension.toVal).map Extension.ofVal = extensions := by
  rw [List.map_map]
  exact List.map_id _

-- A body is made of the values of its class, and serialized from them.
theorem exists_values {body : HandshakeBody} {msgClass : HandshakeClass}
    (h : HandshakeMessages body.msgType = some msgClass) (hvalid : body.WellFormed) :
    ∃ value : msgClass.spec.Val, TLSStruct.WellFormed msgClass.spec value ∧
      msgClass.ofVal value = body ∧ body.serialize = TLSStruct.serialize msgClass.spec value := by
  cases body with
  | helloRequest => cases h; exact ⟨(), hvalid, rfl, rfl⟩
  | clientHello hello =>
      cases h
      refine ⟨hello.toVal, hvalid, ?_, rfl⟩
      rcases hello with ⟨version, random, sessionId, cookie, suites, methods, extensions⟩
      exact congrArg (fun e => HandshakeBody.clientHello
        ⟨version, random, sessionId, cookie, suites, methods, e⟩) (map_ofVal_toVal extensions)
  | serverHello hello =>
      cases h
      refine ⟨hello.toVal, hvalid, ?_, rfl⟩
      rcases hello with ⟨version, random, sessionId, suite, method, extensions⟩
      exact congrArg (fun e => HandshakeBody.serverHello
        ⟨version, random, sessionId, suite, method, e⟩) (map_ofVal_toVal extensions)
  | helloVerifyRequest request => cases h; exact ⟨_, hvalid, rfl, rfl⟩
  | serverKeyExchange rawData => cases h; exact ⟨_, hvalid, rfl, rfl⟩
  | serverHelloDone => cases h; exact ⟨(), hvalid, rfl, rfl⟩
  | clientKeyExchange rawData => cases h
  | finished verifyData => cases h; exact ⟨_, hvalid, rfl, rfl⟩

theorem toFragment_fits {m : Handshake} {msgClass : HandshakeClass}
    (h : HandshakeMessages m.msgType = some msgClass) (hseq : m.messageSeq < 2 ^ 16)
    (hlength : m.body.serialize.length < 2 ^ 24) : m.toFragment.Fits where
  msgType := by
    show m.msgType.toNat < 256 ^ 1 ∧ HandshakeType.ofNat m.msgType.toNat = m.msgType
    generalize m.msgType = msgType at h
    cases msgType <;> cases h <;> decide
  totalLength := hlength
  messageSeq := hseq
  fragmentOffset := Nat.pow_pos (by decide)
  fragment := hlength

-- What `toFragment` makes of a message is never fragmented.
theorem fromFragment_wellFormed (memory : Nat → Memory) {m : Handshake}
    (hclass : HandshakeMessages m.msgType ≠ none) (hvalid : m.body.WellFormed) :
    fromFragment memory m.toFragment = .ok m := by
  rcases Option.ne_none_iff_exists'.mp hclass with ⟨msgClass, hclass⟩
  rcases exists_values hclass hvalid with ⟨value, hvalue, hbody, hserialize⟩
  rcases TLSStruct.closed_readsBack memory (closed_spec hclass) hvalue [] with ⟨n, hparsed⟩
  rw [List.nil_append, ← hserialize, List.length_nil] at hparsed
  have hwhole : m.toFragment.isFragmented = false := by
    simp [FragmentedHandshake.isFragmented, toFragment]
  have htype : m.toFragment.msgType = m.msgType := rfl
  have hcontent : m.toFragment.fragment = m.body.serialize := rfl
  rw [fromFragment, hwhole]
  simp only [htype, hclass, hcontent]
  rw [if_neg Bool.false_ne_true, hparsed, ok_bind]
  show Except.ok (Handshake.mk m.messageSeq (msgClass.ofVal value)) = .ok m
  rw [hbody]

/-- A well-formed message is parsed back from its serialized fragment. -/
theorem parse_serialize (memory memory' : Nat → Memory) {m : Handshake}
    (hclass : HandshakeMessages m.msgType ≠ none) (hvalid : m.body.WellFormed)
    (hseq : m.messageSeq < 2 ^ 16) (hlength : m.body.serialize.length < 2 ^ 24) :
    (do
      let f ← FragmentedHandshake.fromBuffer memory m.toFragment.serialize
      fromFragment memory' f) = .ok m := by
  have hfits : m.toFragment.Fits := by
    rcases Option.ne_none_iff_exists'.mp hclass with ⟨msgClass, hsome⟩
    exact toFragment_fits hsome hseq hlength
  have hfragment := FragmentedHandshake.fromBuffer_serialize memory hfits []
  rw [List.append_nil] at hfragment
  rw [hfragment, ok_bind, fromFragment_wellFormed memory' hclass hvalid]

end Handshake

namespace Sample

/-- A ClientHello with a cookie, two cipher suites and an extension. -/
def clientHello : ClientHello where
  clientVersion := ⟨some 254, some 253⟩
  random := ⟨some 0x5f000000, List.replicate 28 0x2a⟩
  sessionId := []
  cookie := [1, 2, 3]
  cipherSuites := [some 0xC0A8, some 0xC0A9]
  compressionMethods := [some 0]
  extensions := [⟨some 0xFF01, [0]⟩]

end Sample

theorem Handshake.parse_serialize_sample :
    HandshakeMessages (Handshake.msgType ⟨1, .clientHello Sample.clientHello⟩) ≠ none ∧
      (HandshakeBody.clientHello Sample.clientHello).WellFormed ∧
      (do
        let f ← FragmentedHandshake.fromBuffer (fun _ _ => 0)
          (Handshake.toFragment ⟨1, .clientHello Sample.clientHello⟩).serialize
        fromFragment (fun _ _ => 0) f) = .ok ⟨1, .clientHello Sample.clientHello⟩ :=
  have hclass : HandshakeMessages (Handshake.msgType ⟨1, .clientHello Sample.clientHello⟩) ≠ none :=
    Option.some_ne_none _
  have hvalid : TLSStruct.WellFormed ClientHello.spec Sample.clientHello.toVal := by decide
  ⟨hclass, hvalid, parse_serialize (fun _ _ => 0) (fun _ _ => 0) hclass hvalid (by decide) (by decide)⟩

end DtlsClient
