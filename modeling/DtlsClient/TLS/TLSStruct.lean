import DtlsClient.TLS.TypeSpecs

/-!
# `TLS/TLSStruct` and `TLS/Vector`

The parser and the serializer that work from a type specification.  Every buffer the parser returns
starts as unsafely allocated memory; `memory pos` is what the allocation made while the parser stands
at the absolute position `pos` of the input finds there.
-/

open Library

namespace DtlsClient

open TypeSpecs

namespace Vector

/-- The loop of `Vector.deserialize` over the items, `i` bytes after the length field; returns the
items and the bytes read.  Numbers and structs are read alike, and a number never takes the branch
for an item of zero bytes.  Every other item takes at least one byte, so `length` rounds are enough. -/
def readItems {α : Type} (item : Nat → Except JsError (α × Nat)) (length : Int) :
    Nat → Nat → Nat → Except JsError (List α × Nat)
  | 0, i, _ => .ok ([], i)
  | fuel + 1, i, offset =>
      if (i : Int) < length then do
        let (result, readBytes) ← item offset
        if readBytes = 0 then throw (.error "Zero or less bytes read while parsing TLS struct.")
        let (items, total) ← readItems item length fuel (i + readBytes) (offset + readBytes)
        return (result :: items, total)
      else .ok ([], i)

/-- `length` is compared as a number: with `NaN` the loop is not entered. -/
def items {α : Type} (item : Nat → Except JsError (α × Nat)) (length : Num) (offset : Nat) :
    Except JsError (List α × Nat) :=
  match length with
  | none => .ok ([], 0)
  | some length => readItems item length length.toNat 0 offset

def deserialize {α : Type} (item : Nat → Except JsError (α × Nat)) (minLength maxLength : Nat)
    (buf : Bytes) (offset : Nat) : Except JsError (List α × Nat) := do
  if maxLength ≠ minLength then
    let lengthBits := 8 * fitToWholeBytes maxLength
    let length := bufferToNumber buf lengthBits offset
    let (items, total) ← items item length (offset + lengthBits / 8)
    return (items, lengthBits / 8 + total)
  else
    items item (some maxLength) offset

def fromBuffer {α : Type} (item : Nat → Except JsError (α × Nat)) (minLength maxLength : Nat)
    (optional : Bool) (buf : Bytes) (offset : Nat) : Except JsError (List α × Nat) :=
  if buf.length = 0 then
    if optional then .ok ([], 0) else .error (.error "nothing to deserialize")
  else deserialize item minLength maxLength buf offset

def serialize {α : Type} (item : α → Bytes) (minLength maxLength : Nat) (optional : Bool)
    (items : List α) : Bytes :=
  if items.length = 0 ∧ optional then []
  else
    let ret := (items.map item).flatten
    -- for variable length vectors, prepend the length
    if maxLength ≠ minLength then
      numberToBuffer (some ret.length) (8 * fitToWholeBytes maxLength) ++ ret
    else ret

end Vector

namespace TLSStruct

-- The buffer case of `TLSStruct.deserialize`.
def deserializeBuffer (memory : Nat → Memory) (minLength maxLength : Option Nat) (buf : Bytes)
    (offset : Nat) : Except JsError (Bytes × Nat) :=
  match maxLength with
  | none => do
      -- unbound Buffer, copy the remaining bytes
      let ret ← allocUnsafe (memory offset) (some (buf.length - offset))
      let ret ← copy buf ret 0 offset buf.length
      return (ret, ret.length)
  | some maxLength => do
      let lengthBits := if minLength = some maxLength then 0 else 8 * fitToWholeBytes maxLength
      let length : Num := if minLength = some maxLength then some maxLength
        else bufferToNumber buf lengthBits offset
      let ret ← allocUnsafe (memory offset) length
      let start := offset + lengthBits / 8
      let ret ← copy buf ret 0 start (start + ret.length)
      return (ret, lengthBits / 8 + ret.length)

mutual

def deserializeComplex (memory : Nat → Memory) (buf : Bytes) :
    (spec : TypeSpecs.Complex) → Nat → Except JsError (spec.Val × Nat)
  | .number size, offset => .ok (bufferToNumber buf size offset, size / 8)
  | .enum size, offset => .ok (bufferToNumber buf size offset, size / 8)
  | .struct spec, offset => deserialize memory buf spec offset

def deserializeAll (memory : Nat → Memory) (buf : Bytes) :
    (spec : All) → Nat → Except JsError (spec.Val × Nat)
  | .complex spec, offset => deserializeComplex memory buf spec offset
  | .vector itemSpec minLength maxLength optional, offset =>
      Vector.fromBuffer (fun pos => deserializeComplex memory buf itemSpec pos) minLength maxLength
        optional buf offset
  | .buffer minLength maxLength, offset =>
      deserializeBuffer memory minLength maxLength buf offset

/-- `TLSStruct.deserialize`: the values of the properties in order, and the bytes read. -/
def deserialize (memory : Nat → Memory) (buf : Bytes) :
    (spec : StructSpec) → Nat → Except JsError (spec.Val × Nat)
  | .nil, _ => .ok ((), 0)
  | .cons _ type rest, offset => do
      let (value, readBytes) ← deserializeAll memory buf type offset
      let (values, delta) ← deserialize memory buf rest (offset + readBytes)
      return ((value, values), readBytes + delta)

end

def serializeBuffer (minLength maxLength : Option Nat) (value : Bytes) : Bytes :=
  match maxLength with
  | none => value
  | some maxLength =>
      if minLength = some maxLength then value
      else numberToBuffer (some value.length) (8 * fitToWholeBytes maxLength) ++ value

mutual

def serializeComplex : (spec : TypeSpecs.Complex) → spec.Val → Bytes
  | .number size, value => numberToBuffer value size
  | .enum size, value => numberToBuffer value size
  | .struct spec, value => serialize spec value

def serializeAll : (spec : All) → spec.Val → Bytes
  | .complex spec, value => serializeComplex spec value
  | .vector itemSpec minLength maxLength optional, value =>
      Vector.serialize (fun item => serializeComplex itemSpec item) minLength maxLength optional
        value
  | .buffer minLength maxLength, value => serializeBuffer minLength maxLength value

def serialize : (spec : StructSpec) → spec.Val → Bytes
  | .nil, _ => []
  | .cons _ type rest, value => serializeAll type value.1 ++ serialize rest value.2

end

end TLSStruct

end DtlsClient
