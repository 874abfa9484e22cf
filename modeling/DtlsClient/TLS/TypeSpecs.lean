import DtlsClient.Lib.BitConverter

/-!
# `TLS/TypeSpecs`

The descriptions from which `TLSStruct` and `Vector` parse and serialize, and the type of the values
that each of them describes.  `none` as a buffer's length is `Number.POSITIVE_INFINITY`.
-/

open Library

namespace DtlsClient.TypeSpecs

mutual

inductive Complex where
  | number (size : Nat)
  | enum (size : Nat)
  | struct (structType : StructSpec)

inductive All where
  | complex (spec : Complex)
  | vector (itemSpec : Complex) (minLength maxLength : Nat) (optional : Bool)
  | buffer (minLength maxLength : Option Nat)

inductive StructSpec where
  | nil
  | cons (name : String) (type : All) (rest : StructSpec)

end

mutual

@[reducible] def Complex.Val : Complex → Type
  | .number _ => Num
  | .enum _ => Num
  | .struct spec => spec.Val

@[reducible] def All.Val : All → Type
  | .complex c => c.Val
  | .vector item _ _ _ => List item.Val
  | .buffer _ _ => Bytes

@[reducible] def StructSpec.Val : StructSpec → Type
  | .nil => Unit
  | .cons _ type rest => type.Val × rest.Val

end

/-! ## Shortcuts -/

namespace define

def Number (size : Nat) : All := .complex (.number size)
def Enum (size : Nat) : All := .complex (.enum size)
def Struct (structType : StructSpec) : All := .complex (.struct structType)
def Vector (itemSpec : Complex) (minLength maxLength : Nat) (optional : Bool := false) : All :=
  .vector itemSpec minLength maxLength optional
def Buffer (minLength maxLength : Nat) : All := .buffer (some minLength) (some maxLength)
def FixedBuffer (length : Nat) : All := Buffer length length
def UnboundBuffer : All := .buffer none none

end define

abbrev uint8 := define.Number 8
abbrev uint16 := define.Number 16
abbrev uint24 := define.Number 24
abbrev uint32 := define.Number 32
abbrev uint48 := define.Number 48

end DtlsClient.TypeSpecs
