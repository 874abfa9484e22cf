import DtlsClient.Library.Bytes

/-!
# What the model takes from Node.js

Numbers, the errors that are thrown, and the two `Buffer` operations whose result depends on more
than their arguments' bytes: `Buffer.allocUnsafe`, which hands out whatever the memory held before,
and `buf.copy`, which copies fewer bytes than asked for when the source is too short.
-/

open Library

namespace DtlsClient

/-- A number as the parser and the serializer see it; `none` is `NaN`, the result of computing with
a byte that was read past the end of a buffer. -/
abbrev Num := Option Int

inductive JsError where
  /-- `Buffer.allocUnsafe` was given `NaN`. -/
  | invalidLength
  /-- A buffer operation was given an index outside its range. -/
  | outOfRange
  /-- `undefined` or `null` where an object, a function or a buffer is needed. -/
  | typeError
  /-- The cipher of Node's `crypto` module refused its input. -/
  | cipherFailed
  | error (message : String)
deriving DecidableEq, Repr

/-- The content of freshly allocated memory: one byte for each index. -/
abbrev Memory := Nat → UInt8

def allocUnsafe (memory : Memory) : Num → Except JsError Bytes
  | none => .error .invalidLength
  | some n => if n < 0 then .error .outOfRange else .ok ((List.range n.toNat).map memory)

/-- `source.copy(target, targetStart, sourceStart, sourceEnd)`; the target after it. -/
def copy (source target : Bytes) (targetStart sourceStart sourceEnd : Nat) : Except JsError Bytes :=
  if source.length < sourceStart then .error .outOfRange
  else .ok (overwrite target targetStart ((source.take sourceEnd).drop sourceStart))

end DtlsClient
