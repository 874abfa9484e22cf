import DtlsClient.TLS.Structs

/-!
# `DTLS/DTLSPlaintext`, `DTLS/DTLSCompressed`, `DTLS/DTLSCiphertext`

The three record classes have the same fields.  A plaintext is never parsed or serialized itself; the
other two differ in the declared maximum of the fragment, which neither the parser nor the
serializer enforces.
-/

open Library

namespace DtlsClient

open TypeSpecs

structure DTLSPacket where
  type : ContentType
  version : ProtocolVersion
  epoch : Nat
  sequenceNumber : Nat
  fragment : Bytes
deriving DecidableEq, Repr

abbrev DTLSPlaintext := DTLSPacket
abbrev DTLSCompressed := DTLSPacket
abbrev DTLSCiphertext := DTLSPacket

namespace DTLSPacket

/-- The `__spec` of the classes, up to the maximum length of the fragment. -/
def spec (maxFragment : Nat) : StructSpec :=
  .cons "type" ContentType.spec <|
  .cons "version" (define.Struct ProtocolVersion.spec) <|
  .cons "epoch" uint16 <|
  .cons "sequence_number" uint48 <|
  .cons "fragment" (define.Buffer 0 maxFragment) .nil

def toVal {maxFragment : Nat} (p : DTLSPacket) : (spec maxFragment).Val :=
  (some p.type.toNat, p.version.toVal, some p.epoch, some p.sequenceNumber, p.fragment, ())

/-- The numbers of a record that parsed are never `NaN`: its length field comes after them. -/
def ofVal {maxFragment : Nat} : (spec maxFragment).Val → Except JsError DTLSPacket
  | (some type, version, some epoch, some sequenceNumber, fragment, ()) =>
      .ok ⟨.ofNat type.toNat, .ofVal version, epoch.toNat, sequenceNumber.toNat, fragment⟩
  | _ => .error .invalidLength

end DTLSPacket

def DTLSCompressed.spec : StructSpec := DTLSPacket.spec (1024 + 2 ^ 14)
def DTLSCiphertext.spec : StructSpec := DTLSPacket.spec (2048 + 2 ^ 14)

def DTLSCompressed.serialize (p : DTLSCompressed) : Bytes :=
  TLSStruct.serialize DTLSCompressed.spec p.toVal
def DTLSCiphertext.serialize (p : DTLSCiphertext) : Bytes :=
  TLSStruct.serialize DTLSCiphertext.spec p.toVal

-- `DTLSCiphertext.from(DTLSCiphertext.spec, buf, offset)`.
def DTLSCiphertext.fromBuffer (memory : Nat → Memory) (buf : Bytes) (offset : Nat) :
    Except JsError (DTLSCiphertext × Nat) := do
  let (value, readBytes) ← TLSStruct.deserialize memory buf DTLSCiphertext.spec offset
  return (← DTLSPacket.ofVal value, readBytes)

/-- `DTLSCompressed.compress`; only the NULL compression exists. -/
def DTLSCompressed.compress (packet : DTLSPlaintext) (compressor : Bytes → Bytes) :
    DTLSCompressed :=
  { packet with fragment := compressor packet.fragment }

def DTLSCompressed.decompress (packet : DTLSCompressed) (decompressor : Bytes → Bytes) :
    DTLSPlaintext :=
  { packet with fragment := decompressor packet.fragment }

/-- The fields of `MACHeader` and of `AdditionalData` of the AEAD ciphers, which have one and the
same spec. -/
structure MACHeader where
  epoch : Nat
  sequenceNumber : Nat
  type : ContentType
  version : ProtocolVersion
  fragmentLength : Int

namespace MACHeader

def spec : StructSpec :=
  .cons "epoch" uint16 <|
  .cons "sequence_number" uint48 <|
  .cons "type" ContentType.spec <|
  .cons "version" (define.Struct ProtocolVersion.spec) <|
  .cons "fragment_length" uint16 .nil

def serialize (h : MACHeader) : Bytes :=
  TLSStruct.serialize spec
    (some h.epoch, some h.sequenceNumber, some h.type.toNat, h.version.toVal,
      some h.fragmentLength, ())

end MACHeader

def DTLSCompressed.computeMACHeader (p : DTLSCompressed) : Bytes :=
  MACHeader.serialize ⟨p.epoch, p.sequenceNumber, p.type, p.version, p.fragment.length⟩

end DtlsClient
