import DtlsClient.TLS.TLSStruct

/-!
# The small structures of `TLS/`

`ContentType`, `ProtocolVersion`, `Random`, `SessionID`, `Cookie`, `Extension`, `Alert`,
`ChangeCipherSpec`, `PreMasterSecret` and `Message`.  Each class has its `spec`; `toVal` and `ofVal`
pass between its fields and the values the spec describes.
-/

open Library

namespace DtlsClient

open TypeSpecs

/-- The content types by name; a record can carry any other number in its type field. -/
inductive ContentType where
  | changeCipherSpec
  | alert
  | handshake
  | applicationData
  | other (value : Nat)
deriving DecidableEq, Repr

namespace ContentType

def spec : All := define.Enum 8

def ofNat : Nat → ContentType
  | 20 => .changeCipherSpec
  | 21 => .alert
  | 22 => .handshake
  | 23 => .applicationData
  | n => .other n

def toNat : ContentType → Nat
  | .changeCipherSpec => 20
  | .alert => 21
  | .handshake => 22
  | .applicationData => 23
  | .other n => n

end ContentType

/-- What the record layer hands to the socket, and what it is given to send. -/
structure Message where
  type : ContentType
  data : Bytes
deriving DecidableEq, Repr

structure ProtocolVersion where
  major : Num
  minor : Num
deriving DecidableEq, Repr

namespace ProtocolVersion

def spec : StructSpec := .cons "major" uint8 <| .cons "minor" uint8 .nil

def ofVal : spec.Val → ProtocolVersion
  | (major, minor, ()) => ⟨major, minor⟩

def toVal (v : ProtocolVersion) : spec.Val := (v.major, v.minor, ())

end ProtocolVersion

structure Random where
  gmtUnixTime : Num
  randomBytes : Bytes
deriving DecidableEq, Repr

namespace Random

def spec : StructSpec :=
  .cons "gmt_unix_time" uint32 <| .cons "random_bytes" (define.FixedBuffer 28) .nil

def ofVal : spec.Val → Random
  | (gmtUnixTime, randomBytes, ()) => ⟨gmtUnixTime, randomBytes⟩

def toVal (r : Random) : spec.Val := (r.gmtUnixTime, r.randomBytes, ())

def serialize (r : Random) : Bytes := TLSStruct.serialize spec r.toVal

end Random

def SessionID.spec : All := define.Buffer 0 32

def Cookie.spec : All := define.Buffer 0 (2 ^ 8 - 1)

structure Extension where
  extensionType : Num
  extensionData : Bytes
deriving DecidableEq, Repr

namespace Extension

def spec : StructSpec :=
  .cons "extension_type" (define.Enum 16) <|
  .cons "extension_data" (define.Buffer 0 (2 ^ 16 - 1)) .nil

def ofVal : spec.Val → Extension
  | (extensionType, extensionData, ()) => ⟨extensionType, extensionData⟩

def toVal (e : Extension) : spec.Val := (e.extensionType, e.extensionData, ())

end Extension

def AlertLevel.warning : Num := some 1
def AlertLevel.fatal : Num := some 2

def AlertDescription.closeNotify : Num := some 0
def AlertDescription.handshakeFailure : Num := some 40
def AlertDescription.decryptError : Num := some 51

def AlertDescription.name : Num → String
  | some 0 => "close_notify"
  | some 10 => "unexpected_message"
  | some 20 => "bad_record_mac"
  | some 21 => "decryption_failed_RESERVED"
  | some 22 => "record_overflow"
  | some 30 => "decompression_failure"
  | some 40 => "handshake_failure"
  | some 41 => "no_certificate_RESERVED"
  | some 42 => "bad_certificate"
  | some 43 => "unsupported_certificate"
  | some 44 => "certificate_revoked"
  | some 45 => "certificate_expired"
  | some 46 => "certificate_unknown"
  | some 47 => "illegal_parameter"
  | some 48 => "unknown_ca"
  | some 49 => "access_denied"
  | some 50 => "decode_error"
  | some 51 => "decrypt_error"
  | some 60 => "export_restriction_RESERVED"
  | some 70 => "protocol_version"
  | some 71 => "insufficient_security"
  | some 80 => "internal_error"
  | some 90 => "user_canceled"
  | some 100 => "no_renegotiation"
  | some 110 => "unsupported_extension"
  | some 111 => "certificate_unobtainable_RESERVED"
  | some 112 => "unrecognized_name"
  | some 113 => "bad_certificate_status_response"
  | some 114 => "bad_certificate_hash_value_RESERVED"
  | some 115 => "unknown_psk_identity"
  | some 116 => "certificate_required"
  | some 120 => "no_application_protocol"
  | _ => "undefined"

structure Alert where
  level : Num
  description : Num
deriving DecidableEq, Repr

namespace Alert

def spec : StructSpec :=
  .cons "level" (define.Enum 8) <| .cons "description" (define.Enum 8) .nil

def ofVal : spec.Val → Alert
  | (level, description, ()) => ⟨level, description⟩

def toVal (a : Alert) : spec.Val := (a.level, a.description, ())

def serialize (a : Alert) : Bytes := TLSStruct.serialize spec a.toVal

/-- `TLSStruct.from(Alert.spec, buf)`.  Both fields are plain numbers, which never fail to parse. -/
def fromBuffer (buf : Bytes) : Alert :=
  ⟨bufferToNumber buf 8 0, bufferToNumber buf 8 1⟩

end Alert

namespace ChangeCipherSpec

def spec : StructSpec := .cons "type" (define.Enum 8) .nil

-- `ChangeCipherSpec.createEmpty().serialize()`.
def serialize : Bytes := TLSStruct.serialize spec (some 1, ())

end ChangeCipherSpec

structure PreMasterSecret where
  otherSecret : Bytes
  psk : Bytes
deriving DecidableEq, Repr

namespace PreMasterSecret

def spec : StructSpec :=
  .cons "other_secret" (define.Buffer 0 (2 ^ 16 - 1)) <|
  .cons "psk" (define.Buffer 0 (2 ^ 16 - 1)) .nil

/-- `new PreMasterSecret(null, psk)`, which fakes the other secret. -/
def ofPsk (psk : Bytes) : PreMasterSecret := ⟨List.replicate psk.length 0, psk⟩

def serialize (p : PreMasterSecret) : Bytes := TLSStruct.serialize spec (p.otherSecret, p.psk, ())

end PreMasterSecret

end DtlsClient
