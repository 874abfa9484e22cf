import DtlsClient.DTLS.RecordLayer
import Mathlib.Data.List.Sort

/-!
# `DTLS/Handshake`

The handshake messages, their fragments, and the reassembly of fragments.
-/

open Library

namespace DtlsClient

open TypeSpecs

/-- The handshake types by name; a fragment can carry any other number. -/
inductive HandshakeType where
  | helloRequest
  | clientHello
  | serverHello
  | helloVerifyRequest
  | certificate
  | serverKeyExchange
  | certificateRequest
  | serverHelloDone
  | certificateVerify
  | clientKeyExchange
  | finished
  | other (value : Nat)
deriving DecidableEq, Repr

namespace HandshakeType

def ofNat : Nat → HandshakeType
  | 0 => .helloRequest
  | 1 => .clientHello
  | 2 => .serverHello
  | 3 => .helloVerifyRequest
  | 11 => .certificate
  | 12 => .serverKeyExchange
  | 13 => .certificateRequest
  | 14 => .serverHelloDone
  | 15 => .certificateVerify
  | 16 => .clientKeyExchange
  | 20 => .finished
  | n => .other n

def toNat : HandshakeType → Nat
  | .helloRequest => 0
  | .clientHello => 1
  | .serverHello => 2
  | .helloVerifyRequest => 3
  | .certificate => 11
  | .serverKeyExchange => 12
  | .certificateRequest => 13
  | .serverHelloDone => 14
  | .certificateVerify => 15
  | .clientKeyExchange => 16
  | .finished => 20
  | .other n => n

end HandshakeType

/-! ## The messages -/

structure ClientHello where
  clientVersion : ProtocolVersion
  random : Random
  sessionId : Bytes
  cookie : Bytes
  cipherSuites : List Num
  compressionMethods : List Num
  extensions : List Extension
deriving DecidableEq, Repr

structure ServerHello where
  serverVersion : ProtocolVersion
  random : Random
  sessionId : Bytes
  cipherSuite : Num
  compressionMethod : Num
  extensions : List Extension
deriving DecidableEq, Repr

structure HelloVerifyRequest where
  serverVersion : ProtocolVersion
  cookie : Bytes
deriving DecidableEq, Repr

inductive HandshakeBody where
  | helloRequest
  | clientHello (hello : ClientHello)
  | serverHello (hello : ServerHello)
  | helloVerifyRequest (request : HelloVerifyRequest)
  | serverKeyExchange (rawData : Bytes)
  | serverHelloDone
  | clientKeyExchange (rawData : Bytes)
  | finished (verifyData : Bytes)
deriving DecidableEq, Repr

/-- A message; the client's own get their sequence number when they are sent. -/
structure Handshake where
  messageSeq : Nat
  body : HandshakeBody
deriving DecidableEq, Repr

def extensionsSpec : All := define.Vector (.struct Extension.spec) 0 (2 ^ 16 - 1) true

namespace ClientHello

def spec : StructSpec :=
  .cons "client_version" (define.Struct ProtocolVersion.spec) <|
  .cons "random" (define.Struct Random.spec) <|
  .cons "session_id" SessionID.spec <|
  .cons "cookie" Cookie.spec <|
  .cons "cipher_suites" (define.Vector (.number 16) 2 (2 ^ 16 - 2)) <|
  .cons "compression_methods" (define.Vector (.enum 8) 1 (2 ^ 8 - 1)) <|
  .cons "extensions" extensionsSpec .nil

def ofVal : spec.Val → ClientHello
  | (version, random, sessionId, cookie, cipherSuites, compressionMethods, extensions, ()) =>
      ⟨.ofVal version, .ofVal random, sessionId, cookie, cipherSuites, compressionMethods,
        (extensions : List Extension.spec.Val).map .ofVal⟩

def toVal (h : ClientHello) : spec.Val :=
  (h.clientVersion.toVal, h.random.toVal, h.sessionId, h.cookie, h.cipherSuites,
    h.compressionMethods, h.extensions.map Extension.toVal, ())

end ClientHello

namespace ServerHello

def spec : StructSpec :=
  .cons "server_version" (define.Struct ProtocolVersion.spec) <|
  .cons "random" (define.Struct Random.spec) <|
  .cons "session_id" SessionID.spec <|
  .cons "cipher_suite" uint16 <|
  .cons "compression_method" (define.Enum 8) <|
  .cons "extensions" extensionsSpec .nil

def ofVal : spec.Val → ServerHello
  | (version, random, sessionId, cipherSuite, compressionMethod, extensions, ()) =>
      ⟨.ofVal version, .ofVal random, sessionId, cipherSuite, compressionMethod,
        (extensions : List Extension.spec.Val).map .ofVal⟩

def toVal (h : ServerHello) : spec.Val :=
  (h.serverVersion.toVal, h.random.toVal, h.sessionId, h.cipherSuite, h.compressionMethod,
    h.extensions.map Extension.toVal, ())

end ServerHello

namespace HelloVerifyRequest

def spec : StructSpec :=
  .cons "server_version" (define.Struct ProtocolVersion.spec) <|
  .cons "cookie" Cookie.spec .nil

def ofVal : spec.Val → HelloVerifyRequest
  | (version, cookie, ()) => ⟨.ofVal version, cookie⟩

def toVal (r : HelloVerifyRequest) : spec.Val := (r.serverVersion.toVal, r.cookie, ())

end HelloVerifyRequest

-- `HelloRequest.__spec` and `ServerHelloDone.__spec`.
def emptySpec : StructSpec := .nil

/-- The spec of the messages that are one buffer filling the entire fragment:
`ServerKeyExchange`, `ClientKeyExchange` and `Finished`. -/
def rawSpec (name : String) : StructSpec := .cons name define.UnboundBuffer .nil

def ServerKeyExchange.spec : StructSpec := rawSpec "raw_data"
def ClientKeyExchange.spec : StructSpec := rawSpec "raw_data"
def Finished.spec : StructSpec := rawSpec "verify_data"

/-- The spec of the two PSK key exchange contents. -/
def pskSpec (name : String) : StructSpec := .cons name (define.Buffer 0 (2 ^ 16 - 1)) .nil

def ServerKeyExchange_PSK.spec : StructSpec := pskSpec "psk_identity_hint"
def ClientKeyExchange_PSK.spec : StructSpec := pskSpec "psk_identity"

-- `new ClientKeyExchange_PSK(identity).serialize()`.
def ClientKeyExchange_PSK.serialize (pskIdentity : Bytes) : Bytes :=
  TLSStruct.serialize ClientKeyExchange_PSK.spec (pskIdentity, ())

/-- An entry of `HandshakeMessages`: the spec of the body and the object made from its values. -/
structure HandshakeClass where
  spec : StructSpec
  ofVal : spec.Val → HandshakeBody

def HandshakeMessages : HandshakeType → Option HandshakeClass
  | .helloRequest => some ⟨emptySpec, fun _ => .helloRequest⟩
  | .clientHello => some ⟨ClientHello.spec, fun v => .clientHello (.ofVal v)⟩
  | .serverHello => some ⟨ServerHello.spec, fun v => .serverHello (.ofVal v)⟩
  | .helloVerifyRequest => some ⟨HelloVerifyRequest.spec, fun v => .helloVerifyRequest (.ofVal v)⟩
  | .serverKeyExchange => some ⟨ServerKeyExchange.spec, fun v => .serverKeyExchange v.1⟩
  | .serverHelloDone => some ⟨emptySpec, fun _ => .serverHelloDone⟩
  | .finished => some ⟨Finished.spec, fun v => .finished v.1⟩
  | _ => none

namespace HandshakeBody

def msgType : HandshakeBody → HandshakeType
  | .helloRequest => .helloRequest
  | .clientHello _ => .clientHello
  | .serverHello _ => .serverHello
  | .helloVerifyRequest _ => .helloVerifyRequest
  | .serverKeyExchange _ => .serverKeyExchange
  | .serverHelloDone => .serverHelloDone
  | .clientKeyExchange _ => .clientKeyExchange
  | .finished _ => .finished

def serialize : HandshakeBody → Bytes
  | .helloRequest => TLSStruct.serialize emptySpec ()
  | .clientHello hello => TLSStruct.serialize ClientHello.spec hello.toVal
  | .serverHello hello => TLSStruct.serialize ServerHello.spec hello.toVal
  | .helloVerifyRequest request => TLSStruct.serialize HelloVerifyRequest.spec request.toVal
  | .serverKeyExchange rawData => TLSStruct.serialize ServerKeyExchange.spec (rawData, ())
  | .serverHelloDone => TLSStruct.serialize emptySpec ()
  | .clientKeyExchange rawData => TLSStruct.serialize ClientKeyExchange.spec (rawData, ())
  | .finished verifyData => TLSStruct.serialize Finished.spec (verifyData, ())

end HandshakeBody

def Handshake.msgType (m : Handshake) : HandshakeType := m.body.msgType

/-! ## Fragments -/

structure FragmentedHandshake where
  msgType : HandshakeType
  totalLength : Nat
  messageSeq : Nat
  fragmentOffset : Nat
  fragment : Bytes
deriving DecidableEq, Repr

namespace FragmentedHandshake

def spec : StructSpec :=
  .cons "msg_type" (define.Enum 8) <|
  .cons "total_length" uint24 <|
  .cons "message_seq" uint16 <|
  .cons "fragment_offset" uint24 <|
  .cons "fragment" (define.Buffer 0 (2 ^ 24 - 1)) .nil

/-- The bytes of the handshake message header, without the fragment. -/
def headerLength : Nat := 1 + 3 + 2 + 3 + 3

def toVal (f : FragmentedHandshake) : spec.Val :=
  (some f.msgType.toNat, some f.totalLength, some f.messageSeq, some f.fragmentOffset, f.fragment,
    ())

/-- As in a record, the length field comes last and keeps `NaN` out of the other numbers. -/
def ofVal : spec.Val → Except JsError FragmentedHandshake
  | (some msgType, some totalLength, some messageSeq, some fragmentOffset, fragment, ()) =>
      .ok ⟨.ofNat msgType.toNat, totalLength.toNat, messageSeq.toNat, fragmentOffset.toNat, fragment⟩
  | _ => .error .invalidLength

-- `TLSStruct.from(FragmentedHandshake.spec, buf).result`.
def fromBuffer (memory : Nat → Memory) (buf : Bytes) : Except JsError FragmentedHandshake := do
  let (value, _) ← TLSStruct.deserialize memory buf spec 0
  ofVal value

def serialize (f : FragmentedHandshake) : Bytes := TLSStruct.serialize spec f.toVal

def isFragmented (f : FragmentedHandshake) : Bool :=
  f.fragmentOffset ≠ 0 ∨ f.totalLength > f.fragment.length

/-- The test of `enforceSingleMessage` and of `findAllFragments`. -/
def sameMessage (f reference : FragmentedHandshake) : Bool :=
  f.msgType = reference.msgType ∧ f.messageSeq = reference.messageSeq ∧
    f.totalLength = reference.totalLength

def findAllFragments (fragments : List FragmentedHandshake) (reference : FragmentedHandshake) :
    List FragmentedHandshake :=
  fragments.filter fun f => f.sameMessage reference

/-- The start and end index of a fragment; the end of an empty one lies before its start. -/
def range (f : FragmentedHandshake) : Nat × Int :=
  (f.fragmentOffset, f.fragmentOffset + f.fragment.length - 1)

/-- `noHoles` from the second range on: every range touches or overlaps the previous one, and the
last one ends at the end of the message. -/
def noHolesAfter (totalLength : Nat) : Nat × Int → List (Nat × Int) → Bool
  | previous, [] => previous.2 = (totalLength : Int) - 1
  | previous, range :: ranges =>
      (range.1 : Int) - previous.2 ≤ 1 ∧ noHolesAfter totalLength range ranges

def noHoles (totalLength : Nat) : List (Nat × Int) → Bool
  | [] => true
  | range :: ranges => range.1 = 0 ∧ noHolesAfter totalLength range ranges

def isComplete : List FragmentedHandshake → Except JsError Bool
  | [] => .ok false
  | first :: rest =>
      if (first :: rest).all fun f => f.sameMessage first then
        let ranges :=
          ((first :: rest).map range).insertionSort fun a b => a.1 ≤ b.1
        .ok (noHoles first.totalLength ranges)
      else .error (.error "this series of fragments belongs to multiple messages")

-- The loop of `reassemble` over the sorted fragments.
def combine : List FragmentedHandshake → Bytes → Bytes
  | [], combined => combined
  | msg :: messages, combined =>
      combine messages (overwrite combined msg.fragmentOffset msg.fragment)

def reassemble (memory : Memory) : List FragmentedHandshake → Except JsError FragmentedHandshake
  | [] => .error (.error "cannot reassemble handshake from empty array")
  | first :: rest =>
      let messages :=
        (first :: rest).insertionSort fun a b => a.fragmentOffset ≤ b.fragmentOffset
      let first := messages.headD first
      do
        let combined ← allocUnsafe memory (some first.totalLength)
        return ⟨first.msgType, first.totalLength, first.messageSeq, 0, combine messages combined⟩

/-- The loop of `split`.  Its condition also asks for an empty result, so that it ends after the
first fragment. -/
def splitLoop (f : FragmentedHandshake) (maxFragmentLength : Nat) :
    Nat → Nat → List FragmentedHandshake → Except JsError (List FragmentedHandshake)
  | 0, _, fragments => .ok fragments
  | fuel + 1, start, fragments =>
      if fragments.isEmpty ∧ start < f.fragment.length then
        let fragmentLength := min maxFragmentLength (f.fragment.length - start)
        let data := (f.fragment.take (start + fragmentLength)).drop start
        if data.length = 0 then
          .error (.error "Zero or less bytes processed while fragmenting handshake message.")
        else
          splitLoop f maxFragmentLength fuel (start + data.length)
            (fragments ++ [⟨f.msgType, f.fragment.length, f.messageSeq, start, data⟩])
      else .ok fragments

def split (f : FragmentedHandshake)
    (maxFragmentLength : Nat := RecordLayer.MAX_PAYLOAD_SIZE - headerLength) :
    Except JsError (List FragmentedHandshake) :=
  splitLoop f maxFragmentLength f.fragment.length 0 []

end FragmentedHandshake

namespace Handshake

def toFragment (m : Handshake) : FragmentedHandshake :=
  ⟨m.msgType, m.body.serialize.length, m.messageSeq, 0, m.body.serialize⟩

/-- Parses a re-assembled (or never fragmented) message. -/
def fromFragment (memory : Nat → Memory) (assembled : FragmentedHandshake) :
    Except JsError Handshake :=
  if assembled.isFragmented then
    .error (.error "the message to be parsed MUST NOT be fragmented")
  else
    match HandshakeMessages assembled.msgType with
    | none => .error (.error ("unsupported message type " ++ toString assembled.msgType.toNat))
    | some msgClass => do
        let (value, _) ← TLSStruct.deserialize memory assembled.fragment msgClass.spec 0
        return ⟨assembled.messageSeq, msgClass.ofVal value⟩

end Handshake

end DtlsClient
