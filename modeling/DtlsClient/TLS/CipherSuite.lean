import DtlsClient.DTLS.Packet
import DtlsClient.TLS.PRF

/-!
# `TLS/CipherSuite`, `TLS/BlockCipher`, `TLS/AEADCipher`

The record protection of each kind of cipher suite.  The lazily created delegates of a suite depend
on its readonly fields only, so that they are functions of the suite here.
-/

open Library

namespace DtlsClient

inductive ConnectionEnd where
  | server
  | client
deriving DecidableEq, Repr

def ConnectionEnd.other : ConnectionEnd → ConnectionEnd
  | .server => .client
  | .client => .server

inductive KeyExchangeAlgorithm where
  | dheDss
  | dheRsa
  | rsa
  | dhDss
  | dhRsa
  | psk
  | dhePsk
  | rsaPsk
deriving DecidableEq, Repr

def KeyExchangeAlgorithm.name : KeyExchangeAlgorithm → String
  | .dheDss => "dhe_dss"
  | .dheRsa => "dhe_rsa"
  | .rsa => "rsa"
  | .dhDss => "dh_dss"
  | .dhRsa => "dh_rsa"
  | .psk => "psk"
  | .dhePsk => "dhe_psk"
  | .rsaPsk => "rsa_psk"

/-- `cipherType` together with the `algorithm` of that type. -/
inductive CipherType where
  | null
  | block (algorithm : BlockCipherAlgorithm)
  | aead (algorithm : AEADCipherAlgorithm)
deriving DecidableEq, Repr

structure CipherSuite where
  id : Nat
  keyExchange : Option KeyExchangeAlgorithm
  macAlgorithm : Option HashAlgorithm
  prfAlgorithm : Option HashAlgorithm
  cipherType : CipherType
  verifyDataLength : Nat := 12
deriving DecidableEq, Repr

structure KeyMaterial where
  clientWriteMACKey : Bytes
  serverWriteMACKey : Bytes
  clientWriteKey : Bytes
  serverWriteKey : Bytes
  clientWriteIV : Bytes
  serverWriteIV : Bytes
deriving DecidableEq, Repr

namespace KeyMaterial

def writeMACKey (k : KeyMaterial) : ConnectionEnd → Bytes
  | .server => k.serverWriteMACKey
  | .client => k.clientWriteMACKey

def writeKey (k : KeyMaterial) : ConnectionEnd → Bytes
  | .server => k.serverWriteKey
  | .client => k.clientWriteKey

def writeIV (k : KeyMaterial) : ConnectionEnd → Bytes
  | .server => k.serverWriteIV
  | .client => k.clientWriteIV

end KeyMaterial

/-! ## MACs -/

/-- A MAC delegate: that of a hash algorithm, or the dummy one of `createNullMAC`. -/
abbrev MAC := Option HashAlgorithm

def MAC.keyAndHashLength : MAC → Nat
  | none => 0
  | some algorithm => algorithm.keyAndHashLength

def MAC.compute (crypto : Crypto) (data : Bytes) (keyMaterial : KeyMaterial)
    (sourceConnEnd : ConnectionEnd) : MAC → Bytes
  | none => []
  | some algorithm => crypto.hmac algorithm (keyMaterial.writeMACKey sourceConnEnd) data

def CipherSuite.mac (suite : CipherSuite) : MAC :=
  match suite.cipherType with
  | .null => none
  | .aead _ => none
  | .block _ => suite.macAlgorithm

/-! ## Block ciphers -/

namespace BlockCipher

structure BlockCipherParameter where
  keyLength : Nat
  blockSize : Nat
  recordIvLength : Nat

def parameters : BlockCipherAlgorithm → BlockCipherParameter
  | .aes128cbc => ⟨16, 16, 16⟩
  | .aes256cbc => ⟨32, 16, 16⟩
  | .desEde3Cbc => ⟨24, 8, 8⟩

def padLength (plaintextLength blockSize : Nat) : Nat :=
  let overflow := (plaintextLength + 1) % blockSize
  if overflow > 0 then blockSize - overflow else 0

-- The delegate of `BlockCipher.createCipher`.
def cipher (crypto : Crypto) (algorithm : BlockCipherAlgorithm) (mac : MAC)
    (packet : DTLSCompressed) (keyMaterial : KeyMaterial) (connEnd : ConnectionEnd) :
    DTLSCiphertext :=
  let params := parameters algorithm
  let MAC := mac.compute crypto (packet.computeMACHeader ++ packet.fragment) keyMaterial connEnd
  let plaintext := packet.fragment ++ MAC
  let pad := padLength plaintext.length params.blockSize
  let padding := List.replicate (pad + 1) (UInt8.ofNat pad)
  let recordIv := crypto.randomBytes packet.epoch packet.sequenceNumber params.recordIvLength
  let ciphertext :=
    crypto.encryptCBC algorithm (keyMaterial.writeKey connEnd) recordIv (plaintext ++ padding)
  { packet with fragment := recordIv ++ ciphertext }

/-- The padding check on the deciphered fragment; the plaintext without its padding, or `none` where
the source notes an invalid MAC. -/
def stripPadding (deciphered : Bytes) : Option Bytes :=
  match deciphered.getLast? with
  | none => none
  | some last =>
      let paddingLength := last.toNat
      if deciphered.length < paddingLength then none
      else if (List.range paddingLength).all fun i =>
          -- reading before the first byte gives `undefined`, which differs from every length
          i + 2 ≤ deciphered.length ∧ deciphered[deciphered.length - 2 - i]? = some last
      then some (slice deciphered 0 (-1 - paddingLength))
      else none

-- The delegate of `BlockCipher.createDecipher`.
def decipher (crypto : Crypto) (algorithm : BlockCipherAlgorithm) (mac : MAC)
    (packet : DTLSCiphertext) (keyMaterial : KeyMaterial) (connEnd : ConnectionEnd) :
    Except JsError DTLSCompressed :=
  let params := parameters algorithm
  let ciphertext := packet.fragment
  let recordIv := slice ciphertext 0 params.recordIvLength
  let ciphered := slice ciphertext params.blockSize ciphertext.length
  let sourceConnEnd := connEnd.other
  match crypto.decryptCBC algorithm (keyMaterial.writeKey sourceConnEnd) recordIv ciphered with
  | none => .error .cipherFailed
  | some deciphered =>
      match stripPadding deciphered with
      | none => .error (.error "invalid MAC detected in DTLS packet")
      | some plaintext =>
          let macLength := mac.keyAndHashLength
          -- split the plaintext into content and MAC
          let content := if macLength > 0 then slice plaintext 0 (-macLength) else plaintext
          let receivedMAC :=
            if macLength > 0 then slice plaintext (-macLength) plaintext.length else []
          let result : DTLSCompressed := { packet with fragment := content }
          let expectedMAC :=
            mac.compute crypto (result.computeMACHeader ++ content) keyMaterial sourceConnEnd
          if expectedMAC = receivedMAC then .ok result
          else .error (.error "invalid MAC detected in DTLS packet")

end BlockCipher

/-! ## AEAD ciphers -/

namespace AEADCipher

structure AEADCipherParameter where
  interface : AEADMode
  keyLength : Nat
  blockSize : Nat
  fixedIvLength : Nat
  recordIvLength : Nat
  authTagLength : Nat

def parameters : AEADCipherAlgorithm → AEADCipherParameter
  | .aes128ccm => ⟨.ccm, 16, 16, 4, 8, 16⟩
  | .aes128ccm8 => ⟨.ccm, 16, 16, 4, 8, 8⟩
  | .aes256ccm => ⟨.ccm, 32, 16, 4, 8, 16⟩
  | .aes256ccm8 => ⟨.ccm, 32, 16, 4, 8, 8⟩
  | .aes128gcm => ⟨.gcm, 16, 16, 4, 8, 16⟩
  | .aes256gcm => ⟨.gcm, 32, 16, 4, 8, 16⟩

def additionalData (packet : DTLSPacket) (fragmentLength : Int) : Bytes :=
  MACHeader.serialize
    ⟨packet.epoch, packet.sequenceNumber, packet.type, packet.version, fragmentLength⟩

-- The delegate of `AEADCipher.createCipher`.
def cipher (crypto : Crypto) (algorithm : AEADCipherAlgorithm) (packet : DTLSCompressed)
    (keyMaterial : KeyMaterial) (connEnd : ConnectionEnd) : DTLSCiphertext :=
  let params := parameters algorithm
  let salt := keyMaterial.writeIV connEnd
  let nonceExplicit := crypto.randomBytes packet.epoch packet.sequenceNumber params.recordIvLength
  let encryptionResult :=
    crypto.encryptAEAD params.interface (keyMaterial.writeKey connEnd) (salt ++ nonceExplicit)
      packet.fragment (additionalData packet packet.fragment.length) params.authTagLength
  { packet with
    fragment := nonceExplicit ++ encryptionResult.ciphertext ++ encryptionResult.authTag }

-- The delegate of `AEADCipher.createDecipher`.
def decipher (crypto : Crypto) (algorithm : AEADCipherAlgorithm) (packet : DTLSCiphertext)
    (keyMaterial : KeyMaterial) (connEnd : ConnectionEnd) : Except JsError DTLSCompressed :=
  let params := parameters algorithm
  let ciphertext := packet.fragment
  let sourceConnEnd := connEnd.other
  let salt := keyMaterial.writeIV sourceConnEnd
  let nonceExplicit := slice ciphertext 0 params.recordIvLength
  -- subtract the AEAD overhead from the packet length for authentication
  let fragmentLength : Int := ciphertext.length - params.recordIvLength - params.authTagLength
  let authTag := slice ciphertext (-params.authTagLength) ciphertext.length
  let ciphered := slice ciphertext params.recordIvLength (-params.authTagLength)
  match crypto.decryptAEAD params.interface (keyMaterial.writeKey sourceConnEnd)
      (salt ++ nonceExplicit) ciphered (additionalData packet fragmentLength) authTag with
  | none => .error .cipherFailed
  | some decryptionResult =>
      if decryptionResult.authOk then .ok { packet with fragment := decryptionResult.plaintext }
      else .error (.error "Authenticated decryption of the packet failed.")

end AEADCipher

/-! ## The suite's own delegates -/

namespace CipherSuite

def keyLength (suite : CipherSuite) : Nat :=
  match suite.cipherType with
  | .null => 0
  | .block algorithm => (BlockCipher.parameters algorithm).keyLength
  | .aead algorithm => (AEADCipher.parameters algorithm).keyLength

def fixedIvLength (suite : CipherSuite) : Nat :=
  match suite.cipherType with
  | .null => 0
  | .block _ => 0
  | .aead algorithm => (AEADCipher.parameters algorithm).fixedIvLength

/-- `suite.Cipher(packet, keyMaterial, connEnd)`; the NULL cipher does not look at the keys, every
other one throws when there are none. -/
def cipher (crypto : Crypto) (suite : CipherSuite) (packet : DTLSCompressed)
    (keyMaterial : Option KeyMaterial) (connEnd : ConnectionEnd) : Except JsError DTLSCiphertext :=
  match suite.cipherType, keyMaterial with
  | .null, _ => .ok packet
  | .block algorithm, some keys => .ok (BlockCipher.cipher crypto algorithm suite.mac packet keys connEnd)
  | .aead algorithm, some keys => .ok (AEADCipher.cipher crypto algorithm packet keys connEnd)
  | _, none => .error .typeError

-- `suite.Decipher(packet, keyMaterial, connEnd)`.
def decipher (crypto : Crypto) (suite : CipherSuite) (packet : DTLSCiphertext)
    (keyMaterial : Option KeyMaterial) (connEnd : ConnectionEnd) : Except JsError DTLSCompressed :=
  match suite.cipherType, keyMaterial with
  | .null, _ => .ok packet
  | .block algorithm, some keys => BlockCipher.decipher crypto algorithm suite.mac packet keys connEnd
  | .aead algorithm, some keys => AEADCipher.decipher crypto algorithm packet keys connEnd
  | _, none => .error .typeError

end CipherSuite

end DtlsClient
