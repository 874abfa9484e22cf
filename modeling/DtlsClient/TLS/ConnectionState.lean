import DtlsClient.DTLS.CipherSuites

/-!
# `TLS/ConnectionState`

The security parameters of an epoch.  `Cipher` and `Decipher` are lazily created and then cached: a
delegate keeps the suite and the keys it was created from, whatever the connection state holds later.
-/

open Library

namespace DtlsClient

def CompressionMethod.null : Num := some 0

/-- What `suite.specifyCipher(keyMaterial, connEnd)` and `suite.specifyDecipher(...)` close over. -/
structure Delegate where
  suite : CipherSuite
  keyMaterial : Option KeyMaterial
  connEnd : ConnectionEnd
deriving DecidableEq, Repr

def Delegate.cipher (crypto : Crypto) (d : Delegate) (packet : DTLSCompressed) :
    Except JsError DTLSCiphertext :=
  d.suite.cipher crypto packet d.keyMaterial d.connEnd

def Delegate.decipher (crypto : Crypto) (d : Delegate) (packet : DTLSCiphertext) :
    Except JsError DTLSCompressed :=
  d.suite.decipher crypto packet d.keyMaterial d.connEnd

/-- `none` stands for `undefined`; `cipherSuite` becomes `undefined` when the server selects an
identifier that the table does not have. -/
structure ConnectionState where
  entity : ConnectionEnd
  cipherSuite : Option CipherSuite
  protocolVersion : ProtocolVersion
  compressionAlgorithm : Num
  masterSecret : Option Bytes
  clientRandom : Option Bytes
  serverRandom : Option Bytes
  keyMaterial : Option KeyMaterial
  /-- `_cipher` -/
  cachedCipher : Option Delegate
  /-- `_decipher` -/
  cachedDecipher : Option Delegate
deriving DecidableEq, Repr

namespace ConnectionState

/-- `new ConnectionState()`: the NULL suite and DTLSv1.0, the version `(~1, ~0)`. -/
def new : ConnectionState where
  entity := .client
  cipherSuite := some CipherSuites.TLS_NULL_WITH_NULL_NULL
  protocolVersion := ⟨some (-2), some (-1)⟩
  compressionAlgorithm := CompressionMethod.null
  masterSecret := none
  clientRandom := none
  serverRandom := none
  keyMaterial := none
  cachedCipher := none
  cachedDecipher := none

def specify (s : ConnectionState) : Option Delegate :=
  s.cipherSuite.map fun suite => ⟨suite, s.keyMaterial, s.entity⟩

/-- What the getter `Cipher` returns; `none` where it throws because there is no suite. -/
def cipher (s : ConnectionState) : Option Delegate := s.cachedCipher <|> s.specify

/-- What the getter `Decipher` returns; `none` where it throws because there is no suite. -/
def decipher (s : ConnectionState) : Option Delegate := s.cachedDecipher <|> s.specify

def withCipher (s : ConnectionState) : ConnectionState := { s with cachedCipher := s.cipher }

def withDecipher (s : ConnectionState) : ConnectionState := { s with cachedDecipher := s.decipher }

def masterSecretLength : Nat := 48

/-- The client's and the server's random in the given order; `Buffer.concat` throws on `undefined`. -/
def concatRandoms : Option Bytes → Option Bytes → Except JsError Bytes
  | some a, some b => .ok (a ++ b)
  | _, _ => .error .typeError

/-- The six consecutive parts of the key block. -/
def readKeyBlock (suite : CipherSuite) (keyBlock : Bytes) : KeyMaterial :=
  let mac := suite.mac.keyAndHashLength
  let key := suite.keyLength
  let iv := suite.fixedIvLength
  { clientWriteMACKey := (keyBlock.drop 0).take mac
    serverWriteMACKey := (keyBlock.drop mac).take mac
    clientWriteKey := (keyBlock.drop (mac + mac)).take key
    serverWriteKey := (keyBlock.drop (mac + mac + key)).take key
    clientWriteIV := (keyBlock.drop (mac + mac + key + key)).take iv
    serverWriteIV := (keyBlock.drop (mac + mac + key + key + iv)).take iv }

def computeKeyMaterial (crypto : Crypto) (suite : CipherSuite) (prf : HashAlgorithm)
    (masterSecret seed : Bytes) : KeyMaterial :=
  readKeyBlock suite
    (PRF crypto prf masterSecret (ascii "key expansion") seed
      (2 * (suite.mac.keyAndHashLength + suite.keyLength + suite.fixedIvLength)))

/-- `computeMasterSecret`, followed by the key material; throws before it changes anything. -/
def computeMasterSecret (crypto : Crypto) (preMasterSecret : PreMasterSecret)
    (s : ConnectionState) : Except JsError ConnectionState :=
  match s.cipherSuite with
  | none => .error .typeError
  | some suite =>
      match suite.prfAlgorithm with
      | none => .error .typeError
      | some prf => do
          let masterSecret :=
            PRF crypto prf preMasterSecret.serialize (ascii "master secret")
              (← concatRandoms s.clientRandom s.serverRandom) masterSecretLength
          let keyMaterial :=
            computeKeyMaterial crypto suite prf masterSecret
              (← concatRandoms s.serverRandom s.clientRandom)
          return { s with masterSecret := some masterSecret, keyMaterial := some keyMaterial }

end ConnectionState

end DtlsClient
