import DtlsClient.DTLS.CipherSuites
import Mathlib.Logic.Equiv.Basic

/-!
# What one end protects the other end reads

The peer deciphers every record to the packet that was ciphered, whatever its length, with the keys
of the end that sent it.
-/

open Library

namespace DtlsClient

theorem ConnectionEnd.other_other (connEnd : ConnectionEnd) : connEnd.other.other = connEnd := by
  cases connEnd <;> rfl

theorem MAC.compute_length (crypto : Crypto) (data : Bytes) (keys : KeyMaterial)
    (connEnd : ConnectionEnd) (mac : MAC) :
    (mac.compute crypto data keys connEnd).length = mac.keyAndHashLength := by
  cases mac with
  | none => rfl
  | some algorithm => exact crypto.hmac_length algorithm _ _

/-- What a suite relies on in the `crypto` module, for its own algorithm and with these keys. -/
structure Crypto.Inverts (crypto : Crypto) (suite : CipherSuite) (keys : KeyMaterial) : Prop where
  randomBytes_length : ∀ epoch sequenceNumber length,
    (crypto.randomBytes epoch sequenceNumber length).length = length
  decryptCBC : ∀ algorithm, suite.cipherType = .block algorithm → ∀ connEnd iv plaintext,
    iv.length = (BlockCipher.parameters algorithm).recordIvLength →
    (BlockCipher.parameters algorithm).blockSize ∣ plaintext.length →
    crypto.decryptCBC algorithm (keys.writeKey connEnd) iv
      (crypto.encryptCBC algorithm (keys.writeKey connEnd) iv plaintext) = some plaintext
  decryptAEAD : ∀ algorithm, suite.cipherType = .aead algorithm →
    ∀ connEnd nonceExplicit plaintext additionalData result,
    nonceExplicit.length = (AEADCipher.parameters algorithm).recordIvLength →
    result = crypto.encryptAEAD (AEADCipher.parameters algorithm).interface (keys.writeKey connEnd)
      (keys.writeIV connEnd ++ nonceExplicit) plaintext additionalData
      (AEADCipher.parameters algorithm).authTagLength →
    result.ciphertext.length = plaintext.length ∧
    result.authTag.length = (AEADCipher.parameters algorithm).authTagLength ∧
    crypto.decryptAEAD (AEADCipher.parameters algorithm).interface (keys.writeKey connEnd)
      (keys.writeIV connEnd ++ nonceExplicit) result.ciphertext additionalData result.authTag =
        some ⟨plaintext, true⟩

/-! ## Block ciphers -/

namespace BlockCipher

variable {crypto : Crypto} {keys : KeyMaterial}

theorem recordIvLength_eq (algorithm : BlockCipherAlgorithm) :
    (parameters algorithm).recordIvLength = (parameters algorithm).blockSize := by
  cases algorithm <;> rfl

theorem blockSize_lt (algorithm : BlockCipherAlgorithm) :
    0 < (parameters algorithm).blockSize ∧ (parameters algorithm).blockSize < 256 := by
  cases algorithm <;> decide

-- The padding with its length byte fills the last block, and its length fits that byte.
theorem padLength_spec {blockSize : Nat} (hpos : 0 < blockSize) (length : Nat) :
    padLength length blockSize < blockSize ∧
      blockSize ∣ length + (padLength length blockSize + 1) := by
  have hlt := Nat.mod_lt (length + 1) hpos
  have hdiv := Nat.div_add_mod (length + 1) blockSize
  unfold padLength
  simp only
  by_cases hoverflow : (length + 1) % blockSize > 0
  · rw [if_pos hoverflow]
    refine ⟨by omega, (length + 1) / blockSize + 1, ?_⟩
    rw [Nat.mul_add, Nat.mul_one]
    omega
  · rw [if_neg hoverflow]
    exact ⟨hpos, (length + 1) / blockSize, by omega⟩

theorem stripPadding_padded (plaintext : Bytes) {pad : Nat} (hpad : pad < 256) :
    stripPadding (plaintext ++ List.replicate (pad + 1) (UInt8.ofNat pad)) = some plaintext := by
  have hlast : (plaintext ++ List.replicate (pad + 1) (UInt8.ofNat pad)).getLast? =
      some (UInt8.ofNat pad) := by
    rw [List.replicate_succ', ← List.append_assoc, List.getLast?_concat]
  have hvalue : (UInt8.ofNat pad).toNat = pad := by
    rw [UInt8.toNat_ofNat']
    exact Nat.mod_eq_of_lt hpad
  have hlength : (plaintext ++ List.replicate (pad + 1) (UInt8.ofNat pad)).length =
      plaintext.length + (pad + 1) := by
    rw [List.length_append, List.length_replicate]
  have hcheck : ((List.range pad).all fun i =>
      decide (i + 2 ≤ plaintext.length + (pad + 1) ∧
        (plaintext ++ List.replicate (pad + 1) (UInt8.ofNat pad))[plaintext.length + (pad + 1) - 2 - i]?
          = some (UInt8.ofNat pad))) = true := by
    rw [List.all_eq_true]
    intro i hi
    have hlt := List.mem_range.mp hi
    -- the byte is one of the padding, `pad - 1 - i` bytes behind the plaintext
    have hindex : plaintext.length + (pad + 1) - 2 - i = plaintext.length + (pad - 1 - i) := by omega
    rw [decide_eq_true_eq, hindex, List.getElem?_append_right (by omega), Nat.add_sub_cancel_left,
      List.getElem?_replicate, if_pos (by omega)]
    exact ⟨by omega, rfl⟩
  have hslice := slice_dropLast plaintext (List.replicate (pad + 1) (UInt8.ofNat pad)) (by simp)
  rw [List.length_replicate] at hslice
  have hindex : (-1 - (pad : Int)) = -((pad + 1 : Nat) : Int) := by omega
  simp only [stripPadding, hlast, hvalue, hlength]
  rw [if_neg (by omega), if_pos hcheck, hindex, hslice]

-- The MAC is taken off again, also where it has no bytes.
theorem split_content (content : Bytes) {receivedMAC : Bytes} {macLength : Nat}
    (hlength : receivedMAC.length = macLength) :
    (if macLength > 0 then slice (content ++ receivedMAC) 0 (-macLength)
      else content ++ receivedMAC) = content ∧
    (if macLength > 0 then
        slice (content ++ receivedMAC) (-macLength) (content ++ receivedMAC).length
      else []) = receivedMAC := by
  subst hlength
  by_cases hpos : receivedMAC.length > 0
  · rw [if_pos hpos, if_pos hpos]
    exact ⟨slice_dropLast content receivedMAC hpos, slice_takeLast content receivedMAC hpos⟩
  · have hnil : receivedMAC = [] := List.length_eq_zero_iff.mp (by omega)
    rw [if_neg hpos, if_neg hpos, hnil, List.append_nil]
    exact ⟨rfl, rfl⟩

theorem decipher_of_cipher {suite : CipherSuite} {algorithm : BlockCipherAlgorithm}
    (h : crypto.Inverts suite keys) (hcipher : suite.cipherType = .block algorithm) (mac : MAC)
    (packet : DTLSCompressed) (connEnd : ConnectionEnd) :
    decipher crypto algorithm mac (cipher crypto algorithm mac packet keys connEnd) keys
      connEnd.other = .ok packet := by
  rcases blockSize_lt algorithm with ⟨hpos, hlt⟩
  have hiv := h.randomBytes_length packet.epoch packet.sequenceNumber
    (parameters algorithm).recordIvLength
  have hmac := MAC.compute_length crypto (packet.computeMACHeader ++ packet.fragment) keys connEnd mac
  unfold decipher cipher
  simp only [ConnectionEnd.other_other]
  generalize crypto.randomBytes packet.epoch packet.sequenceNumber
    (parameters algorithm).recordIvLength = recordIv at hiv ⊢
  generalize hMAC : mac.compute crypto (packet.computeMACHeader ++ packet.fragment) keys connEnd = MAC
    at hmac ⊢
  rcases padLength_spec hpos (packet.fragment ++ MAC).length with ⟨hpad, hwhole⟩
  generalize padLength (packet.fragment ++ MAC).length (parameters algorithm).blockSize = pad
    at hpad hwhole ⊢
  have hblocks : (parameters algorithm).blockSize ∣
      (packet.fragment ++ MAC ++ List.replicate (pad + 1) (UInt8.ofNat pad)).length := by
    rw [@List.length_append _ (packet.fragment ++ MAC), List.length_replicate]
    exact hwhole
  have hinverts := h.decryptCBC algorithm hcipher connEnd recordIv _ hiv hblocks
  generalize crypto.encryptCBC algorithm (keys.writeKey connEnd) recordIv
    (packet.fragment ++ MAC ++ List.replicate (pad + 1) (UInt8.ofNat pad)) = ciphertext at hinverts ⊢
  -- the IV and the ciphertext, which stand on either side of the block size
  have hleft := slice_left recordIv ciphertext
  have hright := slice_right recordIv ciphertext
  rw [hiv] at hleft hright
  rw [recordIvLength_eq] at hright
  rcases split_content packet.fragment hmac with ⟨hcontent, hreceived⟩
  rw [hleft, hright, hinverts]
  simp only [stripPadding_padded _ (Nat.lt_trans hpad hlt), hcontent, hreceived]
  exact if_pos hMAC

end BlockCipher

/-! ## AEAD ciphers -/

namespace AEADCipher

variable {crypto : Crypto} {keys : KeyMaterial}

theorem authTagLength_pos (algorithm : AEADCipherAlgorithm) :
    0 < (parameters algorithm).authTagLength := by
  cases algorithm <;> decide

theorem decipher_of_cipher {suite : CipherSuite} {algorithm : AEADCipherAlgorithm}
    (h : crypto.Inverts suite keys) (hcipher : suite.cipherType = .aead algorithm)
    (packet : DTLSCompressed) (connEnd : ConnectionEnd) :
    decipher crypto algorithm (cipher crypto algorithm packet keys connEnd) keys connEnd.other =
      .ok packet := by
  have hnonce := h.randomBytes_length packet.epoch packet.sequenceNumber
    (parameters algorithm).recordIvLength
  unfold decipher cipher
  simp only [ConnectionEnd.other_other]
  generalize crypto.randomBytes packet.epoch packet.sequenceNumber
    (parameters algorithm).recordIvLength = nonceExplicit at hnonce ⊢
  rcases h.decryptAEAD algorithm hcipher connEnd nonceExplicit packet.fragment
    (additionalData packet packet.fragment.length) _ hnonce rfl with ⟨hlength, htag, hinverts⟩
  generalize crypto.encryptAEAD (parameters algorithm).interface (keys.writeKey connEnd)
    (keys.writeIV connEnd ++ nonceExplicit) packet.fragment
    (additionalData packet packet.fragment.length) (parameters algorithm).authTagLength = result
    at hlength htag hinverts ⊢
  have htagPos : 0 < result.authTag.length := by
    rw [htag]
    exact authTagLength_pos algorithm
  -- the three parts, and the length of the middle one in the additional data
  have hleft := slice_left nonceExplicit (result.ciphertext ++ result.authTag)
  have hmiddle := slice_between nonceExplicit result.ciphertext result.authTag htagPos
  have hright := slice_takeLast (nonceExplicit ++ result.ciphertext) result.authTag htagPos
  have hdata : ((nonceExplicit ++ result.ciphertext ++ result.authTag).length : Int) -
      (parameters algorithm).recordIvLength - (parameters algorithm).authTagLength =
        packet.fragment.length := by
    rw [List.length_append, List.length_append]
    omega
  rw [hnonce, ← List.append_assoc] at hleft hmiddle
  rw [htag] at hmiddle hright
  rw [hleft, hmiddle, hright, hdata]
  have hadditional : additionalData
      { packet with fragment := nonceExplicit ++ result.ciphertext ++ result.authTag }
      packet.fragment.length = additionalData packet packet.fragment.length := rfl
  rw [hadditional, hinverts]
  rfl

end AEADCipher

/-! ## Suites -/

/-- The peer's `Decipher` inverts `Cipher`, for every suite, in both directions and for every
packet. -/
theorem CipherSuite.decipher_cipher {crypto : Crypto} {suite : CipherSuite} {keys : KeyMaterial}
    (h : crypto.Inverts suite keys) (connEnd : ConnectionEnd) (packet : DTLSCompressed) :
    ∃ ciphertext, suite.cipher crypto packet (some keys) connEnd = .ok ciphertext ∧
      suite.decipher crypto ciphertext (some keys) connEnd.other = .ok packet := by
  unfold CipherSuite.cipher CipherSuite.decipher
  cases hcipher : suite.cipherType with
  | null => exact ⟨packet, rfl, rfl⟩
  | block algorithm =>
      exact ⟨_, rfl, BlockCipher.decipher_of_cipher h hcipher suite.mac packet connEnd⟩
  | aead algorithm => exact ⟨_, rfl, AEADCipher.decipher_of_cipher h hcipher packet connEnd⟩

namespace Sample

def hello : DTLSCompressed := ⟨.applicationData, ⟨some 254, some 253⟩, 1, 0, [104, 101, 108, 108, 111]⟩

/-- Only the AES-128-CBC suite has MAC keys, and only the AES-128-GCM suite has IVs. -/
def keys : KeyMaterial where
  clientWriteMACKey := (List.range 32).map UInt8.ofNat
  serverWriteMACKey := (List.range' 32 32).map UInt8.ofNat
  clientWriteKey := (List.range 16).map UInt8.ofNat
  serverWriteKey := (List.range' 16 16).map UInt8.ofNat
  clientWriteIV := [0, 1, 2, 3]
  serverWriteIV := [4, 5, 6, 7]

/-- HMAC-SHA256 of the packet, under the client's key. -/
def helloMAC : Bytes :=
  [53, 84, 132, 126, 234, 218, 253, 124, 41, 40, 194, 249, 188, 172, 24, 191, 237, 79, 87, 81,
   58, 70, 65, 86, 238, 22, 64, 29, 94, 68, 180, 152]

/-- The padded packet under AES-128-CBC, with the client's key and the IV `0, 1, .., 15`. -/
def helloCBC : Bytes :=
  [28, 61, 101, 162, 89, 184, 152, 192, 160, 194, 151, 119, 208, 98, 146, 11, 14, 21, 62, 202,
   224, 40, 81, 159, 213, 106, 183, 80, 97, 61, 101, 48, 213, 25, 16, 24, 202, 166, 67, 240,
   236, 203, 20, 94, 103, 186, 52, 221]

/-- The packet under AES-128-GCM, with the server's key and the nonce `4, 5, 6, 7, 0, 1, .., 7`. -/
def helloGCM : EncryptionResult where
  ciphertext := [125, 139, 121, 186, 137]
  authTag := [59, 127, 202, 103, 160, 171, 73, 154, 230, 124, 207, 46, 75, 60, 102, 108]

def helloAuthTag (plaintext : Bytes) (authTagLength : Nat) : Bytes :=
  if plaintext = hello.fragment ∧ authTagLength = 16 then helloGCM.authTag
  else List.replicate authTagLength 0

/-- The primitives, with their own results on the packet: there they exchange the plaintext and its
ciphertext, and leave everything else alone. -/
def aes : Crypto where
  hash _ _ := []
  hmac algorithm secret data :=
    if algorithm = .sha256 ∧ secret = keys.clientWriteMACKey ∧
        data = hello.computeMACHeader ++ hello.fragment then helloMAC
    else List.replicate algorithm.keyAndHashLength 0
  hmac_length algorithm secret data := by
    split
    · next h => rw [h.1]; rfl
    · exact List.length_replicate
  encryptCBC _ _ _ plaintext :=
    Equiv.swap (hello.fragment ++ helloMAC ++ List.replicate 11 10) helloCBC plaintext
  decryptCBC _ _ _ ciphertext :=
    some (Equiv.swap (hello.fragment ++ helloMAC ++ List.replicate 11 10) helloCBC ciphertext)
  encryptAEAD _ _ _ plaintext _ authTagLength :=
    ⟨Equiv.swap hello.fragment helloGCM.ciphertext plaintext, helloAuthTag plaintext authTagLength⟩
  decryptAEAD _ _ _ ciphertext _ authTag :=
    let plaintext := Equiv.swap hello.fragment helloGCM.ciphertext ciphertext
    some ⟨plaintext, authTag = helloAuthTag plaintext authTag.length⟩
  randomBytes _ _ length := (List.range length).map UInt8.ofNat

theorem helloAuthTag_length (plaintext : Bytes) (authTagLength : Nat) :
    (helloAuthTag plaintext authTagLength).length = authTagLength := by
  unfold helloAuthTag
  split
  · next h => exact h.2.symm
  · exact List.length_replicate

theorem swap_length {a b : Bytes} (h : a.length = b.length) (c : Bytes) :
    (Equiv.swap a b c).length = c.length := by
  rw [Equiv.swap_apply_def]
  split
  · next ha => rw [ha, h]
  · split
    · next hb => rw [hb, h]
    · rfl

-- Its results on the packet are those of the real ciphers.
example :
    CipherSuites.TLS_PSK_WITH_AES_128_CBC_SHA256.cipher aes hello (some keys) .client =
        .ok { hello with fragment := (List.range 16).map UInt8.ofNat ++ helloCBC } ∧
      CipherSuites.TLS_PSK_WITH_AES_128_GCM_SHA256.cipher aes hello (some keys) .server =
        .ok { hello with fragment := (List.range 8).map UInt8.ofNat ++ helloGCM.ciphertext ++
          helloGCM.authTag } := by
  decide +kernel

theorem aes_inverts (suite : CipherSuite) : aes.Inverts suite keys := by
  constructor
  · intro _ _ length
    rw [aes, List.length_map, List.length_range]
  · intro _ _ _ _ plaintext _ _
    exact congrArg some (Equiv.swap_apply_self _ _ plaintext)
  · intro algorithm _ _ _ plaintext _ result _ hresult
    have htag := helloAuthTag_length plaintext (AEADCipher.parameters algorithm).authTagLength
    have hlength : hello.fragment.length = helloGCM.ciphertext.length := rfl
    subst hresult
    refine ⟨swap_length hlength plaintext, htag, ?_⟩
    simp only [aes, Equiv.swap_apply_self, htag, decide_true]

end Sample

-- The client's packet under a block cipher, and the server's under an AEAD cipher.
theorem CipherSuite.decipher_cipher_hello :
    (∃ ciphertext,
      CipherSuites.TLS_PSK_WITH_AES_128_CBC_SHA256.cipher Sample.aes Sample.hello
        (some Sample.keys) .client = .ok ciphertext ∧
      CipherSuites.TLS_PSK_WITH_AES_128_CBC_SHA256.decipher Sample.aes ciphertext
        (some Sample.keys) .server = .ok Sample.hello) ∧
    ∃ ciphertext,
      CipherSuites.TLS_PSK_WITH_AES_128_GCM_SHA256.cipher Sample.aes Sample.hello
        (some Sample.keys) .server = .ok ciphertext ∧
      CipherSuites.TLS_PSK_WITH_AES_128_GCM_SHA256.decipher Sample.aes ciphertext
        (some Sample.keys) .client = .ok Sample.hello :=
  ⟨CipherSuite.decipher_cipher (Sample.aes_inverts _) .client Sample.hello,
    CipherSuite.decipher_cipher (Sample.aes_inverts _) .server Sample.hello⟩

end DtlsClient
