import DtlsClient.Library.Oracle
import DtlsClient.Properties.Ciphers
import DtlsClient.Properties.Serializing

/-!
# What the AEAD decipher asks for

The delegate checks nothing about the length of the fragment: it always calls the decryption
interface, and where the fragment is shorter than the nonce and the tag, its slices overlap or shrink.
-/

open Library

namespace DtlsClient

/-- The arguments of `decrypt`, with the interface that is called. -/
structure DecryptionArguments where
  interface : AEADMode
  key : Bytes
  iv : Bytes
  ciphertext : Bytes
  additionalData : Bytes
  authTag : Bytes
deriving DecidableEq

/-- The `crypto` module with this function for the decryption interfaces. -/
def Crypto.withDecrypt (crypto : Crypto)
    (decrypt : DecryptionArguments → Option DecryptionResult) : Crypto where
  __ := crypto
  decryptAEAD interface key iv ciphertext additionalData authTag :=
    decrypt ⟨interface, key, iv, ciphertext, additionalData, authTag⟩

namespace AEADCipher

section Asking

variable (crypto : Crypto) (algorithm : AEADCipherAlgorithm) (packet : DTLSCiphertext)
  (keys : KeyMaterial) (connEnd : ConnectionEnd)

/-- The delegate calls `decrypt` with these arguments. -/
def CallsDecrypt (args : DecryptionArguments) : Prop :=
  Asks (fun decrypt => decipher (crypto.withDecrypt decrypt) algorithm packet keys connEnd) args

/-- The nonce explicit, the ciphertext and the tag are consecutive parts that make up the fragment,
the nonce and the tag have their full lengths, and the additional data is that of the ciphertext. -/
structure WellFormed (args : DecryptionArguments) : Prop where
  iv_length : args.iv.length =
    (parameters algorithm).fixedIvLength + (parameters algorithm).recordIvLength
  authTag_length : args.authTag.length = (parameters algorithm).authTagLength
  parts : ∃ nonceExplicit, args.iv = keys.writeIV connEnd.other ++ nonceExplicit ∧
    packet.fragment = nonceExplicit ++ args.ciphertext ++ args.authTag
  additionalData : args.additionalData = additionalData packet args.ciphertext.length
  length_field : bufferToNumber args.additionalData 16 11 = some (args.ciphertext.length : Int)

/-- What is decrypted is well formed, and a fragment that is too short is never decrypted. -/
def ChecksFully : Prop :=
  (∀ args, CallsDecrypt crypto algorithm packet keys connEnd args →
    WellFormed algorithm packet keys connEnd args) ∧
  (packet.fragment.length <
      (parameters algorithm).recordIvLength + (parameters algorithm).authTagLength →
    (∀ args, ¬ CallsDecrypt crypto algorithm packet keys connEnd args) ∧
    ∀ decrypt, ∃ e, decipher (crypto.withDecrypt decrypt) algorithm packet keys connEnd = .error e)

/-- The arguments of the one call. -/
def arguments : DecryptionArguments where
  interface := (parameters algorithm).interface
  key := keys.writeKey connEnd.other
  iv := keys.writeIV connEnd.other ++ packet.fragment.take (parameters algorithm).recordIvLength
  ciphertext := (packet.fragment.take
    (packet.fragment.length - (parameters algorithm).authTagLength)).drop
      (parameters algorithm).recordIvLength
  additionalData := additionalData packet (packet.fragment.length -
    (parameters algorithm).recordIvLength - (parameters algorithm).authTagLength)
  authTag := packet.fragment.drop (packet.fragment.length - (parameters algorithm).authTagLength)

/-- What is made of the result of the call. -/
def afterDecrypt : Option DecryptionResult → Except JsError DTLSCompressed
  | none => .error .cipherFailed
  | some decryptionResult =>
      if decryptionResult.authOk then .ok { packet with fragment := decryptionResult.plaintext }
      else .error (.error "Authenticated decryption of the packet failed.")

theorem decipher_withDecrypt (decrypt : DecryptionArguments → Option DecryptionResult) :
    decipher (crypto.withDecrypt decrypt) algorithm packet keys connEnd =
      afterDecrypt packet (decrypt (arguments algorithm packet keys connEnd)) := by
  have htag := authTagLength_pos algorithm
  have hiv := slice_front packet.fragment (parameters algorithm).recordIvLength
  have hciphered := slice_inner packet.fragment (parameters algorithm).recordIvLength htag
  have hauthTag := slice_last packet.fragment htag
  unfold decipher
  simp only [hiv, hciphered, hauthTag]
  show (match decrypt (arguments algorithm packet keys connEnd) with
    | none => Except.error JsError.cipherFailed
    | some decryptionResult => _) = _
  cases decrypt (arguments algorithm packet keys connEnd) with
  | none => rfl
  | some decryptionResult => rfl

-- Whatever the fragment is, the interface is called, and once.
theorem callsDecrypt_iff (args : DecryptionArguments) :
    CallsDecrypt crypto algorithm packet keys connEnd args ↔
      args = arguments algorithm packet keys connEnd := by
  have hdiffers : afterDecrypt packet none ≠ afterDecrypt packet (some ⟨[], true⟩) := by
    intro h
    cases h
  exact asks_one_iff (decipher_withDecrypt crypto algorithm packet keys connEnd) hdiffers args

end Asking

-- The last field of the additional data, behind eleven bytes.
theorem additionalData_length_field (packet : DTLSPacket) {fragmentLength : Nat}
    (hfits : fragmentLength < 2 ^ 16) :
    bufferToNumber (additionalData packet fragmentLength) 16 11 = some (fragmentLength : Int) := by
  have hfield := @bufferToNumber_field
    (numberToBuffer (some (packet.epoch : Int)) 16 ++
      (numberToBuffer (some (packet.sequenceNumber : Int)) 48 ++
        (numberToBuffer (some (packet.type.toNat : Int)) 8 ++
          (numberToBuffer packet.version.major 8 ++ (numberToBuffer packet.version.minor 8 ++ [])))))
    [] 16 11 fragmentLength hfits (by simp)
  simp only [List.append_assoc, List.nil_append] at hfield
  exact hfield

section Arguments

variable {crypto : Crypto} {algorithm : AEADCipherAlgorithm} {packet : DTLSCiphertext}
  {keys : KeyMaterial} {connEnd : ConnectionEnd}

-- Of a fragment that is long enough, the parts lie where they belong.
theorem arguments_wellFormed
    (hlong : (parameters algorithm).recordIvLength + (parameters algorithm).authTagLength ≤
      packet.fragment.length)
    (hshort : packet.fragment.length <
      (parameters algorithm).recordIvLength + (parameters algorithm).authTagLength + 2 ^ 16)
    (hsalt : (keys.writeIV connEnd.other).length = (parameters algorithm).fixedIvLength) :
    WellFormed algorithm packet keys connEnd (arguments algorithm packet keys connEnd) := by
  have hciphertext : (arguments algorithm packet keys connEnd).ciphertext.length =
      packet.fragment.length - (parameters algorithm).recordIvLength -
        (parameters algorithm).authTagLength := by
    rw [arguments, List.length_drop, List.length_take]
    omega
  have hadditional : (arguments algorithm packet keys connEnd).additionalData =
      additionalData packet (arguments algorithm packet keys connEnd).ciphertext.length := by
    have hlength : (packet.fragment.length : Int) - (parameters algorithm).recordIvLength -
        (parameters algorithm).authTagLength =
          ((arguments algorithm packet keys connEnd).ciphertext.length : Int) := by omega
    rw [← hlength]
    rfl
  constructor
  · rw [arguments, List.length_append, List.length_take, hsalt]
    omega
  · rw [arguments, List.length_drop]
    omega
  · refine ⟨_, rfl, ?_⟩
    have htake : (packet.fragment.take (packet.fragment.length -
        (parameters algorithm).authTagLength)).take (parameters algorithm).recordIvLength =
          packet.fragment.take (parameters algorithm).recordIvLength := by
      rw [List.take_take, Nat.min_eq_left (by omega)]
    rw [arguments, ← htake, List.take_append_drop, List.take_append_drop]
  · exact hadditional
  · rw [hadditional]
    apply additionalData_length_field
    omega

-- The parts add up to the fragment at no other length.
theorem length_of_wellFormed
    (h : WellFormed algorithm packet keys connEnd (arguments algorithm packet keys connEnd)) :
    ((parameters algorithm).recordIvLength + (parameters algorithm).authTagLength ≤
        packet.fragment.length ∧
      packet.fragment.length <
        (parameters algorithm).recordIvLength + (parameters algorithm).authTagLength + 2 ^ 16) ∧
    (keys.writeIV connEnd.other).length = (parameters algorithm).fixedIvLength := by
  have htag := authTagLength_pos algorithm
  rcases h.parts with ⟨nonceExplicit, hiv, hfragment⟩
  have hnonce : packet.fragment.take (parameters algorithm).recordIvLength = nonceExplicit :=
    List.append_cancel_left hiv
  have hparts := congrArg List.length hfragment
  have hfield := (bufferToNumber_bounds h.length_field).2
  have hivLength := h.iv_length
  rw [List.length_append, List.length_append, ← hnonce, List.length_take, h.authTag_length] at hparts
  rw [arguments, List.length_append, List.length_take] at hivLength
  generalize (arguments algorithm packet keys connEnd).ciphertext.length = ciphertextLength
    at hparts hfield
  norm_num at hfield
  exact ⟨⟨by omega, by omega⟩, by omega⟩

end Arguments

/-- The delegate decrypts with a full tag and nonce exactly when the fragment has room for both, its
ciphertext has a length that the additional data can hold, and the salt is of its fixed length. -/
theorem checksFully_iff (crypto : Crypto) (algorithm : AEADCipherAlgorithm) (packet : DTLSCiphertext)
    (keys : KeyMaterial) (connEnd : ConnectionEnd) :
    ChecksFully crypto algorithm packet keys connEnd ↔
      ((parameters algorithm).recordIvLength + (parameters algorithm).authTagLength ≤
          packet.fragment.length ∧
        packet.fragment.length <
          (parameters algorithm).recordIvLength + (parameters algorithm).authTagLength + 2 ^ 16) ∧
      (keys.writeIV connEnd.other).length = (parameters algorithm).fixedIvLength := by
  constructor
  · intro h
    apply length_of_wellFormed
    exact h.1 _ ((callsDecrypt_iff crypto algorithm packet keys connEnd _).mpr rfl)
  · intro h
    rcases h with ⟨⟨hlong, hshort⟩, hsalt⟩
    constructor
    · intro args hcall
      rw [callsDecrypt_iff] at hcall
      rw [hcall]
      exact arguments_wellFormed hlong hshort hsalt
    · intro hless
      omega

-- All twelve bytes of this fragment are the tag, four too few, and eight of them are the nonce as well.
theorem checksFully_short :
    ¬ ∀ (crypto : Crypto) (algorithm : AEADCipherAlgorithm) (packet : DTLSCiphertext)
      (keys : KeyMaterial) (connEnd : ConnectionEnd),
      ChecksFully crypto algorithm packet keys connEnd := by
  intro h
  have hcalled := (callsDecrypt_iff Sample.aes .aes128gcm
    { Sample.hello with fragment := List.replicate 12 0 } Sample.keys .client _).mpr rfl
  have htag := ((h _ _ _ _ _).1 _ hcalled).authTag_length
  revert htag
  decide

end AEADCipher

end DtlsClient
