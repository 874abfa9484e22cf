import DtlsClient.Lib.Runtime

/-!
# `TLS/PRF`

The data expansion function `P` and the pseudorandom function, over the primitives of Node's
`crypto` module.
-/

open Library

namespace DtlsClient

inductive HashAlgorithm where
  | md5
  | sha1
  | sha256
  | sha384
  | sha512
deriving DecidableEq, Repr

def HashAlgorithm.keyAndHashLength : HashAlgorithm → Nat
  | .md5 => 16
  | .sha1 => 20
  | .sha256 => 32
  | .sha384 => 48
  | .sha512 => 64

inductive BlockCipherAlgorithm where
  | aes128cbc
  | aes256cbc
  | desEde3Cbc
deriving DecidableEq, Repr

inductive AEADCipherAlgorithm where
  | aes128ccm
  | aes256ccm
  | aes128ccm8
  | aes256ccm8
  | aes128gcm
  | aes256gcm
deriving DecidableEq, Repr

/-- The two encryption interfaces of `lib/AEADCrypto`. -/
inductive AEADMode where
  | ccm
  | gcm
deriving DecidableEq, Repr

structure EncryptionResult where
  ciphertext : Bytes
  authTag : Bytes

structure DecryptionResult where
  plaintext : Bytes
  authOk : Bool

/-- Node's `crypto` module.  Decryption may throw (`none`); encryption is only ever called with keys,
initialization vectors and padded plaintexts of the lengths its algorithm asks for. -/
structure Crypto where
  hash : HashAlgorithm → Bytes → Bytes
  hmac : HashAlgorithm → (secret data : Bytes) → Bytes
  hmac_length : ∀ algorithm secret data,
    (hmac algorithm secret data).length = algorithm.keyAndHashLength
  encryptCBC : BlockCipherAlgorithm → (key iv plaintext : Bytes) → Bytes
  decryptCBC : BlockCipherAlgorithm → (key iv ciphertext : Bytes) → Option Bytes
  encryptAEAD : AEADMode → (key nonce plaintext additionalData : Bytes) → (authTagLength : Nat) →
    EncryptionResult
  decryptAEAD : AEADMode → (key nonce ciphertext additionalData authTag : Bytes) →
    Option DecryptionResult
  /-- `crypto.randomBytes(length)` as drawn for the record with this epoch and sequence number. -/
  randomBytes : (epoch sequenceNumber length : Nat) → Bytes

namespace PRF

/-- The memoized sequence `A(i)` of `P`; the table holds `A(0)`, the seed, from the start. -/
def A (hmac : Bytes → Bytes) : Nat → List Bytes → Bytes × List Bytes
  | 0, table => (table.headD [], table)
  | i + 1, table =>
      match table[i + 1]? with
      | some a => (a, table)
      | none =>
          let (previous, table) := A hmac i table
          (hmac previous, table ++ [hmac previous])

/-- The loop of `P`.  Every hash has at least one byte, so `length` rounds are enough. -/
def expand (hmac : Bytes → Bytes) (seed : Bytes) (length : Nat) :
    Nat → Nat → List Bytes → Bytes → Bytes
  | 0, _, _, hashes => hashes
  | fuel + 1, i, table, hashes =>
      if hashes.length < length then
        let (a, table) := A hmac i table
        expand hmac seed length fuel (i + 1) table (hashes ++ hmac (a ++ seed))
      else hashes

def P (crypto : Crypto) (algorithm : HashAlgorithm) (secret seed : Bytes) (length : Nat) : Bytes :=
  (expand (crypto.hmac algorithm secret) seed length length 1 [seed] []).take length

end PRF

/-- `PRF[algorithm](secret, label, seed, length)`. -/
def PRF (crypto : Crypto) (algorithm : HashAlgorithm) (secret label seed : Bytes) (length : Nat) :
    Bytes :=
  PRF.P crypto algorithm secret (label ++ seed) length

-- `Buffer.from(label, "ascii")`.
def ascii (label : String) : Bytes := label.toList.map fun c => UInt8.ofNat c.toNat

theorem HashAlgorithm.keyAndHashLength_pos (algorithm : HashAlgorithm) :
    0 < algorithm.keyAndHashLength := by
  cases algorithm <;> decide

theorem PRF.expand_length_ge (crypto : Crypto) (algorithm : HashAlgorithm) (secret seed : Bytes)
    (length fuel i : Nat) (table : List Bytes) (hashes : Bytes)
    (hfuel : length ≤ fuel + hashes.length) :
    length ≤ (expand (crypto.hmac algorithm secret) seed length fuel i table hashes).length := by
  induction fuel generalizing i table hashes with
  | zero => simpa [expand] using hfuel
  | succ fuel ih =>
      rw [expand]
      split
      · apply ih
        have hpos := algorithm.keyAndHashLength_pos
        rw [List.length_append, crypto.hmac_length]
        omega
      · omega

-- `P` returns exactly as many bytes as it is asked for.
theorem PRF.P_length (crypto : Crypto) (algorithm : HashAlgorithm) (secret seed : Bytes)
    (length : Nat) : (P crypto algorithm secret seed length).length = length := by
  rw [P, List.length_take, Nat.min_eq_left]
  exact expand_length_ge crypto algorithm secret seed length length 1 [seed] [] (by simp)

end DtlsClient
