import DtlsClient.Library.Stream
import DtlsClient.TLS.ConnectionState

/-!
# Key expansion

`P` computes the data expansion function of RFC 5246, section 5: an infinite stream of hashes, of
which it returns as much as it is asked for.  The keys are cut off that stream one after the other.
-/

open Library

namespace DtlsClient

instance (algorithm : HashAlgorithm) : NeZero algorithm.keyAndHashLength :=
  ⟨algorithm.keyAndHashLength_pos.ne'⟩

namespace RFC5246

/-- `A(0) = seed` and `A(i) = HMAC(secret, A(i - 1))`. -/
def A (hmac : Bytes → Bytes) (seed : Bytes) : Nat → Bytes
  | 0 => seed
  | i + 1 => hmac (A hmac seed i)

/-- `HMAC(secret, A(i + 1) + seed)`. -/
def block (crypto : Crypto) (algorithm : HashAlgorithm) (secret seed : Bytes) (i : Nat) :
    List.Vector UInt8 algorithm.keyAndHashLength :=
  ⟨crypto.hmac algorithm secret (A (crypto.hmac algorithm secret) seed (i + 1) ++ seed),
    crypto.hmac_length algorithm secret _⟩

/-- `HMAC(secret, A(1) + seed) + HMAC(secret, A(2) + seed) + ...`. -/
def expansion (crypto : Crypto) (algorithm : HashAlgorithm) (secret seed : Bytes) : Stream' UInt8 :=
  concatBlocks (block crypto algorithm secret seed)

end RFC5246

/-! ## The memoized sequence -/

namespace PRF

variable (hmac : Bytes → Bytes) (seed : Bytes)

/-- The table when `A(k)` is the last value in it. -/
def memo (k : Nat) : List Bytes := (List.range (k + 1)).map (RFC5246.A hmac seed)

theorem memo_succ (k : Nat) :
    memo hmac seed (k + 1) = memo hmac seed k ++ [hmac (RFC5246.A hmac seed k)] := by
  rw [memo, memo, List.range_succ, List.map_append]
  rfl

-- The table only ever grows up to the value that is asked for.
theorem A_memo (i k : Nat) :
    A hmac i (memo hmac seed k) = (RFC5246.A hmac seed i, memo hmac seed (max k i)) := by
  induction i with
  | zero =>
      have hhead : (memo hmac seed k).headD [] = seed := by
        rw [memo, List.range_succ_eq_map]
        rfl
      rw [A, hhead, Nat.max_eq_left (Nat.zero_le k)]
      rfl
  | succ i ih =>
      by_cases hknown : i + 1 ≤ k
      · have hentry : (memo hmac seed k)[i + 1]? = some (RFC5246.A hmac seed (i + 1)) := by
          rw [memo, List.getElem?_map, List.getElem?_range (by omega)]
          rfl
        rw [A, hentry, Nat.max_eq_left hknown]
      · have hentry : (memo hmac seed k)[i + 1]? = none := by
          rw [List.getElem?_eq_none]
          rw [memo, List.length_map, List.length_range]
          omega
        -- the recursive call has filled the table up to `A(i)`
        have hfilled : max k i = i := Nat.max_eq_right (by omega)
        rw [A, hentry, ih, hfilled, Nat.max_eq_right (by omega), memo_succ]
        rfl

/-! ## The loop -/

-- The first `k` hashes.
def hashes (k : Nat) : Bytes :=
  (List.range k).flatMap fun i => hmac (RFC5246.A hmac seed (i + 1) ++ seed)

theorem hashes_succ (k : Nat) :
    hashes hmac seed (k + 1) = hashes hmac seed k ++ hmac (RFC5246.A hmac seed (k + 1) ++ seed) := by
  rw [hashes, hashes, List.range_succ, List.flatMap_append, List.flatMap_singleton]

-- Every round appends the next hash, whatever has been memoized so far.
theorem expand_hashes (length fuel k : Nat) :
    ∃ count, expand hmac seed length fuel (k + 1) (memo hmac seed k) (hashes hmac seed k) =
      hashes hmac seed count := by
  induction fuel generalizing k with
  | zero => exact ⟨k, rfl⟩
  | succ fuel ih =>
      rw [expand]
      split
      · have htable : max k (k + 1) = k + 1 := by omega
        have hnext := ih (k + 1)
        rw [hashes_succ] at hnext
        rw [A_memo, htable]
        exact hnext
      · exact ⟨k, rfl⟩

variable {hmac seed}

-- Whole hashes are the start of the stream.
theorem hashes_eq_take (crypto : Crypto) (algorithm : HashAlgorithm) (secret seed : Bytes)
    (count : Nat) :
    hashes (crypto.hmac algorithm secret) seed count =
      (RFC5246.expansion crypto algorithm secret seed).take (count * algorithm.keyAndHashLength) := by
  rw [RFC5246.expansion, take_concatBlocks]
  rfl

theorem P_eq_take (crypto : Crypto) (algorithm : HashAlgorithm) (secret seed : Bytes)
    (length : Nat) :
    P crypto algorithm secret seed length =
      (RFC5246.expansion crypto algorithm secret seed).take length := by
  rcases expand_hashes (crypto.hmac algorithm secret) seed length length 0 with ⟨count, hloop⟩
  have henough := expand_length_ge crypto algorithm secret seed length length 1 [seed] [] (by simp)
  have hstart : expand (crypto.hmac algorithm secret) seed length length 1 [seed] [] =
      (RFC5246.expansion crypto algorithm secret seed).take
        (count * algorithm.keyAndHashLength) := by
    rw [← hashes_eq_take]
    exact hloop
  rw [hstart, Stream'.length_take] at henough
  rw [P, hstart, Stream'.take_take, Nat.min_eq_right henough]

end PRF

/-! ## The key block -/

/-- The fields in the order in which they are read. -/
def KeyMaterial.parts (keys : KeyMaterial) : List Bytes :=
  [keys.clientWriteMACKey, keys.serverWriteMACKey, keys.clientWriteKey, keys.serverWriteKey,
    keys.clientWriteIV, keys.serverWriteIV]

/-- The lengths that a suite asks for, in that order. -/
def CipherSuite.partLengths (suite : CipherSuite) : List Nat :=
  [suite.mac.keyAndHashLength, suite.mac.keyAndHashLength, suite.keyLength, suite.keyLength,
    suite.fixedIvLength, suite.fixedIvLength]

namespace ConnectionState

-- A piece of the key block is the same piece of the stream.
theorem take_drop_take {s : Stream' UInt8} {whole skipped length : Nat}
    (hinside : skipped + length ≤ whole) :
    ((s.take whole).drop skipped).take length = (s.drop skipped).take length := by
  rw [List.take_drop, Stream'.take_take, Nat.min_eq_right hinside, Stream'.take_drop]

theorem readKeyBlock_parts (suite : CipherSuite) (s : Stream' UInt8) :
    (readKeyBlock suite (s.take suite.partLengths.sum)).parts = cut suite.partLengths s := by
  simp only [KeyMaterial.parts, readKeyBlock, CipherSuite.partLengths, cut, Stream'.drop_drop,
    List.sum_cons, List.sum_nil]
  simp (disch := omega) only [take_drop_take]
  rfl

theorem partLengths_sum (suite : CipherSuite) : suite.partLengths.sum =
    2 * (suite.mac.keyAndHashLength + suite.keyLength + suite.fixedIvLength) := by
  simp only [CipherSuite.partLengths, List.sum_cons, List.sum_nil]
  omega

/-- `P` is the start of the RFC's stream, so that a shorter request gives the start of a longer one;
and the key material are the consecutive pieces of the suite's lengths of the stream of the label
"key expansion", which together are all of the key block. -/
theorem keyExpansion_rfc5246 (crypto : Crypto) :
    (∀ algorithm secret seed length, PRF.P crypto algorithm secret seed length =
      (RFC5246.expansion crypto algorithm secret seed).take length) ∧
    (∀ algorithm secret seed length more, PRF.P crypto algorithm secret seed length <+:
      PRF.P crypto algorithm secret seed (length + more)) ∧
    ∀ suite prf masterSecret seed,
      let keys := computeKeyMaterial crypto suite prf masterSecret seed
      let stream := RFC5246.expansion crypto prf masterSecret (ascii "key expansion" ++ seed)
      keys.parts = cut suite.partLengths stream ∧
      keys.parts.map List.length = suite.partLengths ∧
      keys.parts.flatten = PRF crypto prf masterSecret (ascii "key expansion") seed
        (2 * (suite.mac.keyAndHashLength + suite.keyLength + suite.fixedIvLength)) := by
  refine ⟨?_, ?_, ?_⟩
  · exact PRF.P_eq_take crypto
  · intro algorithm secret seed length more
    rw [PRF.P_eq_take, PRF.P_eq_take]
    exact Stream'.take_prefix_take_left _ _ _ (Nat.le_add_right length more)
  · intro suite prf masterSecret seed keys stream
    have hblock : PRF crypto prf masterSecret (ascii "key expansion") seed
        (2 * (suite.mac.keyAndHashLength + suite.keyLength + suite.fixedIvLength)) =
          stream.take suite.partLengths.sum := by
      rw [← partLengths_sum]
      exact PRF.P_eq_take crypto prf masterSecret _ _
    have hparts : keys.parts = cut suite.partLengths stream := by
      show (readKeyBlock suite (PRF crypto prf masterSecret _ seed _)).parts = _
      rw [hblock]
      exact readKeyBlock_parts suite stream
    refine ⟨hparts, ?_, ?_⟩
    · rw [hparts]
      exact cut_lengths suite.partLengths stream
    · rw [hparts, hblock]
      exact cut_flatten suite.partLengths stream

end ConnectionState

end DtlsClient
