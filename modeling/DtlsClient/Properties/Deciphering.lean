import DtlsClient.Properties.Ciphers

/-!
# What a decipher accepts

A block decipher accepts exactly the fragments whose plaintext is a content, its MAC and a padding,
at every length of the fragment.
-/

open Library

namespace DtlsClient

/-! ## Block ciphers -/

namespace BlockCipher

/-- The padding of `pad + 1` bytes. -/
def padding (pad : Nat) : Bytes := List.replicate (pad + 1) (UInt8.ofNat pad)

-- The bytes that the loop compares are those in front of the last one.
theorem stripPadding_check {deciphered : Bytes} {last : UInt8}
    (hlast : deciphered.getLast? = some last) (hfits : last.toNat < deciphered.length)
    (hcheck : ∀ i < last.toNat, deciphered[deciphered.length - 2 - i]? = some last) :
    deciphered.drop (deciphered.length - (last.toNat + 1)) = padding last.toNat := by
  rw [padding, UInt8.ofNat_toNat, List.eq_replicate_iff]
  refine ⟨by rw [List.length_drop]; omega, ?_⟩
  intro byte hbyte
  rcases List.mem_iff_getElem?.mp hbyte with ⟨j, hj⟩
  have hin : j < (deciphered.drop (deciphered.length - (last.toNat + 1))).length :=
    (List.getElem?_eq_some_iff.mp hj).1
  rw [List.length_drop] at hin
  rw [List.getElem?_drop] at hj
  by_cases hend : j = last.toNat
  · have hindex : deciphered.length - (last.toNat + 1) + j = deciphered.length - 1 := by omega
    rw [hindex, ← List.getLast?_eq_getElem?, hlast] at hj
    exact (Option.some.inj hj).symm
  · have hindex : deciphered.length - (last.toNat + 1) + j =
        deciphered.length - 2 - (last.toNat - 1 - j) := by omega
    rw [hindex, hcheck _ (by omega)] at hj
    exact (Option.some.inj hj).symm

/-- The padding is accepted exactly where it is whole, and exactly the padding is stripped off. -/
theorem stripPadding_eq_some_iff {deciphered plaintext : Bytes} :
    stripPadding deciphered = some plaintext ↔
      ∃ pad < 256, deciphered = plaintext ++ padding pad := by
  constructor
  · intro h
    unfold stripPadding at h
    cases hlast : deciphered.getLast? with
    | none => rw [hlast] at h; cases h
    | some last =>
        rw [hlast] at h
        simp only at h
        have hpos : 0 < deciphered.length := by
          rw [List.length_pos_iff, ← List.getLast?_isSome, hlast]
          rfl
        split at h
        · cases h
        · split at h
          · next hall =>
              rw [List.all_eq_true] at hall
              have hchecked : ∀ i < last.toNat, i + 2 ≤ deciphered.length ∧
                  deciphered[deciphered.length - 2 - i]? = some last := by
                intro i hi
                exact of_decide_eq_true (hall i (List.mem_range.mpr hi))
              -- the loop has read the first byte of the padding, so that it is not the whole input
              have hfits : last.toNat < deciphered.length := by
                by_cases hzero : last.toNat = 0
                · omega
                · have hfirst := (hchecked (last.toNat - 1) (by omega)).1
                  omega
              have hindex : (-1 - (last.toNat : Int)) = -((last.toNat + 1 : Nat) : Int) := by omega
              rw [hindex, slice_butLast _ (by omega)] at h
              refine ⟨last.toNat, last.toNat_lt, ?_⟩
              rw [← Option.some.inj h, ← stripPadding_check hlast hfits fun i hi => (hchecked i hi).2,
                List.take_append_drop]
          · cases h
  · intro h
    rcases h with ⟨pad, hpad, heq⟩
    rw [heq]
    exact stripPadding_padded plaintext hpad

-- The split is at the length of the MAC, also where that is zero or more than there is.
theorem split_at (plaintext : Bytes) (macLength : Nat) :
    (if macLength > 0 then slice plaintext 0 (-macLength) else plaintext) =
      plaintext.take (plaintext.length - macLength) ∧
    (if macLength > 0 then slice plaintext (-macLength) plaintext.length else []) =
      plaintext.drop (plaintext.length - macLength) := by
  by_cases hpos : macLength > 0
  · rw [if_pos hpos, if_pos hpos]
    exact ⟨slice_butLast plaintext hpos, slice_last plaintext hpos⟩
  · have hzero : macLength = 0 := by omega
    rw [if_neg hpos, if_neg hpos, hzero, Nat.sub_zero, List.take_length, List.drop_length]
    exact ⟨rfl, rfl⟩

section Accepting

variable (crypto : Crypto) (algorithm : BlockCipherAlgorithm) (mac : MAC) (packet : DTLSCiphertext)
  (keys : KeyMaterial) (connEnd : ConnectionEnd)

/-- What the block decryption makes of the bytes behind the IV. -/
def deciphered : Option Bytes :=
  crypto.decryptCBC algorithm (keys.writeKey connEnd.other)
    (packet.fragment.take (parameters algorithm).recordIvLength)
    (packet.fragment.drop (parameters algorithm).recordIvLength)

/-- The MAC of the sending end over the header of the packet with this content, and the content. -/
def contentMAC (content : Bytes) : Bytes :=
  mac.compute crypto
    (DTLSCompressed.computeMACHeader { packet with fragment := content } ++ content) keys connEnd.other

/-- The fragment holds this content: the content, its MAC and a padding were encrypted. -/
def Authentic (content : Bytes) : Prop :=
  ∃ pad ≤ 255, deciphered crypto algorithm packet keys connEnd =
    some (content ++ contentMAC crypto mac packet keys connEnd content ++ padding pad)

theorem contentMAC_length (content : Bytes) :
    (contentMAC crypto mac packet keys connEnd content).length = mac.keyAndHashLength :=
  MAC.compute_length crypto _ keys connEnd.other mac

/-- The delegate in the order of its steps: decryption, padding, MAC. -/
theorem decipher_eq : decipher crypto algorithm mac packet keys connEnd =
    match deciphered crypto algorithm packet keys connEnd with
    | none => .error .cipherFailed
    | some plain =>
        match stripPadding plain with
        | none => .error (.error "invalid MAC detected in DTLS packet")
        | some plaintext =>
            let content := plaintext.take (plaintext.length - mac.keyAndHashLength)
            if contentMAC crypto mac packet keys connEnd content =
                plaintext.drop (plaintext.length - mac.keyAndHashLength) then
              .ok { packet with fragment := content }
            else .error (.error "invalid MAC detected in DTLS packet") := by
  have hiv := slice_front packet.fragment (parameters algorithm).recordIvLength
  have hrest := slice_rest packet.fragment (parameters algorithm).blockSize
  rw [← recordIvLength_eq] at hrest
  unfold decipher deciphered
  simp only [hiv, ← recordIvLength_eq, hrest]
  cases crypto.decryptCBC algorithm (keys.writeKey connEnd.other)
    (packet.fragment.take (parameters algorithm).recordIvLength)
    (packet.fragment.drop (parameters algorithm).recordIvLength) with
  | none => rfl
  | some plain =>
      simp only
      cases stripPadding plain with
      | none => rfl
      | some plaintext =>
          rcases split_at plaintext mac.keyAndHashLength with ⟨hcontent, hreceived⟩
          simp only [hcontent, hreceived]
          rfl

/-- The delegate returns exactly the contents that the fragment authentically holds. -/
theorem decipher_ok_iff (result : DTLSCompressed) :
    decipher crypto algorithm mac packet keys connEnd = .ok result ↔
      ∃ content, Authentic crypto algorithm mac packet keys connEnd content ∧
        result = { packet with fragment := content } := by
  have hmac := contentMAC_length crypto mac packet keys connEnd
  unfold Authentic
  rw [decipher_eq]
  constructor
  · intro h
    split at h
    · cases h
    · next plain hplain =>
        split at h
        · cases h
        · next plaintext hplaintext =>
            simp only at h
            split at h
            · next hequal =>
                rcases stripPadding_eq_some_iff.mp hplaintext with ⟨pad, hpad, hpadded⟩
                refine ⟨_, ⟨pad, by omega, ?_⟩, (Except.ok.inj h).symm⟩
                rw [hplain, hpadded, hequal, List.take_append_drop]
            · cases h
  · intro h
    rcases h with ⟨content, ⟨pad, hpad, hplain⟩, hresult⟩
    have hlength : (content ++ contentMAC crypto mac packet keys connEnd content).length -
        mac.keyAndHashLength = content.length := by
      rw [List.length_append, hmac, Nat.add_sub_cancel]
    rw [hplain, hresult]
    simp only [stripPadding_eq_some_iff.mpr ⟨pad, Nat.lt_succ_of_le hpad, rfl⟩, hlength,
      List.take_left, List.drop_left]
    exact if_pos trivial

-- Everything else is refused.
theorem decipher_error
    (hnone : ¬ ∃ content, Authentic crypto algorithm mac packet keys connEnd content) :
    ∃ e, decipher crypto algorithm mac packet keys connEnd = .error e := by
  cases h : decipher crypto algorithm mac packet keys connEnd with
  | error e => exact ⟨e, rfl⟩
  | ok result =>
      rcases (decipher_ok_iff crypto algorithm mac packet keys connEnd result).mp h with
        ⟨content, hauthentic, -⟩
      exact absurd ⟨content, hauthentic⟩ hnone

end Accepting

/-- Block decryption keeps the length of whole blocks and fails on everything else. -/
def KeepsBlocks (crypto : Crypto) : Prop :=
  ∀ algorithm key iv ciphered plain, crypto.decryptCBC algorithm key iv ciphered = some plain →
    (parameters algorithm).blockSize ∣ ciphered.length ∧ plain.length = ciphered.length

-- The IV, the MAC and the length of the padding must have their places in whole blocks.
theorem Authentic.length_le {crypto : Crypto} (hblocks : KeepsBlocks crypto)
    {algorithm : BlockCipherAlgorithm} {mac : MAC} {packet : DTLSCiphertext} {keys : KeyMaterial}
    {connEnd : ConnectionEnd} {content : Bytes}
    (h : Authentic crypto algorithm mac packet keys connEnd content) :
    (parameters algorithm).blockSize ∣
        packet.fragment.length - (parameters algorithm).recordIvLength ∧
      (parameters algorithm).recordIvLength + mac.keyAndHashLength + 1 ≤ packet.fragment.length := by
  rcases h with ⟨pad, -, hplain⟩
  rcases hblocks _ _ _ _ _ hplain with ⟨hwhole, hlength⟩
  rw [List.length_drop] at hwhole hlength
  rw [List.length_append, List.length_append, contentMAC_length, padding, List.length_replicate]
    at hlength
  exact ⟨hwhole, by omega⟩

/-- A CBC record is accepted with exactly the content that it authentically holds, and refused where
it holds none; so is every fragment that is too short or not in whole blocks. -/
theorem decipher_accepts_iff (crypto : Crypto) (algorithm : BlockCipherAlgorithm) (mac : MAC)
    (packet : DTLSCiphertext) (keys : KeyMaterial) (connEnd : ConnectionEnd) :
    (∀ content, decipher crypto algorithm mac packet keys connEnd =
        .ok { packet with fragment := content } ↔
      Authentic crypto algorithm mac packet keys connEnd content) ∧
    ((¬ ∃ content, Authentic crypto algorithm mac packet keys connEnd content) →
      ∃ e, decipher crypto algorithm mac packet keys connEnd = .error e) ∧
    (KeepsBlocks crypto →
      packet.fragment.length < (parameters algorithm).recordIvLength + mac.keyAndHashLength + 1 ∨
        ¬ (parameters algorithm).blockSize ∣
          packet.fragment.length - (parameters algorithm).recordIvLength →
      ∃ e, decipher crypto algorithm mac packet keys connEnd = .error e) := by
  refine ⟨?_, decipher_error crypto algorithm mac packet keys connEnd, ?_⟩
  · intro content
    rw [decipher_ok_iff]
    constructor
    · intro h
      rcases h with ⟨content', hauthentic, hsame⟩
      have hcontent : content = content' := congrArg DTLSPacket.fragment hsame
      rw [hcontent]
      exact hauthentic
    · intro h
      exact ⟨content, h, rfl⟩
  · intro hblocks hshort
    apply decipher_error
    intro h
    rcases h with ⟨content, hauthentic⟩
    rcases hauthentic.length_le hblocks with ⟨hwhole, hlength⟩
    rcases hshort with hshort | hshort
    · omega
    · exact hshort hwhole

end BlockCipher

namespace Sample

/-- The primitives, which fail where they are not given whole blocks. -/
def aesBlocks : Crypto where
  __ := aes
  decryptCBC algorithm key iv ciphered :=
    if (BlockCipher.parameters algorithm).blockSize ∣ ciphered.length then
      aes.decryptCBC algorithm key iv ciphered
    else none

theorem aesBlocks_keeps : BlockCipher.KeepsBlocks aesBlocks := by
  intro algorithm key iv ciphered plain h
  have hlength : (hello.fragment ++ helloMAC ++ List.replicate 11 10).length = helloCBC.length := by
    decide
  simp only [aesBlocks] at h
  split at h
  · next hwhole =>
      have hplain := Option.some.inj h
      exact ⟨hwhole, hplain ▸ swap_length hlength ciphered⟩
  · cases h

end Sample

-- The sample record is accepted, and refused when its last block is missing.
theorem BlockCipher.decipher_accepts_hello :
    (BlockCipher.decipher Sample.aesBlocks .aes128cbc (some .sha256)
        { Sample.hello with fragment := (List.range 16).map UInt8.ofNat ++ Sample.helloCBC }
        Sample.keys .server = .ok Sample.hello ↔
      BlockCipher.Authentic Sample.aesBlocks .aes128cbc (some .sha256)
        { Sample.hello with fragment := (List.range 16).map UInt8.ofNat ++ Sample.helloCBC }
        Sample.keys .server Sample.hello.fragment) ∧
    ∃ e, BlockCipher.decipher Sample.aesBlocks .aes128cbc (some .sha256)
      { Sample.hello with fragment := (List.range 16).map UInt8.ofNat ++ Sample.helloCBC.take 32 }
      Sample.keys .server = .error e :=
  ⟨(BlockCipher.decipher_accepts_iff _ _ _ _ _ _).1 _,
    (BlockCipher.decipher_accepts_iff _ _ _ _ _ _).2.2 Sample.aesBlocks_keeps (.inl (by decide))⟩

end DtlsClient
