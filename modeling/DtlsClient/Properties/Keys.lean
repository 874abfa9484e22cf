import DtlsClient.DTLS.Handshake
import DtlsClient.Properties.Epochs

/-!
# Which epochs hold keys

`EpochsInv crypto keyed rl` says of every epoch what its connection state can hold.  Only epoch 1 is
ever keyed, and `keyed` tells whether it is.
-/

open Library

namespace DtlsClient

namespace ConnectionState

/-- A keyed state with what was cached in it: its own cipher, but perhaps a decipher that was made
before there were keys. -/
structure Negotiated (crypto : Crypto) (c : ConnectionState) : Prop where
  keyed : c.Keyed crypto
  cachedCipher : ∀ d, c.cachedCipher = some d → c.specify = some d
  cachedDecipher : ∀ d, c.cachedDecipher = some d → d.keyMaterial = none ∨ c.specify = some d

theorem Keyed.specify {crypto : Crypto} {c : ConnectionState} (h : c.Keyed crypto) :
    ∃ suite keys, c.specify = some ⟨suite, some keys, c.entity⟩ ∧ suite.cipherType ≠ .null ∧
      c.cipherSuite = some suite ∧ c.keyMaterial = some keys := by
  rcases h.exists with ⟨suite, _, _, keys, hsuite, hnull, _, _, hkeys⟩
  refine ⟨suite, keys, ?_, hnull, hsuite, hkeys⟩
  rw [ConnectionState.specify, hsuite, hkeys]
  rfl

theorem Negotiated.cipher_eq {crypto : Crypto} {c : ConnectionState} (h : c.Negotiated crypto) :
    c.cipher = c.specify := by
  unfold cipher
  cases hc : c.cachedCipher with
  | none => rfl
  | some d => exact (h.cachedCipher d hc).symm

theorem Negotiated.ready {crypto : Crypto} {c : ConnectionState} (h : c.Negotiated crypto) :
    c.Ready := by
  rcases h.keyed.specify with ⟨suite, keys, hspecify, _, hsuite, _⟩
  exact ⟨suite, hsuite, fun _ => ⟨keys, h.cipher_eq.trans hspecify⟩⟩

theorem Negotiated.withCipher {crypto : Crypto} {c : ConnectionState} (h : c.Negotiated crypto) :
    c.withCipher.Negotiated crypto where
  keyed := h.keyed.congr rfl rfl rfl rfl rfl
  cachedCipher := by
    intro d hd
    exact h.cipher_eq.symm.trans hd
  cachedDecipher := h.cachedDecipher

theorem Negotiated.withDecipher {crypto : Crypto} {c : ConnectionState}
    (h : c.Negotiated crypto) : c.withDecipher.Negotiated crypto where
  keyed := h.keyed.congr rfl rfl rfl rfl rfl
  cachedCipher := h.cachedCipher
  cachedDecipher := by
    intro d hd
    have hd : c.decipher = some d := hd
    unfold decipher at hd
    cases hc : c.cachedDecipher with
    | none => rw [hc] at hd; exact .inr hd
    | some d' =>
        rw [hc] at hd
        have heq : d' = d := Option.some.inj hd
        subst heq
        exact h.cachedDecipher d' hc

-- Every decipher that an unkeyed state hands out is one without keys.
theorem Unkeyed.decipher_keyMaterial {c : ConnectionState} (h : c.Unkeyed) {d : Delegate}
    (hd : c.decipher = some d) : d.keyMaterial = none := by
  unfold decipher at hd
  cases hc : c.cachedDecipher with
  | none =>
      rw [hc] at hd
      have hd : c.specify = some d := hd
      unfold specify at hd
      rw [Option.map_eq_some_iff] at hd
      rcases hd with ⟨suite, _, rfl⟩
      exact h.keyMaterial
  | some d' =>
      rw [hc] at hd
      have heq : d' = d := Option.some.inj hd
      subst heq
      exact h.cachedDecipher d' hc

theorem Unkeyed.withDecipher {c : ConnectionState} (h : c.Unkeyed) : c.withDecipher.Unkeyed where
  masterSecret := h.masterSecret
  keyMaterial := h.keyMaterial
  cachedCipher := h.cachedCipher
  cachedDecipher := fun _ hd => h.decipher_keyMaterial hd

end ConnectionState

/-- What the connection state of epoch `i` can hold. -/
structure EpochInv (crypto : Crypto) (i : Nat) (keyed : Bool) (c : ConnectionState) : Prop where
  entity : c.entity = .client
  clientRandom : i ≠ 1 → c.clientRandom = none
  suite_mem : ∀ suite, c.cipherSuite = some suite → suite ∈ CipherSuites.values
  clear : i = 0 → c.cipherSuite = some CipherSuites.TLS_NULL_WITH_NULL_NULL
  unkeyed : keyed = false → c.Unkeyed
  negotiated : keyed = true → c.Negotiated crypto

structure EpochsInv (crypto : Crypto) (keyed : Bool) (rl : RecordLayer) : Prop where
  epoch : ∀ i, EpochInv crypto i (keyed && i == 1) (rl.connState i)
  writeEpochNr : rl.writeEpochNr ≤ 1
  keyed_of_write : rl.writeEpochNr = 1 → keyed = true

namespace EpochInv

variable {crypto : Crypto} {i : Nat} {keyed : Bool} {c : ConnectionState}

theorem new (crypto : Crypto) (i : Nat) : EpochInv crypto i false .new where
  entity := rfl
  clientRandom := fun _ => rfl
  suite_mem := by
    intro suite hsuite
    rcases Option.some.inj hsuite with rfl
    decide
  clear := fun _ => rfl
  unkeyed := fun _ => ⟨rfl, rfl, rfl, fun _ h => nomatch h⟩
  negotiated := fun h => nomatch h

theorem withDecipher (h : EpochInv crypto i keyed c) : EpochInv crypto i keyed c.withDecipher where
  entity := h.entity
  clientRandom := h.clientRandom
  suite_mem := h.suite_mem
  clear := h.clear
  unkeyed := fun hk => (h.unkeyed hk).withDecipher
  negotiated := fun hk => (h.negotiated hk).withDecipher

-- A cipher is only created in a keyed state.
theorem withCipher (h : EpochInv crypto i keyed c) (hkeyed : keyed = true) :
    EpochInv crypto i keyed c.withCipher where
  entity := h.entity
  clientRandom := h.clientRandom
  suite_mem := h.suite_mem
  clear := h.clear
  unkeyed := fun hk => by rw [hkeyed] at hk; cases hk
  negotiated := fun hk => (h.negotiated hk).withCipher

theorem setVersion (h : EpochInv crypto i keyed c) (version : ProtocolVersion) :
    EpochInv crypto i keyed { c with protocolVersion := version } where
  entity := h.entity
  clientRandom := h.clientRandom
  suite_mem := h.suite_mem
  clear := h.clear
  unkeyed := fun hk =>
    let hu := h.unkeyed hk
    ⟨hu.masterSecret, hu.keyMaterial, hu.cachedCipher, hu.cachedDecipher⟩
  negotiated := fun hk =>
    let hn := h.negotiated hk
    ⟨hn.keyed.congr rfl rfl rfl rfl rfl, hn.cachedCipher, hn.cachedDecipher⟩

theorem setClientRandom (h : EpochInv crypto 1 false c) (random : Bytes) :
    EpochInv crypto 1 false { c with clientRandom := some random } where
  entity := h.entity
  clientRandom := fun hne => absurd rfl hne
  suite_mem := h.suite_mem
  clear := h.clear
  unkeyed := fun hk =>
    let hu := h.unkeyed hk
    ⟨hu.masterSecret, hu.keyMaterial, hu.cachedCipher, hu.cachedDecipher⟩
  negotiated := fun hk => nomatch hk

theorem setServerHello (h : EpochInv crypto i false c) (hi : i ≠ 0) (hello : ServerHello) :
    EpochInv crypto i false
      { c with
        serverRandom := some hello.random.serialize
        cipherSuite := CipherSuites.byId hello.cipherSuite
        compressionAlgorithm := hello.compressionMethod } where
  entity := h.entity
  clientRandom := h.clientRandom
  suite_mem := fun _ hsuite => CipherSuites.byId_mem hsuite
  clear := fun h0 => absurd h0 hi
  unkeyed := fun hk =>
    let hu := h.unkeyed hk
    ⟨hu.masterSecret, hu.keyMaterial, hu.cachedCipher, hu.cachedDecipher⟩
  negotiated := fun hk => nomatch hk

-- The secrets are derived in epoch 1, the only one with a client random.
theorem computeMasterSecret {c' : ConnectionState} {p : PreMasterSecret} {suite : CipherSuite}
    (h : EpochInv crypto i false c) (hsuite : c.cipherSuite = some suite)
    (hpsk : suite.keyExchange = some .psk)
    (hok : c.computeMasterSecret crypto p = .ok c') : i = 1 ∧ EpochInv crypto i true c' := by
  have hidem := ConnectionState.computeMasterSecret_idem hok
  rcases ConnectionState.computeMasterSecret_ok hok with
    ⟨suite', prf, masterSecret, clientRandom, serverRandom, hs, hprf, hc, hsr, hms, rfl⟩
  have hu := h.unkeyed rfl
  have hmem := h.suite_mem suite hsuite
  have hi : i = 1 := by
    by_contra hne
    rw [h.clientRandom hne] at hc
    cases hc
  refine ⟨hi, ⟨h.entity, fun hne => absurd hi hne, h.suite_mem, h.clear, (fun hk => nomatch hk),
    fun _ => ⟨⟨⟨suite, hmem, hsuite, (CipherSuites.psk_values hmem hpsk).1⟩, p, hidem⟩, ?_, ?_⟩⟩⟩
  · intro d hd
    rw [hu.cachedCipher] at hd
    cases hd
  · exact fun d hd => .inl (hu.cachedDecipher d hd)

end EpochInv

namespace EpochsInv

variable {crypto : Crypto} {keyed : Bool} {rl : RecordLayer}

theorem new (crypto : Crypto) : EpochsInv crypto false .new where
  epoch := by
    intro i
    have hstate : RecordLayer.connState .new i = .new := by
      match i with
      | 0 => rfl
      | 1 => rfl
      | i + 2 => rfl
    rw [hstate]
    exact EpochInv.new crypto i
  writeEpochNr := Nat.zero_le 1
  keyed_of_write := fun h => nomatch h

-- The invariant depends on the connection states and on the write epoch.
theorem congr {rl' : RecordLayer} (h : EpochsInv crypto keyed rl)
    (hstate : ∀ i, rl'.connState i = rl.connState i) (hwrite : rl'.writeEpochNr = rl.writeEpochNr) :
    EpochsInv crypto keyed rl' where
  epoch := fun i => by rw [hstate]; exact h.epoch i
  writeEpochNr := by rw [hwrite]; exact h.writeEpochNr
  keyed_of_write := fun hw => h.keyed_of_write (hwrite ▸ hw)

theorem updateConnectionState {f : ConnectionState → ConnectionState} (h : EpochsInv crypto keyed rl)
    (i : Nat) (hf : EpochInv crypto i (keyed && i == 1) (rl.connState i) →
      EpochInv crypto i (keyed && i == 1) (f (rl.connState i))) :
    EpochsInv crypto keyed (rl.updateConnectionState i f) where
  epoch := by
    intro j
    rcases rl.connState_updateConnectionState_cases i j f with hsame | ⟨rfl, hnew⟩
    · rw [hsame]
      exact h.epoch j
    · rw [hnew]
      exact hf (h.epoch j)
  writeEpochNr := h.writeEpochNr
  keyed_of_write := h.keyed_of_write

theorem receive (h : EpochsInv crypto keyed rl) (memory : Nat → Memory) (buf : Bytes) :
    EpochsInv crypto keyed (rl.receive crypto memory buf).2 where
  epoch := by
    intro i
    rw [RecordLayer.connState_receive]
    split
    · exact (h.epoch i).withDecipher
    · exact h.epoch i
  writeEpochNr := by rw [RecordLayer.receive_writeEpochNr]; exact h.writeEpochNr
  keyed_of_write := by rw [RecordLayer.receive_writeEpochNr]; exact h.keyed_of_write

theorem advanceReadEpoch (h : EpochsInv crypto keyed rl) :
    EpochsInv crypto keyed rl.advanceReadEpoch :=
  h.congr rl.connState_advanceReadEpoch rfl

theorem ready (h : EpochsInv crypto keyed rl) : (rl.connState rl.writeEpochNr).Ready := by
  have hepoch := h.epoch rl.writeEpochNr
  have hle := h.writeEpochNr
  by_cases hw : rl.writeEpochNr = 1
  · have hkeyed := h.keyed_of_write hw
    exact (hepoch.negotiated (by rw [hkeyed, hw]; rfl)).ready
  · exact ⟨_, hepoch.clear (by omega), fun hne => absurd rfl hne⟩

/-- Sending keeps the invariant; a ChangeCipherSpec is only sent when epoch 1 has keys. -/
theorem outgoing {msg : Message} {buf : Bytes} {rl' : RecordLayer} (h : EpochsInv crypto keyed rl)
    (hout : RecordLayer.Outgoing crypto msg rl buf rl')
    (hccs : msg.type = .changeCipherSpec → rl.writeEpochNr = 0 ∧ keyed = true) :
    EpochsInv crypto keyed rl' where
  epoch := by
    intro i
    rcases hout.connState i with hsame | ⟨rfl, hnew, hnull⟩
    · rw [hsame]
      exact h.epoch i
    · rw [hnew]
      have hepoch := h.epoch rl.writeEpochNr
      have hle := h.writeEpochNr
      by_cases hw : rl.writeEpochNr = 1
      · exact hepoch.withCipher (by rw [h.keyed_of_write hw, hw]; rfl)
      · exact absurd rfl (hnull _ (hepoch.clear (by omega)))
  writeEpochNr := by
    have hle := h.writeEpochNr
    rw [hout.writeEpochNr]
    split
    · rename_i hmsg
      have := (hccs hmsg).1
      omega
    · exact hle
  keyed_of_write := by
    rw [hout.writeEpochNr]
    split
    · rename_i hmsg
      exact fun _ => (hccs hmsg).2
    · exact h.keyed_of_write

end EpochsInv

end DtlsClient
