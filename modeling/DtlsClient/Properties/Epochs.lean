import DtlsClient.DTLS.RecordLayer
import DtlsClient.Library.Exceptions

/-!
# What the record layer does to its epochs

`connState rl i` is the connection state of epoch `i`.  Every operation of the record layer is
described by what it does to the counters, to the connection states and to the windows.
-/

open Library

namespace DtlsClient

/-! ## Ciphering and deciphering -/

theorem CipherSuite.cipher_some (crypto : Crypto) (suite : CipherSuite) (packet : DTLSCompressed)
    (keys : KeyMaterial) (connEnd : ConnectionEnd) :
    ∃ sent, suite.cipher crypto packet (some keys) connEnd = .ok sent := by
  unfold CipherSuite.cipher
  cases suite.cipherType with
  | null => exact ⟨_, rfl⟩
  | block algorithm => exact ⟨_, rfl⟩
  | aead algorithm => exact ⟨_, rfl⟩

theorem BlockCipher.decipher_header {crypto : Crypto} {algorithm : BlockCipherAlgorithm} {mac : MAC}
    {p : DTLSCiphertext} {keys : KeyMaterial} {connEnd : ConnectionEnd} {q : DTLSCompressed}
    (h : BlockCipher.decipher crypto algorithm mac p keys connEnd = .ok q) :
    ∃ content, q = { p with fragment := content } := by
  unfold BlockCipher.decipher at h
  simp only at h
  split at h
  · cases h
  · split at h
    · cases h
    · split at h
      · split at h
        · exact ⟨_, (Except.ok.inj h).symm⟩
        · cases h
      · split at h
        · exact ⟨_, (Except.ok.inj h).symm⟩
        · cases h

theorem AEADCipher.decipher_header {crypto : Crypto} {algorithm : AEADCipherAlgorithm}
    {p : DTLSCiphertext} {keys : KeyMaterial} {connEnd : ConnectionEnd} {q : DTLSCompressed}
    (h : AEADCipher.decipher crypto algorithm p keys connEnd = .ok q) :
    ∃ content, q = { p with fragment := content } := by
  unfold AEADCipher.decipher at h
  simp only at h
  split at h
  · cases h
  · split at h
    · exact ⟨_, (Except.ok.inj h).symm⟩
    · cases h

-- A decipher replaces the fragment and keeps the rest of the record.
theorem CipherSuite.decipher_header {crypto : Crypto} {suite : CipherSuite} {p : DTLSCiphertext}
    {keys : Option KeyMaterial} {connEnd : ConnectionEnd} {q : DTLSCompressed}
    (h : suite.decipher crypto p keys connEnd = .ok q) :
    ∃ content, q = { p with fragment := content } := by
  unfold CipherSuite.decipher at h
  split at h
  · exact ⟨p.fragment, (Except.ok.inj h).symm⟩
  · exact BlockCipher.decipher_header h
  · exact AEADCipher.decipher_header h
  · cases h

-- Without keys only the NULL cipher deciphers, and it always does.
theorem CipherSuite.decipher_none (crypto : Crypto) (suite : CipherSuite) (p : DTLSCiphertext)
    (connEnd : ConnectionEnd) :
    suite.decipher crypto p none connEnd =
      if suite.cipherType = .null then .ok p else .error .typeError := by
  unfold CipherSuite.decipher
  cases suite.cipherType <;> simp

/-! ## Connection states -/

namespace ConnectionState

/-- The suite is one of the table that encrypts, and the secrets are those that
`computeMasterSecret` derives under it. -/
structure Keyed (crypto : Crypto) (c : ConnectionState) : Prop where
  encrypts : ∃ suite ∈ CipherSuites.values,
    c.cipherSuite = some suite ∧ suite.cipherType ≠ .null
  computed : ∃ preMasterSecret, c.computeMasterSecret crypto preMasterSecret = .ok c

/-- No secret has been derived, and nothing made from the state holds one. -/
structure Unkeyed (c : ConnectionState) : Prop where
  masterSecret : c.masterSecret = none
  keyMaterial : c.keyMaterial = none
  cachedCipher : c.cachedCipher = none
  cachedDecipher : ∀ d, c.cachedDecipher = some d → d.keyMaterial = none

/-- The state can protect what is sent: its suite is the NULL one, or its cipher has keys. -/
def Ready (c : ConnectionState) : Prop :=
  ∃ suite, c.cipherSuite = some suite ∧
    (suite.cipherType ≠ .null → ∃ keys, c.cipher = some ⟨suite, some keys, c.entity⟩)

@[simp] theorem decipher_withDecipher (c : ConnectionState) :
    c.withDecipher.decipher = c.decipher := by
  show (c.decipher <|> c.specify) = c.decipher
  unfold decipher
  cases c.cachedDecipher with
  | none => cases c.specify <;> rfl
  | some d => rfl

@[simp] theorem withDecipher_withDecipher (c : ConnectionState) :
    c.withDecipher.withDecipher = c.withDecipher := by
  show { c.withDecipher with cachedDecipher := c.withDecipher.decipher } = c.withDecipher
  rw [decipher_withDecipher]
  rfl

-- What `computeMasterSecret` reads and what it changes.
theorem computeMasterSecret_ok {crypto : Crypto} {p : PreMasterSecret} {c c' : ConnectionState}
    (h : c.computeMasterSecret crypto p = .ok c') :
    ∃ suite prf masterSecret clientRandom serverRandom,
      c.cipherSuite = some suite ∧ suite.prfAlgorithm = some prf ∧
      c.clientRandom = some clientRandom ∧ c.serverRandom = some serverRandom ∧
      masterSecret = PRF crypto prf p.serialize (ascii "master secret")
        (clientRandom ++ serverRandom) masterSecretLength ∧
      c' = { c with
        masterSecret := some masterSecret
        keyMaterial := some (computeKeyMaterial crypto suite prf masterSecret
          (serverRandom ++ clientRandom)) } := by
  unfold computeMasterSecret at h
  cases hsuite : c.cipherSuite with
  | none => rw [hsuite] at h; cases h
  | some suite =>
      cases hprf : suite.prfAlgorithm with
      | none => simp only [hsuite, hprf] at h; cases h
      | some prf =>
          cases hclient : c.clientRandom with
          | none =>
              simp only [hsuite, hprf, hclient, concatRandoms] at h
              cases h
          | some clientRandom =>
              cases hserver : c.serverRandom with
              | none =>
                  simp only [hsuite, hprf, hclient, hserver, concatRandoms] at h
                  cases h
              | some serverRandom =>
                  simp only [hsuite, hprf, hclient, hserver, concatRandoms] at h
                  exact ⟨suite, prf, _, clientRandom, serverRandom, rfl, hprf, rfl, rfl, rfl,
                    (Except.ok.inj h).symm⟩

theorem computeMasterSecret_idem {crypto : Crypto} {p : PreMasterSecret} {c c' : ConnectionState}
    (h : c.computeMasterSecret crypto p = .ok c') : c'.computeMasterSecret crypto p = .ok c' := by
  rcases computeMasterSecret_ok h with
    ⟨suite, prf, masterSecret, clientRandom, serverRandom, hsuite, hprf, hclient, hserver, rfl, rfl⟩
  simp only [computeMasterSecret, hsuite, hprf, hclient, hserver, concatRandoms]
  rfl

-- Keys depend on the suite, the two randoms and the secrets only.
theorem Keyed.congr {crypto : Crypto} {c c' : ConnectionState} (h : c.Keyed crypto)
    (hsuite : c'.cipherSuite = c.cipherSuite) (hclient : c'.clientRandom = c.clientRandom)
    (hserver : c'.serverRandom = c.serverRandom) (hmaster : c'.masterSecret = c.masterSecret)
    (hkeys : c'.keyMaterial = c.keyMaterial) : c'.Keyed crypto := by
  rcases h.computed with ⟨p, hp⟩
  refine ⟨by rw [hsuite]; exact h.encrypts, p, ?_⟩
  rcases computeMasterSecret_ok hp with
    ⟨suite, prf, masterSecret, clientRandom, serverRandom, hs, hprf, hc, hsr, hms, heq⟩
  have hm : c.masterSecret = some masterSecret := congrArg ConnectionState.masterSecret heq
  have hk : c.keyMaterial = some (computeKeyMaterial crypto suite prf masterSecret
      (serverRandom ++ clientRandom)) := congrArg ConnectionState.keyMaterial heq
  rcases c' with ⟨_, _, _, _, _, _, _, _, _, _⟩
  simp only at hsuite hclient hserver hmaster hkeys
  rw [hs] at hsuite
  rw [hc] at hclient
  rw [hsr] at hserver
  rw [hm, hms] at hmaster
  rw [hk, hms] at hkeys
  subst hsuite hclient hserver hmaster hkeys
  simp only [computeMasterSecret, hprf, concatRandoms]
  rfl

-- The suite, the hash of its PRF and the secrets that a keyed state has.
theorem Keyed.exists {crypto : Crypto} {c : ConnectionState} (h : c.Keyed crypto) :
    ∃ suite prf masterSecret keyMaterial, c.cipherSuite = some suite ∧ suite.cipherType ≠ .null ∧
      suite.prfAlgorithm = some prf ∧ c.masterSecret = some masterSecret ∧
      c.keyMaterial = some keyMaterial := by
  rcases h.encrypts with ⟨suite, _, hsuite, hnull⟩
  rcases h.computed with ⟨p, hp⟩
  rcases computeMasterSecret_ok hp with
    ⟨suite', prf, masterSecret, clientRandom, serverRandom, hs, hprf, _, _, _, heq⟩
  have heq' : suite = suite' := Option.some.inj (hsuite.symm.trans hs)
  subst heq'
  have hm : c.masterSecret = some masterSecret := congrArg ConnectionState.masterSecret heq
  have hk : c.keyMaterial = some (computeKeyMaterial crypto suite prf masterSecret
      (serverRandom ++ clientRandom)) := congrArg ConnectionState.keyMaterial heq
  exact ⟨suite, prf, masterSecret, _, hsuite, hnull, hprf, hm, hk⟩

theorem Unkeyed.not_keyed {crypto : Crypto} {c : ConnectionState} (h : c.Unkeyed) :
    ¬c.Keyed crypto := by
  intro hkeyed
  rcases hkeyed.exists with ⟨_, _, _, _, _, _, _, _, hkeys⟩
  rw [h.keyMaterial] at hkeys
  cases hkeys

end ConnectionState

namespace RecordLayer

def connState (rl : RecordLayer) (i : Nat) : ConnectionState := (rl.epoch i).connectionState

def window (rl : RecordLayer) (i : Nat) : AntiReplayWindow := (rl.epoch i).antiReplayWindow

/-! ## Updating an epoch, advancing a counter -/

theorem epoch_updateEpoch_self {rl : RecordLayer} {i : Nat} (hi : i < rl.epochs.length)
    (f : Epoch → Epoch) : (rl.updateEpoch i f).epoch i = f (rl.epoch i) := by
  unfold epoch updateEpoch
  simp only [List.getD_eq_getElem?_getD, List.getElem?_modify_eq, List.getElem?_eq_getElem hi]
  rfl

theorem epoch_updateEpoch_ne (rl : RecordLayer) {i j : Nat} (hij : j ≠ i) (f : Epoch → Epoch) :
    (rl.updateEpoch i f).epoch j = rl.epoch j := by
  unfold epoch updateEpoch
  simp only [List.getD_eq_getElem?_getD, List.getElem?_modify_ne f rl.epochs (Ne.symm hij)]

-- Nothing but the named epoch changes; one that does not exist stays as it is.
theorem epoch_updateEpoch_cases (rl : RecordLayer) (i j : Nat) (f : Epoch → Epoch) :
    (rl.updateEpoch i f).epoch j = rl.epoch j ∨
      j = i ∧ (rl.updateEpoch i f).epoch j = f (rl.epoch j) := by
  by_cases hij : j = i
  · subst hij
    by_cases hj : j < rl.epochs.length
    · exact .inr ⟨rfl, epoch_updateEpoch_self hj f⟩
    · left
      show (rl.epochs.modify j f).getD j (createEpoch j) = rl.epochs.getD j (createEpoch j)
      rw [List.modify_eq_self (by omega)]
  · exact .inl (epoch_updateEpoch_ne rl hij f)

@[simp] theorem updateEpoch_epochs_length (rl : RecordLayer) (i : Nat) (f : Epoch → Epoch) :
    (rl.updateEpoch i f).epochs.length = rl.epochs.length := List.length_modify ..

@[simp] theorem updateConnectionState_epochs_length (rl : RecordLayer) (i : Nat)
    (f : ConnectionState → ConnectionState) :
    (rl.updateConnectionState i f).epochs.length = rl.epochs.length := List.length_modify ..

theorem connState_updateConnectionState_self {rl : RecordLayer} {i : Nat}
    (hi : i < rl.epochs.length) (f : ConnectionState → ConnectionState) :
    (rl.updateConnectionState i f).connState i = f (rl.connState i) := by
  unfold connState updateConnectionState
  rw [epoch_updateEpoch_self hi]

theorem connState_updateConnectionState_ne (rl : RecordLayer) {i j : Nat} (hij : j ≠ i)
    (f : ConnectionState → ConnectionState) :
    (rl.updateConnectionState i f).connState j = rl.connState j := by
  unfold connState updateConnectionState
  rw [epoch_updateEpoch_ne rl hij]

theorem connState_updateConnectionState_cases (rl : RecordLayer) (i j : Nat)
    (f : ConnectionState → ConnectionState) :
    (rl.updateConnectionState i f).connState j = rl.connState j ∨
      j = i ∧ (rl.updateConnectionState i f).connState j = f (rl.connState j) := by
  unfold connState updateConnectionState
  rcases epoch_updateEpoch_cases rl i j _ with h | ⟨hij, h⟩
  · exact .inl (by rw [h])
  · exact .inr ⟨hij, by rw [h]⟩

theorem cachedDecipher_updateConnectionState (rl : RecordLayer) (i j : Nat)
    {f : ConnectionState → ConnectionState} (hf : ∀ c, (f c).cachedDecipher = c.cachedDecipher) :
    ((rl.updateConnectionState i f).connState j).cachedDecipher =
      (rl.connState j).cachedDecipher := by
  rcases rl.connState_updateConnectionState_cases i j f with h | ⟨_, h⟩
  · rw [h]
  · rw [h, hf]

theorem connState_updateEpoch (rl : RecordLayer) (i j : Nat) {f : Epoch → Epoch}
    (hf : ∀ e, (f e).connectionState = e.connectionState) :
    (rl.updateEpoch i f).connState j = rl.connState j := by
  unfold connState
  rcases epoch_updateEpoch_cases rl i j f with h | ⟨_, h⟩
  · rw [h]
  · rw [h, hf]

@[simp] theorem window_updateConnectionState (rl : RecordLayer) (i j : Nat)
    (f : ConnectionState → ConnectionState) :
    (rl.updateConnectionState i f).window j = rl.window j := by
  unfold window updateConnectionState
  rcases epoch_updateEpoch_cases rl i j _ with h | ⟨_, h⟩ <;> rw [h]

-- `ensureNextEpoch` appends the epoch that was thought to be there already.
theorem getD_ensureNextEpoch {epochs : List Epoch} {next : Nat} (hlen : next ≤ epochs.length)
    (j : Nat) :
    (ensureNextEpoch epochs next).getD j (createEpoch j) = epochs.getD j (createEpoch j) := by
  unfold ensureNextEpoch
  split
  · rename_i hle
    have hnext : next = epochs.length := by omega
    subst hnext
    simp only [List.getD_eq_getElem?_getD]
    by_cases hj : j < epochs.length
    · rw [List.getElem?_append_left hj]
    · rw [List.getElem?_append_right (by omega), List.getElem?_eq_none (l := epochs) (by omega)]
      by_cases hj' : j = epochs.length
      · subst hj'
        rw [Nat.sub_self]
        rfl
      · rw [List.getElem?_eq_none]
        rw [List.length_singleton]
        omega
  · rfl

@[simp] theorem epoch_advanceReadEpoch (rl : RecordLayer) (j : Nat) :
    rl.advanceReadEpoch.epoch j = rl.epoch j :=
  getD_ensureNextEpoch (by rw [rl.epochs_length]; omega) j

@[simp] theorem epoch_advanceWriteEpoch (rl : RecordLayer) (j : Nat) :
    rl.advanceWriteEpoch.epoch j = rl.epoch j :=
  getD_ensureNextEpoch (by rw [rl.epochs_length]; omega) j

@[simp] theorem connState_advanceReadEpoch (rl : RecordLayer) (j : Nat) :
    rl.advanceReadEpoch.connState j = rl.connState j := by
  rw [connState, epoch_advanceReadEpoch, connState]

@[simp] theorem connState_advanceWriteEpoch (rl : RecordLayer) (j : Nat) :
    rl.advanceWriteEpoch.connState j = rl.connState j := by
  rw [connState, epoch_advanceWriteEpoch, connState]

@[simp] theorem connState_udpSend (buf : Bytes) (rl : RecordLayer) (j : Nat) :
    (rl.udpSend buf).connState j = rl.connState j := rfl

theorem writeEpochNr_lt_length (rl : RecordLayer) : rl.writeEpochNr < rl.epochs.length := by
  rw [rl.epochs_length]
  omega

theorem nextEpochNr_lt_length (rl : RecordLayer) : rl.nextEpochNr < rl.epochs.length := by
  rw [rl.epochs_length, nextEpochNr]
  omega

/-! ## Receiving a datagram -/

/-- The records of a datagram that pass the filter. -/
def admitted (rl : RecordLayer) (memory : Nat → Memory) (buf : Bytes) : List DTLSCiphertext :=
  (packets memory buf).filter rl.admits

/-- The records that `receive` returns the messages of. -/
def accepted (crypto : Crypto) (rl : RecordLayer) (memory : Nat → Memory) (buf : Bytes) :
    List DTLSCompressed :=
  (rl.admitted memory buf).filterMap (rl.decipherPacket crypto)

theorem decipherPacket_header {crypto : Crypto} {rl : RecordLayer} {p : DTLSCiphertext}
    {q : DTLSCompressed} (h : rl.decipherPacket crypto p = some q) :
    q.type = p.type ∧ q.epoch = p.epoch ∧ q.sequenceNumber = p.sequenceNumber := by
  unfold decipherPacket at h
  rw [Option.bind_eq_some_iff] at h
  rcases h with ⟨d, _, hd⟩
  have hok : d.suite.decipher crypto p d.keyMaterial d.connEnd = .ok q := by
    cases hres : d.decipher crypto p with
    | error e => rw [hres] at hd; cases hd
    | ok q' =>
        rw [hres] at hd
        rcases Option.some.inj hd with rfl
        exact hres
  rcases CipherSuite.decipher_header hok with ⟨content, rfl⟩
  exact ⟨rfl, rfl, rfl⟩

theorem decipherPacket_congr {crypto : Crypto} {rl rl' : RecordLayer} {p : DTLSCiphertext}
    (h : (rl'.connState p.epoch).decipher = (rl.connState p.epoch).decipher) :
    rl'.decipherPacket crypto p = rl.decipherPacket crypto p := by
  show (rl'.connState p.epoch).decipher.bind _ = (rl.connState p.epoch).decipher.bind _
  rw [h]

theorem decipher_updateConnectionState_withDecipher (rl : RecordLayer) (i j : Nat) :
    ((rl.updateConnectionState i .withDecipher).connState j).decipher =
      (rl.connState j).decipher := by
  rcases connState_updateConnectionState_cases rl i j .withDecipher with h | ⟨_, h⟩
  · rw [h]
  · rw [h, ConnectionState.decipher_withDecipher]

-- A decipher that was created on the way is the one that would have been created anyway.
theorem decipherPackets_eq (crypto : Crypto) (packets : List DTLSCiphertext) (rl : RecordLayer) :
    decipherPackets crypto packets rl =
      (packets.filterMap (rl.decipherPacket crypto),
        packets.foldl (fun rl p => rl.updateConnectionState p.epoch .withDecipher) rl) := by
  induction packets generalizing rl with
  | nil => rfl
  | cons p packets ih =>
      have hsame : (rl.updateConnectionState p.epoch .withDecipher).decipherPacket crypto =
          rl.decipherPacket crypto :=
        funext fun q => decipherPacket_congr
          (decipher_updateConnectionState_withDecipher rl p.epoch q.epoch)
      rw [decipherPackets, ih, hsame, List.filterMap_cons, List.foldl_cons]
      cases rl.decipherPacket crypto p <;> rfl

/-- The message that a record carries. -/
def asMessage (p : DTLSCompressed) : Message := ⟨p.type, p.fragment⟩

theorem receive_eq (crypto : Crypto) (memory : Nat → Memory) (buf : Bytes) (rl : RecordLayer) :
    rl.receive crypto memory buf =
      ((rl.accepted crypto memory buf).map fun p => ⟨p.type, p.fragment⟩,
        (rl.accepted crypto memory buf).foldl markAsReceived
          ((rl.admitted memory buf).foldl
            (fun rl p => rl.updateConnectionState p.epoch .withDecipher) rl)) := by
  have hid : (fun p : DTLSCompressed => p.decompress id) = id := rfl
  unfold receive
  simp only [decipherPackets_eq, hid, List.map_id]
  rfl

-- An operation that every step of a fold leaves alone.
theorem foldl_congr_of_step {β γ : Type} {f : RecordLayer → β → RecordLayer} {g : RecordLayer → γ}
    (hf : ∀ rl b, g (f rl b) = g rl) (bs : List β) (rl : RecordLayer) :
    g (bs.foldl f rl) = g rl := by
  induction bs generalizing rl with
  | nil => rfl
  | cons b bs ih => rw [List.foldl_cons, ih, hf]

-- What neither marking a record nor creating a decipher changes, a datagram does not change.
theorem receive_keeps {γ : Type} {g : RecordLayer → γ}
    (hmark : ∀ rl p, g (markAsReceived rl p) = g rl)
    (hdecipher : ∀ rl i, g (updateConnectionState i .withDecipher rl) = g rl) (crypto : Crypto)
    (memory : Nat → Memory) (buf : Bytes) (rl : RecordLayer) :
    g (rl.receive crypto memory buf).2 = g rl := by
  rw [receive_eq]
  exact (foldl_congr_of_step (g := g) hmark _ _).trans
    (foldl_congr_of_step (g := g) (fun rl (p : DTLSCiphertext) => hdecipher rl p.epoch) _ _)

@[simp] theorem receive_readEpochNr (crypto : Crypto) (memory : Nat → Memory) (buf : Bytes)
    (rl : RecordLayer) : (rl.receive crypto memory buf).2.readEpochNr = rl.readEpochNr :=
  receive_keeps (fun _ _ => rfl) (fun _ _ => rfl) crypto memory buf rl

@[simp] theorem receive_writeEpochNr (crypto : Crypto) (memory : Nat → Memory) (buf : Bytes)
    (rl : RecordLayer) : (rl.receive crypto memory buf).2.writeEpochNr = rl.writeEpochNr :=
  receive_keeps (fun _ _ => rfl) (fun _ _ => rfl) crypto memory buf rl

@[simp] theorem receive_udpSocket (crypto : Crypto) (memory : Nat → Memory) (buf : Bytes)
    (rl : RecordLayer) : (rl.receive crypto memory buf).2.udpSocket = rl.udpSocket :=
  receive_keeps (fun _ _ => rfl) (fun _ _ => rfl) crypto memory buf rl

theorem connState_foldl_withDecipher (packets : List DTLSCiphertext) (rl : RecordLayer) (i : Nat)
    (hknown : ∀ p ∈ packets, p.epoch < rl.epochs.length) :
    (packets.foldl (fun rl p => rl.updateConnectionState p.epoch .withDecipher) rl).connState i =
      if ∃ p ∈ packets, p.epoch = i then (rl.connState i).withDecipher else rl.connState i := by
  induction packets generalizing rl with
  | nil => rw [if_neg (by simp)]; rfl
  | cons p packets ih =>
      rw [List.foldl_cons, ih]
      · by_cases hp : p.epoch = i
        · subst hp
          have hex : ∃ q ∈ p :: packets, q.epoch = p.epoch := ⟨p, List.mem_cons_self, rfl⟩
          rw [connState_updateConnectionState_self (hknown p List.mem_cons_self), if_pos hex,
            ConnectionState.withDecipher_withDecipher]
          split <;> rfl
        · rw [connState_updateConnectionState_ne rl (Ne.symm hp)]
          have hiff : (∃ q ∈ p :: packets, q.epoch = i) ↔ ∃ q ∈ packets, q.epoch = i := by
            simp only [List.exists_mem_cons_iff, hp, false_or]
          simp only [hiff]
      · intro q hq
        rw [updateConnectionState_epochs_length]
        exact hknown q (List.mem_cons_of_mem _ hq)

theorem admitted_known {rl : RecordLayer} {memory : Nat → Memory} {buf : Bytes}
    {p : DTLSCiphertext} (hp : p ∈ rl.admitted memory buf) :
    p.epoch < rl.epochs.length ∧ rl.readEpochNr ≤ p.epoch := by
  have h : rl.admits p = true := (List.mem_filter.mp hp).2
  unfold admits at h
  split at h
  · cases h
  · split at h
    · cases h
    · omega

/-- A datagram creates the deciphers of the epochs that its admitted records name, and changes
nothing else in a connection state. -/
theorem connState_receive (crypto : Crypto) (memory : Nat → Memory) (buf : Bytes)
    (rl : RecordLayer) (i : Nat) :
    (rl.receive crypto memory buf).2.connState i =
      if ∃ p ∈ rl.admitted memory buf, p.epoch = i then (rl.connState i).withDecipher
      else rl.connState i := by
  have hmark : ∀ rl p, (markAsReceived rl p).connState i = rl.connState i :=
    fun rl p => connState_updateEpoch rl p.epoch i fun _ => rfl
  rw [receive_eq]
  exact (foldl_congr_of_step (g := fun rl => rl.connState i) hmark _ _).trans
    (connState_foldl_withDecipher _ rl i fun p hp => (admitted_known hp).1)

/-! ## Sending a message -/

-- The record that `processOutgoingMessage` makes of a message, before it is protected.
def outgoingPacket (rl : RecordLayer) (msg : Message) : DTLSPlaintext :=
  ⟨msg.type, (rl.connState rl.writeEpochNr).protocolVersion, rl.writeEpochNr,
    (rl.currentWriteEpoch.writeSequenceNumber + 1).toNat, msg.data⟩

-- The record layer after the write epoch has given a number.
def numbered (rl : RecordLayer) : RecordLayer :=
  updateEpoch rl.writeEpochNr
    (fun e => { e with writeSequenceNumber := e.writeSequenceNumber + 1 }) rl

-- The record layer after a record of the write epoch is protected.
def afterSealing (rl : RecordLayer) : RecordLayer :=
  updateConnectionState rl.writeEpochNr .withCipher
    (updateEpoch rl.writeEpochNr
      (fun e => { e with writeSequenceNumber := e.writeSequenceNumber + 1 }) rl)

-- The last part of `processOutgoingMessage`: a ChangeCipherSpec switches to the next epoch.
def afterMessage (msg : Message) (rl : RecordLayer) : RecordLayer :=
  if msg.type = .changeCipherSpec then rl.advanceWriteEpoch else rl

theorem connState_numbered (rl : RecordLayer) (i : Nat) :
    rl.numbered.connState i = rl.connState i := connState_updateEpoch rl _ i fun _ => rfl

theorem connState_afterSealing (rl : RecordLayer) (i : Nat) :
    rl.afterSealing.connState i = rl.connState i ∨
      i = rl.writeEpochNr ∧ rl.afterSealing.connState i = (rl.connState i).withCipher := by
  rw [← rl.connState_numbered i]
  exact connState_updateConnectionState_cases rl.numbered rl.writeEpochNr i .withCipher

theorem readEpochNr_afterMessage (msg : Message) (rl : RecordLayer) :
    (rl.afterMessage msg).readEpochNr = rl.readEpochNr := by
  unfold afterMessage
  split <;> rfl

theorem writeEpochNr_afterMessage (msg : Message) (rl : RecordLayer) :
    (rl.afterMessage msg).writeEpochNr =
      if msg.type = .changeCipherSpec then rl.writeEpochNr + 1 else rl.writeEpochNr := by
  unfold afterMessage
  split <;> rfl

theorem udpSocket_afterMessage (msg : Message) (rl : RecordLayer) :
    (rl.afterMessage msg).udpSocket = rl.udpSocket := by
  unfold afterMessage
  split <;> rfl

theorem connState_afterMessage (msg : Message) (rl : RecordLayer) (i : Nat) :
    (rl.afterMessage msg).connState i = rl.connState i := by
  unfold afterMessage
  split
  · exact connState_advanceWriteEpoch rl i
  · rfl

/-- A message takes a number, and is sent if the write epoch can protect it. -/
theorem processOutgoingMessage_eq (crypto : Crypto) (msg : Message) (rl : RecordLayer) :
    processOutgoingMessage crypto msg rl =
      match (rl.connState rl.writeEpochNr).cipherSuite with
      | none => .error .typeError rl.numbered
      | some suite =>
          if suite.cipherType = .null then
            .ok (DTLSCompressed.serialize (rl.outgoingPacket msg)) (rl.numbered.afterMessage msg)
          else
            match (rl.connState rl.writeEpochNr).cipher with
            | none => .error .typeError rl.numbered
            | some delegate =>
                match delegate.cipher crypto (rl.outgoingPacket msg) with
                | .ok sent => .ok (DTLSCiphertext.serialize sent) (rl.afterSealing.afterMessage msg)
                | .error e => .error e rl.afterSealing := by
  have hadvance : ∀ (buf : Bytes) (rl1 : RecordLayer),
      (if msg.type = .changeCipherSpec then do modify advanceWriteEpoch; pure buf
        else pure buf : EStateM JsError RecordLayer Bytes) rl1 = .ok buf (rl1.afterMessage msg) := by
    intro buf rl1
    unfold afterMessage
    split <;> rfl
  have hpacket : DTLSCompressed.compress ⟨msg.type,
      (rl.numbered.epoch rl.writeEpochNr).connectionState.protocolVersion, rl.writeEpochNr,
      (rl.numbered.epoch rl.writeEpochNr).writeSequenceNumber.toNat, msg.data⟩ id =
      rl.outgoingPacket msg := by
    rw [numbered, epoch_updateEpoch_self rl.writeEpochNr_lt_length]
    rfl
  have hstate : (rl.numbered.epoch rl.writeEpochNr).connectionState = rl.connState rl.writeEpochNr :=
    rl.connState_numbered rl.writeEpochNr
  apply eq_of_ends
  simp only [processOutgoingMessage, ends_bind, ends_get, ends_modify]
  rw [← numbered, hpacket, hstate]
  cases (rl.connState rl.writeEpochNr).cipherSuite with
  | none => rfl
  | some suite =>
      simp only
      by_cases hnull : suite.cipherType = .null
      · simp only [if_pos hnull, pure_bind]
        exact (ends_of_eq_ok (hadvance _ _)).mpr rfl
      · simp only [if_neg hnull]
        cases (rl.connState rl.writeEpochNr).cipher with
        | none => rfl
        | some delegate =>
            simp only [ends_bind, ends_modify]
            cases delegate.cipher crypto (rl.outgoingPacket msg) with
            | ok sent =>
                simp only [pure_bind]
                exact (ends_of_eq_ok (hadvance _ _)).mpr rfl
            | error e => rfl

/-- What sending a message does, where the write epoch can protect it. -/
structure Outgoing (crypto : Crypto) (msg : Message) (rl : RecordLayer) (buf : Bytes)
    (rl' : RecordLayer) : Prop where
  readEpochNr : rl'.readEpochNr = rl.readEpochNr
  writeEpochNr : rl'.writeEpochNr =
    if msg.type = .changeCipherSpec then rl.writeEpochNr + 1 else rl.writeEpochNr
  udpSocket : rl'.udpSocket = rl.udpSocket
  connState : ∀ i, rl'.connState i = rl.connState i ∨
    i = rl.writeEpochNr ∧ rl'.connState i = (rl.connState i).withCipher ∧
      ∀ suite, (rl.connState i).cipherSuite = some suite → suite.cipherType ≠ .null
  sealed : ∀ suite, (rl.connState rl.writeEpochNr).cipherSuite = some suite →
    suite.cipherType ≠ .null →
    ∃ d sent, (rl.connState rl.writeEpochNr).cipher = some d ∧
      d.cipher crypto (rl.outgoingPacket msg) = .ok sent ∧ buf = DTLSCiphertext.serialize sent
  state : ∀ suite, (rl.connState rl.writeEpochNr).cipherSuite = some suite →
    suite.cipherType ≠ .null → msg.type ≠ .changeCipherSpec → rl' = rl.afterSealing

theorem Outgoing.advance {crypto : Crypto} {msg : Message} {rl rl' : RecordLayer} {buf : Bytes}
    (hread : rl'.readEpochNr = rl.readEpochNr) (hwrite : rl'.writeEpochNr = rl.writeEpochNr)
    (hudp : rl'.udpSocket = rl.udpSocket)
    (hconn : ∀ i, rl'.connState i = rl.connState i ∨
      i = rl.writeEpochNr ∧ rl'.connState i = (rl.connState i).withCipher ∧
        ∀ suite, (rl.connState i).cipherSuite = some suite → suite.cipherType ≠ .null)
    (hsealed : ∀ suite, (rl.connState rl.writeEpochNr).cipherSuite = some suite →
      suite.cipherType ≠ .null →
      ∃ d sent, (rl.connState rl.writeEpochNr).cipher = some d ∧
        d.cipher crypto (rl.outgoingPacket msg) = .ok sent ∧ buf = DTLSCiphertext.serialize sent)
    (hstate : ∀ suite, (rl.connState rl.writeEpochNr).cipherSuite = some suite →
      suite.cipherType ≠ .null → rl' = rl.afterSealing) :
    Outgoing crypto msg rl buf (rl'.afterMessage msg) where
  readEpochNr := (readEpochNr_afterMessage msg rl').trans hread
  writeEpochNr := by rw [writeEpochNr_afterMessage, hwrite]
  udpSocket := (udpSocket_afterMessage msg rl').trans hudp
  connState := by
    intro i
    rw [connState_afterMessage]
    exact hconn i
  sealed := hsealed
  state := by
    intro suite hsuite hnull hccs
    rw [afterMessage, if_neg hccs]
    exact hstate suite hsuite hnull

theorem processOutgoingMessage_ends (crypto : Crypto) (msg : Message) (rl : RecordLayer)
    (h : (rl.connState rl.writeEpochNr).Ready) :
    Ends (processOutgoingMessage crypto msg) rl (Outgoing crypto msg rl) (fun _ _ => False) := by
  rcases h with ⟨suite, hsuite, hready⟩
  unfold Ends
  rw [processOutgoingMessage_eq, hsuite]
  by_cases hnull : suite.cipherType = .null
  · have hvacuous : ∀ suite', (rl.connState rl.writeEpochNr).cipherSuite = some suite' →
        suite'.cipherType = .null := by
      intro suite' hsuite'
      rw [hsuite] at hsuite'
      exact Option.some.inj hsuite' ▸ hnull
    simp only [if_pos hnull]
    exact Outgoing.advance rfl rfl rfl (fun i => .inl (rl.connState_numbered i))
      (fun _ hs hne => absurd (hvacuous _ hs) hne) fun _ hs hne => absurd (hvacuous _ hs) hne
  · rcases hready hnull with ⟨keys, hkeys⟩
    rcases suite.cipher_some crypto (rl.outgoingPacket msg) keys
      (rl.connState rl.writeEpochNr).entity with ⟨sent, hsent⟩
    have hdelegate : Delegate.cipher crypto
        ⟨suite, some keys, (rl.connState rl.writeEpochNr).entity⟩ (rl.outgoingPacket msg) =
        .ok sent := hsent
    simp only [if_neg hnull, hkeys, hdelegate]
    refine Outgoing.advance rfl rfl rfl ?_ (fun _ _ _ => ⟨_, sent, hkeys, hdelegate, rfl⟩)
      fun _ _ _ => rfl
    intro i
    rcases rl.connState_afterSealing i with h | ⟨hi, h⟩
    · exact .inl h
    · refine .inr ⟨hi, h, ?_⟩
      intro suite' hsuite'
      rw [hi, hsuite] at hsuite'
      rcases Option.some.inj hsuite' with rfl
      exact hnull

/-! ## What sending leaves alone -/

section Keeps

variable {P : RecordLayer → Prop}

-- However sending ends, it keeps what a new sequence number, a new cipher and, for a ChangeCipherSpec,
-- the next write epoch keep.
theorem processOutgoingMessage_preserves (hnumber : ∀ rl, P rl → P rl.numbered)
    (hcipher : ∀ rl i, P rl → P (updateConnectionState i .withCipher rl)) (crypto : Crypto)
    {msg : Message} (hadvance : msg.type = .changeCipherSpec → ∀ rl, P rl → P (advanceWriteEpoch rl))
    {rl : RecordLayer} (h : P rl) :
    Ends (processOutgoingMessage crypto msg) rl (fun _ => P) (fun _ => P) := by
  have hend : ∀ rl1 : RecordLayer, P rl1 → P (rl1.afterMessage msg) := by
    intro rl1 h1
    unfold afterMessage
    split
    · rename_i hccs
      exact hadvance hccs rl1 h1
    · exact h1
  have hnumbered := hnumber rl h
  have hsealed : P rl.afterSealing := hcipher rl.numbered rl.writeEpochNr hnumbered
  unfold Ends
  rw [processOutgoingMessage_eq]
  cases (rl.connState rl.writeEpochNr).cipherSuite with
  | none => exact hnumbered
  | some suite =>
      by_cases hnull : suite.cipherType = .null
      · simp only [if_pos hnull]
        exact hend _ hnumbered
      · simp only [if_neg hnull]
        cases (rl.connState rl.writeEpochNr).cipher with
        | none => exact hnumbered
        | some delegate =>
            simp only
            cases delegate.cipher crypto (rl.outgoingPacket msg) with
            | ok sent => exact hend _ hsealed
            | error e => exact hsealed

theorem processOutgoingMessages_preserves (hnumber : ∀ rl, P rl → P rl.numbered)
    (hcipher : ∀ rl i, P rl → P (updateConnectionState i .withCipher rl)) (crypto : Crypto)
    {messages : List Message}
    (hadvance : ∀ msg ∈ messages, msg.type = .changeCipherSpec →
      ∀ rl, P rl → P (advanceWriteEpoch rl)) {rl : RecordLayer} (h : P rl) :
    Ends (processOutgoingMessages crypto messages) rl (fun _ => P) (fun _ => P) := by
  induction messages generalizing rl with
  | nil => exact h
  | cons msg messages ih =>
      rw [processOutgoingMessages, ends_bind]
      have hfirst := hadvance msg List.mem_cons_self
      apply (processOutgoingMessage_preserves hnumber hcipher crypto hfirst h).mono
      · intro buf rl1 h1
        rw [ends_bind]
        apply (ih (fun m hm => hadvance m (List.mem_cons_of_mem _ hm)) h1).mono
        · exact fun _ _ h2 => h2
        · exact fun _ _ h2 => h2
      · exact fun _ _ h1 => h1

end Keeps

end RecordLayer

/-! ## What is negotiated -/

/-- What a ServerHello decides for an epoch. -/
structure Parameters where
  cipherSuite : Option CipherSuite
  compressionAlgorithm : Num
  protocolVersion : ProtocolVersion
deriving DecidableEq, Repr

def ConnectionState.parameters (c : ConnectionState) : Parameters :=
  ⟨c.cipherSuite, c.compressionAlgorithm, c.protocolVersion⟩

namespace RecordLayer

def parameters (rl : RecordLayer) (i : Nat) : Parameters := (rl.connState i).parameters

theorem parameters_updateConnectionState (rl : RecordLayer) (i : Nat)
    {f : ConnectionState → ConnectionState} (hf : ∀ c, (f c).parameters = c.parameters) :
    (rl.updateConnectionState i f).parameters = rl.parameters := by
  funext j
  unfold parameters
  rcases rl.connState_updateConnectionState_cases i j f with h | ⟨_, h⟩
  · rw [h]
  · rw [h, hf]

theorem parameters_updateEpoch (rl : RecordLayer) (i : Nat) {f : Epoch → Epoch}
    (hf : ∀ e, (f e).connectionState = e.connectionState) :
    (rl.updateEpoch i f).parameters = rl.parameters := by
  funext j
  unfold parameters
  rw [connState_updateEpoch rl i j hf]

theorem parameters_advanceReadEpoch (rl : RecordLayer) :
    rl.advanceReadEpoch.parameters = rl.parameters := by
  funext j
  unfold parameters
  rw [connState_advanceReadEpoch]

theorem parameters_receive (crypto : Crypto) (memory : Nat → Memory) (buf : Bytes)
    (rl : RecordLayer) : (rl.receive crypto memory buf).2.parameters = rl.parameters :=
  receive_keeps (fun rl p => parameters_updateEpoch rl p.epoch fun _ => rfl)
    (fun rl i => parameters_updateConnectionState rl i fun _ => rfl) crypto memory buf rl

end RecordLayer

end DtlsClient
