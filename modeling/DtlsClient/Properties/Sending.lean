import DtlsClient.Properties.Ciphers
import DtlsClient.Properties.Invariant
import DtlsClient.Properties.Records
import DtlsClient.Properties.Replay
import Mathlib.Data.List.DropRight

/-!
# A flight as the peer reads it

The datagram of `sendFlight` parses back record by record: one for each message, under the epoch and
the sequence number that its place in the flight gives it.
-/

open Library

namespace DtlsClient

/-! ## Records on the wire -/

/-- The numbers of the record fit their fields.  Of a sequence number only four bytes are written. -/
structure DTLSPacket.Fits (p : DTLSPacket) : Prop where
  type : p.type.toNat < 256 ∧ ContentType.ofNat p.type.toNat = p.type
  epoch : p.epoch < 2 ^ 16
  sequenceNumber : p.sequenceNumber < 2 ^ 32
  fragment : p.fragment.length < 2 ^ 16

namespace Record

/-- The record as it is serialized. -/
def ofPacket (p : DTLSCiphertext) (hfits : p.Fits) : Record where
  header := numberToBuffer (some p.type.toNat) 8 ++ (numberToBuffer p.version.major 8 ++
    (numberToBuffer p.version.minor 8 ++ (numberToBuffer (some p.epoch) 16 ++
    (numberToBuffer (some p.sequenceNumber) 48 ++ numberToBuffer (some p.fragment.length) 16))))
  fragment := p.fragment
  header_length := by simp
  complete := by
    have hfield := @bufferToNumber_field (numberToBuffer (some p.type.toNat) 8 ++
      (numberToBuffer p.version.major 8 ++ (numberToBuffer p.version.minor 8 ++
      (numberToBuffer (some p.epoch) 16 ++ numberToBuffer (some p.sequenceNumber) 48)))) [] 16 11 _
      hfits.fragment (by simp)
    simpa only [List.append_assoc, List.append_nil] using hfield

variable {p : DTLSCiphertext} (hfits : p.Fits)

theorem ofPacket_bytes : (ofPacket p hfits).bytes = p.serialize := by
  show (_ ++ (_ ++ (_ ++ (_ ++ (_ ++ _))))) ++ _ = _ ++ ((_ ++ (_ ++ [])) ++ (_ ++ (_ ++ ((_ ++ _) ++ []))))
  simp only [List.append_assoc, List.append_nil]
  rfl

-- What is parsed is the record, up to the bytes of its version.
theorem ofPacket_packet : ∃ version,
    (ofPacket p hfits).packet = { p with version := version } := by
  have htype : bufferToNumber (ofPacket p hfits).header 8 0 = some (p.type.toNat : Int) :=
    @bufferToNumber_field [] _ 8 0 _ hfits.type.1 rfl
  have hepoch : bufferToNumber (ofPacket p hfits).header 16 3 = some (p.epoch : Int) := by
    have hfield := @bufferToNumber_field (numberToBuffer (some p.type.toNat) 8 ++
      (numberToBuffer p.version.major 8 ++ numberToBuffer p.version.minor 8))
      (numberToBuffer (some p.sequenceNumber) 48 ++ numberToBuffer (some p.fragment.length) 16) 16 3 _
      hfits.epoch (by simp)
    simp only [List.append_assoc] at hfield
    exact hfield
  have hnumber : bufferToNumber (ofPacket p hfits).header 48 5 = some (p.sequenceNumber : Int) := by
    have hfield := @bufferToNumber_field (numberToBuffer (some p.type.toNat) 8 ++
      (numberToBuffer p.version.major 8 ++ (numberToBuffer p.version.minor 8 ++
      numberToBuffer (some p.epoch) 16))) (numberToBuffer (some p.fragment.length) 16) 48 5 _
      hfits.sequenceNumber (by simp)
    simp only [List.append_assoc] at hfield
    exact hfield
  have hofNat := hfits.type.2
  refine ⟨⟨bufferToNumber (ofPacket p hfits).header 8 1,
    bufferToNumber (ofPacket p hfits).header 8 2⟩, ?_⟩
  unfold packet
  rw [htype, hepoch, hnumber]
  simp only [Option.getD_some, Int.toNat_natCast, hofNat]
  rfl

end Record

/-- Parsing from `offset` on yields these records one after the other and ends where the buffer ends. -/
def DTLSCiphertext.Consumes (memory : Nat → Memory) (buf : Bytes) :
    Nat → List DTLSCiphertext → Prop
  | offset, [] => offset = buf.length
  | offset, p :: packets => ∃ readBytes, fromBuffer memory buf offset = .ok (p, readBytes) ∧
      0 < readBytes ∧ Consumes memory buf (offset + readBytes) packets

theorem Record.consumes_datagram (memory : Nat → Memory) (records : List Record) (front : Bytes) :
    DTLSCiphertext.Consumes memory (front ++ datagram records) front.length
      (records.map packet) := by
  induction records generalizing front with
  | nil =>
      show front.length = (front ++ []).length
      rw [List.append_nil]
  | cons r records ih =>
      have hcons : datagram (r :: records) = r.bytes ++ datagram records := rfl
      have hrest := ih (front ++ r.bytes)
      rw [List.append_assoc, List.length_append] at hrest
      have hpos : 0 < r.bytes.length := by
        rw [bytes_length]
        omega
      rw [hcons]
      exact ⟨r.bytes.length, fromBuffer_bytes memory front (datagram records) r, hpos, hrest⟩

/-! ## What protection does to a record -/

/-- The results of the `crypto` module are as long as it documents. -/
structure Crypto.KeepsLengths (crypto : Crypto) : Prop where
  randomBytes : ∀ epoch sequenceNumber length,
    (crypto.randomBytes epoch sequenceNumber length).length = length
  encryptCBC : ∀ algorithm key iv plaintext,
    (BlockCipher.parameters algorithm).blockSize ∣ plaintext.length →
    (crypto.encryptCBC algorithm key iv plaintext).length = plaintext.length
  encryptAEAD : ∀ mode key nonce plaintext additionalData authTagLength,
    let result := crypto.encryptAEAD mode key nonce plaintext additionalData authTagLength
    result.ciphertext.length = plaintext.length ∧ result.authTag.length = authTagLength

theorem HashAlgorithm.keyAndHashLength_le (algorithm : HashAlgorithm) :
    algorithm.keyAndHashLength ≤ 64 := by
  cases algorithm <;> decide

theorem MAC.keyAndHashLength_le (mac : MAC) : mac.keyAndHashLength ≤ 64 := by
  cases mac with
  | none => exact Nat.zero_le 64
  | some algorithm => exact algorithm.keyAndHashLength_le

theorem BlockCipher.blockSize_le (algorithm : BlockCipherAlgorithm) :
    (parameters algorithm).blockSize ≤ 16 := by
  cases algorithm <;> decide

theorem AEADCipher.overhead_le (algorithm : AEADCipherAlgorithm) :
    (parameters algorithm).recordIvLength + (parameters algorithm).authTagLength ≤ 24 := by
  cases algorithm <;> decide

/-- The length that a fragment of `length` bytes has when it is protected. -/
def CipherSuite.sealedLength (suite : CipherSuite) (length : Nat) : Nat :=
  match suite.cipherType with
  | .null => length
  | .block algorithm =>
      let params := BlockCipher.parameters algorithm
      let plaintextLength := length + suite.mac.keyAndHashLength
      params.recordIvLength +
        (plaintextLength + (BlockCipher.padLength plaintextLength params.blockSize + 1))
  | .aead algorithm =>
      let params := AEADCipher.parameters algorithm
      params.recordIvLength + (length + params.authTagLength)

-- Nonce, MAC, padding and tag come to 96 bytes at most.
theorem CipherSuite.sealedLength_le (suite : CipherSuite) (length : Nat) :
    suite.sealedLength length ≤ length + 96 := by
  unfold sealedLength
  cases suite.cipherType with
  | null => exact Nat.le_add_right length 96
  | block algorithm =>
      have hmac := suite.mac.keyAndHashLength_le
      have hblock := BlockCipher.blockSize_le algorithm
      have hpad := (BlockCipher.padLength_spec (BlockCipher.blockSize_lt algorithm).1
        (length + suite.mac.keyAndHashLength)).1
      simp only [BlockCipher.recordIvLength_eq]
      omega
  | aead algorithm =>
      have hoverhead := AEADCipher.overhead_le algorithm
      simp only
      omega

-- A cipher replaces the fragment, by one of that length.
theorem CipherSuite.cipher_fragment {crypto : Crypto} (h : crypto.KeepsLengths) {suite : CipherSuite}
    {packet : DTLSCompressed} {keys : KeyMaterial} {connEnd : ConnectionEnd} {sent : DTLSCiphertext}
    (hsent : suite.cipher crypto packet (some keys) connEnd = .ok sent) :
    ∃ fragment, sent = { packet with fragment := fragment } ∧
      fragment.length = suite.sealedLength packet.fragment.length := by
  unfold CipherSuite.cipher at hsent
  unfold sealedLength
  cases hcipher : suite.cipherType with
  | null =>
      rw [hcipher] at hsent
      exact ⟨packet.fragment, (Except.ok.inj hsent).symm, rfl⟩
  | block algorithm =>
      rw [hcipher] at hsent
      refine ⟨_, (Except.ok.inj hsent).symm, ?_⟩
      have hmac := MAC.compute_length crypto (packet.computeMACHeader ++ packet.fragment) keys connEnd
        suite.mac
      rcases BlockCipher.padLength_spec (BlockCipher.blockSize_lt algorithm).1
        (packet.fragment ++ suite.mac.compute crypto (packet.computeMACHeader ++ packet.fragment) keys
          connEnd).length with ⟨_, hwhole⟩
      rw [List.length_append, h.randomBytes, h.encryptCBC]
      · simp only [List.length_append, List.length_replicate, hmac]
      · rw [List.length_append, List.length_replicate]
        exact hwhole
  | aead algorithm =>
      rw [hcipher] at hsent
      refine ⟨_, (Except.ok.inj hsent).symm, ?_⟩
      rcases h.encryptAEAD (AEADCipher.parameters algorithm).interface (keys.writeKey connEnd)
        (keys.writeIV connEnd ++ crypto.randomBytes packet.epoch packet.sequenceNumber
          (AEADCipher.parameters algorithm).recordIvLength) packet.fragment
        (AEADCipher.additionalData packet packet.fragment.length)
        (AEADCipher.parameters algorithm).authTagLength with ⟨hciphertext, htag⟩
      rw [List.length_append, List.length_append, h.randomBytes, hciphertext, htag, Nat.add_assoc]

/-! ## Sending one message -/

namespace ConnectionState

/-- The epoch has its suite and, unless that is a NULL one, the keys that its cipher is made of. -/
def Installed (c : ConnectionState) : Prop :=
  ∃ suite, c.cipherSuite = some suite ∧ (suite.cipherType ≠ .null →
    ∃ keys, c.keyMaterial = some keys ∧ c.cipher = some ⟨suite, some keys, c.entity⟩)

/-- What goes out for a packet: the packet under the NULL cipher, otherwise its encryption under the
keys of the epoch. -/
def Protects (crypto : Crypto) (c : ConnectionState) (packet : DTLSCompressed)
    (sent : DTLSCiphertext) : Prop :=
  ∃ suite, c.cipherSuite = some suite ∧ (suite.cipherType = .null → sent = packet) ∧
    (suite.cipherType ≠ .null → ∃ keys, c.keyMaterial = some keys ∧
      suite.cipher crypto packet (some keys) c.entity = .ok sent)

theorem cipher_withCipher (c : ConnectionState) : c.withCipher.cipher = c.cipher := by
  show (c.cipher <|> c.specify) = c.cipher
  unfold cipher
  cases c.cachedCipher with
  | none => cases c.specify <;> rfl
  | some d => rfl

theorem Negotiated.installed {crypto : Crypto} {c : ConnectionState} (h : c.Negotiated crypto) :
    c.Installed := by
  rcases h.keyed.specify with ⟨suite, keys, hspecify, _, hsuite, hkeys⟩
  exact ⟨suite, hsuite, fun _ => ⟨keys, hkeys, h.cipher_eq.trans hspecify⟩⟩

-- Protection depends on the suite, the keys and the entity only.
theorem installed_withCipher {c : ConnectionState} : c.withCipher.Installed ↔ c.Installed := by
  unfold Installed
  rw [cipher_withCipher]
  rfl

theorem Protects.fragment {crypto : Crypto} (h : crypto.KeepsLengths) {c : ConnectionState}
    {packet : DTLSCompressed} {sent : DTLSCiphertext} (hsent : c.Protects crypto packet sent) :
    ∃ suite fragment, c.cipherSuite = some suite ∧ sent = { packet with fragment := fragment } ∧
      fragment.length = suite.sealedLength packet.fragment.length := by
  rcases hsent with ⟨suite, hsuite, hplain, hciphered⟩
  by_cases hnull : suite.cipherType = .null
  · refine ⟨suite, packet.fragment, hsuite, hplain hnull, ?_⟩
    rw [CipherSuite.sealedLength, hnull]
  · rcases hciphered hnull with ⟨keys, _, hcipher⟩
    rcases suite.cipher_fragment h hcipher with ⟨fragment, hfragment⟩
    exact ⟨suite, fragment, hsuite, hfragment⟩

end ConnectionState

namespace RecordLayer

/-- The number that each epoch has given last. -/
def numbers (rl : RecordLayer) (i : Nat) : Int := (rl.epoch i).writeSequenceNumber

theorem numbers_numbered (rl : RecordLayer) (i : Nat) :
    rl.numbered.numbers i = rl.numbers i + if i = rl.writeEpochNr then 1 else 0 := by
  unfold numbers numbered
  by_cases hi : i = rl.writeEpochNr
  · rw [if_pos hi, hi, epoch_updateEpoch_self rl.writeEpochNr_lt_length]
  · rw [if_neg hi, epoch_updateEpoch_ne rl hi, Int.add_zero]

theorem numbers_updateConnectionState (rl : RecordLayer) (i : Nat)
    (f : ConnectionState → ConnectionState) :
    (rl.updateConnectionState i f).numbers = rl.numbers := by
  funext j
  unfold numbers updateConnectionState
  rcases epoch_updateEpoch_cases rl i j
    (fun e => { e with connectionState := f e.connectionState }) with h | ⟨_, h⟩
  · rw [h]
  · rw [h]

theorem numbers_advanceWriteEpoch (rl : RecordLayer) : rl.advanceWriteEpoch.numbers = rl.numbers := by
  funext i
  rw [numbers, epoch_advanceWriteEpoch, numbers]

/-- What sending a message leaves in the record layer. -/
structure Sent (msg : Message) (rl rl' : RecordLayer) : Prop where
  udpSocket : rl'.udpSocket = rl.udpSocket
  writeEpochNr : rl'.writeEpochNr = rl.writeEpochNr + if isChangeCipherSpec msg then 1 else 0
  numbers : ∀ i, rl'.numbers i = rl.numbers i + if i = rl.writeEpochNr then 1 else 0
  connState : ∀ i, rl'.connState i = rl.connState i ∨ rl'.connState i = (rl.connState i).withCipher

theorem Sent.afterMessage {msg : Message} {rl rl' : RecordLayer}
    (hudp : rl'.udpSocket = rl.udpSocket) (hwrite : rl'.writeEpochNr = rl.writeEpochNr)
    (hnumbers : rl'.numbers = rl.numbered.numbers)
    (hstates : ∀ i, rl'.connState i = rl.connState i ∨
      rl'.connState i = (rl.connState i).withCipher) : Sent msg rl (rl'.afterMessage msg) where
  udpSocket := (udpSocket_afterMessage msg rl').trans hudp
  writeEpochNr := by
    rw [writeEpochNr_afterMessage, hwrite, isChangeCipherSpec]
    simp only [decide_eq_true_eq]
    split <;> rfl
  numbers := by
    intro i
    rw [← numbers_numbered, ← hnumbers]
    unfold RecordLayer.afterMessage
    split
    · rw [numbers_advanceWriteEpoch]
    · rfl
  connState := by
    intro i
    rw [connState_afterMessage]
    exact hstates i

-- The record is numbered, protected and, if it is a ChangeCipherSpec, the last one of its epoch.
theorem processOutgoingMessage_record (crypto : Crypto) (msg : Message) {rl : RecordLayer}
    (h : (rl.connState rl.writeEpochNr).Installed) :
    Ends (processOutgoingMessage crypto msg) rl
      (fun buf rl' => Sent msg rl rl' ∧ ∃ sent, buf = DTLSCiphertext.serialize sent ∧
        (rl.connState rl.writeEpochNr).Protects crypto (rl.outgoingPacket msg) sent)
      (fun _ _ => False) := by
  rcases h with ⟨suite, hsuite, hkeys⟩
  unfold Ends
  rw [processOutgoingMessage_eq, hsuite]
  by_cases hnull : suite.cipherType = .null
  · simp only [if_pos hnull]
    exact ⟨.afterMessage rfl rfl rfl fun i => .inl (rl.connState_numbered i), _, rfl,
      suite, hsuite, fun _ => rfl, fun hne => absurd hnull hne⟩
  · rcases hkeys hnull with ⟨keys, hmaterial, hcipher⟩
    rcases suite.cipher_some crypto (rl.outgoingPacket msg) keys
      (rl.connState rl.writeEpochNr).entity with ⟨sent, hsent⟩
    have hdelegate : Delegate.cipher crypto
        ⟨suite, some keys, (rl.connState rl.writeEpochNr).entity⟩ (rl.outgoingPacket msg) =
        .ok sent := hsent
    simp only [if_neg hnull, hcipher, hdelegate]
    have hnumbers : rl.afterSealing.numbers = rl.numbered.numbers :=
      rl.numbered.numbers_updateConnectionState rl.writeEpochNr .withCipher
    refine ⟨.afterMessage rfl rfl hnumbers fun i => ?_, sent, rfl,
      suite, hsuite, fun heq => absurd heq hnull, fun _ => ⟨keys, hmaterial, hsent⟩⟩
    exact (rl.connState_afterSealing i).imp_right And.right

/-! ## Where a message of a flight goes -/

/-- The epoch of the message that comes after those of `before`: each ChangeCipherSpec switches to the
next one. -/
def sendEpoch (rl : RecordLayer) (before : List Message) : Nat :=
  rl.writeEpochNr + before.countP isChangeCipherSpec

/-- The messages behind the last ChangeCipherSpec. -/
def sinceSwitch (before : List Message) : List Message :=
  before.rtakeWhile fun msg => !isChangeCipherSpec msg

/-- Its sequence number: the next one of its epoch when the flight begins, and one more for each
message of the flight in the same epoch. -/
def sendNumber (rl : RecordLayer) (before : List Message) : Int :=
  rl.numbers (rl.sendEpoch before) + 1 + (sinceSwitch before).length

theorem sinceSwitch_cons (msg : Message) (before : List Message) :
    sinceSwitch (msg :: before) =
      if before.countP isChangeCipherSpec = 0 ∧ isChangeCipherSpec msg = false
      then msg :: sinceSwitch before else sinceSwitch before := by
  unfold sinceSwitch
  have hreverse : (msg :: before).reverse = before.reverse ++ [msg] := List.reverse_cons
  rw [List.rtakeWhile, hreverse, List.takeWhile_append, List.rtakeWhile]
  by_cases hnone : before.countP isChangeCipherSpec = 0
  · have hall : before.reverse.takeWhile (fun msg => !isChangeCipherSpec msg) = before.reverse := by
      rw [List.takeWhile_eq_self_iff]
      intro m hm
      rw [List.countP_eq_zero] at hnone
      have hm' := hnone m (List.mem_reverse.mp hm)
      simpa using hm'
    rw [hall, if_pos rfl]
    by_cases hmsg : isChangeCipherSpec msg = false
    · rw [if_pos ⟨hnone, hmsg⟩, List.takeWhile_cons_of_pos (by rw [hmsg]; rfl)]
      simp
    · rw [if_neg fun h => hmsg h.2, List.takeWhile_cons_of_neg (by simpa using hmsg)]
      simp
  · have hshort : ¬(before.reverse.takeWhile (fun msg => !isChangeCipherSpec msg)).length =
        before.reverse.length := by
      intro hlength
      have hall := (List.takeWhile_prefix _).eq_of_length hlength
      rw [List.takeWhile_eq_self_iff] at hall
      apply hnone
      rw [List.countP_eq_zero]
      intro m hm
      have hm' := hall m (List.mem_reverse.mpr hm)
      simpa using hm'
    rw [if_neg hshort, if_neg fun h => hnone h.1]

namespace Sent

variable {msg : Message} {rl rl' : RecordLayer}

-- What comes next goes where it would have gone from the start.
theorem sendEpoch (h : Sent msg rl rl') (before : List Message) :
    rl'.sendEpoch before = rl.sendEpoch (msg :: before) := by
  unfold RecordLayer.sendEpoch
  rw [h.writeEpochNr, List.countP_cons, Nat.add_assoc, Nat.add_comm (ite _ _ _)]

theorem sendNumber (h : Sent msg rl rl') (before : List Message) :
    rl'.sendNumber before = rl.sendNumber (msg :: before) := by
  unfold RecordLayer.sendNumber
  rw [h.sendEpoch, h.numbers, sinceSwitch_cons]
  unfold RecordLayer.sendEpoch
  rw [List.countP_cons]
  by_cases hfirst : before.countP isChangeCipherSpec = 0 ∧ isChangeCipherSpec msg = false
  · -- still in the epoch of the message
    rw [if_pos hfirst, hfirst.1, hfirst.2, List.length_cons]
    simp only [Bool.false_eq_true, if_false, Nat.add_zero, if_true]
    omega
  · have hlater : ¬rl.writeEpochNr + (before.countP isChangeCipherSpec +
        if isChangeCipherSpec msg = true then 1 else 0) = rl.writeEpochNr := by
      intro heq
      apply hfirst
      cases hmsg : isChangeCipherSpec msg with
      | false => exact ⟨by omega, rfl⟩
      | true =>
          rw [hmsg, if_pos rfl] at heq
          omega
    rw [if_neg hfirst, if_neg hlater, Int.add_zero]

end Sent

/-! ## The numbers of the epochs -/

/-- No epoch has given a number below its first, and those to come have given none. -/
structure Counts (rl : RecordLayer) : Prop where
  start : ∀ i, -1 ≤ rl.numbers i
  fresh : ∀ i, rl.writeEpochNr < i → rl.numbers i = -1

namespace Counts

variable {rl rl' : RecordLayer}

theorem new : Counts .new := by
  have hnumbers : ∀ i, RecordLayer.numbers .new i = -1 := by
    intro i
    match i with
    | 0 => rfl
    | 1 => rfl
    | i + 2 => rfl
  refine ⟨fun i => ?_, fun i _ => hnumbers i⟩
  rw [hnumbers]

theorem congr (h : Counts rl) (hnumbers : rl'.numbers = rl.numbers)
    (hwrite : rl.writeEpochNr ≤ rl'.writeEpochNr) : Counts rl' := by
  refine ⟨fun i => ?_, fun i hi => ?_⟩
  · rw [hnumbers]
    exact h.start i
  · rw [hnumbers]
    exact h.fresh i (by omega)

-- The write epoch has given one number more.
theorem next (h : Counts rl)
    (hnumbers : ∀ i, rl'.numbers i = rl.numbers i + if i = rl.writeEpochNr then 1 else 0)
    (hwrite : rl.writeEpochNr ≤ rl'.writeEpochNr) : Counts rl' := by
  refine ⟨fun i => ?_, fun i hi => ?_⟩
  · have hstart := h.start i
    rw [hnumbers]
    split <;> omega
  · rw [hnumbers, if_neg (by omega), h.fresh i (by omega)]
    rfl

theorem sent {msg : Message} (h : Counts rl) (hsent : Sent msg rl rl') : Counts rl' :=
  h.next hsent.numbers (by rw [hsent.writeEpochNr]; omega)

theorem perform (h : Counts rl) (crypto : Crypto) (op : Operation) : Counts (rl.perform crypto op) := by
  have hnumber : ∀ rl : RecordLayer, Counts rl → Counts rl.numbered :=
    fun rl h => h.next rl.numbers_numbered (Nat.le_refl rl.writeEpochNr)
  have hcipher : ∀ (rl : RecordLayer) (i : Nat) (f : ConnectionState → ConnectionState),
      Counts rl → Counts (rl.updateConnectionState i f) :=
    fun rl i f h => h.congr (rl.numbers_updateConnectionState i f) (Nat.le_refl _)
  have hadvance : ∀ rl : RecordLayer, Counts rl → Counts rl.advanceWriteEpoch :=
    fun rl h => h.congr rl.numbers_advanceWriteEpoch (Nat.le_succ _)
  cases op with
  | receive memory buf =>
      have hmark : ∀ (rl : RecordLayer) (p : DTLSPlaintext),
          (markAsReceived rl p).numbers = rl.numbers := by
        intro rl p
        funext j
        unfold markAsReceived numbers
        rcases epoch_updateEpoch_cases rl p.epoch j _ with h | ⟨_, h⟩
        · rw [h]
        · rw [h]
      apply h.congr
      · exact receive_keeps hmark (fun rl i => rl.numbers_updateConnectionState i _) crypto memory buf
          rl
      · exact Nat.le_of_eq (receive_writeEpochNr crypto memory buf rl).symm
  | advanceReadEpoch =>
      have hnumbers : rl.advanceReadEpoch.numbers = rl.numbers := by
        funext i
        rw [numbers, epoch_advanceReadEpoch, numbers]
      exact h.congr hnumbers (Nat.le_refl rl.writeEpochNr)
  | advanceWriteEpoch => exact hadvance rl h
  | updateConnectionState i f => exact hcipher rl i f h
  | send msg =>
      have hsend : Ends (send crypto msg) rl (fun _ => Counts) (fun _ => Counts) := by
        unfold send
        rw [ends_bind]
        apply (processOutgoingMessage_preserves hnumber (fun rl i => hcipher rl i _) crypto
          (fun _ => hadvance) h).mono
        · exact fun _ rl1 h1 => h1.congr rfl (Nat.le_refl rl1.writeEpochNr)
        · exact fun _ _ h1 => h1
      exact Ends.finalState (P := Counts) hsend
  | sendFlight messages =>
      have hsend : Ends (sendFlight crypto messages) rl (fun _ => Counts) (fun _ => Counts) := by
        unfold sendFlight
        rw [ends_bind]
        apply (processOutgoingMessages_preserves hnumber (fun rl i => hcipher rl i _) crypto
          (fun _ _ _ => hadvance) h).mono
        · exact fun _ rl1 h1 => h1.congr rfl (Nat.le_refl rl1.writeEpochNr)
        · exact fun _ _ h1 => h1
      exact Ends.finalState (P := Counts) hsend

end Counts

/-- In every state that a record layer gets into, a fresh epoch starts with the number 0. -/
theorem run_counts (crypto : Crypto) (operations : List Operation) :
    Counts ((machine crypto).run operations) :=
  (machine crypto).invariant Counts.new (fun _ op h => h.perform crypto op) operations

/-! ## Flights -/

/-- The message can go out after those of `before`: its record fits, and its epoch has keys. -/
structure Sendable (rl : RecordLayer) (before : List Message) (msg : Message) : Prop where
  type : msg.type.toNat < 256 ∧ ContentType.ofNat msg.type.toNat = msg.type
  data : msg.data.length ≤ 2 ^ 14
  epoch : rl.sendEpoch before < 2 ^ 16
  number : rl.sendNumber before < 2 ^ 32
  keys : (rl.connState (rl.sendEpoch before)).Installed

/-- The record that a message comes out as, after those of `before`. -/
structure SentRecord (crypto : Crypto) (rl : RecordLayer) (before : List Message) (msg : Message)
    (p : DTLSCiphertext) : Prop where
  type : p.type = msg.type
  epoch : p.epoch = rl.sendEpoch before
  sequenceNumber : (p.sequenceNumber : Int) = rl.sendNumber before
  fragment : ∃ sent : DTLSCiphertext, p.fragment = sent.fragment ∧
    (rl.connState p.epoch).Protects crypto
      ⟨msg.type, (rl.connState p.epoch).protocolVersion, p.epoch, p.sequenceNumber, msg.data⟩ sent

theorem Sent.connState_cases {msg : Message} {rl rl' : RecordLayer} (h : Sent msg rl rl') (i : Nat) :
    ((rl.connState i).Installed → (rl'.connState i).Installed) ∧
    (rl'.connState i).protocolVersion = (rl.connState i).protocolVersion ∧
    ∀ crypto packet sent, (rl'.connState i).Protects crypto packet sent →
      (rl.connState i).Protects crypto packet sent := by
  rcases h.connState i with hsame | hcipher
  · rw [hsame]
    exact ⟨id, rfl, fun _ _ _ hprotects => hprotects⟩
  · rw [hcipher]
    exact ⟨ConnectionState.installed_withCipher.mpr, rfl, fun _ _ _ hprotects => hprotects⟩

theorem Sendable.sent {first msg : Message} {before : List Message} {rl rl' : RecordLayer}
    (h : rl.Sendable (first :: before) msg) (hsent : Sent first rl rl') : rl'.Sendable before msg where
  type := h.type
  data := h.data
  epoch := by rw [hsent.sendEpoch]; exact h.epoch
  number := by rw [hsent.sendNumber]; exact h.number
  keys := by rw [hsent.sendEpoch]; exact (hsent.connState_cases _).1 h.keys

theorem SentRecord.sent {crypto : Crypto} {first msg : Message} {before : List Message}
    {rl rl' : RecordLayer} {p : DTLSCiphertext} (h : SentRecord crypto rl' before msg p)
    (hsent : Sent first rl rl') : SentRecord crypto rl (first :: before) msg p where
  type := h.type
  epoch := by rw [← hsent.sendEpoch]; exact h.epoch
  sequenceNumber := by rw [← hsent.sendNumber]; exact h.sequenceNumber
  fragment := by
    rcases hsent.connState_cases p.epoch with ⟨_, hversion, hprotects⟩
    rcases h.fragment with ⟨sent, hfragment, hsealed⟩
    rw [hversion] at hsealed
    exact ⟨sent, hfragment, hprotects crypto _ sent hsealed⟩

-- The record that the first message of a flight is sent in.
theorem first_record {crypto : Crypto} (hcrypto : crypto.KeepsLengths) {rl : RecordLayer}
    (hcounts : Counts rl) {msg : Message} (hmsg : rl.Sendable [] msg) {sent : DTLSCiphertext}
    (hsent : (rl.connState rl.writeEpochNr).Protects crypto (rl.outgoingPacket msg) sent) :
    ∃ r : Record, r.bytes = sent.serialize ∧ SentRecord crypto rl [] msg r.packet := by
  have hstart := hcounts.start rl.writeEpochNr
  have hnumber : ((rl.outgoingPacket msg).sequenceNumber : Int) = rl.sendNumber [] := by
    show ((rl.numbers rl.writeEpochNr + 1).toNat : Int) = rl.numbers (rl.writeEpochNr + 0) + 1 + 0
    rw [Nat.add_zero]
    omega
  have hprotects := hsent
  rcases hsent.fragment hcrypto with ⟨suite, fragment, _, rfl, hlength⟩
  have hsealed := suite.sealedLength_le (rl.outgoingPacket msg).fragment.length
  have hfits : DTLSPacket.Fits { rl.outgoingPacket msg with fragment := fragment } := by
    refine ⟨hmsg.type, hmsg.epoch, ?_, ?_⟩
    · have hlt := hmsg.number
      simp only
      omega
    · have hdata : (rl.outgoingPacket msg).fragment.length ≤ 2 ^ 14 := hmsg.data
      simp only
      omega
  rcases Record.ofPacket_packet hfits with ⟨version, hpacket⟩
  refine ⟨Record.ofPacket _ hfits, Record.ofPacket_bytes hfits, ?_⟩
  rw [hpacket]
  exact ⟨rfl, rfl, hnumber, { rl.outgoingPacket msg with fragment := fragment }, rfl, hprotects⟩

theorem processOutgoingMessages_records {crypto : Crypto} (hcrypto : crypto.KeepsLengths)
    {messages : List Message} {rl : RecordLayer} (hcounts : Counts rl)
    (hmessages : ∀ before msg after, messages = before ++ msg :: after → rl.Sendable before msg) :
    Ends (processOutgoingMessages crypto messages) rl
      (fun buf rl' => rl'.udpSocket = rl.udpSocket ∧ ∃ records : List Record,
        buf = Record.datagram records ∧ records.length = messages.length ∧
        ∀ i msg r, messages[i]? = some msg → records[i]? = some r →
          SentRecord crypto rl (messages.take i) msg r.packet)
      (fun _ _ => False) := by
  induction messages generalizing rl with
  | nil => exact ⟨rfl, [], rfl, rfl, fun _ _ _ hmsg => by cases hmsg⟩
  | cons msg messages ih =>
      have hfirst : rl.Sendable [] msg := hmessages [] msg messages rfl
      rw [processOutgoingMessages, ends_bind]
      apply (processOutgoingMessage_record crypto msg hfirst.keys).mono _ fun _ _ h => h
      rintro buf rl1 ⟨hsent, sent, rfl, hprotects⟩
      rcases first_record hcrypto hcounts hfirst hprotects with ⟨r, hbytes, hr⟩
      have hrest : ∀ before msg' after, messages = before ++ msg' :: after →
          rl1.Sendable before msg' := by
        intro before msg' after heq
        have hmsg' := hmessages (msg :: before) msg' after (by rw [heq]; rfl)
        exact hmsg'.sent hsent
      rw [ends_bind]
      apply (ih (hcounts.sent hsent) hrest).mono _ fun _ _ h => h
      rintro bufs rl2 ⟨hudp, records, rfl, hlength, hrecords⟩
      refine ⟨hudp.trans hsent.udpSocket, r :: records, ?_, congrArg (· + 1) hlength, ?_⟩
      · show sent.serialize ++ Record.datagram records = r.bytes ++ Record.datagram records
        rw [hbytes]
      · intro i msg' r' hmsg' hr'
        cases i with
        | zero =>
            cases hmsg'
            cases hr'
            exact hr
        | succ i =>
            rw [List.take_succ_cons]
            exact (hrecords i msg' r' hmsg' hr').sent hsent

/-- The datagram of a flight is consumed exactly by parsing record after record, and there is one
record for each message, in order.  After a ChangeCipherSpec of the flight the numbers start at 0. -/
theorem sendFlight_parses {crypto : Crypto} (hcrypto : crypto.KeepsLengths) {rl : RecordLayer}
    (hcounts : Counts rl) {messages : List Message}
    (hmessages : ∀ before msg after, messages = before ++ msg :: after → rl.Sendable before msg)
    (memory : Nat → Memory) :
    ∃ buf rl' packets, sendFlight crypto messages rl = .ok () rl' ∧
      rl'.udpSocket = rl.udpSocket ++ [buf] ∧
      DTLSCiphertext.Consumes memory buf 0 packets ∧ packets.length = messages.length ∧
      ∀ i msg p, messages[i]? = some msg → packets[i]? = some p →
        SentRecord crypto rl (messages.take i) msg p ∧
        (0 < (messages.take i).countP isChangeCipherSpec →
          p.sequenceNumber = (sinceSwitch (messages.take i)).length) := by
  have hends : Ends (sendFlight crypto messages) rl (fun _ rl' => ∃ records : List Record,
      rl'.udpSocket = rl.udpSocket ++ [Record.datagram records] ∧ records.length = messages.length ∧
      ∀ i msg r, messages[i]? = some msg → records[i]? = some r →
        SentRecord crypto rl (messages.take i) msg r.packet) (fun _ _ => False) := by
    unfold sendFlight
    rw [ends_bind]
    apply (processOutgoingMessages_records hcrypto hcounts hmessages).mono _ fun _ _ h => h
    rintro buf rl1 ⟨hudp, records, rfl, hrecords⟩
    exact ⟨records, congrArg (· ++ [Record.datagram records]) hudp, hrecords⟩
  rcases hends.exists_ok with ⟨_, rl', hok, records, hudp, hlength, hrecords⟩
  refine ⟨Record.datagram records, rl', records.map Record.packet, hok, hudp,
    Record.consumes_datagram memory records [], ?_, ?_⟩
  · rw [List.length_map, hlength]
  · intro i msg p hmsg hp
    rw [List.getElem?_map, Option.map_eq_some_iff] at hp
    rcases hp with ⟨r, hr, rfl⟩
    have hsent := hrecords i msg r hmsg hr
    refine ⟨hsent, fun hswitch => ?_⟩
    have hfresh := hcounts.fresh (rl.sendEpoch (messages.take i)) (by unfold sendEpoch; omega)
    have hnumber := hsent.sequenceNumber
    unfold sendNumber at hnumber
    omega

end RecordLayer

theorem EpochsInv.installed {crypto : Crypto} {keyed : Bool} {rl : RecordLayer}
    (h : EpochsInv crypto keyed rl) : (rl.connState rl.writeEpochNr).Installed := by
  have hepoch := h.epoch rl.writeEpochNr
  have hle := h.writeEpochNr
  by_cases hwrite : rl.writeEpochNr = 1
  · have hkeyed := h.keyed_of_write hwrite
    exact (hepoch.negotiated (by rw [hkeyed, hwrite]; rfl)).installed
  · exact ⟨_, hepoch.clear (by omega), fun hne => absurd rfl hne⟩

/-- In every state of every run the epoch that a client writes in has its keys. -/
theorem run_installed (opts : Options) (crypto : Crypto) (random : Random) (actions : List Action) :
    let rl := ((client opts crypto random).run actions).socket.recordLayer
    (rl.connState rl.writeEpochNr).Installed :=
  (run_inv opts crypto random actions).epochs.installed

namespace Sample

theorem aes_keepsLengths : aes.KeepsLengths where
  randomBytes := (aes_inverts CipherSuites.TLS_NULL_WITH_NULL_NULL).randomBytes_length
  encryptCBC := by
    intro _ _ _ plaintext _
    have hlength : (hello.fragment ++ helloMAC ++ List.replicate 11 10).length = helloCBC.length := rfl
    exact swap_length hlength plaintext
  encryptAEAD := by
    intro _ _ _ plaintext _ authTagLength
    have hlength : hello.fragment.length = helloGCM.ciphertext.length := rfl
    exact ⟨swap_length hlength plaintext, helloAuthTag_length plaintext authTagLength⟩

/-- A record layer with the keys for the epoch after the first. -/
def keyed : RecordLayer := RecordLayer.new.updateConnectionState 1 fun c =>
  { c with
    cipherSuite := some CipherSuites.TLS_PSK_WITH_AES_128_CBC_SHA256
    protocolVersion := hello.version
    keyMaterial := some keys }

def helloFlight : List Message :=
  [⟨.changeCipherSpec, ChangeCipherSpec.serialize⟩, ⟨.applicationData, hello.fragment⟩]

-- The datagram that it goes out in.
example : (finalState (RecordLayer.sendFlight aes helloFlight) keyed).udpSocket =
    [DTLSCiphertext.serialize ⟨.changeCipherSpec, ConnectionState.new.protocolVersion, 0, 0, [1]⟩ ++
      DTLSCiphertext.serialize
        { hello with fragment := (List.range 16).map UInt8.ofNat ++ helloCBC }] := by
  decide +kernel

theorem helloFlight_sendable (before : List Message) (msg : Message) (after : List Message)
    (h : helloFlight = before ++ msg :: after) : keyed.Sendable before msg := by
  rcases before with _ | ⟨first, _ | ⟨second, before⟩⟩
  · cases h
    exact ⟨by decide, by decide, by decide, by decide, _, rfl, fun hne => absurd rfl hne⟩
  · cases h
    exact ⟨by decide, by decide, by decide, by decide, _, rfl, fun _ => ⟨keys, rfl, rfl⟩⟩
  · have hlength := congrArg List.length h
    simp [helloFlight] at hlength

theorem keyed_counts : keyed.Counts :=
  RecordLayer.Counts.new.congr (RecordLayer.numbers_updateConnectionState _ _ _) (Nat.le_refl _)

end Sample

-- A ChangeCipherSpec, and the first record under the new keys.
theorem RecordLayer.sendFlight_parses_hello :
    ∃ buf rl' packets, sendFlight Sample.aes Sample.helloFlight Sample.keyed = .ok () rl' ∧
      rl'.udpSocket = Sample.keyed.udpSocket ++ [buf] ∧
      DTLSCiphertext.Consumes (fun _ _ => 0) buf 0 packets ∧
      packets.length = Sample.helloFlight.length ∧
      ∀ i msg p, Sample.helloFlight[i]? = some msg → packets[i]? = some p →
        SentRecord Sample.aes Sample.keyed (Sample.helloFlight.take i) msg p ∧
        (0 < (Sample.helloFlight.take i).countP isChangeCipherSpec →
          p.sequenceNumber = (sinceSwitch (Sample.helloFlight.take i)).length) :=
  sendFlight_parses Sample.aes_keepsLengths Sample.keyed_counts Sample.helloFlight_sendable _

end DtlsClient
