import DtlsClient.Properties.Negotiation
import DtlsClient.Properties.Transcript
import DtlsClient.Properties.Transmission
import DtlsClient.Properties.Window

/-!
# The record layer at the other end

A peer that holds the keys of an epoch reads the records of a datagram as they were before they were
protected.  Whatever the network loses, repeats and reorders, no message gets through more often than it
was sent.
-/

open Library

namespace DtlsClient

/-! ## Versions on the wire -/

theorem ProtocolVersion.sameAs_iff {v v' : ProtocolVersion} :
    v.sameAs v' = true ↔ numberToBuffer v.major 8 = numberToBuffer v'.major 8 ∧
      numberToBuffer v.minor 8 = numberToBuffer v'.minor 8 := by
  have hbytes : ∀ v : ProtocolVersion, TLSStruct.serialize spec v.toVal =
      numberToBuffer v.major 8 ++ (numberToBuffer v.minor 8 ++ []) := fun _ => rfl
  rw [sameAs, decide_eq_true_eq, hbytes, hbytes, List.append_nil, List.append_nil]
  constructor
  · intro h
    exact List.append_inj h (by simp)
  · rintro ⟨hmajor, hminor⟩
    rw [hmajor, hminor]

-- A MAC covers the version as it is sent.
theorem MACHeader.serialize_sameAs (h : MACHeader) {version : ProtocolVersion}
    (hsame : version.sameAs h.version = true) :
    MACHeader.serialize { h with version := version } = h.serialize := by
  have hbytes : ∀ h : MACHeader, h.serialize = numberToBuffer (some h.epoch) 16 ++
      (numberToBuffer (some h.sequenceNumber) 48 ++ (numberToBuffer (some h.type.toNat) 8 ++
      ((numberToBuffer h.version.major 8 ++ (numberToBuffer h.version.minor 8 ++ [])) ++
      (numberToBuffer (some h.fragmentLength) 16 ++ [])))) := fun _ => rfl
  rw [ProtocolVersion.sameAs_iff] at hsame
  rw [hbytes, hbytes, hsame.1, hsame.2]

/-- A record with another version that has the same bytes is protected in the same way. -/
theorem CipherSuite.cipher_sameAs {crypto : Crypto} {suite : CipherSuite} {p : DTLSCompressed}
    {sent : DTLSCiphertext} {keys : Option KeyMaterial} {connEnd : ConnectionEnd} {version : ProtocolVersion}
    (h : suite.cipher crypto p keys connEnd = .ok sent) (hsame : version.sameAs p.version = true) :
    suite.cipher crypto { p with version := version } keys connEnd =
      .ok { sent with version := version } := by
  unfold CipherSuite.cipher at h ⊢
  cases hcipher : suite.cipherType with
  | null =>
      rw [hcipher] at h
      rcases Except.ok.inj h with rfl
      rfl
  | block algorithm =>
      rw [hcipher] at h
      cases keys with
      | none => cases h
      | some keys =>
          rcases Except.ok.inj h with rfl
          have hheader : DTLSCompressed.computeMACHeader { p with version := version } =
              DTLSCompressed.computeMACHeader p :=
            MACHeader.serialize_sameAs ⟨p.epoch, p.sequenceNumber, p.type, p.version, _⟩ hsame
          show Except.ok (BlockCipher.cipher crypto algorithm suite.mac
            { p with version := version } keys connEnd) = _
          unfold BlockCipher.cipher
          rw [hheader]
  | aead algorithm =>
      rw [hcipher] at h
      cases keys with
      | none => cases h
      | some keys =>
          rcases Except.ok.inj h with rfl
          have hdata : AEADCipher.additionalData { p with version := version } p.fragment.length =
              AEADCipher.additionalData p p.fragment.length :=
            MACHeader.serialize_sameAs ⟨p.epoch, p.sequenceNumber, p.type, p.version, _⟩ hsame
          show Except.ok (AEADCipher.cipher crypto algorithm { p with version := version } keys
            connEnd) = _
          unfold AEADCipher.cipher
          rw [hdata]

-- Only the fragment is replaced.
theorem CipherSuite.cipher_header {crypto : Crypto} {suite : CipherSuite} {p : DTLSCompressed}
    {sent : DTLSCiphertext} {keys : Option KeyMaterial} {connEnd : ConnectionEnd}
    (h : suite.cipher crypto p keys connEnd = .ok sent) :
    ∃ fragment, sent = { p with fragment := fragment } := by
  unfold CipherSuite.cipher at h
  split at h
  · exact ⟨p.fragment, (Except.ok.inj h).symm⟩
  · exact ⟨_, (Except.ok.inj h).symm⟩
  · exact ⟨_, (Except.ok.inj h).symm⟩
  · cases h

/-! ## Both ends of a delegate -/

namespace Delegate

/-- What the other end has for the same epoch. -/
def mirror (d : Delegate) : Delegate := { d with connEnd := d.connEnd.other }

/-- The `crypto` module inverts what this delegate does. -/
def Inverted (crypto : Crypto) (d : Delegate) : Prop :=
  ∀ keys, d.keyMaterial = some keys → crypto.Inverts d.suite keys

theorem decipher_mirror {crypto : Crypto} {d : Delegate} {p : DTLSCompressed} {sent : DTLSCiphertext}
    (h : d.Inverted crypto) (hsent : d.cipher crypto p = .ok sent) :
    d.mirror.decipher crypto sent = .ok p := by
  rcases d with ⟨suite, keyMaterial, connEnd⟩
  show suite.decipher crypto sent keyMaterial connEnd.other = .ok p
  have hsent : suite.cipher crypto p keyMaterial connEnd = .ok sent := hsent
  have h : ∀ keys, keyMaterial = some keys → crypto.Inverts suite keys := h
  unfold CipherSuite.cipher at hsent
  unfold CipherSuite.decipher
  cases hcipher : suite.cipherType with
  | null =>
      rw [hcipher] at hsent
      rw [← Except.ok.inj hsent]
  | block algorithm =>
      rw [hcipher] at hsent
      cases keyMaterial with
      | none => cases hsent
      | some keys =>
          rw [← Except.ok.inj hsent]
          exact BlockCipher.decipher_of_cipher (h keys rfl) hcipher suite.mac p connEnd
  | aead algorithm =>
      rw [hcipher] at hsent
      cases keyMaterial with
      | none => cases hsent
      | some keys =>
          rw [← Except.ok.inj hsent]
          exact AEADCipher.decipher_of_cipher (h keys rfl) hcipher p connEnd

-- The version may be any one that was sent with the same bytes.
theorem decipher_mirror_sameAs {crypto : Crypto} {d : Delegate} {p : DTLSCompressed}
    {sent : DTLSCiphertext} {version : ProtocolVersion} (h : d.Inverted crypto)
    (hsent : d.cipher crypto p = .ok sent) (hsame : version.sameAs p.version = true) :
    d.mirror.decipher crypto { sent with version := version } = .ok { p with version := version } :=
  decipher_mirror h (CipherSuite.cipher_sameAs hsent hsame)

-- Protection takes at most 96 bytes.
theorem cipher_sealed {crypto : Crypto} (hcrypto : crypto.KeepsLengths) (d : Delegate)
    {p : DTLSCompressed} {sent : DTLSCiphertext} (h : d.cipher crypto p = .ok sent) :
    ∃ fragment, sent = { p with fragment := fragment } ∧
      fragment.length ≤ p.fragment.length + 96 := by
  rcases d with ⟨suite, keyMaterial, connEnd⟩
  have h : suite.cipher crypto p keyMaterial connEnd = .ok sent := h
  cases keyMaterial with
  | none =>
      unfold CipherSuite.cipher at h
      split at h
      · exact ⟨p.fragment, (Except.ok.inj h).symm, Nat.le_add_right _ 96⟩
      · contradiction
      · contradiction
      · cases h
  | some keys =>
      rcases suite.cipher_fragment hcrypto h with ⟨fragment, hsent, hlength⟩
      have hle := suite.sealedLength_le p.fragment.length
      exact ⟨fragment, hsent, by omega⟩

end Delegate

/-! ## Records that arrive -/

/-- The version as it is parsed from the two bytes it was sent in. -/
def ProtocolVersion.parsed (v : ProtocolVersion) : ProtocolVersion :=
  ⟨bufferToNumber (numberToBuffer v.major 8) 8 0, bufferToNumber (numberToBuffer v.minor 8) 8 0⟩

theorem ProtocolVersion.parsed_sameAs (v : ProtocolVersion) : v.parsed.sameAs v = true := by
  have hbyte : ∀ n : Num, numberToBuffer (bufferToNumber (numberToBuffer n 8) 8 0) 8 =
      numberToBuffer n 8 := by
    intro n
    have hlength := numberToBuffer_length n 8
    rw [numberToBuffer_bufferToNumber (by decide) (by rw [hlength]), List.drop_zero, ← hlength,
      List.take_length]
  rw [sameAs_iff]
  exact ⟨hbyte v.major, hbyte v.minor⟩

/-- A record as the other end reads it. -/
def DTLSPacket.asReceived (p : DTLSPacket) : DTLSPacket := { p with version := p.version.parsed }

theorem Record.ofPacket_asReceived {p : DTLSCiphertext} (hfits : p.Fits) :
    (ofPacket p hfits).packet = p.asReceived := by
  have hbyte : ∀ (n : Num), 0 + 8 / 8 ≤ (numberToBuffer n 8).length := by
    intro n
    rw [numberToBuffer_length]
  have hmajor : bufferToNumber (ofPacket p hfits).header 8 1 = p.version.parsed.major :=
    bufferToNumber_at (numberToBuffer (some p.type.toNat) 8) (numberToBuffer p.version.major 8) _
      (hbyte p.version.major)
  have hminor : bufferToNumber (ofPacket p hfits).header 8 2 = p.version.parsed.minor := by
    have hat := bufferToNumber_at (numberToBuffer (some p.type.toNat) 8 ++
      numberToBuffer p.version.major 8) (numberToBuffer p.version.minor 8)
      (numberToBuffer (some p.epoch) 16 ++
        (numberToBuffer (some p.sequenceNumber) 48 ++ numberToBuffer (some p.fragment.length) 16))
      (hbyte p.version.minor)
    rw [List.append_assoc] at hat
    exact hat
  rcases ofPacket_packet hfits with ⟨version, hpacket⟩
  have hversion : version = (ofPacket p hfits).packet.version := by rw [hpacket]
  have hparsed : (ofPacket p hfits).packet.version =
      ⟨bufferToNumber (ofPacket p hfits).header 8 1, bufferToNumber (ofPacket p hfits).header 8 2⟩ :=
    rfl
  rw [hpacket, hversion, hparsed, hmajor, hminor]
  rfl

namespace RecordLayer

/-- The peer reads an epoch with what protects it at this end, seen from the other end. -/
def Hears (crypto : Crypto) (rl peer : RecordLayer) (i : Nat) : Prop :=
  ∃ d, (rl.connState i).specify = some d ∧ d.Inverted crypto ∧
    (peer.connState i).decipher = some d.mirror

variable {crypto : Crypto} {rl peer : RecordLayer}

theorem protect_header {p : DTLSCompressed} {sent : DTLSCiphertext}
    (h : rl.protect crypto p = some sent) :
    ∃ d fragment, (rl.connState p.epoch).specify = some d ∧ d.cipher crypto p = .ok sent ∧
      sent = { p with fragment := fragment } := by
  unfold protect at h
  rcases Option.bind_eq_some_iff.mp h with ⟨d, hspecify, hcipher⟩
  have hok : d.cipher crypto p = .ok sent := by
    cases hres : d.cipher crypto p with
    | error e => rw [hres] at hcipher; cases hcipher
    | ok q => rw [hres] at hcipher; rw [Option.some.inj hcipher]
  rcases CipherSuite.cipher_header hok with ⟨fragment, hfragment⟩
  exact ⟨d, fragment, hspecify, hok, hfragment⟩

/-- What was protected is deciphered to what it was before. -/
theorem decipherPacket_protect {p : DTLSCompressed} {sent : DTLSCiphertext}
    (hhears : Hears crypto rl peer p.epoch) (h : rl.protect crypto p = some sent) :
    peer.decipherPacket crypto sent.asReceived = some p.asReceived := by
  rcases protect_header h with ⟨d, fragment, hspecify, hcipher, hsent⟩
  rcases hhears with ⟨d', hspecify', hinverted, hdecipher⟩
  rw [hspecify] at hspecify'
  rcases Option.some.inj hspecify' with rfl
  have hepoch : sent.asReceived.epoch = p.epoch := by rw [hsent]; rfl
  have hversion : sent.version = p.version := by rw [hsent]
  have hmirror := Delegate.decipher_mirror_sameAs hinverted hcipher
    (ProtocolVersion.parsed_sameAs p.version)
  show ((peer.connState sent.asReceived.epoch).decipher.bind _) = _
  rw [hepoch, hdecipher]
  show (d.mirror.decipher crypto { sent with version := sent.version.parsed }).toOption = _
  rw [hversion, hmirror]
  rfl

/-- The fields of the record can be written, as it goes out. -/
def Writable (crypto : Crypto) (rl : RecordLayer) (p : DTLSCompressed) : Prop :=
  ∀ sent, rl.protect crypto p = some sent → DTLSPacket.Fits sent

/-- A datagram that was written as these records is taken apart into them. -/
theorem packets_written {records : List DTLSCompressed} {datagram : Bytes} (memory : Nat → Memory)
    (hwritten : WrittenAs crypto rl records datagram) (hfits : ∀ p ∈ records, Writable crypto rl p) :
    ∃ sent : List DTLSCiphertext, records.map (rl.protect crypto) = sent.map some ∧
      packets memory datagram = sent.map DTLSPacket.asReceived := by
  rcases hwritten with ⟨sent, hsent, rfl⟩
  refine ⟨sent, hsent, ?_⟩
  have hall : ∀ q ∈ sent, DTLSPacket.Fits q := by
    intro q hq
    have hmem : some q ∈ records.map (rl.protect crypto) := by
      rw [hsent]
      exact List.mem_map_of_mem hq
    rcases List.mem_map.mp hmem with ⟨p, hp, hprotect⟩
    exact hfits p hp q hprotect
  have hrecords : ∃ written : List Record, sent.flatMap DTLSCiphertext.serialize =
      Record.datagram written ∧ written.map Record.packet = sent.map DTLSPacket.asReceived := by
    clear hsent hfits
    induction sent with
    | nil => exact ⟨[], rfl, rfl⟩
    | cons q sent ih =>
        rw [List.forall_mem_cons] at hall
        rcases ih hall.2 with ⟨written, hbytes, hpackets⟩
        refine ⟨Record.ofPacket q hall.1 :: written, ?_, ?_⟩
        · rw [List.flatMap_cons, hbytes, ← Record.ofPacket_bytes hall.1]
          rfl
        · rw [List.map_cons, List.map_cons, hpackets, Record.ofPacket_asReceived]
  rcases hrecords with ⟨written, hbytes, hpackets⟩
  rw [hbytes, Record.packets_datagram, hpackets]

theorem admitted_written {records : List DTLSCompressed} {datagram : Bytes} (memory : Nat → Memory)
    (hwritten : WrittenAs crypto rl records datagram) (hfits : ∀ p ∈ records, Writable crypto rl p)
    {q : DTLSCiphertext} (hq : q ∈ peer.admitted memory datagram) :
    ∃ p ∈ records, q.epoch = p.epoch := by
  rcases packets_written memory hwritten hfits with ⟨sent, hsent, hpackets⟩
  have hq := (List.mem_filter.mp hq).1
  rw [hpackets] at hq
  rcases List.mem_map.mp hq with ⟨sealed, hsealed, rfl⟩
  have hmem : some sealed ∈ records.map (rl.protect crypto) := by
    rw [hsent]
    exact List.mem_map_of_mem hsealed
  rcases List.mem_map.mp hmem with ⟨p, hp, hprotect⟩
  rcases protect_header hprotect with ⟨_, _, _, _, hheader⟩
  exact ⟨p, hp, by rw [hheader]; rfl⟩

/-- The peer returns the messages of the records that its windows let through. -/
theorem accepted_written {records : List DTLSCompressed} {datagram : Bytes} (memory : Nat → Memory)
    (hwritten : WrittenAs crypto rl records datagram) (hfits : ∀ p ∈ records, Writable crypto rl p)
    (hhears : ∀ q ∈ peer.admitted memory datagram, Hears crypto rl peer q.epoch) :
    peer.accepted crypto memory datagram =
      (records.filter peer.admits).map DTLSPacket.asReceived := by
  rcases packets_written memory hwritten hfits with ⟨sent, hsent, hpackets⟩
  unfold accepted
  unfold admitted at hhears ⊢
  rw [hpackets] at hhears ⊢
  clear hpackets hwritten hfits
  induction records generalizing sent with
  | nil =>
      cases sent with
      | nil => rfl
      | cons q sent => cases hsent
  | cons p records ih =>
      cases sent with
      | nil => cases hsent
      | cons q sent =>
          rw [List.map_cons, List.map_cons] at hsent
          rcases List.cons.inj hsent with ⟨hprotect, hsent⟩
          rcases protect_header hprotect with ⟨_, fragment, _, _, hheader⟩
          have hadmits : peer.admits q.asReceived = peer.admits p := by rw [hheader]; rfl
          have hepoch : q.asReceived.epoch = p.epoch := by rw [hheader]; rfl
          rw [List.map_cons, List.filter_cons, hadmits] at hhears ⊢
          rw [List.filter_cons]
          by_cases hadmit : peer.admits p = true
          · rw [if_pos hadmit, List.forall_mem_cons, hepoch] at hhears
            rw [if_pos hadmit, if_pos hadmit, List.filterMap_cons,
              decipherPacket_protect hhears.1 hprotect, List.map_cons]
            simp only
            rw [ih sent hhears.2 hsent]
          · rw [if_neg hadmit] at hhears
            rw [if_neg hadmit, if_neg hadmit]
            exact ih sent hhears hsent

/-! ## A network that loses, repeats and reorders -/

/-- A datagram that is received is one of those that were sent, and the peer has the keys for what it
lets through of it. -/
def Overhears (crypto : Crypto) (rl : RecordLayer) (t : RecordLayer × Operation) : Prop :=
  match t.2 with
  | .receive memory buf =>
      buf ∈ rl.udpSocket ∧ ∀ q ∈ t.1.admitted memory buf, Hears crypto rl t.1 q.epoch
  | _ => True

theorem exists_written {log : List (List DTLSCompressed)} {datagrams : List Bytes} {buf : Bytes}
    (h : List.Forall₂ (WrittenAs crypto rl) log datagrams) (hbuf : buf ∈ datagrams) :
    ∃ records ∈ log, WrittenAs crypto rl records buf := by
  induction h with
  | nil => cases hbuf
  | cons hwritten _ ih =>
      rcases List.mem_cons.mp hbuf with rfl | hbuf
      · exact ⟨_, List.mem_cons_self, hwritten⟩
      · rcases ih hbuf with ⟨records, hrecords, hwritten⟩
        exact ⟨records, List.mem_cons_of_mem _ hrecords, hwritten⟩

-- What is accepted was sent, and with another key each.
theorem acceptedRecords_written {log : List (List DTLSCompressed)}
    (hdatagrams : List.Forall₂ (WrittenAs crypto rl) log rl.udpSocket)
    (hwritable : ∀ p ∈ log.flatten, Writable crypto rl p)
    (hkeys : (log.flatten.map recordKey).Nodup) {t : RecordLayer × Operation}
    (h : Overhears crypto rl t) :
    (∀ q ∈ acceptedRecords crypto t, q ∈ log.flatten.map DTLSPacket.asReceived) ∧
      (returnedKeys crypto t).Nodup := by
  rcases t with ⟨peer, op⟩
  have hnothing : acceptedRecords crypto (peer, op) = [] →
      (∀ q ∈ acceptedRecords crypto (peer, op), q ∈ log.flatten.map DTLSPacket.asReceived) ∧
        (returnedKeys crypto (peer, op)).Nodup := by
    intro hnil
    rw [returnedKeys_eq, hnil]
    exact ⟨fun _ hq => absurd hq List.not_mem_nil, List.nodup_nil⟩
  cases op with
  | receive memory buf =>
      rcases h with ⟨hbuf, hhears⟩
      rcases exists_written hdatagrams hbuf with ⟨records, hrecords, hwritten⟩
      have hsublist : records.Sublist log.flatten := List.sublist_flatten_of_mem hrecords
      have haccepted := accepted_written memory hwritten
        (fun p hp => hwritable p (hsublist.subset hp)) hhears
      have hall : (records.filter peer.admits).Sublist log.flatten :=
        List.filter_sublist.trans hsublist
      constructor
      · intro q hq
        have hq : q ∈ peer.accepted crypto memory buf := hq
        rw [haccepted] at hq
        exact (hall.map _).subset hq
      · show ((peer.accepted crypto memory buf).map recordKey).Nodup
        rw [haccepted, List.map_map]
        exact (hall.map recordKey).nodup hkeys
  | _ => exact hnothing rfl

/-- Whatever is lost, repeated and reordered on the way: the peer returns no message that was not sent, and
none more often than it was sent. -/
theorem returned_subperm {log : List (List DTLSCompressed)}
    (hdatagrams : List.Forall₂ (WrittenAs crypto rl) log rl.udpSocket)
    (hwritable : ∀ p ∈ log.flatten, Writable crypto rl p)
    (hkeys : (log.flatten.map recordKey).Nodup) {operations : List Operation}
    (h : ∀ t ∈ (machine crypto).trace operations, Overhears crypto rl t) :
    (((machine crypto).trace operations).flatMap (returned crypto)).Subperm
      (log.flatten.map asMessage) := by
  have hstep : ∀ t ∈ (machine crypto).trace operations, _ :=
    fun t ht => acceptedRecords_written hdatagrams hwritable hkeys (h t ht)
  have hnodup := (nodup_returnedKeys crypto operations).mpr fun t ht => (hstep t ht).2
  have hkeysEq : ((machine crypto).trace operations).flatMap (returnedKeys crypto) =
      (((machine crypto).trace operations).flatMap (acceptedRecords crypto)).map recordKey := by
    rw [List.map_flatMap]
    exact List.flatMap_congr fun t _ => returnedKeys_eq crypto t
  have hreturned : ((machine crypto).trace operations).flatMap (returned crypto) =
      (((machine crypto).trace operations).flatMap (acceptedRecords crypto)).map asMessage := by
    rw [List.map_flatMap]
    exact List.flatMap_congr fun t _ => returned_eq crypto t
  have hsent : log.flatten.map asMessage =
      (log.flatten.map DTLSPacket.asReceived).map asMessage := by
    rw [List.map_map]
    rfl
  rw [hreturned, hsent]
  rw [hkeysEq] at hnodup
  apply subperm_map_of_nodup recordKey asMessage hnodup
  intro q hq
  rcases List.mem_flatMap.mp hq with ⟨t, ht, hq⟩
  exact (hstep t ht).1 q hq

end RecordLayer

/-! ## From a client to its peer -/

-- The parts of a handshake message stay below the MTU.
theorem Sending.fragmentsOf_length {handshake : Handshake} {fragment : FragmentedHandshake}
    (h : fragment ∈ fragmentsOf handshake) : fragment.serialize.length ≤ 1252 := by
  have hmax : 0 < RecordLayer.MAX_PAYLOAD_SIZE - FragmentedHandshake.headerLength := by decide
  rw [fragmentsOf_eq (handshake.toFragment.split_eq hmax)] at h
  split at h
  · cases h
  · rw [List.mem_singleton.mp h, FragmentedHandshake.serialize_length, List.length_take]
    have hle := Nat.min_le_left (RecordLayer.MAX_PAYLOAD_SIZE - FragmentedHandshake.headerLength)
      handshake.toFragment.fragment.length
    have hmtu : FragmentedHandshake.headerLength +
      (RecordLayer.MAX_PAYLOAD_SIZE - FragmentedHandshake.headerLength) = 1252 := rfl
    omega

-- Everything but application data is short.
theorem Sending.messages_fit {sending : Sending} {m : Message} (hm : m ∈ sending.messages)
    (hdata : ∀ data ∈ sending.data?, data.length ≤ 2 ^ 14) :
    (m.type.toNat < 256 ∧ ContentType.ofNat m.type.toNat = m.type) ∧ m.data.length ≤ 2 ^ 14 := by
  cases sending with
  | flight handshakes =>
      rcases List.mem_flatMap.mp hm with ⟨handshake, _, hm⟩
      rcases List.mem_append.mp hm with hm | hm
      · split at hm
        · rw [List.mem_singleton.mp hm]
          exact ⟨by decide, by decide⟩
        · cases hm
      · rcases List.mem_map.mp hm with ⟨fragment, hfragment, rfl⟩
        have hlength := fragmentsOf_length hfragment
        refine ⟨⟨(by decide : 22 < 256), rfl⟩, ?_⟩
        show fragment.serialize.length ≤ 2 ^ 14
        omega
  | alert a =>
      rw [List.mem_singleton.mp hm]
      have hlength : a.serialize.length = 2 := by
        show (numberToBuffer a.level 8 ++ (numberToBuffer a.description 8 ++ [])).length = 2
        simp
      refine ⟨⟨(by decide : 21 < 256), rfl⟩, ?_⟩
      show a.serialize.length ≤ 2 ^ 14
      omega
  | data bytes =>
      rw [List.mem_singleton.mp hm]
      exact ⟨⟨(by decide : 23 < 256), rfl⟩, hdata bytes rfl⟩

/-- As long as the numbers and the data are small enough for their fields, all records can be written. -/
theorem Transmitted.writable {crypto : Crypto} {c : Config} {log : List (List DTLSCompressed)}
    {sendings : List Sending} {accepted : List Bytes} (hcrypto : crypto.KeepsLengths)
    (h : Transmitted crypto c log sendings accepted) (hinv : ClientInv crypto c.socket)
    (hdata : ∀ data ∈ accepted, data.length ≤ 2 ^ 14)
    (hnumbers : ∀ i, c.recordLayer.nextNumber i ≤ 2 ^ 32) :
    ∀ p ∈ log.flatten, RecordLayer.Writable crypto c.recordLayer p := by
  intro p hp sent hsent
  have hmem : RecordLayer.asMessage p ∈ (sendings.map Sending.messages).flatten := by
    rw [← h.messages, ← List.map_flatten]
    exact List.mem_map_of_mem hp
  rcases List.mem_flatten.mp hmem with ⟨_, hmessages, hm⟩
  rcases List.mem_map.mp hmessages with ⟨sending, hsending, rfl⟩
  have hfit := Sending.messages_fit hm fun data hsome => hdata data <| by
    rw [← h.data]
    exact List.mem_filterMap.mpr ⟨sending, hsending, hsome⟩
  have htype : p.type.toNat < 256 ∧ ContentType.ofNat p.type.toNat = p.type := hfit.1
  have hlength : p.fragment.length ≤ 2 ^ 14 := hfit.2
  have hissued := h.wire.logged.mem_issued hp
  have hepoch : c.recordLayer.writeEpochNr ≤ 1 := hinv.epochs.writeEpochNr
  have hnumber := hnumbers p.epoch
  rcases RecordLayer.protect_header hsent with ⟨d, _, _, hcipher, _⟩
  rcases d.cipher_sealed hcrypto hcipher with ⟨fragment, rfl, hsealed⟩
  refine ⟨htype, ?_, ?_, ?_⟩
  · show p.epoch < 2 ^ 16
    omega
  · show p.sequenceNumber < 2 ^ 32
    omega
  · show fragment.length < 2 ^ 16
    omega

-- What is accepted was given to `send`.
theorem acceptedData_given {opts : Options} {crypto : Crypto} {random : Random}
    {actions : List Action} {data : Bytes}
    (h : data ∈ ((client opts crypto random).trace actions).flatMap (acceptedData crypto)) :
    .send data ∈ actions := by
  rcases List.mem_flatMap.mp h with ⟨⟨c, a⟩, ht, hdata⟩
  rcases (client opts crypto random).mem_trace ht with ⟨before, after, hactions, _⟩
  have ha : a ∈ actions := by
    rw [hactions]
    exact List.mem_append_right _ List.mem_cons_self
  cases a with
  | send bytes =>
      unfold acceptedData at hdata
      simp only at hdata
      split at hdata
      · rw [List.mem_singleton.mp hdata]
        exact ha
      · cases hdata
  | _ => cases hdata

/-- A network that loses, repeats and reorders the datagrams of a client: the record layer at the other end
returns no message more often than the client sent it, and no data more often than the application gave
it to `send`. -/
theorem peer_returnsSentMessages (opts : Options) {crypto : Crypto} (hcrypto : crypto.KeepsLengths)
    (random : Random) (actions : List Action) (operations : List RecordLayer.Operation) :
    let c := (client opts crypto random).run actions
    (∀ data, .send data ∈ actions → data.length ≤ 2 ^ 14) →
    (∀ i, c.recordLayer.nextNumber i ≤ 2 ^ 32) →
    (∀ t ∈ (RecordLayer.machine crypto).trace operations,
      RecordLayer.Overhears crypto c.recordLayer t) →
    let returned :=
      ((RecordLayer.machine crypto).trace operations).flatMap (RecordLayer.returned crypto)
    (∃ log : List (List DTLSCompressed),
      List.Forall₂ (c.recordLayer.WrittenAs crypto) log c.recordLayer.udpSocket ∧
      returned.Subperm (log.flatten.map RecordLayer.asMessage)) ∧
    (dataOf returned).Subperm
      (((client opts crypto random).trace actions).flatMap (acceptedData crypto)) := by
  intro c hdata hnumbers hover returned
  rcases run_transmitted opts crypto random actions with ⟨log, sendings, h⟩
  have hinv := run_inv opts crypto random actions
  have hwritable := h.writable hcrypto hinv (fun data hmem => hdata data (acceptedData_given hmem))
    hnumbers
  have hkeys : (log.flatten.map RecordLayer.recordKey).Nodup := by
    rw [h.wire.logged.numbers]
    exact issued_nodup _ _
  have hreturned := RecordLayer.returned_subperm h.wire.datagrams hwritable hkeys hover
  refine ⟨⟨log, h.wire.datagrams, hreturned⟩, ?_⟩
  have hsent : dataOf (log.flatten.map RecordLayer.asMessage) =
      ((client opts crypto random).trace actions).flatMap (acceptedData crypto) := by
    rw [List.map_flatten, h.messages, Sending.dataOf_sendings, h.data]
  rcases hreturned with ⟨some, hperm, hsublist⟩
  rw [← hsent]
  exact ⟨dataOf some, hperm.filterMap _, hsublist.filterMap _⟩

namespace Sample

/-! ## A session under AES-128-CCM-8

What SHA-256, HMAC-SHA256 and AES-128-CCM-8 make of the handshake with a cookie and of the data behind it.
The randoms are zero, as in the runs above, and the PSK is the one byte `0x62`. -/

/-- So many bytes, written in hexadecimal as one number. -/
def hex (length n : Nat) : Bytes :=
  (List.range length).map fun i => UInt8.ofNat (n >>> (8 * (length - 1 - i)))

def clientKeyExchange : Handshake :=
  ⟨2, .clientKeyExchange (ClientKeyExchange_PSK.serialize [0x61])⟩

def clientFinished : Handshake := ⟨3, .finished (hex 12 0x818974b1ad221e4f0811384d)⟩

def serverFinished : Handshake := ⟨3, .finished (hex 12 0xa1d7ff78e1ac79297d9d8a8d)⟩

/-- What the client's Finished message covers; the server's covers that message too. -/
def handshakeMessages : List Handshake := helloWithCookie :: serverMessages ++ [clientKeyExchange]

def clientDigest : Bytes := hex 32 0x87dbc89f68de39ab225a031960a3ff4095c566556ba43681adea7e277597b253

def serverDigest : Bytes := hex 32 0x141e498c1c04ae011e9f758ee564b3b04e7cc29072dc2d94e7b20936bb350c5d

def digests : List (Bytes × Bytes) :=
  [((transcriptOf handshakeMessages).flatten, clientDigest),
    ((transcriptOf (handshakeMessages ++ [clientFinished])).flatten, serverDigest)]

def preMasterSecret : Bytes := [0, 1, 0, 0, 1, 0x62]

def sessionSecret : Bytes :=
  hex 48 0x2b37b58d81edb6db9288214e9ed9764dd77762cb180f30f28852b898ef61100127a38b924910a38f90a04c5fb566210a

/-- The rounds of `P`, of which each takes the HMAC of the last `A(i)` and of the new one with the seed. -/
def rounds (secret seed : Bytes) : Bytes → List (Bytes × Bytes) → List ((Bytes × Bytes) × Bytes)
  | _, [] => []
  | previous, (a, hash) :: rest =>
      ((secret, previous), a) :: ((secret, a ++ seed), hash) :: rounds secret seed a rest

def labelled (secret : Bytes) (label : String) (seed : Bytes) (results : List (Bytes × Bytes)) :
    List ((Bytes × Bytes) × Bytes) :=
  rounds secret (ascii label ++ seed) (ascii label ++ seed) results

def hmacs : List ((Bytes × Bytes) × Bytes) :=
  labelled preMasterSecret "master secret" (List.replicate 64 0)
      [(hex 32 0x6c06f894e1225a3e54eea18c3ac601b70b35b49e2c6339270e9e9493a8b0f6c6,
          hex 32 0x2b37b58d81edb6db9288214e9ed9764dd77762cb180f30f28852b898ef611001),
        (hex 32 0x666c9eb02754c43a0dfde2a5a260c169e6b0cd02906bc7a0981ae2d723c15e4e,
          hex 32 0x27a38b924910a38f90a04c5fb566210ad05d1af84bc956dd93d93ee643aaa6f9)] ++
    labelled sessionSecret "key expansion" (List.replicate 64 0)
      [(hex 32 0xbd42f933a84a1648bf73c331de235701ede85ea19da76630f42f6d16d0389b9d,
          hex 32 0x65f152faf23dabbc7a366f876d4335f5610514c52a29e177fd14e734ce873f05),
        (hex 32 0xcd84ade1d6bb725f8e2a35b6609d10442748962f03084f6220236c8aad69a288,
          hex 32 0x00d4891fb3275d9ceb203a02bc64247c9efc11c728f895dc33f5116e2b3fe9ad)] ++
    labelled sessionSecret "client finished" clientDigest
      [(hex 32 0xab75bb3c89ecfd017a636b12a7d34ea1bb7064dbea16c600db7005885e7f8efa,
          hex 32 0x818974b1ad221e4f0811384de6646a046407f919a9383e69a8eb01cfbefff5c9)] ++
    labelled sessionSecret "server finished" serverDigest
      [(hex 32 0x5ac7c4d92e210928b9a07df2741473f7b7a58dd9655803d8a09615277e798a96,
          hex 32 0xa1d7ff78e1ac79297d9d8a8d88289741f53d31fcabe1226c581ed5fe075e0007)]

def sessionKeys : KeyMaterial where
  clientWriteMACKey := []
  serverWriteMACKey := []
  clientWriteKey := hex 16 0x65f152faf23dabbc7a366f876d4335f5
  serverWriteKey := hex 16 0x610514c52a29e177fd14e734ce873f05
  clientWriteIV := hex 4 0x00d4891f
  serverWriteIV := hex 4 0xb3275d9c

def plainRecord (type : ContentType) (epoch sequenceNumber : Nat) (fragment : Bytes) :
    DTLSCompressed :=
  ⟨type, ⟨some 254, some 253⟩, epoch, sequenceNumber, fragment⟩

/-- The bytes that are drawn for a record of this number. -/
def nonceExplicit (sequenceNumber length : Nat) : Bytes :=
  (List.range' (16 * sequenceNumber) length).map UInt8.ofNat

/-- A record of epoch 1, and what AES-128-CCM-8 makes of it with the keys of its sender. -/
structure Sealing where
  sender : ConnectionEnd
  packet : DTLSCompressed
  result : EncryptionResult

namespace Sealing

def new (sender : ConnectionEnd) (type : ContentType) (sequenceNumber : Nat) (fragment : Bytes)
    (ciphertext authTag : Nat) : Sealing where
  sender := sender
  packet := plainRecord type 1 sequenceNumber fragment
  result := ⟨hex fragment.length ciphertext, hex 8 authTag⟩

def nonce (s : Sealing) : Bytes :=
  sessionKeys.writeIV s.sender ++ nonceExplicit s.packet.sequenceNumber 8

def additionalData (s : Sealing) : Bytes :=
  AEADCipher.additionalData s.packet s.packet.fragment.length

/-- The record as it goes out. -/
def sent (s : Sealing) : DTLSCiphertext :=
  { s.packet with
    fragment := nonceExplicit s.packet.sequenceNumber 8 ++ s.result.ciphertext ++ s.result.authTag }

def datagram (s : Sealing) : Bytes := DTLSCiphertext.serialize s.sent

end Sealing

/-- The client's Finished message and two pieces of data. -/
def clientFinish : Sealing :=
  .new .client .handshake 0 clientFinished.toFragment.serialize
    0x34d80a936ea7ebdcb2bff197a19957911815e9aaec5fe01c 0xd8a9e1294dcd8878

def clientFirst : Sealing := .new .client .applicationData 1 [0x2a] 0x1c 0xfd6776d50aa0b6de

def clientSecond : Sealing := .new .client .applicationData 2 [0x2b] 0x8e 0x8477d7e4250acdcf

/-- The server's Finished message and four pieces of data. -/
def serverFinish : Sealing :=
  .new .server .handshake 0 serverFinished.toFragment.serialize
    0x4498c321a4da102b09ac70cb7b98e38103ee8241428f94db 0x66d0e2064da04a05

def serverFirst : Sealing := .new .server .applicationData 1 [0x2a] 0xf5 0x77a8b40a6375885d

def serverSecond : Sealing := .new .server .applicationData 2 [0x2b] 0xba 0xe1d0ba506d9af490

def serverThird : Sealing := .new .server .applicationData 3 [0x2c] 0x70 0x272eef33adafe297

def serverFourth : Sealing := .new .server .applicationData 4 [0x2d] 0x52 0xffde8b9cc753325a

def sealings : List Sealing :=
  [clientFinish, clientFirst, clientSecond, serverFinish, serverFirst, serverSecond, serverThird,
    serverFourth]

-- Each HMAC has its length; each tag is that of one packet, and has its length.
theorem sealings_evaluated :
    (∀ entry ∈ hmacs, entry.2.length = 32) ∧
      (∀ s ∈ sealings, s.result.ciphertext.length = s.packet.fragment.length ∧
        s.result.authTag.length = 8 ∧ s.result.authTag ≠ List.replicate 8 0) ∧
      ∀ s ∈ sealings, ∀ s' ∈ sealings, s'.result.authTag = s.result.authTag →
        s'.packet.fragment = s.packet.fragment := by
  decide

theorem hmacs_length {entry : Bytes × Bytes} {result : Bytes} (h : hmacs.lookup entry = some result) :
    result.length = 32 := by
  rcases List.lookup_eq_some_iff.mp h with ⟨before, after, hsplit, _⟩
  exact sealings_evaluated.1 (entry, result) (hsplit ▸ List.mem_append_right _ List.mem_cons_self)

/-- The primitives, with their own results in this session; what they are not asked there, they answer as
simply as their lengths allow. -/
def ccm : Crypto where
  hash algorithm data :=
    match algorithm, digests.lookup data with
    | .sha256, some result => result
    | algorithm, _ => List.replicate algorithm.keyAndHashLength 0
  hmac algorithm secret data :=
    match algorithm, hmacs.lookup (secret, data) with
    | .sha256, some result => result
    | algorithm, _ => List.replicate algorithm.keyAndHashLength 0
  hmac_length algorithm secret data := by
    split
    · next result hlookup => exact hmacs_length hlookup
    · exact List.length_replicate
  encryptCBC := aes.encryptCBC
  decryptCBC := aes.decryptCBC
  encryptAEAD _ key nonce plaintext additionalData authTagLength :=
    match sealings.find? fun s => authTagLength = 8 ∧ sessionKeys.writeKey s.sender = key ∧
        s.nonce = nonce ∧ s.additionalData = additionalData ∧ s.packet.fragment = plaintext with
    | some s => s.result
    | none => ⟨plaintext, List.replicate authTagLength 0⟩
  decryptAEAD _ key nonce ciphertext additionalData authTag :=
    match sealings.find? fun s => sessionKeys.writeKey s.sender = key ∧ s.nonce = nonce ∧
        s.additionalData = additionalData ∧ s.result.ciphertext = ciphertext ∧
        s.result.authTag = authTag with
    | some s => some ⟨s.packet.fragment, true⟩
    | none => some ⟨ciphertext, authTag = List.replicate authTag.length 0⟩
  randomBytes _ sequenceNumber length := nonceExplicit sequenceNumber length

theorem ccm_randomBytes (epoch sequenceNumber length : Nat) :
    (ccm.randomBytes epoch sequenceNumber length).length = length := by
  show ((List.range' (16 * sequenceNumber) length).map UInt8.ofNat).length = length
  rw [List.length_map, List.length_range']

theorem ccm_encryptAEAD (mode : AEADMode) (key nonce plaintext additionalData : Bytes)
    (authTagLength : Nat) {result : EncryptionResult}
    (h : result = ccm.encryptAEAD mode key nonce plaintext additionalData authTagLength) :
    result.ciphertext.length = plaintext.length ∧ result.authTag.length = authTagLength ∧
      ccm.decryptAEAD mode key nonce result.ciphertext additionalData result.authTag =
        some ⟨plaintext, true⟩ := by
  unfold ccm at h ⊢
  simp only at h ⊢
  split at h
  · next s hfound =>
      -- a packet of the session: its tag is found again, and is that of no other packet
      have hmem := List.mem_of_find?_eq_some hfound
      have hsame := List.find?_some hfound
      simp only [decide_eq_true_eq] at hsame
      rcases hsame with ⟨rfl, hkey, hnonce, hdata, hplaintext⟩
      rcases sealings_evaluated.2.1 s hmem with ⟨hlength, htag, _⟩
      subst h
      refine ⟨hplaintext ▸ hlength, htag, ?_⟩
      split
      · next s' hfound' =>
          have hsame' := List.find?_some hfound'
          simp only [decide_eq_true_eq] at hsame'
          rw [← hplaintext, sealings_evaluated.2.2 s hmem s' (List.mem_of_find?_eq_some hfound')
            hsame'.2.2.2.2]
      · next hnone =>
          have hnot := List.find?_eq_none.mp hnone s hmem
          exact absurd (decide_eq_true ⟨hkey, hnonce, hdata, rfl, rfl⟩) hnot
  · -- any other packet: its tag is zero, which that of a packet of the session never is
    subst h
    refine ⟨rfl, List.length_replicate, ?_⟩
    simp only [List.length_replicate, decide_true]
    split
    · next s hfound =>
        have hsame := List.find?_some hfound
        simp only [decide_eq_true_eq] at hsame
        rcases sealings_evaluated.2.1 s (List.mem_of_find?_eq_some hfound) with ⟨_, htag, hzero⟩
        rw [hsame.2.2.2.2, List.length_replicate] at htag
        rw [hsame.2.2.2.2, htag] at hzero
        exact absurd rfl hzero
    · rfl

theorem ccm_keepsLengths : ccm.KeepsLengths where
  randomBytes := ccm_randomBytes
  encryptCBC := aes_keepsLengths.encryptCBC
  encryptAEAD mode key nonce plaintext additionalData authTagLength := by
    rcases ccm_encryptAEAD mode key nonce plaintext additionalData authTagLength rfl with
      ⟨hciphertext, htag, _⟩
    exact ⟨hciphertext, htag⟩

theorem ccm_inverts (suite : CipherSuite) (keys : KeyMaterial) : ccm.Inverts suite keys where
  randomBytes_length := ccm_randomBytes
  decryptCBC _ _ _ _ plaintext _ _ := congrArg some (Equiv.swap_apply_self _ _ plaintext)
  decryptAEAD := by
    intro algorithm _ _ _ plaintext additionalData result _ hresult
    exact ccm_encryptAEAD _ _ _ plaintext additionalData _ hresult

def serverFinishedFlight : Bytes :=
  DTLSCiphertext.serialize (plainRecord .changeCipherSpec 0 3 [1]) ++ serverFinish.datagram

def cookieHandshake : List Action :=
  cookieExchange ++ [.next, datagram serverFinishedFlight, .next, .next]

def sessionRun (actions : List Action) : Config := (client opts ccm random).run actions

/-- The handshake, and data in two datagrams behind it. -/
def dataSent : List Action := cookieHandshake ++ [.send [0x2a], .send [0x2b]]

theorem dataSent_short (data : Bytes) (h : .send data ∈ dataSent) : data.length ≤ 2 ^ 14 := by
  simp [dataSent, cookieHandshake, cookieExchange, datagram] at h
  rcases h with rfl | rfl <;> decide

/-- What protects the client's records of the session. -/
def sessionDelegate : Delegate :=
  ⟨CipherSuites.TLS_PSK_WITH_AES_128_CCM_8, some sessionKeys, .client⟩

-- What the run comes to.
theorem dataSent_evaluated :
    (sessionRun dataSent).recordLayer.nextNumber 0 ≤ 2 ^ 32 ∧
      (sessionRun dataSent).recordLayer.nextNumber 1 ≤ 2 ^ 32 ∧
      (sessionRun dataSent).recordLayer.writeEpochNr = 1 ∧
      ((sessionRun dataSent).recordLayer.connState 1).specify = some sessionDelegate := by
  decide +kernel

theorem dataSent_nextNumber (i : Nat) : (sessionRun dataSent).recordLayer.nextNumber i ≤ 2 ^ 32 := by
  match i with
  | 0 => exact dataSent_evaluated.1
  | 1 => exact dataSent_evaluated.2.1
  | i + 2 =>
      have hcounts : RecordLayer.Counts (sessionRun dataSent).recordLayer := by
        rcases run_transmitted opts ccm random dataSent with ⟨log, sendings, h⟩
        exact h.wire.logged.counts
      have hwrite := dataSent_evaluated.2.2.1
      rw [RecordLayer.nextNumber, hcounts.fresh (i + 2) (by omega)]
      decide

/-- The server's side of the epoch that the handshake has set up. -/
def serverState : ConnectionState :=
  { ConnectionState.new with
    entity := .server
    cipherSuite := some CipherSuites.TLS_PSK_WITH_AES_128_CCM_8
    keyMaterial := some sessionKeys }

/-- The two datagrams with data arrive in the other order, and one of them twice. -/
def arrivals : List RecordLayer.Operation :=
  [.updateConnectionState 1 fun _ => serverState, .receive (fun _ _ => 0) clientSecond.datagram,
    .receive (fun _ _ => 0) clientFirst.datagram,
    .receive (fun _ _ => 0) clientSecond.datagram]

theorem hears_serverState {peer : RecordLayer}
    (hpeer : (peer.connState 1).decipher = some sessionDelegate.mirror) :
    RecordLayer.Hears ccm (sessionRun dataSent).recordLayer peer 1 :=
  ⟨sessionDelegate, dataSent_evaluated.2.2.2, fun keys _ => ccm_inverts _ keys, hpeer⟩

/-- Each datagram with data, with the number of operations in front of it. -/
def heard : List (Nat × Sealing) :=
  [(1, clientSecond), (2, clientFirst), (3, clientSecond)]

-- What the peer hears, and what it returns.
theorem arrivals_evaluated :
    (∀ p ∈ heard, p.2.datagram ∈ (sessionRun dataSent).recordLayer.udpSocket ∧
      (∀ q ∈ ((RecordLayer.machine ccm).run (arrivals.take p.1)).admitted (fun _ _ => 0)
        p.2.datagram, q.epoch = 1) ∧
      (((RecordLayer.machine ccm).run (arrivals.take p.1)).connState 1).decipher =
        some sessionDelegate.mirror) ∧
    dataOf (((RecordLayer.machine ccm).trace arrivals).flatMap (RecordLayer.returned ccm)) =
      [[0x2b], [0x2a]] := by
  decide +kernel

theorem arrivals_overhear (t : RecordLayer × RecordLayer.Operation)
    (ht : t ∈ (RecordLayer.machine ccm).trace arrivals) :
    RecordLayer.Overhears ccm (sessionRun dataSent).recordLayer t := by
  have hreceive : ∀ p ∈ heard, RecordLayer.Overhears ccm (sessionRun dataSent).recordLayer
      ((RecordLayer.machine ccm).run (arrivals.take p.1),
        .receive (fun _ _ => 0) p.2.datagram) := by
    intro p hp
    rcases arrivals_evaluated.1 p hp with ⟨hbuf, hepoch, hpeer⟩
    refine ⟨hbuf, fun q hq => ?_⟩
    rw [hepoch q hq]
    exact hears_serverState hpeer
  rcases t with ⟨peer, op⟩
  rcases (RecordLayer.machine ccm).mem_trace ht with ⟨before, after, harrivals, rfl⟩
  rcases before with _ | ⟨first, _ | ⟨second, _ | ⟨third, _ | ⟨fourth, before⟩⟩⟩⟩
  · cases harrivals
    trivial
  · cases harrivals
    exact hreceive heard[0] (List.getElem_mem _)
  · cases harrivals
    exact hreceive heard[1] (List.getElem_mem _)
  · cases harrivals
    exact hreceive heard[2] (List.getElem_mem _)
  · have hlength := congrArg List.length harrivals
    simp [arrivals] at hlength

end Sample

-- Both pieces of data arrive once, in the order of the network.
theorem peer_returnsSentMessages_sample :
    let returned := ((RecordLayer.machine Sample.ccm).trace Sample.arrivals).flatMap
      (RecordLayer.returned Sample.ccm)
    dataOf returned = [[0x2b], [0x2a]] ∧
      (dataOf returned).Subperm (((client Sample.opts Sample.ccm Sample.random).trace
        Sample.dataSent).flatMap (acceptedData Sample.ccm)) :=
  ⟨Sample.arrivals_evaluated.2, (peer_returnsSentMessages Sample.opts Sample.ccm_keepsLengths Sample.random
    Sample.dataSent Sample.arrivals Sample.dataSent_short Sample.dataSent_nextNumber
    Sample.arrivals_overhear).2⟩

end DtlsClient
