import DtlsClient.Properties.Serializing
import DtlsClient.Properties.Epochs

/-!
# Datagrams that consist of complete records

`receive` takes such a datagram apart into its records.  Records that the filter refuses, and records
whose decipher throws, could as well not be there.
-/

open Library

namespace DtlsClient

open TypeSpecs

/-- A record as it arrives: its header declares the length of its fragment. -/
structure Record where
  header : Bytes
  fragment : Bytes
  header_length : header.length = 13
  complete : bufferToNumber header 16 11 = some (fragment.length : Int)

namespace Record

def bytes (r : Record) : Bytes := r.header ++ r.fragment

/-- The record as `receive` reads it. -/
def packet (r : Record) : DTLSCiphertext where
  type := .ofNat ((bufferToNumber r.header 8 0).getD 0).toNat
  version := ⟨bufferToNumber r.header 8 1, bufferToNumber r.header 8 2⟩
  epoch := ((bufferToNumber r.header 16 3).getD 0).toNat
  sequenceNumber := ((bufferToNumber r.header 48 5).getD 0).toNat
  fragment := r.fragment

def datagram (records : List Record) : Bytes := (records.map bytes).flatten

theorem bytes_length (r : Record) : r.bytes.length = 13 + r.fragment.length := by
  rw [bytes, List.length_append, r.header_length]

end Record

/-! ## Taking a datagram apart -/

theorem DTLSCiphertext.fromBuffer_eq (memory : Nat → Memory) (buf : Bytes) (offset : Nat) :
    fromBuffer memory buf offset = (do
      let (fragment, readBytes) ←
        TLSStruct.deserializeBuffer memory (some 0) (some (2048 + 2 ^ 14)) buf (offset + 11)
      let packet ← @DTLSPacket.ofVal (2048 + 2 ^ 14) (bufferToNumber buf 8 offset,
        (bufferToNumber buf 8 (offset + 1), bufferToNumber buf 8 (offset + 2), ()),
        bufferToNumber buf 16 (offset + 3), bufferToNumber buf 48 (offset + 5), fragment, ())
      return (packet, 11 + readBytes)) := by
  unfold fromBuffer
  simp only [spec, DTLSPacket.spec, ProtocolVersion.spec, ContentType.spec, TLSStruct.deserialize,
    TLSStruct.deserializeAll, TLSStruct.deserializeComplex, define.Enum, define.Struct, uint8, uint16,
    uint48, define.Number, define.Buffer, ok_bind, pure_bind, Nat.add_assoc, Nat.reduceAdd,
    Nat.reduceDiv]
  cases TLSStruct.deserializeBuffer memory (some 0) (some (2048 + 2 ^ 14)) buf (offset + 11) with
  | error e => rfl
  | ok r =>
      have hcount : 1 + (2 + (2 + (6 + (r.2 + 0)))) = 11 + r.2 := by omega
      simp only [ok_bind, pure_bind, hcount]

namespace Record

-- A record of which at least the header is there; `rest` is what follows the header.
theorem fromBuffer_header (memory : Nat → Memory) (front rest : Bytes) (r : Record) :
    DTLSCiphertext.fromBuffer memory (front ++ (r.header ++ rest)) front.length =
      .ok ({ r.packet with
        fragment := overwrite ((List.range r.fragment.length).map (memory (front.length + 11))) 0
          (rest.take r.fragment.length) }, r.bytes.length) := by
  have hheader := r.header_length
  rw [bytes_length]
  generalize hbuf : front ++ (r.header ++ rest) = buf
  -- every number of the header is there
  have hread : ∀ size offset, offset + size / 8 ≤ 13 →
      bufferToNumber buf size (front.length + offset) = bufferToNumber r.header size offset := by
    intro size offset hin
    rw [← hbuf, bufferToNumber_at front r.header rest (by omega)]
  have hsome : ∀ size offset, 8 ≤ size → offset + size / 8 ≤ 13 →
      ∃ v, bufferToNumber r.header size offset = some v := fun size offset hsize hin =>
    Option.isSome_iff_exists.mp ((bufferToNumber_isSome hsize).mpr (by omega))
  have hlength : TLSStruct.declaredLength (some 0) (2048 + 2 ^ 14) buf (front.length + 11) =
      some (r.fragment.length : Int) := (hread 16 11 (by decide)).trans r.complete
  have hbytes : TLSStruct.lengthBytes (some 0) (2048 + 2 ^ 14) = 2 := rfl
  -- the fragment starts where the header ends
  have hstart : (front ++ r.header).length = front.length + 11 + 2 := by
    rw [List.length_append, hheader]
  have hinside : ¬buf.length < front.length + 11 + 2 := by
    rw [← hstart, ← hbuf, ← List.append_assoc, List.length_append]
    omega
  have hcontent : (buf.take (front.length + 11 + 2 + r.fragment.length)).drop
      (front.length + 11 + 2) = rest.take r.fragment.length := by
    rw [List.drop_take, Nat.add_sub_cancel_left, ← hbuf, ← List.append_assoc, ← hstart,
      List.drop_left]
  have htype := hread 8 0 (by decide)
  rw [Nat.add_zero] at htype
  rcases hsome 8 0 (by decide) (by decide) with ⟨type, h0⟩
  rcases hsome 16 3 (by decide) (by decide) with ⟨epoch, h3⟩
  rcases hsome 48 5 (by decide) (by decide) with ⟨sequenceNumber, h5⟩
  rw [DTLSCiphertext.fromBuffer_eq, TLSStruct.deserializeBuffer_some, hlength, allocUnsafe_natCast,
    ok_bind]
  simp only [List.length_map, List.length_range, hbytes, copy, if_neg hinside, ok_bind, hcontent,
    overwrite_length]
  rw [htype, hread 8 1 (by decide), hread 8 2 (by decide), hread 16 3 (by decide),
    hread 48 5 (by decide)]
  simp only [packet, h0, h3, h5, Option.getD_some]
  show Except.ok (_, 11 + (2 + r.fragment.length)) = Except.ok (_, 13 + r.fragment.length)
  rw [← Nat.add_assoc]
  rfl

theorem fromBuffer_bytes (memory : Nat → Memory) (front back : Bytes) (r : Record) :
    DTLSCiphertext.fromBuffer memory (front ++ (r.bytes ++ back)) front.length =
      .ok (r.packet, r.bytes.length) := by
  rw [bytes, List.append_assoc, fromBuffer_header, List.take_left, TLSStruct.overwrite_all]
  · rfl
  · rw [List.length_map, List.length_range]

end Record

namespace RecordLayer

/-- How the parse loop of `receive` runs from `offset` on: it comes to the end of the datagram, leaves
the loop with an exception, or goes on behind a record. -/
inductive ParseLoop (memory : Nat → Memory) (buf : Bytes) : Nat → List DTLSCiphertext → Prop where
  | done {offset : Nat} (hend : buf.length ≤ offset) : ParseLoop memory buf offset []
  | thrown {offset : Nat} {e : JsError} (hin : offset < buf.length)
      (hthrows : DTLSCiphertext.fromBuffer memory buf offset = .error e) :
      ParseLoop memory buf offset []
  | nothingRead {offset : Nat} {p : DTLSCiphertext} (hin : offset < buf.length)
      (hparses : DTLSCiphertext.fromBuffer memory buf offset = .ok (p, 0)) :
      ParseLoop memory buf offset []
  | packet {offset readBytes : Nat} {p : DTLSCiphertext} {packets : List DTLSCiphertext}
      (hin : offset < buf.length)
      (hparses : DTLSCiphertext.fromBuffer memory buf offset = .ok (p, readBytes))
      (hread : readBytes ≠ 0) (hrest : ParseLoop memory buf (offset + readBytes) packets) :
      ParseLoop memory buf offset (p :: packets)

theorem ParseLoop.eq_parsePackets {memory : Nat → Memory} {buf : Bytes} {offset : Nat}
    {packets : List DTLSCiphertext} (h : ParseLoop memory buf offset packets) :
    ∀ fuel, buf.length ≤ offset + fuel → parsePackets memory buf fuel offset = packets := by
  induction h with
  | done hend =>
      intro fuel _
      cases fuel with
      | zero => rfl
      | succ fuel => exact if_neg (Nat.not_lt.mpr hend)
  | thrown hin hthrows =>
      intro fuel hfuel
      cases fuel with
      | zero => omega
      | succ fuel => rw [parsePackets, if_pos hin, hthrows]
  | nothingRead hin hparses =>
      intro fuel hfuel
      cases fuel with
      | zero => omega
      | succ fuel =>
          rw [parsePackets, if_pos hin, hparses]
          exact if_pos rfl
  | packet hin hparses hread hrest ih =>
      intro fuel hfuel
      cases fuel with
      | zero => omega
      | succ fuel =>
          rw [parsePackets, if_pos hin, hparses]
          simp only
          rw [if_neg hread, ih fuel (by omega)]

-- A round that does not end the loop reads a byte, so that there are enough rounds.
theorem parsePackets_loop (memory : Nat → Memory) (buf : Bytes) {fuel offset : Nat}
    (hfuel : buf.length ≤ offset + fuel) :
    ParseLoop memory buf offset (parsePackets memory buf fuel offset) := by
  induction fuel generalizing offset with
  | zero => exact .done hfuel
  | succ fuel ih =>
      rw [parsePackets]
      by_cases hin : offset < buf.length
      · rw [if_pos hin]
        cases hparses : DTLSCiphertext.fromBuffer memory buf offset with
        | error e => exact .thrown hin hparses
        | ok result =>
            rcases result with ⟨p, readBytes⟩
            simp only
            by_cases hread : readBytes = 0
            · rw [if_pos hread]
              rw [hread] at hparses
              exact .nothingRead hin hparses
            · rw [if_neg hread]
              exact .packet hin hparses hread (ih (by omega))
      · rw [if_neg hin]
        exact .done (Nat.not_lt.mp hin)

/-- The loop terminates on every datagram, and what it collects are the `packets`. -/
theorem parseLoop_iff {memory : Nat → Memory} {buf : Bytes} {ps : List DTLSCiphertext} :
    ParseLoop memory buf 0 ps ↔ packets memory buf = ps := by
  have hfuel : buf.length ≤ 0 + buf.length := (Nat.zero_add _).ge
  constructor
  · exact fun h => h.eq_parsePackets buf.length hfuel
  · rintro rfl
    exact parsePackets_loop memory buf hfuel

end RecordLayer

namespace Record

-- The loop takes the complete records, and goes on with what is behind them.
theorem parseLoop_datagram (memory : Nat → Memory) (records : List Record) (front back : Bytes)
    {ps : List DTLSCiphertext}
    (hback : RecordLayer.ParseLoop memory (front ++ (datagram records ++ back))
      (front.length + (datagram records).length) ps) :
    RecordLayer.ParseLoop memory (front ++ (datagram records ++ back)) front.length
      (records.map packet ++ ps) := by
  induction records generalizing front with
  | nil => exact hback
  | cons r records ih =>
      have hcons : datagram (r :: records) = r.bytes ++ datagram records := rfl
      have hlength := r.bytes_length
      rw [hcons, List.append_assoc] at hback ⊢
      have hrest := ih (front ++ r.bytes)
      rw [List.append_assoc, List.length_append, Nat.add_assoc, ← List.length_append] at hrest
      apply RecordLayer.ParseLoop.packet _ (fromBuffer_bytes memory front _ r) (by omega)
        (hrest hback)
      simp only [List.length_append]
      omega

theorem parseLoop_append (memory : Nat → Memory) (records : List Record) (back : Bytes)
    {ps : List DTLSCiphertext}
    (hback : RecordLayer.ParseLoop memory (datagram records ++ back) (datagram records).length ps) :
    RecordLayer.ParseLoop memory (datagram records ++ back) 0 (records.map packet ++ ps) := by
  apply parseLoop_datagram memory records [] back
  rw [List.length_nil, Nat.zero_add]
  exact hback

/-- A datagram of complete records is taken apart into them, whatever the memory holds. -/
theorem packets_datagram (memory : Nat → Memory) (records : List Record) :
    RecordLayer.packets memory (datagram records) = records.map packet := by
  have hall := parseLoop_append memory records [] (.done (by rw [List.append_nil]))
  rw [List.append_nil, List.append_nil] at hall
  exact RecordLayer.parseLoop_iff.mp hall

end Record

/-! ## Records that make no difference -/

namespace RecordLayer

/-- The record passes the filter, and its decipher does not throw. -/
def deciphers (crypto : Crypto) (rl : RecordLayer) (p : DTLSCiphertext) : Bool :=
  rl.admits p && (rl.decipherPacket crypto p).isSome

/-- All that `a` may have and `b` has not are deciphers that are already there. -/
structure SameUpToDeciphers (a b : RecordLayer) : Prop where
  udpSocket : a.udpSocket = b.udpSocket
  readEpochNr : a.readEpochNr = b.readEpochNr
  writeEpochNr : a.writeEpochNr = b.writeEpochNr
  epoch : ∀ i, a.epoch i = b.epoch i ∨
    a.epoch i = { b.epoch i with connectionState := (b.connState i).withDecipher }

namespace SameUpToDeciphers

theorem refl (rl : RecordLayer) : SameUpToDeciphers rl rl := ⟨rfl, rfl, rfl, fun _ => .inl rfl⟩

theorem epochs_length {a b : RecordLayer} (h : SameUpToDeciphers a b) :
    a.epochs.length = b.epochs.length := by
  rw [a.epochs_length, b.epochs_length, h.readEpochNr, h.writeEpochNr]

-- Both change the same epoch in the same way, which has nothing to do with deciphers.
theorem updateEpoch {a b : RecordLayer} (h : SameUpToDeciphers a b) (i : Nat) {f : Epoch → Epoch}
    (hf : ∀ e, f { e with connectionState := e.connectionState.withDecipher } =
      { f e with connectionState := (f e).connectionState.withDecipher }) :
    SameUpToDeciphers (a.updateEpoch i f) (b.updateEpoch i f) := by
  refine ⟨h.udpSocket, h.readEpochNr, h.writeEpochNr, fun j => ?_⟩
  by_cases hj : j = i
  · subst hj
    by_cases hin : j < a.epochs.length
    · have hin' : j < b.epochs.length := h.epochs_length ▸ hin
      rw [connState, epoch_updateEpoch_self hin, epoch_updateEpoch_self hin']
      rcases h.epoch j with heq | heq
      · exact .inl (by rw [heq])
      · refine .inr ?_
        rw [heq]
        exact hf (b.epoch j)
    · have hout' : ¬j < b.epochs.length := h.epochs_length ▸ hin
      have hstays : ∀ rl : RecordLayer, ¬j < rl.epochs.length →
          (rl.updateEpoch j f).epoch j = rl.epoch j := by
        intro rl hout
        show (rl.epochs.modify j f).getD j (createEpoch j) = rl.epochs.getD j (createEpoch j)
        rw [List.modify_eq_self (by omega)]
      rw [connState, hstays a hin, hstays b hout']
      exact h.epoch j
  · rw [connState, epoch_updateEpoch_ne a hj, epoch_updateEpoch_ne b hj]
    exact h.epoch j

theorem withDecipher_both {a b : RecordLayer} (h : SameUpToDeciphers a b) (i : Nat) :
    SameUpToDeciphers (a.updateConnectionState i .withDecipher)
      (b.updateConnectionState i .withDecipher) :=
  h.updateEpoch i fun _ => rfl

theorem markAsReceived {a b : RecordLayer} (h : SameUpToDeciphers a b) (p : DTLSPlaintext) :
    SameUpToDeciphers (RecordLayer.markAsReceived a p) (RecordLayer.markAsReceived b p) :=
  h.updateEpoch p.epoch fun _ => rfl

-- A decipher that only the first one creates.
theorem withDecipher_left {a b : RecordLayer} (h : SameUpToDeciphers a b) (i : Nat) :
    SameUpToDeciphers (a.updateConnectionState i .withDecipher) b := by
  refine ⟨h.udpSocket, h.readEpochNr, h.writeEpochNr, fun j => ?_⟩
  rcases epoch_updateEpoch_cases a i j
    (fun e => { e with connectionState := e.connectionState.withDecipher }) with hsame | ⟨_, hnew⟩
  · show (a.updateEpoch i _).epoch j = _ ∨ (a.updateEpoch i _).epoch j = _
    rw [hsame]
    exact h.epoch j
  · refine .inr ?_
    show (a.updateEpoch i _).epoch j = _
    rw [hnew]
    rcases h.epoch j with heq | heq
    · rw [heq]
      rfl
    · rw [heq]
      simp only [ConnectionState.withDecipher_withDecipher]

end SameUpToDeciphers

-- The deciphers of fewer records, of the same record layer.
theorem sameUpToDeciphers_filter {a b : RecordLayer} (h : SameUpToDeciphers a b)
    (keep keep' : DTLSCiphertext → Bool) (hkeep : ∀ p, keep' p = true → keep p = true)
    (ps : List DTLSCiphertext) :
    SameUpToDeciphers
      ((ps.filter keep).foldl (fun rl p => rl.updateConnectionState p.epoch .withDecipher) a)
      ((ps.filter keep').foldl (fun rl p => rl.updateConnectionState p.epoch .withDecipher) b) := by
  induction ps generalizing a b with
  | nil => exact h
  | cons p ps ih =>
      rw [List.filter_cons, List.filter_cons]
      by_cases hp' : keep' p = true
      · rw [if_pos (hkeep p hp'), if_pos hp']
        exact ih (h.withDecipher_both p.epoch)
      · rw [if_neg hp']
        by_cases hp : keep p = true
        · rw [if_pos hp]
          exact ih (h.withDecipher_left p.epoch)
        · rw [if_neg hp]
          exact ih h

theorem accepted_deciphers (crypto : Crypto) (rl : RecordLayer) (ps : List DTLSCiphertext) :
    (ps.filter (rl.deciphers crypto)).filterMap (rl.decipherPacket crypto) =
      (ps.filter rl.admits).filterMap (rl.decipherPacket crypto) := by
  rw [List.filterMap_filter, List.filterMap_filter]
  congr 1
  funext p
  unfold deciphers
  cases rl.admits p with
  | false => rfl
  | true => cases hp : rl.decipherPacket crypto p <;> rfl

/-- Undecryptable records are inert: a datagram of complete records yields the messages of those that the
filter lets through and that are deciphered.  Without the others it yields the same messages, and leaves
the same epoch numbers, the same windows and the same connection states but for deciphers that are already
there. -/
theorem receive_undecryptable (crypto : Crypto) (memory memory' : Nat → Memory)
    (records : List Record) (rl : RecordLayer) :
    let full := rl.receive crypto memory (Record.datagram records)
    let rest := rl.receive crypto memory'
      (Record.datagram (records.filter fun r => rl.deciphers crypto r.packet))
    full.1 = (((records.map Record.packet).filter rl.admits).filterMap
        (rl.decipherPacket crypto)).map asMessage ∧
      full.1 = rest.1 ∧ SameUpToDeciphers full.2 rest.2 := by
  intro full rest
  have hfilter : (records.filter fun r => rl.deciphers crypto r.packet).map Record.packet =
      (records.map Record.packet).filter (rl.deciphers crypto) := by
    rw [List.filter_map]
    rfl
  have hadmitted : rl.admitted memory (Record.datagram records) =
      (records.map Record.packet).filter rl.admits := by
    rw [admitted, Record.packets_datagram]
  have hadmits : ∀ p, rl.deciphers crypto p = true → rl.admits p = true :=
    fun p hp => (Bool.and_eq_true_iff.mp hp).1
  have hadmitted' : rl.admitted memory'
      (Record.datagram (records.filter fun r => rl.deciphers crypto r.packet)) =
      (records.map Record.packet).filter (rl.deciphers crypto) := by
    rw [admitted, Record.packets_datagram, hfilter, List.filter_filter]
    congr 1
    funext p
    rw [Bool.and_eq_right_iff_imp]
    exact hadmits p
  have haccepted : rl.accepted crypto memory'
      (Record.datagram (records.filter fun r => rl.deciphers crypto r.packet)) =
      rl.accepted crypto memory (Record.datagram records) := by
    rw [accepted, accepted, hadmitted, hadmitted', accepted_deciphers]
  have hfull : full = _ := receive_eq crypto memory (Record.datagram records) rl
  have hrest : rest = _ := receive_eq crypto memory' _ rl
  rw [haccepted, hadmitted'] at hrest
  rw [hadmitted] at hfull
  rw [hfull, hrest]
  have hmessages : rl.accepted crypto memory (Record.datagram records) =
      ((records.map Record.packet).filter rl.admits).filterMap (rl.decipherPacket crypto) := by
    rw [accepted, hadmitted]
  refine ⟨congrArg (List.map asMessage) hmessages, rfl, ?_⟩
  clear hmessages
  -- the records are marked in both alike, after the deciphers were created
  have hbefore := sameUpToDeciphers_filter (.refl rl) rl.admits (rl.deciphers crypto) hadmits
    (records.map Record.packet)
  generalize rl.accepted crypto memory (Record.datagram records) = marked
  simp only
  generalize List.foldl _ rl ((records.map Record.packet).filter rl.admits) = a at hbefore ⊢
  generalize List.foldl _ rl ((records.map Record.packet).filter (rl.deciphers crypto)) = b
    at hbefore ⊢
  induction marked generalizing a b with
  | nil => exact hbefore
  | cons p marked ih => exact ih _ _ (hbefore.markAsReceived p)

end RecordLayer

end DtlsClient
