import DtlsClient.Library.Numbering
import DtlsClient.Properties.LongFlights

/-!
# What a client puts on the wire

`Writes` says what a step hands to the UDP socket, and that it leaves the protection of what was sent
before alone.  Over a whole run the records carry each pair of epoch and sequence number exactly once, in
order, and every epoch ends with its ChangeCipherSpec.
-/

open Library

namespace DtlsClient

/-! ## Protection -/

theorem CipherSuite.cipher_null {crypto : Crypto} {suite : CipherSuite}
    (hnull : suite.cipherType = .null) (packet : DTLSCompressed) (keys : Option KeyMaterial)
    (connEnd : ConnectionEnd) : suite.cipher crypto packet keys connEnd = .ok packet := by
  unfold CipherSuite.cipher
  rw [hnull]

namespace RecordLayer

/-- What goes out for a record, under the suite and the keys of its epoch. -/
def protect (crypto : Crypto) (rl : RecordLayer) (p : DTLSCompressed) : Option DTLSCiphertext :=
  (rl.connState p.epoch).specify.bind fun d => (d.cipher crypto p).toOption

theorem protect_of_protects {crypto : Crypto} {rl : RecordLayer} {p : DTLSCompressed}
    {sent : DTLSCiphertext} (h : (rl.connState p.epoch).Protects crypto p sent) :
    rl.protect crypto p = some sent := by
  rcases h with ⟨suite, hsuite, hplain, hciphered⟩
  unfold protect ConnectionState.specify Delegate.cipher
  rw [hsuite]
  by_cases hnull : suite.cipherType = .null
  · rw [hplain hnull]
    show (suite.cipher crypto p _ _).toOption = _
    rw [CipherSuite.cipher_null hnull]
    rfl
  · rcases hciphered hnull with ⟨keys, hkeys, hcipher⟩
    show (suite.cipher crypto p _ _).toOption = _
    rw [hkeys, hcipher]
    rfl

theorem protect_congr {crypto : Crypto} {rl rl' : RecordLayer} {p : DTLSCompressed}
    (h : (rl'.connState p.epoch).specify = (rl.connState p.epoch).specify) :
    rl'.protect crypto p = rl.protect crypto p := by
  rw [protect, h, protect]

/-- The datagram consists of these records, each of them protected. -/
def WrittenAs (crypto : Crypto) (rl : RecordLayer) (records : List DTLSCompressed)
    (datagram : Bytes) : Prop :=
  ∃ sent : List DTLSCiphertext, records.map (rl.protect crypto) = sent.map some ∧
    datagram = sent.flatMap DTLSCiphertext.serialize

theorem WrittenAs.congr {crypto : Crypto} {rl rl' : RecordLayer} {records : List DTLSCompressed}
    {datagram : Bytes} (h : WrittenAs crypto rl records datagram)
    (hsame : ∀ p ∈ records, (rl'.connState p.epoch).specify = (rl.connState p.epoch).specify) :
    WrittenAs crypto rl' records datagram := by
  rcases h with ⟨sent, hsent, hdatagram⟩
  refine ⟨sent, ?_, hdatagram⟩
  rw [← hsent]
  exact List.map_congr_left fun p hp => protect_congr (hsame p hp)

theorem WrittenAs.cons {crypto : Crypto} {rl : RecordLayer} {p : DTLSCompressed}
    {sent : DTLSCiphertext} {records : List DTLSCompressed} {datagram : Bytes}
    (hfirst : rl.protect crypto p = some sent) (h : WrittenAs crypto rl records datagram) :
    WrittenAs crypto rl (p :: records) (sent.serialize ++ datagram) := by
  rcases h with ⟨rest, hrest, rfl⟩
  refine ⟨sent :: rest, ?_, rfl⟩
  rw [List.map_cons, hfirst, hrest, List.map_cons]

/-! ## The records that were sent -/

/-- The number that each epoch gives next. -/
def nextNumber (rl : RecordLayer) (i : Nat) : Nat := (rl.numbers i + 1).toNat

/-- `records` are all that were sent, as they were before they were protected. -/
structure Logged (rl : RecordLayer) (records : List DTLSCompressed) : Prop where
  counts : Counts rl
  numbers : records.map recordKey = issued rl.writeEpochNr rl.nextNumber
  /-- an epoch ends with its ChangeCipherSpec -/
  switches : ∀ p ∈ records, p.type = .changeCipherSpec ↔
    p.epoch < rl.writeEpochNr ∧ p.sequenceNumber + 1 = rl.nextNumber p.epoch

namespace Logged

variable {rl rl' : RecordLayer} {records : List DTLSCompressed}

theorem new : Logged .new [] where
  counts := .new
  numbers := rfl
  switches := fun _ hp => absurd hp List.not_mem_nil

theorem mem_issued (h : Logged rl records) {p : DTLSCompressed} (hp : p ∈ records) :
    p.epoch ≤ rl.writeEpochNr ∧ p.sequenceNumber < rl.nextNumber p.epoch := by
  have hmem : recordKey p ∈ records.map recordKey := List.mem_map_of_mem hp
  rw [h.numbers, Library.mem_issued] at hmem
  exact hmem

theorem congr (h : Logged rl records) (hnumbers : rl'.numbers = rl.numbers)
    (hwrite : rl'.writeEpochNr = rl.writeEpochNr) : Logged rl' records where
  counts := h.counts.congr hnumbers (Nat.le_of_eq hwrite.symm)
  numbers := by
    unfold nextNumber
    rw [hnumbers, hwrite]
    exact h.numbers
  switches := by
    unfold nextNumber
    rw [hnumbers, hwrite]
    exact h.switches

theorem nextNumber_sent {msg : Message} (hcounts : Counts rl) (hsent : Sent msg rl rl') (i : Nat) :
    rl'.nextNumber i = rl.nextNumber i + if i = rl.writeEpochNr then 1 else 0 := by
  have hstart := hcounts.start i
  unfold nextNumber
  rw [hsent.numbers]
  split <;> omega

/-- One more message: it takes the next number of its epoch, and a ChangeCipherSpec is the last to. -/
theorem sent {msg : Message} (h : Logged rl records) (hsent : Sent msg rl rl') :
    Logged rl' (records ++ [rl.outgoingPacket msg]) := by
  have hnext := nextNumber_sent h.counts hsent
  have hkey : recordKey (rl.outgoingPacket msg) = (rl.writeEpochNr, rl.nextNumber rl.writeEpochNr) :=
    rfl
  have hwrite := hsent.writeEpochNr
  have hcounts := h.counts.sent hsent
  refine ⟨hcounts, ?_, ?_⟩
  · rw [List.map_append, h.numbers, List.map_singleton, hkey, ← issued_next hnext, hwrite]
    by_cases hccs : isChangeCipherSpec msg = true
    · have hfresh : rl'.nextNumber (rl.writeEpochNr + 1) = 0 := by
        have hfresh := h.counts.fresh (rl.writeEpochNr + 1) (by omega)
        rw [hnext, if_neg (by omega), nextNumber, hfresh]
        rfl
      rw [if_pos hccs, issued_switch hfresh]
    · rw [if_neg hccs]
      rfl
  · intro p hp
    rw [List.mem_append, List.mem_singleton] at hp
    rcases hp with hp | rfl
    · have hbefore := h.mem_issued hp
      rw [h.switches p hp, hnext, hwrite]
      split <;> split <;> omega
    · have hepoch : (rl.outgoingPacket msg).epoch = rl.writeEpochNr := rfl
      have hnumber : (rl.outgoingPacket msg).sequenceNumber = rl.nextNumber rl.writeEpochNr := rfl
      have htype : (rl.outgoingPacket msg).type = .changeCipherSpec ↔ isChangeCipherSpec msg = true := by
        rw [isChangeCipherSpec, decide_eq_true_eq]
        rfl
      rw [htype, hepoch, hnumber, hnext, if_pos rfl, hwrite]
      split <;> simp_all

end Logged

/-! ## The messages of a datagram -/

theorem Sent.specify {msg : Message} {rl rl' : RecordLayer} (h : Sent msg rl rl') (i : Nat) :
    (rl'.connState i).specify = (rl.connState i).specify := by
  rcases h.connState i with hsame | hcipher
  · rw [hsame]
  · rw [hcipher]
    rfl

/-- The messages of a flight come out as one record each, behind those that were sent before. -/
theorem processOutgoingMessages_logged {crypto : Crypto} {keyed : Bool} {messages : List Message}
    {rl : RecordLayer} {records : List DTLSCompressed} (hepochs : EpochsInv crypto keyed rl)
    (hmay : MaySend keyed messages rl) (hlogged : Logged rl records) :
    Ends (processOutgoingMessages crypto messages) rl
      (fun datagram rl' => ∃ more, Logged rl' (records ++ more) ∧ more.map asMessage = messages ∧
        WrittenAs crypto rl more datagram ∧ (∀ p ∈ more, rl.writeEpochNr ≤ p.epoch) ∧
        ∀ i, (rl'.connState i).specify = (rl.connState i).specify)
      (fun _ _ => False) := by
  induction messages generalizing rl records with
  | nil =>
      refine ⟨[], ?_, rfl, ⟨[], rfl, rfl⟩, fun _ hp => absurd hp List.not_mem_nil, fun _ => rfl⟩
      rw [List.append_nil]
      exact hlogged
  | cons msg messages ih =>
      rcases hmay with ⟨hle, hkeyed⟩
      rw [List.countP_cons] at hle hkeyed
      have hone : [msg].countP isChangeCipherSpec = if isChangeCipherSpec msg = true then 1 else 0 := by
        rw [List.countP_singleton]
      have hmsg : MaySend keyed [msg] rl := ⟨by omega, fun h => hkeyed (by omega)⟩
      rw [processOutgoingMessages, ends_bind]
      apply ((processOutgoingMessage_sent hepochs hmsg).and
        (processOutgoingMessage_record crypto msg hepochs.installed)).mono
      · rintro buf rl1 ⟨h1, hsent, sent, rfl, hprotects⟩
        have hrest : MaySend keyed messages rl1 :=
          ⟨by rw [h1.writeEpochNr]; omega, fun h => hkeyed (by omega)⟩
        have hfirst : rl.protect crypto (rl.outgoingPacket msg) = some sent :=
          protect_of_protects hprotects
        rw [ends_bind]
        apply (ih h1.inv hrest (hlogged.sent hsent)).mono
        · rintro bufs rl2 ⟨more, hmore, hmessages, hwritten, hepoch, hspecify⟩
          refine ⟨rl.outgoingPacket msg :: more, ?_, ?_, ?_, ?_,
            fun i => (hspecify i).trans (hsent.specify i)⟩
          · rw [List.append_cons]
            exact hmore
          · rw [List.map_cons, hmessages]
            rfl
          · exact .cons hfirst (hwritten.congr fun p _ => (hsent.specify p.epoch).symm)
          · rw [List.forall_mem_cons]
            refine ⟨Nat.le_refl _, fun p hp => Nat.le_trans ?_ (hepoch p hp)⟩
            rw [h1.writeEpochNr]
            exact Nat.le_add_right _ _
        · exact fun _ _ h => h
      · exact fun _ _ h => h.1

/-! ## What a step writes -/

/-- Nothing was sent, and neither the numbers nor the protection of the epochs written so far changed. -/
structure WritesNothing (rl rl' : RecordLayer) : Prop where
  udpSocket : rl'.udpSocket = rl.udpSocket
  writeEpochNr : rl'.writeEpochNr = rl.writeEpochNr
  numbers : rl'.numbers = rl.numbers
  specify : ∀ i ≤ rl.writeEpochNr, (rl'.connState i).specify = (rl.connState i).specify

theorem WritesNothing.refl (rl : RecordLayer) : WritesNothing rl rl := ⟨rfl, rfl, rfl, fun _ _ => rfl⟩

theorem WritesNothing.trans {rl rl' rl'' : RecordLayer} (h : WritesNothing rl rl')
    (h' : WritesNothing rl' rl'') : WritesNothing rl rl'' where
  udpSocket := h'.udpSocket.trans h.udpSocket
  writeEpochNr := h'.writeEpochNr.trans h.writeEpochNr
  numbers := h'.numbers.trans h.numbers
  specify := fun i hi => (h'.specify i (h.writeEpochNr ▸ hi)).trans (h.specify i hi)

-- What is received moves the windows and creates deciphers.
theorem writesNothing_receive (crypto : Crypto) (memory : Nat → Memory) (buf : Bytes)
    (rl : RecordLayer) : WritesNothing rl (rl.receive crypto memory buf).2 where
  udpSocket := receive_udpSocket crypto memory buf rl
  writeEpochNr := receive_writeEpochNr crypto memory buf rl
  numbers := by
    apply receive_keeps
    · intro rl p
      funext j
      unfold markAsReceived numbers
      rcases epoch_updateEpoch_cases rl p.epoch j _ with h | ⟨_, h⟩
      · rw [h]
      · rw [h]
    · exact fun rl i => numbers_updateConnectionState rl i _
  specify := by
    intro i _
    rw [connState_receive]
    split
    · rfl
    · rfl

/-- From one state to a later one these flights are sent, each as one datagram. -/
inductive Writes (crypto : Crypto) : RecordLayer → List (List Message) → RecordLayer → Prop
  | nothing {rl rl' : RecordLayer} (h : WritesNothing rl rl') : Writes crypto rl [] rl'
  | flight {keyed : Bool} {messages : List Message} {rl rl' : RecordLayer} {datagram : Bytes}
      (hepochs : EpochsInv crypto keyed rl) (hmay : MaySend keyed messages rl)
      (hsent : processOutgoingMessages crypto messages rl = .ok datagram rl') :
      Writes crypto rl [messages] (rl'.udpSend datagram)
  | trans {rl rl' rl'' : RecordLayer} {flights flights' : List (List Message)}
      (h : Writes crypto rl flights rl') (h' : Writes crypto rl' flights' rl'') :
      Writes crypto rl (flights ++ flights') rl''

/-- What was handed to the UDP socket: `log` has the records of each datagram. -/
structure Wire (crypto : Crypto) (rl : RecordLayer) (log : List (List DTLSCompressed)) : Prop where
  logged : Logged rl log.flatten
  datagrams : List.Forall₂ (WrittenAs crypto rl) log rl.udpSocket

namespace Wire

variable {crypto : Crypto} {rl rl' : RecordLayer} {log : List (List DTLSCompressed)}

theorem new (crypto : Crypto) : Wire crypto .new [] := ⟨.new, .nil⟩

-- The datagrams so far are still what they were where no epoch among theirs changed.
theorem written_congr (h : Wire crypto rl log)
    (hspecify : ∀ i ≤ rl.writeEpochNr, (rl'.connState i).specify = (rl.connState i).specify) :
    List.Forall₂ (WrittenAs crypto rl') log rl.udpSocket := by
  have hmem : ∀ records ∈ log, ∀ p ∈ records, p.epoch ≤ rl.writeEpochNr := by
    intro records hrecords p hp
    exact (h.logged.mem_issued (List.mem_flatten_of_mem hrecords hp)).1
  have hdatagrams := h.datagrams
  generalize rl.udpSocket = datagrams at hdatagrams
  clear h
  induction hdatagrams with
  | nil => exact .nil
  | cons hwritten _ ih =>
      rw [List.forall_mem_cons] at hmem
      exact .cons (hwritten.congr fun p hp => hspecify _ (hmem.1 p hp)) (ih hmem.2)

end Wire

theorem Writes.writeEpochNr_le {crypto : Crypto} {rl rl' : RecordLayer}
    {flights : List (List Message)} (h : Writes crypto rl flights rl') :
    rl.writeEpochNr ≤ rl'.writeEpochNr := by
  induction h with
  | nothing h => exact Nat.le_of_eq h.writeEpochNr.symm
  | @flight keyed messages rl rl' datagram hepochs hmay hsent =>
      show rl.writeEpochNr ≤ rl'.writeEpochNr
      rw [((processOutgoingMessages_sent hepochs hmay).of_ok hsent).writeEpochNr]
      exact Nat.le_add_right _ _
  | trans _ _ ih ih' => exact Nat.le_trans ih ih'

-- No epoch that was written gets another protection.
theorem Writes.specify {crypto : Crypto} {rl rl' : RecordLayer} {flights : List (List Message)}
    (h : Writes crypto rl flights rl') {i : Nat} (hi : i ≤ rl.writeEpochNr) :
    (rl'.connState i).specify = (rl.connState i).specify := by
  induction h with
  | nothing h => exact h.specify i hi
  | @flight keyed messages rl rl' datagram hepochs hmay hsent =>
      show (rl'.connState i).specify = _
      rw [((processOutgoingMessages_sent hepochs hmay).of_ok hsent).connState i]
      rfl
  | trans h _ ih ih' => exact (ih' (Nat.le_trans hi h.writeEpochNr_le)).trans (ih hi)

/-- Whatever a step writes continues the log, in the epoch that is current or in a later one. -/
theorem Writes.wire {crypto : Crypto} {rl rl' : RecordLayer} {flights : List (List Message)}
    (h : Writes crypto rl flights rl') {log : List (List DTLSCompressed)}
    (hwire : Wire crypto rl log) :
    ∃ more, Wire crypto rl' (log ++ more) ∧ more.map (·.map asMessage) = flights ∧
      ∀ p ∈ more.flatten, rl.writeEpochNr ≤ p.epoch := by
  induction h generalizing log with
  | nothing h =>
      refine ⟨[], ?_, rfl, fun _ hp => absurd hp List.not_mem_nil⟩
      rw [List.append_nil]
      refine ⟨hwire.logged.congr h.numbers h.writeEpochNr, ?_⟩
      rw [h.udpSocket]
      exact hwire.written_congr h.specify
  | @flight keyed messages rl rl' datagram hepochs hmay hsent =>
      have hends := processOutgoingMessages_logged hepochs hmay hwire.logged
      rcases hends.of_ok hsent with ⟨records, hlogged, hmessages, hwritten, hepoch, hspecify⟩
      have hudp := ((processOutgoingMessages_sent hepochs hmay).of_ok hsent).udpSocket
      refine ⟨[records], ⟨?_, ?_⟩, by rw [List.map_singleton, hmessages], ?_⟩
      · rw [List.flatten_append, List.flatten_singleton]
        exact hlogged.congr rfl rfl
      · show List.Forall₂ _ _ (rl'.udpSocket ++ [datagram])
        rw [hudp]
        apply List.rel_append (hwire.written_congr fun i _ => hspecify i)
        exact .cons (hwritten.congr fun p _ => hspecify p.epoch) .nil
      · rw [List.flatten_singleton]
        exact hepoch
  | trans h _ ih ih' =>
      rcases ih hwire with ⟨more, hwire1, rfl, hepoch⟩
      rcases ih' hwire1 with ⟨more', hwire2, rfl, hepoch'⟩
      refine ⟨more ++ more', ?_, List.map_append, ?_⟩
      · rw [← List.append_assoc]
        exact hwire2
      · rw [List.flatten_append, List.forall_mem_append]
        exact ⟨hepoch, fun p hp => Nat.le_trans h.writeEpochNr_le (hepoch' p hp)⟩

end RecordLayer

end DtlsClient
