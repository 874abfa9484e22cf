import DtlsClient.Properties.Connected

/-!
# Where received messages come from

Every message that `receive` returns was a record of an epoch that the client knows, and a record is
as good as the decipher of its epoch.  Both main results leave one way in for plaintext: an epoch that
is read with the NULL suite, as epoch 0 is and as every epoch is before it has got a suite.
-/

open Library

namespace DtlsClient

namespace ConnectionState

/-- What is deciphered in this state is deciphered with the suite and the keys that were negotiated. -/
def ReadWithKeys (crypto : Crypto) (c : ConnectionState) : Prop :=
  c.Keyed crypto ∧ c.decipher = c.specify

/-- What is deciphered in this state is taken as it is. -/
def ReadInTheClear (c : ConnectionState) : Prop :=
  ∃ d, c.decipher = some d ∧ d.suite.cipherType = .null

instance (c : ConnectionState) : Decidable c.ReadInTheClear :=
  match hd : c.decipher with
  | none => .isFalse (by rintro ⟨d, h, _⟩; rw [hd] at h; cases h)
  | some d =>
      if hnull : d.suite.cipherType = .null then .isTrue ⟨d, hd, hnull⟩
      else .isFalse (by rintro ⟨d', h, h'⟩; rw [hd] at h; cases h; exact hnull h')

theorem ReadInTheClear.not_readWithKeys {crypto : Crypto} {c : ConnectionState}
    (h : c.ReadInTheClear) : ¬c.ReadWithKeys crypto := by
  rintro ⟨hkeyed, hown⟩
  rcases h with ⟨d, hd, hnull⟩
  rcases hkeyed.specify with ⟨suite, keys, hspecify, hencrypts, _⟩
  rw [hown, hspecify] at hd
  rw [← Option.some.inj hd] at hnull
  exact hencrypts hnull

end ConnectionState

-- A decipher that is neither the NULL one nor made with the keys of its epoch has no keys at all,
-- and then it throws.
theorem EpochInv.readWithKeys {crypto : Crypto} {i : Nat} {keyed : Bool} {c : ConnectionState}
    {d : Delegate} {p : DTLSCiphertext} {q : DTLSCompressed} (h : EpochInv crypto i keyed c)
    (hd : c.decipher = some d) (hnull : d.suite.cipherType ≠ .null)
    (hok : d.decipher crypto p = .ok q) : c.ReadWithKeys crypto := by
  have hkeys : d.keyMaterial ≠ none := by
    intro hnone
    rw [Delegate.decipher, hnone, CipherSuite.decipher_none, if_neg hnull] at hok
    cases hok
  cases keyed with
  | false => exact absurd ((h.unkeyed rfl).decipher_keyMaterial hd) hkeys
  | true =>
      have hnegotiated := h.negotiated rfl
      refine ⟨hnegotiated.keyed, ?_⟩
      rw [ConnectionState.decipher] at hd ⊢
      cases hcached : c.cachedDecipher with
      | none => rfl
      | some d' =>
          rw [hcached] at hd
          have hd : d' = d := Option.some.inj hd
          rcases hnegotiated.cachedDecipher d' hcached with hnone | hown
          · rw [hd] at hnone
            exact absurd hnone hkeys
          · exact hown.symm

namespace RecordLayer

theorem decipherPacket_clear (crypto : Crypto) {rl : RecordLayer} {p : DTLSCiphertext}
    (h : (rl.connState p.epoch).ReadInTheClear) : rl.decipherPacket crypto p = some p := by
  rcases h with ⟨d, hd, hnull⟩
  have hok : d.decipher crypto p = .ok p := by
    unfold Delegate.decipher CipherSuite.decipher
    rw [hnull]
  show (rl.connState p.epoch).decipher.bind _ = some p
  rw [hd, Option.bind_some, hok]
  rfl

-- Where a record is not read in the clear, it is deciphered with the keys of its epoch or dropped.
theorem decipherPacket_keys {crypto : Crypto} {keyed : Bool} {rl : RecordLayer}
    (hinv : EpochsInv crypto keyed rl) {p : DTLSCiphertext} {q : DTLSCompressed}
    (hclear : ¬(rl.connState p.epoch).ReadInTheClear) (hq : rl.decipherPacket crypto p = some q) :
    (rl.connState p.epoch).ReadWithKeys crypto := by
  unfold decipherPacket at hq
  rw [Option.bind_eq_some_iff] at hq
  rcases hq with ⟨d, hd, hq⟩
  have hnull : d.suite.cipherType ≠ .null := fun hnull => hclear ⟨d, hd, hnull⟩
  cases hres : d.decipher crypto p with
  | error e =>
      rw [hres] at hq
      cases hq
  | ok q' => exact (hinv.epoch p.epoch).readWithKeys hd hnull hres

/-- Every record of the datagram that `receive` returns the message of was deciphered with keys. -/
def ReceivesAuthentic (crypto : Crypto) (rl : RecordLayer) (memory : Nat → Memory)
    (udpMsg : Bytes) : Prop :=
  ∀ p ∈ rl.admitted memory udpMsg, ∀ q, rl.decipherPacket crypto p = some q →
    (rl.connState p.epoch).ReadWithKeys crypto

theorem receivesAuthentic_iff_clear {crypto : Crypto} {keyed : Bool} {rl : RecordLayer}
    (hinv : EpochsInv crypto keyed rl) (memory : Nat → Memory) (udpMsg : Bytes) :
    rl.ReceivesAuthentic crypto memory udpMsg ↔
      ∀ p ∈ rl.admitted memory udpMsg, ¬(rl.connState p.epoch).ReadInTheClear := by
  constructor
  · intro hauthentic p hp hclear
    have hkeys := hauthentic p hp p (decipherPacket_clear crypto hclear)
    exact hclear.not_readWithKeys hkeys
  · intro hclear p hp q hq
    exact decipherPacket_keys hinv (hclear p hp) hq

end RecordLayer

/-! ## After the handshake -/

/-- The handshake is done, and reading has been switched to the epoch that is written. -/
structure Config.Completed (c : Config) : Prop where
  handshakeFinished : c.socket.handshakeFinished = true
  readEpochNr : c.recordLayer.readEpochNr = c.recordLayer.writeEpochNr

-- In a completed state only records of the negotiated epoch and of the one after it are looked at.
theorem Config.Completed.admitted_epoch {c : Config} (h : c.Completed) {memory : Nat → Memory}
    {udpMsg : Bytes} {p : DTLSCiphertext} (hp : p ∈ c.recordLayer.admitted memory udpMsg) :
    p.epoch = c.recordLayer.writeEpochNr ∨ p.epoch = c.recordLayer.nextEpochNr := by
  rcases RecordLayer.admitted_known hp with ⟨hknown, hread⟩
  have hlen := c.recordLayer.epochs_length
  have hsame := h.readEpochNr
  unfold RecordLayer.nextEpochNr
  omega

/-- In a completed state the messages that `receive` returns are those of the records it accepts.  All
of these were deciphered with negotiated keys if and only if no record that passes the filter belongs
to an epoch that is read in the clear. -/
theorem receive_authentic_iff (opts : Options) (crypto : Crypto) (random : Random)
    (actions : List Action) (hcompleted : ((client opts crypto random).run actions).Completed)
    (memory : Nat → Memory) (udpMsg : Bytes) :
    let rl := ((client opts crypto random).run actions).recordLayer
    (rl.receive crypto memory udpMsg).1 =
        (rl.accepted crypto memory udpMsg).map (fun p => ⟨p.type, p.fragment⟩) ∧
      (rl.connState rl.writeEpochNr).Keyed crypto ∧
      (∀ p ∈ rl.admitted memory udpMsg, p.epoch = rl.writeEpochNr ∨ p.epoch = rl.nextEpochNr) ∧
      (rl.ReceivesAuthentic crypto memory udpMsg ↔
        ∀ p ∈ rl.admitted memory udpMsg, ¬(rl.connState p.epoch).ReadInTheClear) := by
  intro rl
  have hinv := run_inv opts crypto random actions
  have hwrite : rl.writeEpochNr = 1 := (hinv.finished hcompleted.handshakeFinished).1
  refine ⟨?_, ?_, fun p hp => hcompleted.admitted_epoch hp, ?_⟩
  · rw [RecordLayer.receive_eq]
  · apply ((hinv.epochs.epoch _).negotiated _).keyed
    show (rl.writeEpochNr == 1 && rl.writeEpochNr == 1) = true
    rw [hwrite]
    rfl
  · exact RecordLayer.receivesAuthentic_iff_clear hinv.epochs memory udpMsg

-- One record of epoch 1 after the complete handshake.
theorem receive_authentic_iff_sample :
    (Sample.run Sample.completeHandshake).Completed ∧
      let rl := (Sample.run Sample.completeHandshake).recordLayer
      let udpMsg := Sample.record .applicationData 1 1 (Sample.sealed [0x2a])
      (rl.receive Sample.crypto (fun _ _ => 0) udpMsg).1 =
          (rl.accepted Sample.crypto (fun _ _ => 0) udpMsg).map (fun p => ⟨p.type, p.fragment⟩) ∧
        (rl.connState rl.writeEpochNr).Keyed Sample.crypto ∧
        (∀ p ∈ rl.admitted (fun _ _ => 0) udpMsg,
          p.epoch = rl.writeEpochNr ∨ p.epoch = rl.nextEpochNr) ∧
        (rl.ReceivesAuthentic Sample.crypto (fun _ _ => 0) udpMsg ↔
          ∀ p ∈ rl.admitted (fun _ _ => 0) udpMsg, ¬(rl.connState p.epoch).ReadInTheClear) :=
  have hcompleted : (Sample.run Sample.completeHandshake).Completed :=
    ⟨by decide +kernel, by decide +kernel⟩
  ⟨hcompleted, receive_authentic_iff Sample.opts Sample.crypto Sample.random
    Sample.completeHandshake hcompleted (fun _ _ => 0) _⟩

/-- After the complete handshake a plaintext record of epoch 2 is taken for application data. -/
theorem receive_authentic_pendingEpoch :
    (Sample.run Sample.completeHandshake).Completed ∧
      ¬(Sample.run Sample.completeHandshake).recordLayer.ReceivesAuthentic Sample.crypto
        (fun _ _ => 0) (Sample.record .applicationData 2 0 [0x68, 0x69]) := by
  refine ⟨⟨by decide +kernel, by decide +kernel⟩, fun hauthentic => ?_⟩
  have hnone : ((Sample.run Sample.completeHandshake).recordLayer.connState 2).keyMaterial = none := by
    decide +kernel
  have hkeys := hauthentic
    ⟨.applicationData, ⟨some 254, some 253⟩, 2, 0, [0x68, 0x69]⟩ (by decide +kernel)
    ⟨.applicationData, ⟨some 254, some 253⟩, 2, 0, [0x68, 0x69]⟩ (by decide +kernel)
  rcases hkeys.1.exists with ⟨_, _, _, _, _, _, _, _, hmaterial⟩
  rw [hnone] at hmaterial
  cases hmaterial

/-! ## Data that arrives before the handshake is done -/

/-- A record that `receive` returns the message of, with the state it was received in. -/
structure Receipt where
  recordLayer : RecordLayer
  record : DTLSCiphertext
  plaintext : DTLSCompressed
  rinfo : RemoteInfo

namespace Receipt

def payload (r : Receipt) : Bytes × RemoteInfo := (r.plaintext.fragment, r.rinfo)

/-- Application data that was deciphered with the keys of its epoch. -/
structure AuthenticData (crypto : Crypto) (r : Receipt) : Prop where
  type : r.plaintext.type = .applicationData
  keys : (r.recordLayer.connState r.record.epoch).ReadWithKeys crypto

end Receipt

-- The records that a step accepts.
def receipts (crypto : Crypto) (t : Config × Action) : List Receipt :=
  match t.2 with
  | .datagram _ _ _ rinfo =>
      (t.1.receivedRecords t.2).filterMap fun p =>
        (t.1.recordLayer.decipherPacket crypto p).map fun q => ⟨t.1.recordLayer, p, q, rinfo⟩
  | _ => []

/-- The payloads of the application data among the messages that the loop has not reached yet. -/
def Config.pendingPayloads (c : Config) : List (Bytes × RemoteInfo) :=
  (c.pending.filter fun d => d.msg.type = .applicationData).map fun d => (d.msg.data, d.rinfo)

/-- The step does not receive application data of an epoch that is read in the clear. -/
def NoClearData (t : Config × Action) : Prop :=
  ∀ p ∈ t.1.receivedRecords t.2, p.type = .applicationData →
    ¬(t.1.recordLayer.connState p.epoch).ReadInTheClear

/-- All application data that is emitted, buffered or still to be reached came from authentic records
among `received`, in their order. -/
def Carried (crypto : Crypto) (received : List Receipt) (c : Config) : Prop :=
  ∃ sources : List Receipt, sources.Sublist received ∧ (∀ r ∈ sources, r.AuthenticData crypto) ∧
    c.socket.payloads ++ c.pendingPayloads = sources.map Receipt.payload

theorem pendingPayloads_deliveries (s : Socket) (messageMemory : Nat → MessageMemory)
    (rinfo : RemoteInfo) (messages : List Message) :
    Config.pendingPayloads ⟨s, Config.deliveries messageMemory rinfo messages⟩ =
      (messages.filter fun m => m.type = .applicationData).map fun m => (m.data, rinfo) := by
  conv_rhs => rw [← List.zipIdx_map_fst 0 messages]
  unfold Config.pendingPayloads Config.deliveries
  rw [List.filter_map, List.filter_map, List.map_map, List.map_map]
  rfl

-- The messages that a datagram brings are those of its receipts.
theorem pendingPayloads_receipts {crypto : Crypto} {c : Config} {memory : Nat → Memory}
    {messageMemory : Nat → MessageMemory} {udpMsg : Bytes} {rinfo : RemoteInfo}
    (htakes : c.takesDatagram = true) (s : Socket) :
    Config.pendingPayloads ⟨s, Config.deliveries messageMemory rinfo
        (c.recordLayer.receive crypto memory udpMsg).1⟩ =
      ((receipts crypto (c, .datagram memory messageMemory udpMsg rinfo)).filter
        fun r => r.plaintext.type = .applicationData).map Receipt.payload := by
  have hreceipts : receipts crypto (c, .datagram memory messageMemory udpMsg rinfo) =
      (c.recordLayer.admitted memory udpMsg).filterMap fun p =>
        (c.recordLayer.decipherPacket crypto p).map fun q => ⟨c.recordLayer, p, q, rinfo⟩ := by
    unfold receipts
    rw [Config.receivedRecords, if_pos htakes]
    rfl
  have haccepted : c.recordLayer.accepted crypto memory udpMsg =
      (receipts crypto (c, .datagram memory messageMemory udpMsg rinfo)).map
        Receipt.plaintext := by
    rw [hreceipts, List.map_filterMap]
    simp only [Option.map_map]
    show List.filterMap _ _ = List.filterMap (fun p => Option.map id _) _
    simp only [Option.map_id_fun, id_eq]
  have hrinfo : ∀ r ∈ receipts crypto (c, .datagram memory messageMemory udpMsg rinfo),
      r.rinfo = rinfo := by
    intro r hr
    rw [hreceipts, List.mem_filterMap] at hr
    rcases hr with ⟨p, _, hp⟩
    rw [Option.map_eq_some_iff] at hp
    rcases hp with ⟨q, _, rfl⟩
    rfl
  rw [pendingPayloads_deliveries, RecordLayer.receive_eq]
  simp only
  rw [haccepted, List.map_map, List.filter_map, List.map_map]
  apply List.map_congr_left
  intro r hr
  show (r.plaintext.fragment, rinfo) = (r.plaintext.fragment, r.rinfo)
  rw [hrinfo r (List.mem_filter.mp hr).1]

theorem receipts_authentic {crypto : Crypto} {t : Config × Action} {r : Receipt}
    (hinv : ClientInv crypto t.1.socket) (hclear : NoClearData t) (hr : r ∈ receipts crypto t)
    (htype : r.plaintext.type = .applicationData) : r.AuthenticData crypto := by
  unfold receipts at hr
  split at hr
  · rw [List.mem_filterMap] at hr
    rcases hr with ⟨p, hp, hq⟩
    rw [Option.map_eq_some_iff] at hq
    rcases hq with ⟨q, hq, rfl⟩
    -- the plaintext has the content type of its record
    have hptype : p.type = .applicationData :=
      (RecordLayer.decipherPacket_header hq).1.symm.trans htype
    exact ⟨htype, RecordLayer.decipherPacket_keys hinv.epochs (hclear p hp hptype) hq⟩
  · cases hr

namespace Carried

variable {crypto : Crypto} {received : List Receipt} {c c' : Config}

-- Messages may get lost on the way.
theorem of_sublist (h : Carried crypto received c)
    (hsub : (c'.socket.payloads ++ c'.pendingPayloads).Sublist
      (c.socket.payloads ++ c.pendingPayloads)) : Carried crypto received c' := by
  rcases h with ⟨sources, hsources, hauthentic, heq⟩
  rw [heq] at hsub
  rcases List.sublist_map_iff.mp hsub with ⟨fewer, hfewer, heq'⟩
  exact ⟨fewer, hfewer.trans hsources, fun r hr => hauthentic r (hfewer.subset hr), heq'⟩

theorem append (h : Carried crypto received c) (more : List Receipt) :
    Carried crypto (received ++ more) c := by
  rcases h with ⟨sources, hsources, hrest⟩
  exact ⟨sources, hsources.trans (List.sublist_append_left _ _), hrest⟩

end Carried

theorem pendingPayloads_cons {c : Config} {d : Delivery} {pending : List Delivery}
    (hpending : c.pending = d :: pending) :
    c.pendingPayloads = (if d.msg.type = .applicationData then [(d.msg.data, d.rinfo)] else []) ++
      Config.pendingPayloads ⟨c.socket, pending⟩ := by
  unfold Config.pendingPayloads
  rw [hpending, List.filter_cons]
  by_cases hdata : d.msg.type = .applicationData
  · simp only [hdata, decide_true, if_true]
    rfl
  · simp only [hdata, decide_false, if_false, List.nil_append, Bool.false_eq_true]

/-- A step adds the application data of its receipts, and otherwise only passes data on. -/
theorem step_carried (opts : Options) {crypto : Crypto} {received : List Receipt} {c : Config}
    {a : Action} (hinv : ClientInv crypto c.socket) (hclear : NoClearData (c, a))
    (h : Carried crypto received c) :
    Carried crypto (received ++ receipts crypto (c, a)) (step opts crypto c a) := by
  cases step_cases opts hinv a with
  | receives memory messageMemory udpMsg rinfo haction htakes hnext =>
      rcases h with ⟨sources, hsources, hauthentic, heq⟩
      have hnil : c.pendingPayloads = [] := by
        unfold Config.takesDatagram at htakes
        rw [Bool.and_eq_true, List.isEmpty_iff] at htakes
        unfold Config.pendingPayloads
        rw [htakes.2]
        rfl
      rw [hnil, List.append_nil] at heq
      refine ⟨sources ++ (receipts crypto (c, a)).filter
        (fun r => r.plaintext.type = .applicationData),
        hsources.append List.filter_sublist, fun r hr => ?_, ?_⟩
      · rcases List.mem_append.mp hr with hr | hr
        · exact hauthentic r hr
        · rw [List.mem_filter, decide_eq_true_eq] at hr
          exact receipts_authentic hinv hclear hr.1 hr.2
      · rw [hnext, haction, pendingPayloads_receipts htakes, List.map_append, ← heq]
        rfl
  | switches d pending _ hpending hmsg hnext =>
      apply (h.append _).of_sublist
      rw [hnext, pendingPayloads_cons hpending, if_neg (by rw [hmsg]; exact nofun)]
      exact List.Sublist.refl _
  | delivers d pending _ hpending hmsg hnext =>
      apply (h.append _).of_sublist
      rw [hnext, pendingPayloads_cons hpending, if_pos hmsg]
      show ((c.socket.deliver d.msg d.rinfo).payloads ++ _).Sublist _
      rw [Socket.payloads_deliver d.msg d.rinfo hinv, List.append_assoc]
      exact List.Sublist.refl _
  | finishes d fragment _ hpending hmsg _ hfinishes =>
      apply (h.append _).of_sublist
      rw [hfinishes.payloads, pendingPayloads_cons hpending, if_neg (by rw [hmsg]; exact nofun)]
      exact List.Sublist.refl _
  | moves hmoves hpending =>
      apply (h.append _).of_sublist
      rw [hmoves.payloads]
      exact (List.Sublist.refl _).append ((hpending.filter _).map _)

theorem step_handshakeFinished (opts : Options) {crypto : Crypto} {c : Config} {a : Action}
    (hinv : ClientInv crypto c.socket)
    (h : (step opts crypto c a).socket.handshakeFinished = false) :
    c.socket.handshakeFinished = false := by
  cases step_cases opts hinv a with
  | receives _ _ _ _ _ _ hnext =>
      rw [hnext] at h
      exact h
  | switches _ _ _ _ _ hnext =>
      rw [hnext] at h
      exact h
  | delivers d _ _ _ _ hnext =>
      rw [hnext] at h
      exact (Socket.deliver_handler d.msg d.rinfo c.socket).2.symm.trans h
  | finishes _ _ _ _ _ _ hfinishes => exact hfinishes.before
  | moves hmoves _ => exact hmoves.handshakeFinished.symm.trans h

/-- Up to the end of the handshake all data is carried by authentic records, if no step before it
receives application data in the clear. -/
theorem run_carried (opts : Options) (crypto : Crypto) (random : Random) (actions : List Action)
    (hclear : ∀ t ∈ (client opts crypto random).trace actions,
      t.1.socket.handshakeFinished = false → NoClearData t)
    (hunfinished : ((client opts crypto random).run actions).socket.handshakeFinished = false) :
    Carried crypto (((client opts crypto random).trace actions).flatMap (receipts crypto))
      ((client opts crypto random).run actions) := by
  revert hclear hunfinished
  apply (client opts crypto random).run_induction (P := fun actions c =>
    (∀ t ∈ (client opts crypto random).trace actions,
      t.1.socket.handshakeFinished = false → NoClearData t) →
    c.socket.handshakeFinished = false →
    Carried crypto (((client opts crypto random).trace actions).flatMap (receipts crypto)) c)
  · intro _ _
    rcases client_init opts crypto random with ⟨s, hinit, _, _, _, hpayloads⟩
    rw [hinit]
    refine ⟨[], List.Sublist.refl _, (fun r hr => nomatch hr), ?_⟩
    rw [hpayloads]
    rfl
  · intro actions a ih hclear hunfinished
    have hinv := run_inv opts crypto random actions
    rw [(client opts crypto random).forall_trace_concat] at hclear
    rw [(client opts crypto random).trace_concat, List.flatMap_append, List.flatMap_singleton]
    have hbefore := step_handshakeFinished opts hinv hunfinished
    exact step_carried opts hinv (hclear.2 hbefore) (ih hclear.1 hbefore)

/-- Whenever `connected` is emitted in a run, the messages emitted with it (those that were buffered
during the handshake) came from authentic records that the run received before. -/
def EarlyDataAuthentic (opts : Options) (crypto : Crypto) (random : Random)
    (actions : List Action) : Prop :=
  ∀ before a, before ++ [a] <+: actions →
    EmitsConnected ((client opts crypto random).run before)
      ((client opts crypto random).run (before ++ [a])) →
    ∃ sources : List Receipt, sources.Sublist
        (((client opts crypto random).trace before).flatMap (receipts crypto)) ∧
      (∀ r ∈ sources, r.AuthenticData crypto) ∧
      ((client opts crypto random).run (before ++ [a])).socket.events.filterMap
        SocketEvent.payload? = sources.map Receipt.payload

/-- In a run that receives no application data in the clear before the handshake is done, everything
that was buffered is authentic. -/
theorem earlyData_authentic (opts : Options) (crypto : Crypto) (random : Random)
    (actions : List Action)
    (hclear : ∀ t ∈ (client opts crypto random).trace actions,
      t.1.socket.handshakeFinished = false → NoClearData t) :
    EarlyDataAuthentic opts crypto random actions := by
  intro before a hbegins hemits
  have hinv := run_inv opts crypto random before
  rw [(client opts crypto random).run_concat] at hemits ⊢
  have hbefore : before <+: actions := (List.prefix_append before [a]).trans hbegins
  have hcarried := run_carried opts crypto random before fun t ht =>
    hclear t ((client opts crypto random).trace_subset hbefore ht)
  generalize (client opts crypto random).run before = c at hinv hemits hcarried ⊢
  rcases step_finishes opts hinv hemits with ⟨_, _, _, _, _, _, hfinishes⟩
  -- what is emitted now is what was emitted or buffered before
  have hemitted : (step opts crypto c a).socket.events.filterMap SocketEvent.payload? =
      c.socket.payloads := by
    have hnil := hfinishes.inv.buffered hfinishes.after
    rw [← hfinishes.payloads, Socket.payloads, hnil, List.map_nil, List.append_nil]
  rcases hcarried hfinishes.before with ⟨sources, hsources, hauthentic, heq⟩
  have hsub : (c.socket.payloads).Sublist (sources.map Receipt.payload) := by
    rw [← heq]
    exact List.sublist_append_left _ _
  rcases List.sublist_map_iff.mp hsub with ⟨emitted, hsubset, hpayloads⟩
  refine ⟨emitted, hsubset.trans hsources, fun r hr => hauthentic r (hsubset.subset hr), ?_⟩
  show (step opts crypto c a).socket.events.filterMap SocketEvent.payload? = _
  rw [hemitted, hpayloads]

instance : DecidablePred NoClearData := fun t =>
  inferInstanceAs (Decidable (∀ p ∈ t.1.receivedRecords t.2, p.type = .applicationData →
    ¬(t.1.recordLayer.connState p.epoch).ReadInTheClear))

/-- Data that overtakes the last flight of the server: it is buffered until the Finished message is there. -/
def Sample.overtaken : List Action :=
  keyExchange ++ [datagram (record .applicationData 1 0 (sealed [0x2a])), .next,
    datagram (record .changeCipherSpec 0 2 [1] ++
      record .handshake 1 1 (sealed (handshake .finished 2 (List.replicate 12 0)))), .next, .next]

theorem earlyData_authentic_sample :
    (∀ t ∈ (client Sample.opts Sample.crypto Sample.random).trace Sample.overtaken,
        t.1.socket.handshakeFinished = false → NoClearData t) ∧
      (Sample.run Sample.overtaken).socket.events = [.connected, .message [0x2a] Sample.rinfo] ∧
      EarlyDataAuthentic Sample.opts Sample.crypto Sample.random Sample.overtaken :=
  have hrun : (∀ t ∈ (client Sample.opts Sample.crypto Sample.random).trace Sample.overtaken,
        t.1.socket.handshakeFinished = false → NoClearData t) ∧
      (Sample.run Sample.overtaken).socket.events = [.connected, .message [0x2a] Sample.rinfo] := by
    decide +kernel
  ⟨hrun.1, hrun.2, earlyData_authentic Sample.opts Sample.crypto Sample.random Sample.overtaken hrun.1⟩

/-- Application data in a record of epoch 0 is emitted once the handshake is done. -/
theorem earlyData_authentic_plaintext :
    ¬EarlyDataAuthentic Sample.opts Sample.crypto Sample.random
      ([Sample.datagram (Sample.record .applicationData 0 5 [0x68, 0x69]), .next] ++
        Sample.completeHandshake) := by
  intro hauthentic
  let before := [Sample.datagram (Sample.record .applicationData 0 5 [0x68, 0x69]), .next] ++
    Sample.keyExchange ++ [Sample.datagram Sample.finishedFlight, .next]
  have hemits : EmitsConnected (Sample.run before) (Sample.run (before ++ [.next])) := by
    unfold EmitsConnected
    decide +kernel
  have hpayloads : (Sample.run (before ++ [.next])).socket.events.filterMap SocketEvent.payload? =
      [([0x68, 0x69], Sample.rinfo)] := by
    decide +kernel
  -- the only application data was received in epoch 0, which never has keys
  have hnone : ∀ r ∈ ((client Sample.opts Sample.crypto Sample.random).trace before).flatMap
      (receipts Sample.crypto), r.plaintext.type = .applicationData →
        (r.recordLayer.connState r.record.epoch).keyMaterial = none := by
    decide +kernel
  rcases hauthentic before .next (List.prefix_refl _) hemits with
    ⟨sources, hsources, hsame, hemitted⟩
  rw [show ((client Sample.opts Sample.crypto Sample.random).run (before ++ [.next])) =
    Sample.run (before ++ [.next]) from rfl, hpayloads] at hemitted
  cases sources with
  | nil => cases hemitted
  | cons r sources =>
      have hr := hsame r List.mem_cons_self
      have hmaterial := hnone r (hsources.subset List.mem_cons_self) hr.type
      rcases hr.keys.1.exists with ⟨_, _, _, _, _, _, _, _, hkeys⟩
      rw [hmaterial] at hkeys
      cases hkeys

end DtlsClient
