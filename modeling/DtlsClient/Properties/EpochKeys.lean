import DtlsClient.Properties.Invariant

/-!
# Which keys are read with

The read epoch is moved by received ChangeCipherSpec records, the keys are installed by the handshake,
and the decipher of an epoch is created by the first record that needs it.  Each of the two main
results says which order of these events is the right one.
-/

open Library

namespace DtlsClient

open FlightState

namespace Config

/-- Epoch `e` has a suite that encrypts, and the keys derived under it. -/
def Keyed (crypto : Crypto) (c : Config) (e : Nat) : Prop :=
  (c.recordLayer.connState e).Keyed crypto

end Config

/-- Epoch 1 is keyed from the moment on that the client writes in it, and no other epoch ever is. -/
theorem keyed_iff {crypto : Crypto} {c : Config} (hinv : ClientInv crypto c.socket) (e : Nat) :
    c.Keyed crypto e ↔ e = 1 ∧ c.recordLayer.writeEpochNr = 1 := by
  have hepoch := hinv.epochs.epoch e
  show (c.socket.recordLayer.connState e).Keyed crypto ↔ e = 1 ∧ c.socket.recordLayer.writeEpochNr = 1
  by_cases hkeyed : e = 1 ∧ c.socket.recordLayer.writeEpochNr = 1
  · rw [hkeyed.1, hkeyed.2] at hepoch
    rw [hkeyed.1]
    exact ⟨fun _ => ⟨rfl, hkeyed.2⟩, fun _ => (hepoch.negotiated rfl).keyed⟩
  · have hfalse : (c.socket.recordLayer.writeEpochNr == 1 && e == 1) = false := by
      rw [Bool.and_eq_false_iff, beq_eq_false_iff_ne, beq_eq_false_iff_ne]
      omega
    exact ⟨fun h => absurd h (hepoch.unkeyed hfalse).not_keyed, fun h => absurd h hkeyed⟩

/-! ## ChangeCipherSpec -/

/-- The epoch that is read is epoch 0 or has keys. -/
def ReadsKeyedEpoch (crypto : Crypto) (c : Config) : Prop :=
  1 ≤ c.recordLayer.readEpochNr → c.Keyed crypto c.recordLayer.readEpochNr

/-- The step processes a received ChangeCipherSpec. -/
def ProcessesChangeCipherSpec (t : Config × Action) : Prop :=
  t.2 = .next ∧ ∃ d pending, t.1.pending = d :: pending ∧ d.msg.type = .changeCipherSpec

/-- The step gives keys to epoch `e`. -/
def InstallsKeys (opts : Options) (crypto : Crypto) (t : Config × Action) (e : Nat) : Prop :=
  ¬t.1.Keyed crypto e ∧ (step opts crypto t.1 t.2).Keyed crypto e

theorem step_changeCipherSpec (opts : Options) {crypto : Crypto} {t : Config × Action}
    (h : ProcessesChangeCipherSpec t) :
    (step opts crypto t.1 t.2).recordLayer = t.1.recordLayer.advanceReadEpoch := by
  rcases t with ⟨c, a⟩
  rcases h with ⟨haction, d, pending, hpending, hmsg⟩
  have haction : a = .next := haction
  have hpending : c.pending = d :: pending := hpending
  have heq : Socket.handleMessage opts crypto d.memory d.msg d.rinfo c.socket =
      .ok () (c.socket.setRecordLayer c.recordLayer.advanceReadEpoch) := by
    unfold Socket.handleMessage
    rw [hmsg]
    rfl
  rw [haction]
  show (Config.handleNext opts crypto c).recordLayer = _
  unfold Config.handleNext
  rw [hpending]
  simp only [heq]
  rfl

-- Every other step leaves the read epoch, and the write epoch unless both are 0.
theorem step_epochNrs (opts : Options) {crypto : Crypto} {t : Config × Action}
    (hinv : ClientInv crypto t.1.socket) (h : ¬ProcessesChangeCipherSpec t) :
    (step opts crypto t.1 t.2).recordLayer.readEpochNr = t.1.recordLayer.readEpochNr ∧
      ((step opts crypto t.1 t.2).recordLayer.writeEpochNr = t.1.recordLayer.writeEpochNr ∨
        t.1.recordLayer.readEpochNr = 0 ∧ t.1.recordLayer.writeEpochNr = 0 ∧
          (step opts crypto t.1 t.2).recordLayer.writeEpochNr = 1) := by
  cases step_cases opts hinv t.2 with
  | receives memory _ udpMsg _ _ _ hnext =>
      rw [hnext]
      exact ⟨RecordLayer.receive_readEpochNr .., .inl (RecordLayer.receive_writeEpochNr ..)⟩
  | switches d pending haction hpending hmsg _ =>
      exact absurd ⟨haction, d, pending, hpending, hmsg⟩ h
  | delivers d _ _ _ _ hnext =>
      have hrl : (step opts crypto t.1 t.2).recordLayer = t.1.recordLayer := by
        rw [hnext]
        show (t.1.socket.deliver d.msg d.rinfo).handshakeHandler.recordLayer = _
        rw [(Socket.deliver_handler d.msg d.rinfo t.1.socket).1]
        rfl
      rw [hrl]
      exact ⟨rfl, .inl rfl⟩
  | finishes _ _ _ _ _ _ hfinishes =>
      exact ⟨hfinishes.progress.readEpochNr, hfinishes.progress.writeEpochNr⟩
  | moves hmoves _ => exact ⟨hmoves.progress.readEpochNr, hmoves.progress.writeEpochNr⟩

-- A step that installs keys does so while nothing has been switched yet, and in epoch 1.
theorem installsKeys_epoch (opts : Options) {crypto : Crypto} {t : Config × Action} {e : Nat}
    (hinv : ClientInv crypto t.1.socket) (h : InstallsKeys opts crypto t e) :
    t.1.recordLayer.readEpochNr = 0 ∧ t.1.recordLayer.writeEpochNr = 0 ∧ e = 1 := by
  have hbefore := keyed_iff hinv e
  have hafter := (keyed_iff (step_inv opts hinv t.2) e).mp h.2
  have hnot : ¬(e = 1 ∧ t.1.recordLayer.writeEpochNr = 1) := fun hk => h.1 (hbefore.mpr hk)
  by_cases hccs : ProcessesChangeCipherSpec t
  · -- a ChangeCipherSpec does not touch the write epoch
    have hwrite := hafter.2
    rw [step_changeCipherSpec opts hccs] at hwrite
    exact absurd ⟨hafter.1, hwrite⟩ hnot
  · rcases (step_epochNrs opts hinv hccs).2 with hsame | ⟨hread, hwrite, _⟩
    · rw [hsame] at hafter
      exact absurd hafter hnot
    · exact ⟨hread, hwrite, hafter.1⟩

-- The epoch that is read stays keyed in every step but that of a ChangeCipherSpec, which must find
-- the next epoch keyed.
theorem step_readsKeyedEpoch (opts : Options) {crypto : Crypto} {t : Config × Action}
    (hinv : ClientInv crypto t.1.socket) (hreads : ReadsKeyedEpoch crypto t.1)
    (hccs : ProcessesChangeCipherSpec t → t.1.Keyed crypto (t.1.recordLayer.readEpochNr + 1)) :
    ReadsKeyedEpoch crypto (step opts crypto t.1 t.2) := by
  intro hpos
  by_cases h : ProcessesChangeCipherSpec t
  · have hkeyed := hccs h
    show ((step opts crypto t.1 t.2).recordLayer.connState _).Keyed crypto
    rw [step_changeCipherSpec opts h, RecordLayer.connState_advanceReadEpoch]
    exact hkeyed
  · rcases step_epochNrs opts hinv h with ⟨hread, hwrite⟩
    rw [hread] at hpos ⊢
    rcases (keyed_iff hinv _).mp (hreads hpos) with ⟨hone, hw⟩
    apply (keyed_iff (step_inv opts hinv t.2) _).mpr
    exact ⟨hone, by omega⟩

/-- Reading never moves to an epoch without keys in exactly the runs in which every ChangeCipherSpec
is processed when the next read epoch has keys.  In all runs keys are installed in the epoch that
`nextEpoch`, `nextReadEpoch` and `nextWriteEpoch` all name. -/
theorem readsKeyedEpoch_iff (opts : Options) (crypto : Crypto) (random : Random)
    (actions : List Action) :
    (∀ t ∈ (client opts crypto random).trace actions, ∀ e, InstallsKeys opts crypto t e →
        (e = t.1.recordLayer.nextEpochNr ∧ t.1.recordLayer.nextEpoch = t.1.recordLayer.epoch e) ∧
          (e = t.1.recordLayer.readEpochNr + 1 ∧
            t.1.recordLayer.nextReadEpoch = t.1.recordLayer.epoch e) ∧
          e = t.1.recordLayer.writeEpochNr + 1 ∧
            t.1.recordLayer.nextWriteEpoch = t.1.recordLayer.epoch e) ∧
      ((∀ before, before <+: actions →
          ReadsKeyedEpoch crypto ((client opts crypto random).run before)) ↔
        ∀ t ∈ (client opts crypto random).trace actions, ProcessesChangeCipherSpec t →
          t.1.Keyed crypto (t.1.recordLayer.readEpochNr + 1)) := by
  refine ⟨fun t ht e h => ?_, fun hall t ht hccs => ?_, fun hall before hbefore => ?_⟩
  · rcases installsKeys_epoch opts (trace_inv ht) h with ⟨hread, hwrite, he⟩
    rw [RecordLayer.nextEpoch, RecordLayer.nextReadEpoch, RecordLayer.nextWriteEpoch,
      RecordLayer.nextEpochNr, hread, hwrite, he]
    exact ⟨⟨rfl, rfl⟩, ⟨rfl, rfl⟩, rfl, rfl⟩
  · rcases (client opts crypto random).mem_trace ht with ⟨before, after, hactions, hrun⟩
    have hafter := hall (before ++ [t.2]) ⟨after, by
      rw [hactions, List.append_assoc, List.singleton_append]⟩
    rw [(client opts crypto random).run_concat, hrun] at hafter
    have hrl : ((client opts crypto random).step t.1 t.2).recordLayer =
        t.1.recordLayer.advanceReadEpoch := step_changeCipherSpec opts hccs
    unfold ReadsKeyedEpoch Config.Keyed at hafter
    rw [hrl, RecordLayer.connState_advanceReadEpoch] at hafter
    exact hafter (Nat.succ_pos _)
  · rcases client_init opts crypto random with ⟨s, hinit, hinv, hread, _⟩
    have hstart : ReadsKeyedEpoch crypto ⟨s, []⟩ := by
      intro hpos
      have hread : (⟨s, []⟩ : Config).recordLayer.readEpochNr = 0 := hread
      omega
    have hboth := (client opts crypto random).invariant_of_trace
      (P := fun c => ClientInv crypto c.socket ∧ ReadsKeyedEpoch crypto c)
      (C := fun t => ProcessesChangeCipherSpec t →
        t.1.Keyed crypto (t.1.recordLayer.readEpochNr + 1))
      (by rw [hinit]; exact ⟨hinv, hstart⟩)
      (fun c a h hc => ⟨step_inv opts h.1 a, step_readsKeyedEpoch (t := (c, a)) opts h.1 h.2 hc⟩)
      (fun t ht => hall t ((client opts crypto random).trace_subset hbefore ht))
    exact hboth.2

/-- One unsolicited ChangeCipherSpec moves reading to epoch 1, which has no keys yet. -/
theorem readsKeyedEpoch_unsolicited :
    ¬ReadsKeyedEpoch Sample.crypto
      (Sample.run [Sample.datagram (Sample.record .changeCipherSpec 0 0 [1]), .next]) := by
  generalize hc :
    Sample.run [Sample.datagram (Sample.record .changeCipherSpec 0 0 [1]), .next] = c
  have hread : c.recordLayer.readEpochNr = 1 := by
    rw [← hc]
    decide +kernel
  have hnone : (c.recordLayer.connState 1).keyMaterial = none := by
    rw [← hc]
    decide +kernel
  intro hreads
  have hkeyed := hreads (by rw [hread])
  rw [hread] at hkeyed
  rcases ConnectionState.Keyed.exists hkeyed with ⟨_, _, _, _, _, _, _, _, hkeys⟩
  rw [hnone] at hkeys
  cases hkeys

/-! ## The decipher of a keyed epoch -/

/-- The step receives a record of epoch `e` that passes the filter. -/
def ReceivesRecordOf (t : Config × Action) (e : Nat) : Prop :=
  ∃ p ∈ t.1.receivedRecords t.2, p.epoch = e

/-- The decipher that `receive` applies to records of epoch `e` is made from the suite and the keys
that the epoch holds. -/
def ReadWithOwnKeys (c : Config) (e : Nat) : Prop :=
  (c.recordLayer.connState e).decipher = (c.recordLayer.connState e).specify

/-- The step does not receive a record of an epoch that has no keys yet. -/
def NoEarlyRecord (crypto : Crypto) (e : Nat) (t : Config × Action) : Prop :=
  ReceivesRecordOf t e → t.1.Keyed crypto e

namespace ConnectionState

/-- A decipher that was made without keys is cached in the state. -/
def HasStaleDecipher (c : ConnectionState) : Prop :=
  ∃ d, c.cachedDecipher = some d ∧ d.keyMaterial = none

theorem HasStaleDecipher.decipher {c : ConnectionState} (h : c.HasStaleDecipher) :
    ∃ d, c.decipher = some d ∧ d.keyMaterial = none := by
  rcases h with ⟨d, hd, hnone⟩
  refine ⟨d, ?_, hnone⟩
  rw [ConnectionState.decipher, hd]
  rfl

theorem HasStaleDecipher.withDecipher {c : ConnectionState} (h : c.HasStaleDecipher) :
    c.withDecipher.HasStaleDecipher := h.decipher

-- In a keyed state a decipher is its own or stale.
theorem Negotiated.decipher_eq_specify_iff {crypto : Crypto} {c : ConnectionState}
    (h : c.Negotiated crypto) : c.decipher = c.specify ↔ ¬c.HasStaleDecipher := by
  rcases h.keyed.specify with ⟨suite, keys, hspecify, _⟩
  constructor
  · intro hown hstale
    rcases hstale.decipher with ⟨d, hd, hnone⟩
    rw [hown, hspecify] at hd
    rw [← Option.some.inj hd] at hnone
    cases hnone
  · intro hfresh
    rw [ConnectionState.decipher]
    cases hcached : c.cachedDecipher with
    | none => rfl
    | some d =>
        rcases h.cachedDecipher d hcached with hnone | hown
        · exact absurd ⟨d, hcached, hnone⟩ hfresh
        · exact hown.symm

end ConnectionState

-- Only a datagram creates deciphers, those of the epochs that its admitted records name.
theorem step_cachedDecipher (opts : Options) {crypto : Crypto} {t : Config × Action}
    (hinv : ClientInv crypto t.1.socket) (e : Nat) :
    ReceivesRecordOf t e ∧ (step opts crypto t.1 t.2).recordLayer.connState e =
        (t.1.recordLayer.connState e).withDecipher ∨
      ¬ReceivesRecordOf t e ∧ ((step opts crypto t.1 t.2).recordLayer.connState e).cachedDecipher =
        (t.1.recordLayer.connState e).cachedDecipher := by
  have hcases := step_cases opts hinv t.2
  by_cases hreceives : ReceivesRecordOf t e
  · left
    refine ⟨hreceives, ?_⟩
    rcases hreceives with ⟨p, hp, he⟩
    rcases Config.receivedRecords_cases hp with
      ⟨memory, messageMemory, udpMsg, rinfo, haction, htakes, hrecords⟩
    have hreceive : step opts crypto t.1 t.2 = ⟨t.1.socket.setRecordLayer
        (t.1.recordLayer.receive crypto memory udpMsg).2, Config.deliveries messageMemory rinfo
          (t.1.recordLayer.receive crypto memory udpMsg).1⟩ := by
      rw [haction]
      show Config.receiveDatagram crypto memory messageMemory udpMsg rinfo t.1 = _
      rw [Config.receiveDatagram, if_pos htakes]
    rw [hrecords] at hp
    rw [hreceive]
    show (t.1.recordLayer.receive crypto memory udpMsg).2.connState e = _
    rw [RecordLayer.connState_receive, if_pos ⟨p, hp, he⟩]
  · right
    refine ⟨hreceives, ?_⟩
    cases hcases with
    | receives memory messageMemory udpMsg rinfo haction htakes hnext =>
        have hnone : ¬∃ p ∈ t.1.recordLayer.admitted memory udpMsg, p.epoch = e := by
          intro hex
          apply hreceives
          unfold ReceivesRecordOf
          rw [haction, Config.receivedRecords, if_pos htakes]
          exact hex
        rw [hnext]
        show ((t.1.recordLayer.receive crypto memory udpMsg).2.connState e).cachedDecipher = _
        rw [RecordLayer.connState_receive, if_neg hnone]
    | switches d pending _ _ _ hnext =>
        rw [hnext]
        show (t.1.recordLayer.advanceReadEpoch.connState e).cachedDecipher = _
        rw [RecordLayer.connState_advanceReadEpoch]
    | delivers d pending _ _ _ hnext =>
        rw [hnext]
        show ((t.1.socket.deliver d.msg d.rinfo).handshakeHandler.recordLayer.connState
          e).cachedDecipher = _
        rw [(Socket.deliver_handler d.msg d.rinfo t.1.socket).1]
        rfl
    | finishes _ _ _ _ _ _ hfinishes => exact hfinishes.progress.cachedDecipher e
    | moves hmoves _ => exact hmoves.progress.cachedDecipher e

/-- A state without keys that waits for no response; it stays without keys. -/
def GivenUp (c : Config) : Prop :=
  c.socket.handshakeHandler.expectedResponses = none ∧ c.recordLayer.writeEpochNr = 0

theorem step_givenUp (opts : Options) {crypto : Crypto} {c : Config} (a : Action)
    (hinv : ClientInv crypto c.socket) (h : GivenUp c) : GivenUp (step opts crypto c a) := by
  cases step_cases opts hinv a with
  | receives memory _ udpMsg _ _ _ hnext =>
      rw [hnext]
      exact ⟨h.1, (RecordLayer.receive_writeEpochNr crypto memory udpMsg _).trans h.2⟩
  | switches _ _ _ _ _ hnext =>
      rw [hnext]
      exact h
  | delivers d _ _ _ _ hnext =>
      rw [hnext]
      unfold GivenUp Config.recordLayer Socket.recordLayer
      rw [(Socket.deliver_handler d.msg d.rinfo c.socket).1]
      exact h
  | finishes _ _ _ _ _ _ hfinishes =>
      have hone := hfinishes.verified.writeEpochNr
      have hzero : c.socket.recordLayer.writeEpochNr = 0 := h.2
      omega
  | moves hmoves _ =>
      rcases hmoves.idle h.1 with ⟨hidle, hwrite⟩
      exact ⟨hidle, hwrite.trans h.2⟩

-- An early record leaves a stale decipher, unless the handshake has been given up.
theorem stale_of_earlyRecord {crypto : Crypto} {c : Config} (hinv : ClientInv crypto c.socket)
    (hunkeyed : ¬c.Keyed crypto 1) :
    (c.recordLayer.connState 1).withDecipher.HasStaleDecipher ∨ GivenUp c := by
  have hwrite : c.recordLayer.writeEpochNr = 0 := by
    have hle := hinv.epochs.writeEpochNr
    have hne : c.socket.recordLayer.writeEpochNr ≠ 1 :=
      fun h => hunkeyed ((keyed_iff hinv 1).mpr ⟨rfl, h⟩)
    show c.socket.recordLayer.writeEpochNr = 0
    omega
  have hunkeyed : (c.recordLayer.connState 1).Unkeyed := by
    apply (hinv.epochs.epoch 1).unkeyed
    rw [Bool.and_eq_false_iff, beq_eq_false_iff_ne]
    left
    show c.recordLayer.writeEpochNr ≠ 1
    omega
  -- while a ServerHelloDone is waited for, epoch 1 has the NULL suite
  have hstale : (c.recordLayer.connState 1).cipherSuite =
      some CipherSuites.TLS_NULL_WITH_NULL_NULL →
      (c.recordLayer.connState 1).withDecipher.HasStaleDecipher := by
    intro hsuite
    have hspecify : (c.recordLayer.connState 1).specify.isSome := by
      rw [ConnectionState.specify, hsuite]
      rfl
    cases hd : (c.recordLayer.connState 1).decipher with
    | none =>
        rw [ConnectionState.decipher] at hd
        cases hcached : (c.recordLayer.connState 1).cachedDecipher with
        | none =>
            rw [hcached] at hd
            have hd : (c.recordLayer.connState 1).specify = none := hd
            rw [hd] at hspecify
            cases hspecify
        | some d =>
            rw [hcached] at hd
            cases hd
    | some d => exact ⟨d, hd, hunkeyed.decipher_keyMaterial hd⟩
  have hawaits := hinv.flight.awaits
  generalize hexpected : c.socket.handshakeHandler.expectedResponses = expected at hawaits
  cases hawaits with
  | hello _ _ _ hclear _ => exact .inl (hstale hclear)
  | cookie _ hclear => exact .inl (hstale hclear)
  | finished hone _ =>
      have hzero : c.socket.handshakeHandler.recordLayer.writeEpochNr = 0 := hwrite
      omega
  | nothing => exact .inr ⟨hexpected, hwrite⟩

-- What one step does to the decipher of epoch 1.
theorem step_staleDecipher (opts : Options) {crypto : Crypto} {c : Config} {a : Action}
    (hinv : ClientInv crypto c.socket) :
    (¬(c.recordLayer.connState 1).HasStaleDecipher → NoEarlyRecord crypto 1 (c, a) →
        ¬((step opts crypto c a).recordLayer.connState 1).HasStaleDecipher) ∧
      ((c.recordLayer.connState 1).HasStaleDecipher →
        ((step opts crypto c a).recordLayer.connState 1).HasStaleDecipher) := by
  rcases step_cachedDecipher opts (t := (c, a)) hinv 1 with ⟨hreceives, hnext⟩ | ⟨_, hsame⟩
  · rw [hnext]
    refine ⟨fun hfresh hkeyed hstale => ?_, fun hstale => hstale.withDecipher⟩
    have hwrite := ((keyed_iff hinv 1).mp (hkeyed hreceives)).2
    have hnegotiated : (c.recordLayer.connState 1).Negotiated crypto :=
      (hinv.epochs.epoch 1).negotiated (by
        rw [Bool.and_eq_true, beq_iff_eq]
        exact ⟨hwrite, rfl⟩)
    -- the decipher that is created now has the keys
    have hown := hnegotiated.decipher_eq_specify_iff.mpr hfresh
    rcases hnegotiated.keyed.specify with ⟨suite, keys, hspecify, _⟩
    rcases hstale with ⟨d, hd, hnone⟩
    have hd : (c.recordLayer.connState 1).decipher = some d := hd
    rw [hown, hspecify] at hd
    rw [← Option.some.inj hd] at hnone
    cases hnone
  · unfold ConnectionState.HasStaleDecipher
    rw [hsame]
    exact ⟨fun hfresh _ => hfresh, fun hstale => hstale⟩

/-- Along every run: without early records no stale decipher, after one a stale decipher for good. -/
theorem run_staleDecipher (opts : Options) (crypto : Crypto) (random : Random)
    (actions : List Action) :
    ((∀ t ∈ (client opts crypto random).trace actions, NoEarlyRecord crypto 1 t) →
        ¬(((client opts crypto random).run actions).recordLayer.connState 1).HasStaleDecipher) ∧
      (¬(∀ t ∈ (client opts crypto random).trace actions, NoEarlyRecord crypto 1 t) →
        (((client opts crypto random).run actions).recordLayer.connState 1).HasStaleDecipher ∨
          GivenUp ((client opts crypto random).run actions)) := by
  apply (client opts crypto random).run_induction (P := fun actions c =>
    ((∀ t ∈ (client opts crypto random).trace actions, NoEarlyRecord crypto 1 t) →
        ¬(c.recordLayer.connState 1).HasStaleDecipher) ∧
      (¬(∀ t ∈ (client opts crypto random).trace actions, NoEarlyRecord crypto 1 t) →
        (c.recordLayer.connState 1).HasStaleDecipher ∨ GivenUp c))
  · rcases client_init opts crypto random with ⟨s, hinit, _, _, hnone, _⟩
    rw [hinit]
    constructor
    · rintro _ ⟨d, hd, _⟩
      have hd : (s.recordLayer.connState 1).cachedDecipher = some d := hd
      rw [hnone 1] at hd
      cases hd
    · intro h
      exact absurd (fun t ht => nomatch ht) h
  · intro actions a ih
    have hinv := run_inv opts crypto random actions
    have hstep := step_staleDecipher opts (a := a) hinv
    rw [(client opts crypto random).forall_trace_concat]
    generalize hc : (client opts crypto random).run actions = c at ih hinv hstep ⊢
    show (_ → ¬((step opts crypto c a).recordLayer.connState 1).HasStaleDecipher) ∧
      (_ → ((step opts crypto c a).recordLayer.connState 1).HasStaleDecipher ∨
        GivenUp (step opts crypto c a))
    constructor
    · intro hclean
      exact hstep.1 (ih.1 hclean.1) hclean.2
    · intro hdirty
      by_cases hclean : ∀ t ∈ (client opts crypto random).trace actions, NoEarlyRecord crypto 1 t
      · -- the early record is in the last step
        have hearly : ¬NoEarlyRecord crypto 1 (c, a) := fun h => hdirty ⟨hclean, h⟩
        unfold NoEarlyRecord at hearly
        rw [Classical.not_imp] at hearly
        rcases stale_of_earlyRecord hinv hearly.2 with hstale | hgivenUp
        · left
          rcases step_cachedDecipher opts (t := (c, a)) hinv 1 with ⟨_, hnext⟩ | ⟨hnot, _⟩
          · rw [hnext]
            exact hstale
          · exact absurd hearly.1 hnot
        · exact .inr (step_givenUp opts a hinv hgivenUp)
      · rcases ih.2 hclean with hstale | hgivenUp
        · exact .inl (hstep.2 hstale)
        · exact .inr (step_givenUp opts a hinv hgivenUp)

/-- In every state of every run, an epoch that has keys is read with them if and only if no record of
that epoch was received before it had them. -/
theorem readWithOwnKeys_iff (opts : Options) (crypto : Crypto) (random : Random)
    (actions : List Action) (e : Nat)
    (hkeyed : ((client opts crypto random).run actions).Keyed crypto e) :
    ReadWithOwnKeys ((client opts crypto random).run actions) e ↔
      ∀ t ∈ (client opts crypto random).trace actions, NoEarlyRecord crypto e t := by
  have hinv := run_inv opts crypto random actions
  have hrun := run_staleDecipher opts crypto random actions
  rcases (keyed_iff hinv e).mp hkeyed with ⟨rfl, hwrite⟩
  generalize (client opts crypto random).run actions = c at hkeyed hinv hrun hwrite ⊢
  have hnegotiated : (c.recordLayer.connState 1).Negotiated crypto :=
    (hinv.epochs.epoch 1).negotiated (by
      rw [Bool.and_eq_true, beq_iff_eq]
      exact ⟨hwrite, rfl⟩)
  unfold ReadWithOwnKeys
  rw [hnegotiated.decipher_eq_specify_iff]
  constructor
  · intro hfresh
    by_contra hdirty
    rcases hrun.2 hdirty with hstale | hgivenUp
    · exact hfresh hstale
    · have hzero := hgivenUp.2
      omega
  · exact hrun.1

-- After the keys are exchanged epoch 1 is read with them.
theorem readWithOwnKeys_iff_sample :
    (Sample.run Sample.keyExchange).Keyed Sample.crypto 1 ∧
      (ReadWithOwnKeys (Sample.run Sample.keyExchange) 1 ↔
        ∀ t ∈ (client Sample.opts Sample.crypto Sample.random).trace Sample.keyExchange,
          NoEarlyRecord Sample.crypto 1 t) :=
  have hkeyed : (Sample.run Sample.keyExchange).Keyed Sample.crypto 1 :=
    (keyed_iff (run_inv Sample.opts Sample.crypto Sample.random Sample.keyExchange) 1).mpr
      ⟨rfl, by decide +kernel⟩
  ⟨hkeyed, readWithOwnKeys_iff Sample.opts Sample.crypto Sample.random Sample.keyExchange 1 hkeyed⟩

/-- One record of epoch 1 before the ServerHello fixes the NULL cipher for reading. -/
theorem readWithOwnKeys_earlyRecord :
    ∃ c, c = Sample.run ([Sample.datagram (Sample.record .applicationData 1 0 []), .next] ++
        Sample.keyExchange) ∧
      c.Keyed Sample.crypto 1 ∧ ¬ReadWithOwnKeys c 1 := by
  refine ⟨_, rfl, ?_, ?_⟩
  · apply (keyed_iff (run_inv Sample.opts Sample.crypto Sample.random _) 1).mpr
    exact ⟨rfl, by decide +kernel⟩
  · unfold ReadWithOwnKeys
    decide +kernel

end DtlsClient
