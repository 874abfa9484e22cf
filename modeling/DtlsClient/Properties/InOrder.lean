import DtlsClient.Properties.Channel

/-!
# Records that arrive in order

A peer whose windows are behind what is sent reads every record that arrives in order, as long as fewer
than 64 in a row are lost.  The number that a window does not forget after a move is below the ceiling,
where no record arrives any more.
-/

open Library

namespace DtlsClient

namespace AntiReplayWindow

/-- Every number from `next` on will be received, as far as the window reaches. -/
structure Ascending (w : AntiReplayWindow) (next : Nat) : Prop where
  wellFormed : w.WellFormed
  mayReceive : ∀ n, next ≤ n → n ≤ w.ceiling + width → w.mayReceive n = true

theorem mayReceive_above {w : AntiReplayWindow} {n : Nat} (habove : w.ceiling < n)
    (hnear : n ≤ w.ceiling + width) : w.mayReceive n = true := by
  rw [AntiReplayWindow.mayReceive, if_neg (by omega), if_pos habove]

theorem Ascending.reset : Ascending .reset 0 := by
  refine ⟨.reset, fun n _ hnear => ?_⟩
  by_cases habove : AntiReplayWindow.reset.ceiling < n
  · exact mayReceive_above habove hnear
  · have hall : ∀ n ≤ 63, AntiReplayWindow.reset.mayReceive n = true := by decide
    exact hall n (Nat.le_of_not_lt habove)

theorem Ascending.mono {w : AntiReplayWindow} {next next' : Nat} (h : w.Ascending next)
    (hle : next ≤ next') : w.Ascending next' :=
  ⟨h.wellFormed, fun n hn hnear => h.mayReceive n (Nat.le_trans hle hn) hnear⟩

-- The bit of one number does not matter to the others.
theorem mayReceive_setBit {w : AntiReplayWindow} {n m : Nat} (hwell : w.WellFormed)
    (hle : n ≤ w.ceiling) (hne : m ≠ n) (hmay : w.mayReceive m = true) :
    (w.setBit n).mayReceive m = true := by
  rcases mayReceive_cases hmay with ⟨habove, hnear⟩ | ⟨hinside, hreach⟩
  · exact mayReceive_above (by rw [setBit_ceiling]; exact habove)
      (by rw [setBit_ceiling]; exact hnear)
  · by_cases hin : w.ceiling < n + width
    · rw [mayReceive_inside (by omega) (by omega), Bool.not_eq_true'] at hmay
      rw [mayReceive_inside (by rw [setBit_ceiling]; omega) (by rw [setBit_ceiling]; omega),
        Bool.not_eq_true', ← Bool.not_eq_true, hasReceived_setBit hwell hle hin hreach, hmay]
      simp only [Bool.false_eq_true, false_or]
      exact hne
    · rw [mayReceive_inside (by omega) (by omega), hasReceived_inside (by omega)] at hmay
      rw [mayReceive_inside (by rw [setBit_ceiling]; omega) (by rw [setBit_ceiling]; omega),
        hasReceived_inside (by rw [setBit_ceiling]; omega), setBit_ceiling, setBit_below (by omega)]
      exact hmay

/-- After a mark the numbers above it will still be received. -/
theorem Ascending.markAsReceived {w : AntiReplayWindow} {next : Nat} (h : w.Ascending next) (n : Nat) :
    (w.markAsReceived n).Ascending (max next (n + 1)) := by
  refine ⟨h.wellFormed.markAsReceived n, fun m hm hreach => ?_⟩
  rw [markAsReceived_eq] at hreach ⊢
  by_cases habove : n > w.ceiling
  · rw [if_pos habove] at hreach ⊢
    have hceiling : ((w.moveTo n).setBit n).ceiling = n := setBit_ceiling _ _
    exact mayReceive_above (by omega) hreach
  · rw [if_neg habove] at hreach ⊢
    rw [setBit_ceiling] at hreach
    exact mayReceive_setBit h.wellFormed (by omega) (by omega) (h.mayReceive m (by omega) hreach)

theorem markAsReceived_ceiling (w : AntiReplayWindow) (n : Nat) :
    (w.markAsReceived n).ceiling = max w.ceiling n := by
  rw [markAsReceived_eq, setBit_ceiling]
  split
  · show n = _
    omega
  · omega

theorem Ascending.marks {w : AntiReplayWindow} {next next' : Nat} {numbers : List Nat}
    (h : w.Ascending next) (hnext : next ≤ next') (hbelow : ∀ n ∈ numbers, n < next') :
    (numbers.foldl AntiReplayWindow.markAsReceived w).Ascending next' ∧
      (numbers.foldl AntiReplayWindow.markAsReceived w).ceiling = numbers.foldl max w.ceiling := by
  induction numbers generalizing w next with
  | nil => exact ⟨h.mono hnext, rfl⟩
  | cons n numbers ih =>
      rw [List.forall_mem_cons] at hbelow
      rw [List.foldl_cons, List.foldl_cons, ← markAsReceived_ceiling]
      exact ih (h.markAsReceived n) (max_le hnext hbelow.1) hbelow.2

end AntiReplayWindow

namespace RecordLayer

variable {crypto : Crypto} {rl peer : RecordLayer}

/-- The peer reads an epoch, and its window waits for the numbers from `next` on. -/
structure Follows (crypto : Crypto) (rl peer : RecordLayer) (i next : Nat) : Prop where
  hears : Hears crypto rl peer i
  current : peer.readEpochNr ≤ i
  known : i < peer.epochs.length
  window : (peer.window i).Ascending next

/-- The receiver takes one datagram after the other; each comes with the memory its parsing finds. -/
def receiveAll (crypto : Crypto) : List ((Nat → Memory) × Bytes) → RecordLayer → List Message
  | [], _ => []
  | (memory, buf) :: arrivals, peer =>
      (peer.receive crypto memory buf).1 ++
        receiveAll crypto arrivals (peer.receive crypto memory buf).2

theorem window_foldl_markAsReceived {records : List DTLSPlaintext} {rl : RecordLayer} {i : Nat}
    (hepoch : ∀ p ∈ records, p.epoch = i) (hknown : i < rl.epochs.length) :
    (records.foldl RecordLayer.markAsReceived rl).window i =
      (records.map (·.sequenceNumber)).foldl AntiReplayWindow.markAsReceived (rl.window i) := by
  induction records generalizing rl with
  | nil => rfl
  | cons p records ih =>
      rw [List.forall_mem_cons] at hepoch
      have hlength : (rl.markAsReceived p).epochs.length = rl.epochs.length :=
        updateEpoch_epochs_length rl p.epoch _
      have hmarked : (rl.markAsReceived p).window i =
          (rl.window i).markAsReceived p.sequenceNumber := by
        rw [← hepoch.1] at hknown ⊢
        unfold RecordLayer.window RecordLayer.markAsReceived
        rw [epoch_updateEpoch_self hknown]
      rw [List.foldl_cons, List.map_cons, List.foldl_cons, ← hmarked]
      exact ih hepoch.2 (by rw [hlength]; exact hknown)

-- A datagram whose records are not too far ahead.
theorem Follows.receive {records : List DTLSCompressed} {buf : Bytes} {i next : Nat}
    (h : Follows crypto rl peer i next) (next' : Nat) (memory : Nat → Memory)
    (hwritten : WrittenAs crypto rl records buf)
    (hrecords : ∀ p ∈ records, p.epoch = i ∧ Writable crypto rl p)
    (hnumbers : ∀ p ∈ records,
      next ≤ p.sequenceNumber ∧ p.sequenceNumber ≤ (peer.window i).ceiling + width)
    (hnext : next ≤ next') (hbelow : ∀ p ∈ records, p.sequenceNumber < next') :
    (peer.receive crypto memory buf).1 = records.map asMessage ∧
      Follows crypto rl (peer.receive crypto memory buf).2 i next' ∧
      ((peer.receive crypto memory buf).2.window i).ceiling =
        (records.map (·.sequenceNumber)).foldl max (peer.window i).ceiling := by
  have hadmits : ∀ p ∈ records, peer.admits p = true := by
    intro p hp
    have hmay := h.window.mayReceive p.sequenceNumber (hnumbers p hp).1 (hnumbers p hp).2
    have hknown := h.known
    have hcurrent := h.current
    rw [← (hrecords p hp).1] at hmay hknown hcurrent
    unfold admits
    rw [if_neg (by omega), if_neg (by omega)]
    exact hmay
  have haccepted : peer.accepted crypto memory buf = records.map DTLSPacket.asReceived := by
    have hwritable : ∀ p ∈ records, Writable crypto rl p := fun p hp => (hrecords p hp).2
    rw [accepted_written memory hwritten hwritable, List.filter_eq_self.mpr hadmits]
    intro q hq
    rcases admitted_written memory hwritten hwritable hq with ⟨p, hp, hepoch⟩
    rw [hepoch, (hrecords p hp).1]
    exact h.hears
  have hdecipher : ((peer.receive crypto memory buf).2.connState i).decipher =
      (peer.connState i).decipher := by
    rw [connState_receive]
    split
    · rw [ConnectionState.decipher_withDecipher]
    · rfl
  have hlength : (peer.receive crypto memory buf).2.epochs.length = peer.epochs.length :=
    receive_keeps (g := fun rl => rl.epochs.length) (fun rl p => updateEpoch_epochs_length rl p.epoch _)
      (fun rl i => updateConnectionState_epochs_length rl i _) crypto memory buf peer
  have hwindow : (peer.receive crypto memory buf).2.window i =
      (records.map (·.sequenceNumber)).foldl AntiReplayWindow.markAsReceived (peer.window i) := by
    rw [receive_eq, haccepted]
    generalize hdeciphers : (peer.admitted memory buf).foldl
      (fun rl p => rl.updateConnectionState p.epoch .withDecipher) peer = peer'
    have hsame : peer'.window i = peer.window i := by
      rw [← hdeciphers]
      exact foldl_congr_of_step (g := fun rl => rl.window i)
        (fun rl (q : DTLSCiphertext) => window_updateConnectionState rl q.epoch i _) _ _
    have hknown : i < peer'.epochs.length := by
      rw [← hdeciphers]
      have hkept := foldl_congr_of_step (g := fun rl : RecordLayer => rl.epochs.length)
        (fun rl (q : DTLSCiphertext) => updateConnectionState_epochs_length rl q.epoch .withDecipher)
        (peer.admitted memory buf) peer
      have hkept : _ = peer.epochs.length := hkept
      rw [hkept]
      exact h.known
    have hepoch : ∀ q ∈ records.map DTLSPacket.asReceived, q.epoch = i := by
      intro q hq
      rcases List.mem_map.mp hq with ⟨p, hp, rfl⟩
      exact (hrecords p hp).1
    rw [← hsame]
    show (List.foldl RecordLayer.markAsReceived peer' _).window i = _
    rw [window_foldl_markAsReceived hepoch hknown, List.map_map]
    rfl
  have hmarks := h.window.marks hnext fun n hn => by
    rcases List.mem_map.mp hn with ⟨p, hp, rfl⟩
    exact hbelow p hp
  refine ⟨?_, ⟨?_, ?_, ?_, ?_⟩, ?_⟩
  · rw [receive_eq, haccepted, List.map_map]
    rfl
  · rcases h.hears with ⟨d, hspecify, hinverted, hpeer⟩
    exact ⟨d, hspecify, hinverted, hdecipher.trans hpeer⟩
  · rw [receive_readEpochNr]
    exact h.current
  · rw [hlength]
    exact h.known
  · rw [hwindow]
    exact hmarks.1
  · rw [hwindow]
    exact hmarks.2

/-- In order, and never more than the width of the window ahead: the peer returns what arrives. -/
theorem Follows.receiveAll {i next : Nat} {records : List DTLSCompressed}
    {arrivals : List ((Nat → Memory) × Bytes)} (h : Follows crypto rl peer i next)
    (hepoch : ∀ p ∈ records, p.epoch = i ∧ Writable crypto rl p)
    (hwritten : List.Forall₂ (fun p arrival => WrittenAs crypto rl [p] arrival.2) records arrivals)
    (hnext : ∀ p ∈ records, next ≤ p.sequenceNumber)
    (hascending : records.Pairwise fun p q => p.sequenceNumber < q.sequenceNumber)
    (hnear : List.IsChain (fun a b => b ≤ a + width)
      ((peer.window i).ceiling :: records.map (·.sequenceNumber))) :
    RecordLayer.receiveAll crypto arrivals peer = records.map asMessage := by
  induction hwritten generalizing peer next with
  | nil => rfl
  | @cons p arrival records arrivals hfirst _ ih =>
      rw [List.forall_mem_cons] at hepoch hnext
      rw [List.pairwise_cons] at hascending
      rw [List.map_cons, List.isChain_cons_cons] at hnear
      rcases h.receive (p.sequenceNumber + 1) arrival.1 hfirst
        (List.forall_mem_singleton.mpr hepoch.1) (List.forall_mem_singleton.mpr ⟨hnext.1, hnear.1⟩)
        (Nat.le_succ_of_le hnext.1) (List.forall_mem_singleton.mpr (Nat.lt_succ_self _)) with
        ⟨hmessages, hfollows, hceiling⟩
      have hchain : List.IsChain (fun a b => b ≤ a + width)
          (((peer.receive crypto arrival.1 arrival.2).2.window i).ceiling ::
            records.map (·.sequenceNumber)) := by
        rw [hceiling]
        apply hnear.2.imp_head
        intro n hn
        exact Nat.le_trans hn (Nat.add_le_add_right (Nat.le_max_right _ _) width)
      have hrest := ih hfollows hepoch.2 (fun q hq => hascending.1 q hq) hascending.2 hchain
      rw [RecordLayer.receiveAll, hmessages, hrest]
      rfl

end RecordLayer

/-! ## A client after the handshake -/

namespace Sending

end Sending

namespace Sample

/-- The other end, after it has read the handshake. -/
def server : RecordLayer :=
  (RecordLayer.new.updateConnectionState 1 fun _ => serverState).updateEpoch 1 fun e =>
    { e with antiReplayWindow := e.antiReplayWindow.markAsReceived 0 }

/-- The two datagrams behind the handshake. -/
def inOrder : List ((Nat → Memory) × Bytes) :=
  [(fun _ _ => 0, clientFirst.datagram), (fun _ _ => 0, clientSecond.datagram)]

end Sample

end DtlsClient
