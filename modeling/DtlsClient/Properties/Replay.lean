import DtlsClient.Library.Bitmap
import DtlsClient.Properties.Epochs
import DtlsClient.Run

/-!
# Replay protection

A window never forgets: what it has seen it refuses, wherever it moves.  The record layer asks the
windows before it marks anything in them, so that only the records of one datagram escape them.
-/

open Library

namespace DtlsClient

namespace AntiReplayWindow

/-! ## The window -/

/-- The words that the constructor sets up. -/
structure WellFormed (w : AntiReplayWindow) : Prop where
  window_length : w.window.length = 2
  ceiling : width - 1 ≤ w.ceiling

/-- A sequence number that will not be received any more, however high the ceiling rises. -/
def Seen (w : AntiReplayWindow) (seqNum : Nat) : Prop :=
  seqNum ≤ w.ceiling ∧ w.mayReceive seqNum = false

theorem WellFormed.reset : WellFormed .reset := ⟨rfl, Nat.le_refl _⟩

-- Below the window the words are others than those of the bitmap.
theorem bitPosition_below {w : AntiReplayWindow} {seqNum : Nat}
    (h : seqNum + width ≤ w.ceiling) : ∃ index, (w.bitPosition seqNum).1 = .negSucc index := by
  have hneg : (w.bitPosition seqNum).1 < 0 := by
    show (seqNum - w.lowerBound : Int) / INT_SIZE < 0
    unfold lowerBound width INT_SIZE at *
    omega
  exact Int.eq_negSucc_of_lt_zero hneg

-- Bit `i` of the bitmap stands for the sequence number `i` above the lower bound.
theorem bitPosition_inside {w : AntiReplayWindow} {seqNum : Nat}
    (h : w.ceiling < seqNum + width) :
    w.bitPosition seqNum = (.ofNat ((seqNum + width - 1 - w.ceiling) / INT_SIZE),
      (seqNum + width - 1 - w.ceiling) % INT_SIZE) := by
  have hindex : (seqNum : Int) - w.lowerBound = ((seqNum + width - 1 - w.ceiling : Nat) : Int) := by
    unfold lowerBound width at *
    omega
  rw [bitPosition, hindex]
  rfl

theorem hasReceived_inside {w : AntiReplayWindow} {seqNum : Nat} (h : w.ceiling < seqNum + width) :
    w.hasReceived seqNum = Bitmap.bit w.window (seqNum + width - 1 - w.ceiling) := by
  rw [hasReceived, bitPosition_inside h]
  have hlt : (seqNum + width - 1 - w.ceiling) % INT_SIZE < 32 := Nat.mod_lt _ (by decide)
  show (w.window.getD _ 0 &&& Int32.shl 1 _ == Int32.shl 1 _) = _
  rw [Int32.shl, Nat.mod_eq_of_lt hlt]
  exact Bitmap.and_one_shiftLeft_eq hlt _

-- What has been seen lies below the window or has its bit set.
theorem seen_iff {w : AntiReplayWindow} {seqNum : Nat} (h : w.WellFormed) :
    w.Seen seqNum ↔ seqNum + width ≤ w.ceiling ∨
      seqNum ≤ w.ceiling ∧ Bitmap.bit w.window (seqNum + width - 1 - w.ceiling) = true := by
  have hceiling := h.ceiling
  unfold Seen mayReceive
  by_cases hle : seqNum ≤ w.ceiling
  · have hskipped : ¬seqNum > w.ceiling + width := by omega
    have habove : ¬seqNum > w.ceiling := by omega
    rw [if_neg hskipped, if_neg habove]
    by_cases hbelow : seqNum + width ≤ w.ceiling
    · have hout : ¬((seqNum : Int) ≥ w.lowerBound ∧ seqNum ≤ w.ceiling) := by
        unfold lowerBound width at *
        omega
      rw [if_neg hout]
      exact ⟨fun _ => .inl hbelow, fun _ => ⟨hle, rfl⟩⟩
    · have hin : (seqNum : Int) ≥ w.lowerBound ∧ seqNum ≤ w.ceiling := by
        unfold lowerBound width at *
        omega
      rw [if_pos hin, hasReceived_inside (by omega), Bool.not_eq_false']
      exact ⟨.inr, fun h => h.resolve_left hbelow⟩
  · exact ⟨fun h => absurd h.1 hle, fun h => by omega⟩

/-! ## Moving the window -/

-- The loop over whole blocks leaves an amount within one word, and has moved every bit by the
-- difference.
theorem shiftBlocks_spec (fuel amount : Nat) (window : List Int32) (hpos : 0 < amount)
    (hfuel : amount ≤ fuel) :
    let (moved, rest) := shiftBlocks fuel amount window
    0 < rest ∧ rest ≤ INT_SIZE ∧ rest ≤ amount ∧ INT_SIZE ∣ amount - rest ∧
      (window ≠ [] → moved.length = window.length) ∧
      ∀ i, Bitmap.bit moved i = Bitmap.bit window (i + (amount - rest)) := by
  induction fuel generalizing amount window with
  | zero => omega
  | succ fuel ih =>
      rw [shiftBlocks]
      by_cases hblock : amount > INT_SIZE
      · rw [if_pos hblock]
        unfold INT_SIZE at hblock
        have hrest := ih (amount - INT_SIZE) (shiftBlock window) (by unfold INT_SIZE; omega)
          (by unfold INT_SIZE; omega)
        revert hrest
        generalize shiftBlocks fuel (amount - INT_SIZE) (shiftBlock window) = result
        rcases result with ⟨moved, rest⟩
        rintro ⟨hpos', hle, hamount, hdvd, hlength, hbit⟩
        have hdvd' : INT_SIZE ∣ amount - rest := by
          unfold INT_SIZE at *
          omega
        refine ⟨hpos', hle, by omega, hdvd', fun hne => ?_, fun i => ?_⟩
        · rw [hlength (by unfold shiftBlock; simp), shiftBlock, List.length_append,
            List.length_drop, List.length_singleton]
          have := List.length_pos_of_ne_nil hne
          omega
        · rw [hbit, shiftBlock, Bitmap.bit_drop_one (by decide)]
          congr 1
          unfold INT_SIZE at *
          omega
      · rw [if_neg hblock]
        have hdvd : INT_SIZE ∣ amount - amount := by
          rw [Nat.sub_self]
          exact Nat.dvd_zero _
        refine ⟨hpos, by omega, Nat.le_refl _, hdvd, fun _ => rfl, fun i => ?_⟩
        rw [Nat.sub_self, Nat.add_zero]

theorem shiftBits_length (amount : Nat) (window : List Int32) :
    (shiftBits amount window).length = window.length := by
  fun_induction shiftBits amount window with
  | case1 => rfl
  | case2 => rfl
  | case3 word next rest ih =>
      rw [List.length_cons, ih]
      rfl

theorem bit_shiftBits_part {amount : Nat} (hpos : 0 < amount) (hlt : amount < INT_SIZE)
    (window : List Int32) (i : Nat) :
    Bitmap.bit (shiftBits amount window) i = Bitmap.bit window (i + amount) := by
  unfold INT_SIZE at hlt
  have hshl : (INT_SIZE - amount) % 32 = 32 - amount := by
    unfold INT_SIZE
    omega
  fun_induction shiftBits amount window generalizing i with
  | case1 => rw [Bitmap.bit_nil, Bitmap.bit_nil]
  | case2 word =>
      by_cases hin : i + amount < 32
      · rw [Bitmap.bit_cons_lt word [] hin, Bitmap.bit_cons_lt _ [] (by omega), Int32.shr,
          Nat.mod_eq_of_lt hlt, BitVec.getLsbD_ushiftRight, Nat.add_comm]
      · have hout : i + amount = i + amount - 32 + 32 := by omega
        rw [hout, Bitmap.bit_cons_add (by decide), Bitmap.bit_nil]
        by_cases hi : i < 32
        · rw [Bitmap.bit_cons_lt _ [] hi, Int32.shr, Nat.mod_eq_of_lt hlt,
            BitVec.getLsbD_ushiftRight]
          exact BitVec.getLsbD_of_ge _ _ (by omega)
        · have hup : i = i - 32 + 32 := by omega
          rw [hup, Bitmap.bit_cons_add (by decide), Bitmap.bit_nil]
  | case3 word next rest ih =>
      by_cases hi : i < 32
      · rw [Bitmap.bit_cons_lt _ _ hi, BitVec.getLsbD_or, Int32.shr, Nat.mod_eq_of_lt hlt,
          BitVec.getLsbD_ushiftRight, Int32.shl, hshl, BitVec.getLsbD_shiftLeft, decide_eq_true hi]
        by_cases hin : i + amount < 32
        · have hlow : i < 32 - amount := by omega
          rw [Bitmap.bit_cons_lt word _ hin, decide_eq_true hlow, Nat.add_comm amount]
          exact Bool.or_false _
        · -- the bit comes from the next word
          have hout : i + amount = i + amount - 32 + 32 := by omega
          have hfrom : i - (32 - amount) = i + amount - 32 := by omega
          have hhigh : ¬i < 32 - amount := by omega
          rw [BitVec.getLsbD_of_ge word (amount + i) (by omega), decide_eq_false hhigh, hfrom, hout,
            Bitmap.bit_cons_add (by decide), Bitmap.bit_cons_lt next _ (by omega)]
          rfl
      · have hup : i = i - 32 + 32 := by omega
        have hsum : i + amount = i - 32 + amount + 32 := by omega
        rw [hsum, Bitmap.bit_cons_add (by decide), hup, Bitmap.bit_cons_add (by decide),
          Nat.add_sub_cancel]
        exact ih _

/-- `>>>` and `<<` do not shift by 32: every word keeps its bits, and gets those of the next one. -/
theorem bit_shiftBits_whole (window : List Int32) (i : Nat) :
    Bitmap.bit (shiftBits INT_SIZE window) i =
      (Bitmap.bit window i || Bitmap.bit window (i + INT_SIZE)) := by
  have hshr : ∀ word : Int32, word.shr INT_SIZE = word := fun word => BitVec.ushiftRight_zero word
  have hshl : ∀ word : Int32, word.shl (INT_SIZE - INT_SIZE) = word :=
    fun word => BitVec.shiftLeft_zero word
  induction window generalizing i with
  | nil =>
      rw [shiftBits, Bitmap.bit_nil, Bitmap.bit_nil]
      rfl
  | cons word rest ih =>
      have hnext : Bitmap.bit (word :: rest) (i + INT_SIZE) = Bitmap.bit rest i :=
        Bitmap.bit_cons_add (by decide) word rest i
      rw [hnext]
      cases rest with
      | nil => rw [shiftBits, hshr, Bitmap.bit_nil, Bool.or_false]
      | cons next rest =>
          rw [shiftBits, hshr, hshl]
          by_cases hi : i < 32
          · rw [Bitmap.bit_cons_lt _ _ hi, Bitmap.bit_cons_lt _ _ hi, Bitmap.bit_cons_lt _ _ hi,
              BitVec.getLsbD_or]
          · have hup : i = i - 32 + 32 := by omega
            rw [hup, Bitmap.bit_cons_add (by decide), Bitmap.bit_cons_add (by decide), ih]
            rfl

-- The window after it has been moved up to a sequence number above the ceiling.
def moveTo (w : AntiReplayWindow) (seqNum : Nat) : AntiReplayWindow :=
  let (window, amount) := shiftBlocks (seqNum - w.ceiling) (seqNum - w.ceiling) w.window
  { w with window := shiftBits amount window, ceiling := seqNum }

-- The last part of `markAsReceived`.
def setBit (w : AntiReplayWindow) (seqNum : Nat) : AntiReplayWindow :=
  let (windowIndex, windowBit) := w.bitPosition seqNum
  w.orWord (Int32.shl 1 windowBit) windowIndex

theorem markAsReceived_eq (w : AntiReplayWindow) (seqNum : Nat) :
    w.markAsReceived seqNum =
      (if seqNum > w.ceiling then w.moveTo seqNum else w).setBit seqNum := rfl

theorem WellFormed.moveTo {w : AntiReplayWindow} {seqNum : Nat} (h : w.WellFormed)
    (habove : seqNum > w.ceiling) : (w.moveTo seqNum).WellFormed := by
  have hspec := shiftBlocks_spec (seqNum - w.ceiling) (seqNum - w.ceiling) w.window (by omega)
    (Nat.le_refl _)
  have hne : w.window ≠ [] := by
    intro hnil
    have hlength := h.window_length
    rw [hnil] at hlength
    cases hlength
  have hceiling := h.ceiling
  constructor
  · rw [AntiReplayWindow.moveTo, shiftBits_length, hspec.2.2.2.2.1 hne, h.window_length]
  · show width - 1 ≤ seqNum
    omega

/-- Moving the window moves every bit.  By a multiple of `INT_SIZE` it also leaves a copy of every
bit one word above its place. -/
theorem bit_moveTo {w : AntiReplayWindow} {seqNum : Nat} (habove : seqNum > w.ceiling) (i : Nat) :
    Bitmap.bit (w.moveTo seqNum).window i =
      (Bitmap.bit w.window (i + (seqNum - w.ceiling)) ||
        (decide (INT_SIZE ∣ seqNum - w.ceiling) &&
          Bitmap.bit w.window (i + (seqNum - w.ceiling) - INT_SIZE))) := by
  have hspec := shiftBlocks_spec (seqNum - w.ceiling) (seqNum - w.ceiling) w.window (by omega)
    (Nat.le_refl _)
  unfold moveTo
  revert hspec
  generalize shiftBlocks (seqNum - w.ceiling) (seqNum - w.ceiling) w.window = result
  rcases result with ⟨moved, rest⟩
  rintro ⟨hpos, hle, hamount, hdvd, _, hbit⟩
  show Bitmap.bit (shiftBits rest moved) i = _
  by_cases hrest : rest < INT_SIZE
  · have hnot : ¬INT_SIZE ∣ seqNum - w.ceiling := by
      unfold INT_SIZE at *
      omega
    have hindex : i + rest + (seqNum - w.ceiling - rest) = i + (seqNum - w.ceiling) := by omega
    rw [bit_shiftBits_part hpos hrest, hbit, decide_eq_false hnot, hindex]
    exact (Bool.or_false _).symm
  · have hwhole : rest = INT_SIZE := by omega
    subst hwhole
    have hall : INT_SIZE ∣ seqNum - w.ceiling := by
      unfold INT_SIZE at *
      omega
    have hindex : i + INT_SIZE + (seqNum - w.ceiling - INT_SIZE) = i + (seqNum - w.ceiling) := by
      omega
    have hindex' : i + (seqNum - w.ceiling - INT_SIZE) = i + (seqNum - w.ceiling) - INT_SIZE := by
      omega
    rw [bit_shiftBits_whole, hbit, hbit, decide_eq_true hall, hindex, hindex', Bool.or_comm]
    rfl

-- Nothing that has been seen is forgotten when the window moves.
theorem seen_moveTo {w : AntiReplayWindow} {seqNum seen : Nat} (h : w.WellFormed)
    (habove : seqNum > w.ceiling) (hseen : w.Seen seen) : (w.moveTo seqNum).Seen seen := by
  rw [seen_iff h] at hseen
  rw [seen_iff (h.moveTo habove)]
  by_cases hbelow : seen + width ≤ seqNum
  · exact .inl hbelow
  · rcases hseen with hseen | ⟨hle, hbit⟩
    · omega
    · refine .inr ⟨by show seen ≤ seqNum; omega, ?_⟩
      have hindex : seen + width - 1 - seqNum + (seqNum - w.ceiling) =
          seen + width - 1 - w.ceiling := by omega
      show Bitmap.bit (w.moveTo seqNum).window (seen + width - 1 - seqNum) = true
      rw [bit_moveTo habove, hindex, hbit, Bool.true_or]

/-! ## Marking a sequence number -/

theorem orWord_ceiling (w : AntiReplayWindow) (flag : Int32) (index : Int) :
    (w.orWord flag index).ceiling = w.ceiling := by
  cases index <;> rfl

theorem setBit_ceiling (w : AntiReplayWindow) (seqNum : Nat) :
    (w.setBit seqNum).ceiling = w.ceiling :=
  orWord_ceiling ..

-- Below the window nothing of the bitmap changes.
theorem setBit_below {w : AntiReplayWindow} {seqNum : Nat} (h : seqNum + width ≤ w.ceiling) :
    (w.setBit seqNum).window = w.window := by
  rcases bitPosition_below h with ⟨index, hindex⟩
  show (w.orWord _ (w.bitPosition seqNum).1).window = w.window
  rw [hindex]
  rfl

theorem WellFormed.orWord {w : AntiReplayWindow} (h : w.WellFormed) (flag : Int32) (index : Int) :
    (w.orWord flag index).WellFormed := by
  cases index with
  | ofNat index => exact ⟨(List.length_modify ..).trans h.window_length, h.ceiling⟩
  | negSucc index => exact ⟨h.window_length, h.ceiling⟩

theorem WellFormed.setBit {w : AntiReplayWindow} (h : w.WellFormed) (seqNum : Nat) :
    (w.setBit seqNum).WellFormed :=
  h.orWord _ _

theorem WellFormed.markAsReceived {w : AntiReplayWindow} (h : w.WellFormed) (seqNum : Nat) :
    (w.markAsReceived seqNum).WellFormed := by
  rw [markAsReceived_eq]
  by_cases habove : seqNum > w.ceiling
  · rw [if_pos habove]
    exact (h.moveTo habove).setBit seqNum
  · rw [if_neg habove]
    exact h.setBit seqNum

theorem bit_setBit {w : AntiReplayWindow} {seqNum : Nat} (h : w.WellFormed)
    (hle : seqNum ≤ w.ceiling) (hin : w.ceiling < seqNum + width) (i : Nat) :
    Bitmap.bit (w.setBit seqNum).window i =
      (Bitmap.bit w.window i || decide (i = seqNum + width - 1 - w.ceiling)) := by
  have hindex : (seqNum + width - 1 - w.ceiling) / INT_SIZE < w.window.length := by
    rw [h.window_length]
    unfold width INT_SIZE at *
    omega
  have hset : (w.setBit seqNum).window =
      w.window.modify ((seqNum + width - 1 - w.ceiling) / INT_SIZE)
        (· ||| Int32.shl 1 ((seqNum + width - 1 - w.ceiling) % INT_SIZE)) := by
    rw [setBit, bitPosition_inside hin]
    rfl
  generalize seqNum + width - 1 - w.ceiling = j at hindex hset
  have hmask : (Int32.shl 1 (j % INT_SIZE)).getLsbD (i % INT_SIZE) =
      decide (i % INT_SIZE = j % INT_SIZE) := by
    have hi : i % INT_SIZE < 32 := Nat.mod_lt _ (by decide)
    have hj : j % INT_SIZE < 32 := Nat.mod_lt _ (by decide)
    rw [Int32.shl, Nat.mod_eq_of_lt hj, BitVec.getLsbD_shiftLeft, decide_eq_true hi, Bool.true_and]
    show (_ && (1#32).getLsbD _) = _
    rw [BitVec.getLsbD_one, Bool.eq_iff_iff]
    simp only [Bool.and_eq_true, Bool.not_eq_true', decide_eq_false_iff_not, decide_eq_true_eq]
    omega
  rw [hset, Bitmap.bit_modify_or hindex]
  show (_ || (decide (i / INT_SIZE = j / INT_SIZE) &&
    (Int32.shl 1 (j % INT_SIZE)).getLsbD (i % INT_SIZE))) = _
  rw [hmask, ← Bool.decide_and]
  congr 2
  unfold INT_SIZE
  apply propext
  omega

-- Setting a bit sees its number and forgets none.
theorem seen_setBit {w : AntiReplayWindow} {seqNum : Nat} (h : w.WellFormed)
    (hle : seqNum ≤ w.ceiling) (seen : Nat) (hseen : seen = seqNum ∨ w.Seen seen) :
    (w.setBit seqNum).Seen seen := by
  by_cases hbelow : seqNum + width ≤ w.ceiling
  · rw [seen_iff (h.setBit seqNum), setBit_ceiling, setBit_below hbelow]
    rcases hseen with rfl | hseen
    · exact .inl hbelow
    · exact (seen_iff h).mp hseen
  · rw [seen_iff (h.setBit seqNum), setBit_ceiling, bit_setBit h hle (by omega), Bool.or_eq_true]
    rcases hseen with rfl | hseen
    · exact .inr ⟨hle, .inr (decide_eq_true rfl)⟩
    · rcases (seen_iff h).mp hseen with hlow | ⟨hle', hbit⟩
      · exact .inl hlow
      · exact .inr ⟨hle', .inl hbit⟩

/-- After marking, the number itself and all that had been seen are refused. -/
theorem seen_markAsReceived {w : AntiReplayWindow} {seqNum seen : Nat} (h : w.WellFormed)
    (hseen : seen = seqNum ∨ w.Seen seen) : (w.markAsReceived seqNum).Seen seen := by
  rw [markAsReceived_eq]
  by_cases habove : seqNum > w.ceiling
  · rw [if_pos habove]
    apply seen_setBit (h.moveTo habove) (Nat.le_refl _)
    exact hseen.imp_right (seen_moveTo h habove)
  · rw [if_neg habove]
    exact seen_setBit h (by omega) seen hseen

end AntiReplayWindow

namespace RecordLayer

/-! ## The windows of the epochs -/

/-- What a record is known by. -/
def recordKey (p : DTLSPlaintext) : Nat × Nat := (p.epoch, p.sequenceNumber)

def WindowsWellFormed (rl : RecordLayer) : Prop := ∀ i, (rl.window i).WellFormed

/-- The window of the epoch has seen the sequence number. -/
def HasSeen (rl : RecordLayer) (key : Nat × Nat) : Prop := (rl.window key.1).Seen key.2

theorem WindowsWellFormed.new : WindowsWellFormed .new := by
  intro i
  match i with
  | 0 => exact .reset
  | 1 => exact .reset
  | i + 2 => exact .reset

theorem admitted_not_seen {rl : RecordLayer} {memory : Nat → Memory} {buf : Bytes}
    {p : DTLSCiphertext} (hp : p ∈ rl.admitted memory buf) : ¬rl.HasSeen (recordKey p) := by
  have hadmits : rl.admits p = true := (List.mem_filter.mp hp).2
  unfold admits at hadmits
  split at hadmits
  · cases hadmits
  · split at hadmits
    · cases hadmits
    · rintro ⟨_, hrefused⟩
      have hmay : (rl.window p.epoch).mayReceive p.sequenceNumber = true := hadmits
      have hrefused : (rl.window p.epoch).mayReceive p.sequenceNumber = false := hrefused
      rw [hmay] at hrefused
      cases hrefused

theorem window_markAsReceived_cases (rl : RecordLayer) (p : DTLSPlaintext) (i : Nat) :
    (rl.markAsReceived p).window i = rl.window i ∨
      i = p.epoch ∧ (rl.markAsReceived p).window i =
        (rl.window i).markAsReceived p.sequenceNumber := by
  unfold window markAsReceived
  rcases epoch_updateEpoch_cases rl p.epoch i _ with h | ⟨hi, h⟩
  · exact .inl (by rw [h])
  · exact .inr ⟨hi, by rw [h]⟩

theorem WindowsWellFormed.markAsReceived {rl : RecordLayer} (h : rl.WindowsWellFormed)
    (p : DTLSPlaintext) : (rl.markAsReceived p).WindowsWellFormed := by
  intro i
  rcases window_markAsReceived_cases rl p i with hsame | ⟨_, hmarked⟩
  · rw [hsame]
    exact h i
  · rw [hmarked]
    exact (h i).markAsReceived p.sequenceNumber

theorem hasSeen_markAsReceived {rl : RecordLayer} {p : DTLSPlaintext} {key : Nat × Nat}
    (h : rl.WindowsWellFormed) (hknown : p.epoch < rl.epochs.length)
    (hseen : key = recordKey p ∨ rl.HasSeen key) : (rl.markAsReceived p).HasSeen key := by
  unfold HasSeen at hseen ⊢
  by_cases hepoch : key.1 = p.epoch
  · have hmarked : (rl.markAsReceived p).window key.1 =
        (rl.window key.1).markAsReceived p.sequenceNumber := by
      rw [hepoch, window, RecordLayer.markAsReceived, epoch_updateEpoch_self hknown]
      rfl
    rw [hmarked]
    apply AntiReplayWindow.seen_markAsReceived (h _)
    exact hseen.imp_left fun hkey => by rw [hkey, recordKey]
  · have hsame : (rl.markAsReceived p).window key.1 = rl.window key.1 := by
      rw [window, RecordLayer.markAsReceived, epoch_updateEpoch_ne rl hepoch]
      rfl
    rw [hsame]
    rcases hseen with hkey | hseen
    · rw [hkey] at hepoch
      exact absurd rfl hepoch
    · exact hseen

-- The last pass of `receive`: every record is marked, and none is forgotten.
theorem foldl_markAsReceived (records : List DTLSPlaintext) {rl : RecordLayer}
    (h : rl.WindowsWellFormed) (hknown : ∀ p ∈ records, p.epoch < rl.epochs.length) :
    (records.foldl markAsReceived rl).WindowsWellFormed ∧
      ∀ key, key ∈ records.map recordKey ∨ rl.HasSeen key →
        (records.foldl markAsReceived rl).HasSeen key := by
  induction records generalizing rl with
  | nil => exact ⟨h, fun key hkey => hkey.resolve_left List.not_mem_nil⟩
  | cons p records ih =>
      have hp : p.epoch < rl.epochs.length := hknown p List.mem_cons_self
      have hlength : (rl.markAsReceived p).epochs.length = rl.epochs.length :=
        updateEpoch_epochs_length rl p.epoch _
      have hrest := ih (h.markAsReceived p) fun q hq => by
        rw [hlength]
        exact hknown q (List.mem_cons_of_mem _ hq)
      refine ⟨hrest.1, fun key hkey => hrest.2 key ?_⟩
      rw [List.map_cons, List.mem_cons, or_assoc] at hkey
      rcases hkey with hkey | hkey | hkey
      · exact .inr (hasSeen_markAsReceived h hp (.inl hkey))
      · exact .inl hkey
      · exact .inr (hasSeen_markAsReceived h hp (.inr hkey))

/-- The keys of the records that `receive` returns the messages of. -/
def acceptedKeys (crypto : Crypto) (rl : RecordLayer) (memory : Nat → Memory) (buf : Bytes) :
    List (Nat × Nat) :=
  (rl.accepted crypto memory buf).map recordKey

theorem accepted_admitted {crypto : Crypto} {rl : RecordLayer} {memory : Nat → Memory} {buf : Bytes}
    {q : DTLSCompressed} (hq : q ∈ rl.accepted crypto memory buf) :
    ∃ p ∈ rl.admitted memory buf, recordKey q = recordKey p := by
  rw [accepted, List.mem_filterMap] at hq
  rcases hq with ⟨p, hp, hdecipher⟩
  have hheader := decipherPacket_header hdecipher
  refine ⟨p, hp, ?_⟩
  rw [recordKey, hheader.2.1, hheader.2.2, recordKey]

/-- None of the records of a datagram had been seen before; all have been seen afterwards. -/
theorem acceptedKeys_not_seen {crypto : Crypto} {rl : RecordLayer} {memory : Nat → Memory}
    {buf : Bytes} {key : Nat × Nat} (hkey : key ∈ rl.acceptedKeys crypto memory buf) :
    ¬rl.HasSeen key := by
  rcases List.mem_map.mp hkey with ⟨q, hq, rfl⟩
  rcases accepted_admitted hq with ⟨p, hp, hsame⟩
  rw [hsame]
  exact admitted_not_seen hp

theorem receive_seen (crypto : Crypto) (memory : Nat → Memory) (buf : Bytes) {rl : RecordLayer}
    (h : rl.WindowsWellFormed) :
    (rl.receive crypto memory buf).2.WindowsWellFormed ∧
      ∀ key, key ∈ rl.acceptedKeys crypto memory buf ∨ rl.HasSeen key →
        (rl.receive crypto memory buf).2.HasSeen key := by
  rw [receive_eq]
  generalize hdeciphers : (rl.admitted memory buf).foldl
    (fun rl p => rl.updateConnectionState p.epoch .withDecipher) rl = rl1
  -- creating deciphers touches neither the windows nor the number of epochs
  have hwindow : ∀ i, rl1.window i = rl.window i := by
    intro i
    rw [← hdeciphers]
    exact foldl_congr_of_step (g := fun rl => rl.window i)
      (fun rl (p : DTLSCiphertext) => window_updateConnectionState rl p.epoch i _) _ _
  have hlength : rl1.epochs.length = rl.epochs.length := by
    rw [← hdeciphers]
    exact foldl_congr_of_step (g := fun rl => rl.epochs.length)
      (fun rl (p : DTLSCiphertext) => updateConnectionState_epochs_length rl p.epoch _) _ _
  have hknown : ∀ q ∈ rl.accepted crypto memory buf, q.epoch < rl1.epochs.length := by
    intro q hq
    rcases accepted_admitted hq with ⟨p, hp, hsame⟩
    have hepoch : q.epoch = p.epoch := congrArg Prod.fst hsame
    rw [hlength, hepoch]
    exact (admitted_known hp).1
  have hwell : rl1.WindowsWellFormed := fun i => by rw [hwindow]; exact h i
  have hfold := foldl_markAsReceived _ hwell hknown
  refine ⟨hfold.1, fun key hkey => hfold.2 key ?_⟩
  unfold HasSeen at hkey ⊢
  rw [hwindow]
  exact hkey

/-! ## Runs of the record layer -/

/-- Everything a client does with its record layer, in any order: datagrams, the switches of both
epochs, changes of the connection states, and sending. -/
inductive Operation where
  | receive (memory : Nat → Memory) (buf : Bytes)
  | advanceReadEpoch
  | advanceWriteEpoch
  | updateConnectionState (i : Nat) (f : ConnectionState → ConnectionState)
  | send (msg : Message)
  | sendFlight (messages : List Message)

def perform (crypto : Crypto) (rl : RecordLayer) : Operation → RecordLayer
  | .receive memory buf => (rl.receive crypto memory buf).2
  | .advanceReadEpoch => rl.advanceReadEpoch
  | .advanceWriteEpoch => rl.advanceWriteEpoch
  | .updateConnectionState i f => rl.updateConnectionState i f
  | .send msg => finalState (send crypto msg) rl
  | .sendFlight messages => finalState (sendFlight crypto messages) rl

/-- A record layer from its creation on. -/
def machine (crypto : Crypto) : Machine RecordLayer Operation where
  init := .new
  step := perform crypto

/-- The records whose messages an operation returns. -/
def acceptedRecords (crypto : Crypto) (t : RecordLayer × Operation) : List DTLSCompressed :=
  match t.2 with
  | .receive memory buf => t.1.accepted crypto memory buf
  | _ => []

/-- The messages that an operation returns. -/
def returned (crypto : Crypto) (t : RecordLayer × Operation) : List Message :=
  match t.2 with
  | .receive memory buf => (t.1.receive crypto memory buf).1
  | _ => []

/-- The keys of the records whose messages an operation returns. -/
def returnedKeys (crypto : Crypto) (t : RecordLayer × Operation) : List (Nat × Nat) :=
  match t.2 with
  | .receive memory buf => t.1.acceptedKeys crypto memory buf
  | _ => []

theorem returned_eq (crypto : Crypto) (t : RecordLayer × Operation) :
    returned crypto t = (acceptedRecords crypto t).map asMessage := by
  rcases t with ⟨rl, op⟩
  cases op with
  | receive memory buf =>
      show (rl.receive crypto memory buf).1 = (rl.accepted crypto memory buf).map asMessage
      rw [receive_eq]
      rfl
  | _ => rfl

theorem returnedKeys_eq (crypto : Crypto) (t : RecordLayer × Operation) :
    returnedKeys crypto t = (acceptedRecords crypto t).map recordKey := by
  rcases t with ⟨rl, op⟩
  cases op <;> rfl

theorem window_advanceReadEpoch (rl : RecordLayer) : rl.advanceReadEpoch.window = rl.window := by
  funext i
  rw [window, epoch_advanceReadEpoch, window]

theorem window_advanceWriteEpoch (rl : RecordLayer) :
    rl.advanceWriteEpoch.window = rl.window := by
  funext i
  rw [window, epoch_advanceWriteEpoch, window]

-- A new sequence number for what is sent is not one of the window.
theorem window_numbered (rl : RecordLayer) : rl.numbered.window = rl.window := by
  funext j
  unfold window numbered
  rcases epoch_updateEpoch_cases rl rl.writeEpochNr j _ with h | ⟨_, h⟩ <;> rw [h]

theorem window_withCipher (rl : RecordLayer) (i : Nat) :
    (updateConnectionState i .withCipher rl).window = rl.window := by
  funext j
  exact window_updateConnectionState rl i j _

-- Sending leaves all windows alone, also where it throws.
theorem processOutgoingMessage_window (crypto : Crypto) (msg : Message) (rl : RecordLayer) :
    Ends (processOutgoingMessage crypto msg) rl (fun _ rl' => rl'.window = rl.window)
      (fun _ rl' => rl'.window = rl.window) :=
  processOutgoingMessage_preserves (P := fun rl' => rl'.window = rl.window)
    (fun rl' h => (window_numbered rl').trans h) (fun rl' i h => (window_withCipher rl' i).trans h)
    crypto (fun _ rl' h => (window_advanceWriteEpoch rl').trans h) rfl

theorem processOutgoingMessages_window (crypto : Crypto) (messages : List Message)
    (rl : RecordLayer) :
    Ends (processOutgoingMessages crypto messages) rl (fun _ rl' => rl'.window = rl.window)
      (fun _ rl' => rl'.window = rl.window) :=
  processOutgoingMessages_preserves (P := fun rl' => rl'.window = rl.window)
    (fun rl' h => (window_numbered rl').trans h) (fun rl' i h => (window_withCipher rl' i).trans h)
    crypto (fun _ _ _ rl' h => (window_advanceWriteEpoch rl').trans h) rfl

theorem perform_window (crypto : Crypto) (rl : RecordLayer) {op : Operation}
    (hop : ∀ memory buf, op ≠ .receive memory buf) : (rl.perform crypto op).window = rl.window := by
  cases op with
  | receive memory buf => exact absurd rfl (hop memory buf)
  | advanceReadEpoch => exact window_advanceReadEpoch rl
  | advanceWriteEpoch => exact window_advanceWriteEpoch rl
  | updateConnectionState i f =>
      funext j
      exact window_updateConnectionState rl i j f
  | send msg =>
      have hsend : Ends (send crypto msg) rl (fun _ rl' => rl'.window = rl.window)
          (fun _ rl' => rl'.window = rl.window) := by
        unfold send
        rw [ends_bind]
        exact processOutgoingMessage_window crypto msg rl
      exact Ends.finalState (P := fun rl' : RecordLayer => rl'.window = rl.window) hsend
  | sendFlight messages =>
      have hsend : Ends (sendFlight crypto messages) rl (fun _ rl' => rl'.window = rl.window)
          (fun _ rl' => rl'.window = rl.window) := by
        unfold sendFlight
        rw [ends_bind]
        exact processOutgoingMessages_window crypto messages rl
      exact Ends.finalState (P := fun rl' : RecordLayer => rl'.window = rl.window) hsend

/-- One operation: it returns nothing that had been seen, and what it returns has been seen then. -/
theorem perform_seen (crypto : Crypto) {rl : RecordLayer} (op : Operation)
    (h : rl.WindowsWellFormed) :
    (rl.perform crypto op).WindowsWellFormed ∧
      (∀ key ∈ returnedKeys crypto (rl, op), ¬rl.HasSeen key) ∧
      ∀ key, key ∈ returnedKeys crypto (rl, op) ∨ rl.HasSeen key →
        (rl.perform crypto op).HasSeen key := by
  have hother : (∀ memory buf, op ≠ .receive memory buf) → returnedKeys crypto (rl, op) = [] →
      (rl.perform crypto op).WindowsWellFormed ∧
        (∀ key ∈ returnedKeys crypto (rl, op), ¬rl.HasSeen key) ∧
        ∀ key, key ∈ returnedKeys crypto (rl, op) ∨ rl.HasSeen key →
          (rl.perform crypto op).HasSeen key := by
    intro hop hnil
    have hwindow := perform_window crypto rl hop
    unfold WindowsWellFormed HasSeen at *
    rw [hwindow, hnil]
    exact ⟨h, fun key hkey => absurd hkey List.not_mem_nil,
      fun key hkey => hkey.resolve_left List.not_mem_nil⟩
  cases op with
  | receive memory buf =>
      have hreceive := receive_seen crypto memory buf h
      exact ⟨hreceive.1, fun key hkey => acceptedKeys_not_seen hkey, hreceive.2⟩
  | _ => exact hother nofun rfl

-- In every run, whatever was returned has been seen.
theorem run_seen (crypto : Crypto) (operations : List Operation) :
    ((machine crypto).run operations).WindowsWellFormed ∧
      ∀ key ∈ ((machine crypto).trace operations).flatMap (returnedKeys crypto),
        ((machine crypto).run operations).HasSeen key := by
  apply (machine crypto).run_induction (P := fun operations rl => rl.WindowsWellFormed ∧
    ∀ key ∈ ((machine crypto).trace operations).flatMap (returnedKeys crypto), rl.HasSeen key)
  · exact ⟨.new, fun key hkey => absurd hkey List.not_mem_nil⟩
  · intro operations op ih
    have hstep := perform_seen crypto op ih.1
    refine ⟨hstep.1, fun key hkey => hstep.2.2 key ?_⟩
    rw [(machine crypto).trace_concat, List.flatMap_append, List.flatMap_singleton,
      List.mem_append] at hkey
    rcases hkey with hkey | hkey
    · exact .inr (ih.2 key hkey)
    · exact .inl hkey

/-- A run returns no key twice if no single operation does. -/
theorem nodup_returnedKeys (crypto : Crypto) (operations : List Operation) :
    (((machine crypto).trace operations).flatMap (returnedKeys crypto)).Nodup ↔
      ∀ t ∈ (machine crypto).trace operations, (returnedKeys crypto t).Nodup := by
  apply (machine crypto).run_induction (P := fun operations _ =>
    (((machine crypto).trace operations).flatMap (returnedKeys crypto)).Nodup ↔
      ∀ t ∈ (machine crypto).trace operations, (returnedKeys crypto t).Nodup)
  · exact ⟨fun _ t ht => absurd ht List.not_mem_nil, fun _ => List.nodup_nil⟩
  · intro operations op ih
    have hseen := run_seen crypto operations
    have hfresh := (perform_seen crypto op hseen.1).2.1
    rw [(machine crypto).forall_trace_concat, (machine crypto).trace_concat, List.flatMap_append,
      List.flatMap_singleton, List.nodup_append, ih]
    constructor
    · rintro ⟨hbefore, hlast, _⟩
      exact ⟨hbefore, hlast⟩
    · rintro ⟨hbefore, hlast⟩
      refine ⟨hbefore, hlast, fun key hkey key' hkey' hsame => ?_⟩
      rw [← hsame] at hkey'
      exact hfresh key hkey' (hseen.2 key hkey)

theorem acceptedKeys_eq (crypto : Crypto) (rl : RecordLayer) (memory : Nat → Memory)
    (buf : Bytes) :
    rl.acceptedKeys crypto memory buf =
      ((rl.admitted memory buf).filter fun p => (rl.decipherPacket crypto p).isSome).map
        recordKey := by
  unfold acceptedKeys accepted
  induction rl.admitted memory buf with
  | nil => rfl
  | cons p packets ih =>
      rw [List.filterMap_cons, List.filter_cons]
      cases hdecipher : rl.decipherPacket crypto p with
      | none => exact ih
      | some q =>
          have hheader := decipherPacket_header hdecipher
          have hkey : recordKey q = recordKey p := by
            rw [recordKey, hheader.2.1, hheader.2.2, recordKey]
          simp only [List.map_cons, Option.isSome_some, if_true]
          rw [hkey, ih]

/-- A datagram does not carry two records of one epoch and sequence number that pass the filter and
can be deciphered. -/
def NoTwins (crypto : Crypto) (t : RecordLayer × Operation) : Prop :=
  match t.2 with
  | .receive memory buf =>
      (((t.1.admitted memory buf).filter fun p => (t.1.decipherPacket crypto p).isSome).map
        recordKey).Nodup
  | _ => True

/-- The messages that a run returns are those of the records it accepts.  No pair of epoch and sequence
number is among these twice, if and only if no datagram carries twins. -/
theorem returned_once_iff (crypto : Crypto) (operations : List Operation) :
    (∀ t ∈ (machine crypto).trace operations,
        returned crypto t = (acceptedRecords crypto t).map asMessage ∧
          returnedKeys crypto t = (acceptedRecords crypto t).map recordKey) ∧
      ((((machine crypto).trace operations).flatMap (returnedKeys crypto)).Nodup ↔
        ∀ t ∈ (machine crypto).trace operations, NoTwins crypto t) := by
  refine ⟨fun t _ => ⟨returned_eq crypto t, returnedKeys_eq crypto t⟩, ?_⟩
  rw [nodup_returnedKeys]
  apply forall₂_congr
  rintro ⟨rl, op⟩ _
  cases op with
  | receive memory buf =>
      show (rl.acceptedKeys crypto memory buf).Nodup ↔ _
      rw [acceptedKeys_eq]
      rfl
  | _ => exact ⟨fun _ => trivial, fun _ => List.nodup_nil⟩

/-- The same record twice in one datagram is returned twice. -/
theorem returned_once_twins :
    ¬(((machine Sample.crypto).trace [.receive (fun _ _ => 0)
        (Sample.record .applicationData 0 0 [0x2a] ++
          Sample.record .applicationData 0 0 [0x2a])]).flatMap
      (returnedKeys Sample.crypto)).Nodup := by
  decide +kernel

end RecordLayer

end DtlsClient
