import DtlsClient.Properties.Replay

/-!
# The window by itself

A window from its construction on, whatever it is told to mark.  It refuses for good what was marked.
It also refuses numbers that never were, after a move by 32 or 64 that leaves bits behind.
-/

open Library

namespace DtlsClient

namespace AntiReplayWindow

/-- A window and the sequence numbers that it is told to mark. -/
def machine : Machine AntiReplayWindow Nat := ⟨.reset, markAsReceived⟩

/-! ## What was marked -/

theorem run_marked (marks : List Nat) :
    (machine.run marks).WellFormed ∧ ∀ seqNum ∈ marks, (machine.run marks).Seen seqNum := by
  apply machine.run_induction (P := fun marks w => w.WellFormed ∧ ∀ seqNum ∈ marks, w.Seen seqNum)
  · exact ⟨.reset, fun _ hmem => absurd hmem List.not_mem_nil⟩
  · intro marks seqNum ih
    refine ⟨ih.1.markAsReceived seqNum, fun seen hmem => ?_⟩
    apply seen_markAsReceived ih.1
    rw [List.mem_append, List.mem_singleton] at hmem
    exact hmem.symm.imp_right (ih.2 seen)

/-- Whatever is marked before and later, a marked sequence number is refused from then on. -/
theorem mayReceive_marked (before later : List Nat) (seqNum : Nat) :
    (machine.run (before ++ seqNum :: later)).mayReceive seqNum = false := by
  have hmem : seqNum ∈ before ++ seqNum :: later :=
    List.mem_append_right _ List.mem_cons_self
  exact ((run_marked _).2 seqNum hmem).2

/-! ## What was not marked -/

/-- No number inside the window counts as received without having been marked. -/
def NoFalseRejection (marks : List Nat) (w : AntiReplayWindow) : Prop :=
  ∀ seqNum, w.ceiling < seqNum + width → seqNum ≤ w.ceiling → seqNum ∉ marks →
    w.hasReceived seqNum = false ∧ w.mayReceive seqNum = true

/-- The mark does not move the window by 32 while any number is received in it but the ceiling, and with
that perhaps the number 32 below, nor by 64 while one of its last 32 numbers is received. -/
def LeavesNothingBehind (t : AntiReplayWindow × Nat) : Prop :=
  (t.2 = t.1.ceiling + 32 → ∀ seqNum, t.1.ceiling < seqNum + width → seqNum ≤ t.1.ceiling →
    t.1.hasReceived seqNum = true →
      seqNum = t.1.ceiling ∨ seqNum + 32 = t.1.ceiling ∧ t.1.hasReceived t.1.ceiling = true) ∧
  (t.2 = t.1.ceiling + 64 → ∀ seqNum, t.1.ceiling < seqNum + 32 → seqNum ≤ t.1.ceiling →
    t.1.hasReceived seqNum = false)

/-- The bits of the window are exactly the numbers that were marked. -/
structure Exact (marks : List Nat) (w : AntiReplayWindow) : Prop where
  wellFormed : w.WellFormed
  le_ceiling : ∀ seqNum ∈ marks, seqNum ≤ w.ceiling
  hasReceived : ∀ seqNum, w.ceiling < seqNum + width → seqNum ≤ w.ceiling →
    (w.hasReceived seqNum = true ↔ seqNum ∈ marks)

theorem mayReceive_inside {w : AntiReplayWindow} {seqNum : Nat} (h : w.ceiling < seqNum + width)
    (hle : seqNum ≤ w.ceiling) : w.mayReceive seqNum = !w.hasReceived seqNum := by
  have hskipped : ¬seqNum > w.ceiling + width := by omega
  have habove : ¬seqNum > w.ceiling := by omega
  have hin : (seqNum : Int) ≥ w.lowerBound ∧ seqNum ≤ w.ceiling := by
    unfold lowerBound width at *
    omega
  rw [mayReceive, if_neg hskipped, if_neg habove, if_pos hin]

theorem Exact.noFalseRejection {marks : List Nat} {w : AntiReplayWindow} (h : Exact marks w) :
    NoFalseRejection marks w := by
  intro seqNum hin hle hnot
  have hclear : w.hasReceived seqNum = false := by
    rw [← Bool.not_eq_true, h.hasReceived seqNum hin hle]
    exact hnot
  rw [mayReceive_inside hin hle, hclear]
  exact ⟨rfl, rfl⟩

theorem exact_of_noFalseRejection {marks : List Nat}
    (h : NoFalseRejection marks (machine.run marks)) : Exact marks (machine.run marks) := by
  have hmarked := run_marked marks
  refine ⟨hmarked.1, fun seqNum hmem => (hmarked.2 seqNum hmem).1, fun seqNum hin hle => ?_⟩
  constructor
  · intro hreceived
    by_contra hnot
    rw [(h seqNum hin hle hnot).1] at hreceived
    cases hreceived
  · intro hmem
    have hrefused := (hmarked.2 seqNum hmem).2
    rw [mayReceive_inside hin hle, Bool.not_eq_false'] at hrefused
    exact hrefused

theorem hasReceived_setBit {w : AntiReplayWindow} {seqNum : Nat} (h : w.WellFormed)
    (hle : seqNum ≤ w.ceiling) (hin : w.ceiling < seqNum + width) {other : Nat}
    (hother : w.ceiling < other + width) :
    (w.setBit seqNum).hasReceived other = true ↔
      w.hasReceived other = true ∨ other = seqNum := by
  have hother' : (w.setBit seqNum).ceiling < other + width := by
    rw [setBit_ceiling]
    exact hother
  rw [hasReceived_inside hother', hasReceived_inside hother, setBit_ceiling, bit_setBit h hle hin,
    Bool.or_eq_true, decide_eq_true_eq]
  apply or_congr_right
  unfold width at *
  omega

theorem hasReceived_setBit_below {w : AntiReplayWindow} {seqNum : Nat}
    (h : seqNum + width ≤ w.ceiling) : (w.setBit seqNum).hasReceived seqNum = true := by
  have hsame : (w.setBit seqNum).bitPosition seqNum = w.bitPosition seqNum := by
    unfold bitPosition lowerBound
    rw [setBit_ceiling]
  rcases bitPosition_below h with ⟨index, hindex⟩
  have hword : (w.setBit seqNum).word (.negSucc index) =
      w.word (.negSucc index) ||| Int32.shl 1 (w.bitPosition seqNum).2 := by
    show ((w.orWord _ (w.bitPosition seqNum).1).below.get? index).getD 0 = _
    rw [hindex, orWord, IndexMap.get?_set_self]
    rfl
  show ((w.setBit seqNum).word ((w.setBit seqNum).bitPosition seqNum).1 &&&
    Int32.shl 1 ((w.setBit seqNum).bitPosition seqNum).2 ==
      Int32.shl 1 ((w.setBit seqNum).bitPosition seqNum).2) = true
  rw [hsame, hindex, hword, beq_iff_eq, BitVec.and_comm]
  ext i hi
  rw [BitVec.getElem_and, BitVec.getElem_or, Bool.or_comm]
  exact inf_sup_self

/-- What is marked counts as received at once, below the window too. -/
theorem hasReceived_markAsReceived {w : AntiReplayWindow} (h : w.WellFormed) (seqNum : Nat) :
    (w.markAsReceived seqNum).hasReceived seqNum = true := by
  rw [markAsReceived_eq]
  by_cases habove : seqNum > w.ceiling
  · have hinside : (w.moveTo seqNum).ceiling < seqNum + width :=
      Nat.lt_add_of_pos_right (by decide)
    rw [if_pos habove]
    exact (hasReceived_setBit (h.moveTo habove) (Nat.le_refl seqNum) hinside hinside).mpr (.inr rfl)
  · rw [if_neg habove]
    by_cases hinside : w.ceiling < seqNum + width
    · exact (hasReceived_setBit h (by omega) hinside hinside).mpr (.inr rfl)
    · exact hasReceived_setBit_below (by omega)

-- Above a new ceiling a bit stands for the number it stood for, and for the one 32 above it if the window
-- moved by a multiple of 32.
theorem hasReceived_moveTo {w : AntiReplayWindow} {seqNum : Nat} (h : w.WellFormed)
    (habove : seqNum > w.ceiling) (hnear : seqNum ≤ w.ceiling + width) {other : Nat}
    (hother : seqNum < other + width) (hle : other ≤ seqNum) :
    (w.moveTo seqNum).hasReceived other = true ↔
      other ≤ w.ceiling ∧ w.hasReceived other = true ∨
        (seqNum = w.ceiling + 32 ∨ seqNum = w.ceiling + 64) ∧ other ≤ w.ceiling + 32 ∧
          w.hasReceived (other - 32) = true := by
  have hout : ∀ i, 64 ≤ i → Bitmap.bit w.window i = false := by
    intro i hi
    apply Bitmap.bit_of_length_le (by decide)
    rw [h.window_length]
    exact hi
  have hceiling := h.ceiling
  have hmoved : (w.moveTo seqNum).ceiling < other + width := hother
  rw [hasReceived_inside hmoved, bit_moveTo habove, Bool.or_eq_true, Bool.and_eq_true,
    decide_eq_true_eq]
  have hindex : other + width - 1 - (w.moveTo seqNum).ceiling + (seqNum - w.ceiling) =
      other + width - 1 - w.ceiling := by
    show other + width - 1 - seqNum + _ = _
    omega
  rw [hindex]
  unfold width INT_SIZE at *
  apply or_congr
  · by_cases hold : other ≤ w.ceiling
    · rw [hasReceived_inside (by unfold width; omega)]
      exact ⟨fun hbit => ⟨hold, hbit⟩, fun hbit => hbit.2⟩
    · rw [hout _ (by omega)]
      exact ⟨fun hbit => absurd hbit Bool.false_ne_true, fun hbit => absurd hbit.1 hold⟩
  · have hdvd : 32 ∣ seqNum - w.ceiling ↔ seqNum = w.ceiling + 32 ∨ seqNum = w.ceiling + 64 := by
      omega
    rw [hdvd]
    apply and_congr_right
    intro hmultiple
    by_cases hold : other ≤ w.ceiling + 32
    · have hindex' : other + 64 - 1 - w.ceiling - 32 = other - 32 + 64 - 1 - w.ceiling := by omega
      rw [hasReceived_inside (by unfold width; omega), hindex']
      exact ⟨fun hbit => ⟨hold, hbit⟩, fun hbit => hbit.2⟩
    · rw [hout _ (by omega)]
      exact ⟨fun hbit => absurd hbit Bool.false_ne_true, fun hbit => absurd hbit.1 hold⟩

theorem mayReceive_cases {w : AntiReplayWindow} {seqNum : Nat} (h : w.mayReceive seqNum = true) :
    seqNum > w.ceiling ∧ seqNum ≤ w.ceiling + width ∨
      seqNum ≤ w.ceiling ∧ w.ceiling < seqNum + width := by
  unfold mayReceive at h
  split at h
  · cases h
  · split at h
    · left
      omega
    · split at h
      · right
        unfold lowerBound width at *
        omega
      · cases h

-- The bits that a move leaves behind stand for marked numbers.
theorem Exact.mem_of_left_behind {marks : List Nat} {w : AntiReplayWindow} {seqNum other : Nat}
    (h : Exact marks w) (hbehind : LeavesNothingBehind (w, seqNum))
    (hmove : seqNum = w.ceiling + 32 ∨ seqNum = w.ceiling + 64) (hother : seqNum < other + width)
    (hlow : other ≤ w.ceiling + 32) (hreceived : w.hasReceived (other - 32) = true) :
    other ∈ marks ∨ other = seqNum := by
  have hceiling := h.wellFormed.ceiling
  rcases hbehind with ⟨hpart, hwhole⟩
  simp only at hpart hwhole
  unfold width at *
  rcases hmove with hmove | hmove
  · rcases hpart hmove (other - 32) (by omega) (by omega) hreceived with htop | ⟨hbelow, htop⟩
    · right
      omega
    · left
      have heq : other = w.ceiling := by omega
      rw [heq]
      exact (h.hasReceived w.ceiling (by unfold width; omega) (Nat.le_refl _)).mp htop
  · rw [hwhole hmove (other - 32) (by omega) (by omega)] at hreceived
    cases hreceived

/-- One mark: the bits stay those of the marked numbers, if the move leaves nothing behind. -/
theorem Exact.markAsReceived {marks : List Nat} {w : AntiReplayWindow} {seqNum : Nat}
    (h : Exact marks w) (hmay : w.mayReceive seqNum = true)
    (hbehind : LeavesNothingBehind (w, seqNum)) :
    Exact (marks ++ [seqNum]) (w.markAsReceived seqNum) := by
  have hwell := h.wellFormed.markAsReceived seqNum
  rw [markAsReceived_eq] at hwell ⊢
  rcases mayReceive_cases hmay with ⟨habove, hnear⟩ | ⟨hle, hin⟩
  · rw [if_pos habove] at hwell ⊢
    have hmoved := h.wellFormed.moveTo habove
    refine ⟨hwell, fun other hmem => ?_, fun other hother hle => ?_⟩
    · rw [setBit_ceiling]
      show other ≤ seqNum
      rcases List.mem_append.mp hmem with hmem | hmem
      · have hold := h.le_ceiling other hmem
        omega
      · rw [List.mem_singleton.mp hmem]
    · rw [setBit_ceiling] at hother hle
      rw [hasReceived_setBit hmoved (Nat.le_refl seqNum) (Nat.lt_add_of_pos_right (by decide)) hother,
        hasReceived_moveTo h.wellFormed habove hnear hother hle, List.mem_append,
        List.mem_singleton]
      have hother : seqNum < other + width := hother
      have hle : other ≤ seqNum := hle
      constructor
      · rintro ((⟨hold, hreceived⟩ | ⟨hmove, hlow, hreceived⟩) | heq)
        · exact .inl ((h.hasReceived other (by omega) hold).mp hreceived)
        · exact h.mem_of_left_behind hbehind hmove hother hlow hreceived
        · exact .inr heq
      · rintro (hmem | heq)
        · have hold := h.le_ceiling other hmem
          exact .inl (.inl ⟨hold, (h.hasReceived other (by omega) hold).mpr hmem⟩)
        · exact .inr heq
  · have hnot : ¬seqNum > w.ceiling := by omega
    rw [if_neg hnot] at hwell ⊢
    refine ⟨hwell, fun other hmem => ?_, fun other hother hle' => ?_⟩
    · rw [setBit_ceiling]
      rcases List.mem_append.mp hmem with hmem | hmem
      · exact h.le_ceiling other hmem
      · rw [List.mem_singleton.mp hmem]
        exact hle
    · rw [setBit_ceiling] at hother hle'
      rw [hasReceived_setBit h.wellFormed hle hin hother, h.hasReceived other hother hle',
        List.mem_append, List.mem_singleton]

-- Where a received number is found again after a move by 32 or 64.
theorem Exact.mem_of_move {marks : List Nat} {w : AntiReplayWindow} {seqNum other : Nat}
    (h : Exact marks w) (h' : Exact (marks ++ [seqNum]) (w.markAsReceived seqNum))
    (hmove : seqNum = w.ceiling + 32 ∨ seqNum = w.ceiling + 64)
    (hother : seqNum < other + 32 + width) (hle : other ≤ w.ceiling)
    (hreceived : w.hasReceived other = true) : other + 32 ∈ marks ++ [seqNum] := by
  have hceiling := h.wellFormed.ceiling
  have habove : seqNum > w.ceiling := by omega
  have hnear : seqNum ≤ w.ceiling + width := by
    unfold width
    omega
  have hup : other + 32 ≤ seqNum := by omega
  have hsame : w.markAsReceived seqNum = (w.moveTo seqNum).setBit seqNum := by
    rw [markAsReceived_eq, if_pos habove]
  rw [hsame] at h'
  have hmoved := h.wellFormed.moveTo habove
  rw [← h'.hasReceived (other + 32) (by rw [setBit_ceiling]; exact hother)
    (by rw [setBit_ceiling]; exact hup),
    hasReceived_setBit hmoved (Nat.le_refl seqNum) (Nat.lt_add_of_pos_right (by decide)) hother,
    hasReceived_moveTo h.wellFormed habove hnear hother hup, Nat.add_sub_cancel]
  exact .inl (.inr ⟨hmove, by omega, hreceived⟩)

theorem Exact.eq_of_above {marks : List Nat} {w : AntiReplayWindow} {seqNum other : Nat}
    (h : Exact marks w) (habove : w.ceiling < other) (hmem : other ∈ marks ++ [seqNum]) :
    other = seqNum := by
  rcases List.mem_append.mp hmem with hmem | hmem
  · have hle := h.le_ceiling other hmem
    omega
  · exact List.mem_singleton.mp hmem

/-- What a mark leaves behind is a number that was never marked. -/
theorem Exact.leavesNothingBehind {marks : List Nat} {w : AntiReplayWindow} {seqNum : Nat}
    (h : Exact marks w) (h' : Exact (marks ++ [seqNum]) (w.markAsReceived seqNum)) :
    LeavesNothingBehind (w, seqNum) := by
  have hceiling := h.wellFormed.ceiling
  unfold width at *
  constructor
  · intro hmove seq hin hle hreceived
    have hmove : seqNum = w.ceiling + 32 := hmove
    have hin : w.ceiling < seq + 64 := hin
    have hle : seq ≤ w.ceiling := hle
    have hmem := h.mem_of_move h' (.inl hmove) (by unfold width; omega) hle hreceived
    by_cases hup : w.ceiling < seq + 32
    · have heq := h.eq_of_above hup hmem
      left
      show seq = w.ceiling
      omega
    · -- 32 above it a number is received, and that leaves one behind too
      right
      have hmem' : seq + 32 ∈ marks := by
        rcases List.mem_append.mp hmem with hmem | hmem
        · exact hmem
        · have heq := List.mem_singleton.mp hmem
          omega
      have hreceived' := (h.hasReceived (seq + 32) (by unfold width; omega) (by omega)).mpr hmem'
      have hmem'' := h.mem_of_move h' (.inl hmove) (by unfold width; omega) (by omega) hreceived'
      have heq := h.eq_of_above (by omega) hmem''
      have htop : seq + 32 = w.ceiling := by omega
      rw [htop] at hreceived'
      exact ⟨htop, hreceived'⟩
  · intro hmove seq hin hle
    have hmove : seqNum = w.ceiling + 64 := hmove
    have hin : w.ceiling < seq + 32 := hin
    have hle : seq ≤ w.ceiling := hle
    show w.hasReceived seq = false
    rw [← Bool.not_eq_true]
    intro hreceived
    have heq := h.eq_of_above (by omega)
      (h.mem_of_move h' (.inr hmove) (by unfold width; omega) hle hreceived)
    omega

-- Nothing is marked yet.
theorem Exact.nothing : Exact [] (machine.run []) := by
  apply exact_of_noFalseRejection
  intro seqNum hin hle _
  have hclear : ∀ i < 64, Bitmap.bit (machine.run []).window i = false := by decide
  have hreceived : (machine.run []).hasReceived seqNum = false := by
    rw [hasReceived_inside hin]
    apply hclear
    unfold width at *
    omega
  rw [mayReceive_inside hin hle, hreceived]
  exact ⟨rfl, rfl⟩

theorem run_exact (marks : List Nat)
    (haccepted : ∀ t ∈ machine.trace marks, t.1.mayReceive t.2 = true)
    (hbehind : ∀ t ∈ machine.trace marks, LeavesNothingBehind t) :
    Exact marks (machine.run marks) := by
  revert haccepted hbehind
  apply machine.run_induction (P := fun marks w =>
    (∀ t ∈ machine.trace marks, t.1.mayReceive t.2 = true) →
      (∀ t ∈ machine.trace marks, LeavesNothingBehind t) → Exact marks w)
  · exact fun _ _ => .nothing
  · intro marks seqNum ih hmay hbehind
    rw [machine.forall_trace_concat] at hmay hbehind
    exact (ih hmay.1 hbehind.1).markAsReceived hmay.2 hbehind.2

/-- In every sequence of accepted marks no unmarked number inside the window is ever refused, if and only
if no mark moves the window by 32 or 64 and leaves bits behind. -/
theorem noFalseRejection_iff (marks : List Nat)
    (haccepted : ∀ t ∈ machine.trace marks, t.1.mayReceive t.2 = true) :
    (∀ before, before <+: marks → NoFalseRejection before (machine.run before)) ↔
      ∀ t ∈ machine.trace marks, LeavesNothingBehind t := by
  constructor
  · intro hall t ht
    rcases machine.mem_trace ht with ⟨before, later, hmarks, hrun⟩
    have hexact := exact_of_noFalseRejection (hall before ⟨t.2 :: later, hmarks.symm⟩)
    have hexact' := exact_of_noFalseRejection (hall (before ++ [t.2]) ⟨later, by
      rw [hmarks, List.append_assoc, List.singleton_append]⟩)
    rw [machine.run_concat, hrun] at hexact'
    rw [hrun] at hexact
    exact hexact.leavesNothingBehind hexact'
  · intro hall before hbefore
    have hsubset := machine.trace_subset hbefore
    have hexact := run_exact before (fun t ht => haccepted t (hsubset ht))
      (fun t ht => hall t (hsubset ht))
    exact hexact.noFalseRejection

/-- A move by one. -/
theorem noFalseRejection_iff_sample :
    (∀ t ∈ machine.trace [40, 64], t.1.mayReceive t.2 = true) ∧
      NoFalseRejection [40, 64] (machine.run [40, 64]) := by
  have haccepted : ∀ t ∈ machine.trace [40, 64], t.1.mayReceive t.2 = true := by decide
  have hnone : ∀ t ∈ machine.trace [40, 64], LeavesNothingBehind t := by
    intro t ht
    have hfar : t.2 ≠ t.1.ceiling + 32 ∧ t.2 ≠ t.1.ceiling + 64 := by
      revert t
      decide
    exact ⟨fun h => absurd h hfar.1, fun h => absurd h hfar.2⟩
  exact ⟨haccepted, (noFalseRejection_iff [40, 64] haccepted).mpr hnone [40, 64]
    (List.prefix_refl _)⟩

/-- After 40 the window moves by 32 to 95, and 72 counts as received. -/
theorem noFalseRejection_leftBehind :
    (∀ t ∈ machine.trace [40, 95], t.1.mayReceive t.2 = true) ∧
      ¬NoFalseRejection [40, 95] (machine.run [40, 95]) := by
  refine ⟨by decide, fun h => ?_⟩
  have hreceived : (machine.run [40, 95]).hasReceived 72 = true := by decide
  rw [(h 72 (by decide) (by decide) (by decide)).1] at hreceived
  cases hreceived

end AntiReplayWindow

end DtlsClient
