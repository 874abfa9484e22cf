import DtlsClient.Properties.Memory
import DtlsClient.Properties.Retransmission

/-!
# A flight in any order

The messages of a flight arrive whole or in fragments, in any order.  The handler of the flight is
called once, when the last piece has arrived, as if the messages had arrived whole and in order.
-/

open Library

namespace DtlsClient

namespace FragmentedHandshake

/-! ## The fragments of a message -/

/-- The fragments that carry the consecutive parts of a body, from `offset` on. -/
def fragmentsFrom (whole : FragmentedHandshake) : Nat → List Bytes → List FragmentedHandshake
  | _, [] => []
  | offset, part :: parts =>
      { whole with fragmentOffset := offset, fragment := part } ::
        fragmentsFrom whole (offset + part.length) parts

variable {whole f : FragmentedHandshake} {parts : List Bytes} {offset : Nat}

theorem fragmentsFrom_offset (hf : f ∈ fragmentsFrom whole offset parts) :
    offset ≤ f.fragmentOffset := by
  induction parts generalizing offset with
  | nil => cases hf
  | cons part parts ih =>
      rcases List.mem_cons.mp hf with rfl | hf
      · exact Nat.le_refl _
      · exact Nat.le_trans (Nat.le_add_right _ _) (ih hf)

theorem fragmentsFrom_sameMessage (hf : f ∈ fragmentsFrom whole offset parts) :
    f.sameMessage whole = true := by
  induction parts generalizing offset with
  | nil => cases hf
  | cons part parts ih =>
      rcases List.mem_cons.mp hf with rfl | hf
      · exact sameMessage_iff.mpr ⟨rfl, rfl, rfl⟩
      · exact ih hf

theorem fragmentsFrom_strict (hne : ∀ part ∈ parts, part ≠ []) :
    (fragmentsFrom whole offset parts).Pairwise
      fun a b => a.fragmentOffset < b.fragmentOffset := by
  induction parts generalizing offset with
  | nil => exact .nil
  | cons part parts ih =>
      rw [fragmentsFrom, List.pairwise_cons]
      refine ⟨fun f hf => ?_, ih fun part' hpart => hne part' (List.mem_cons_of_mem _ hpart)⟩
      have hoffset := fragmentsFrom_offset hf
      have hpos := List.length_pos_iff.mpr (hne part List.mem_cons_self)
      simp only
      omega

-- With two parts or more, none of them is the whole message.
theorem fragmentsFrom_isFragmented (htwo : 2 ≤ parts.length) (hne : ∀ part ∈ parts, part ≠ [])
    (hlength : whole.totalLength = parts.flatten.length)
    (hf : f ∈ fragmentsFrom whole 0 parts) : f.isFragmented = true := by
  have hfragmented : f.fragmentOffset ≠ 0 ∨ f.totalLength > f.fragment.length := by
    rcases parts with _ | ⟨part, _ | ⟨part', parts⟩⟩
    · cases htwo
    · simp at htwo
    · have hpos := List.length_pos_iff.mpr (hne part List.mem_cons_self)
      have hpos' := List.length_pos_iff.mpr (hne part' (List.mem_cons_of_mem _ List.mem_cons_self))
      rcases List.mem_cons.mp hf with rfl | hf
      · right
        simp only [List.flatten_cons, List.length_append] at hlength
        simp only
        omega
      · left
        have hoffset := fragmentsFrom_offset hf
        omega
  exact decide_eq_true hfragmented

-- The fragments leave no hole exactly if none of them is missing.
theorem noHolesAfter_filter (hne : ∀ part ∈ parts, part ≠ []) {previous : Nat × Int}
    (hprevious : previous.2 = (offset : Int) - 1) {totalLength : Nat}
    (hlength : totalLength = offset + parts.flatten.length) (p : FragmentedHandshake → Bool) :
    noHolesAfter totalLength previous
        (((fragmentsFrom whole offset parts).filter p).map range) = true ↔
      ∀ f ∈ fragmentsFrom whole offset parts, p f = true := by
  induction parts generalizing offset previous with
  | nil =>
      have hend : previous.2 = (totalLength : Int) - 1 := by
        rw [hprevious, hlength]
        simp
      exact ⟨fun _ _ hf => absurd hf List.not_mem_nil, fun _ => decide_eq_true hend⟩
  | cons part parts ih =>
      have hpos := List.length_pos_iff.mpr (hne part List.mem_cons_self)
      have hne' : ∀ part ∈ parts, part ≠ [] :=
        fun part' hpart => hne part' (List.mem_cons_of_mem _ hpart)
      rw [List.flatten_cons, List.length_append] at hlength
      rw [fragmentsFrom, List.forall_mem_cons, List.filter_cons]
      by_cases hp : p { whole with fragmentOffset := offset, fragment := part } = true
      · have hend : (range { whole with fragmentOffset := offset, fragment := part }).2 =
            ((offset + part.length : Nat) : Int) - 1 := by
          show (offset : Int) + part.length - 1 = _
          omega
        have hnext := ih hne' hend (by omega)
        rw [if_pos hp, List.map_cons, noHolesAfter, decide_eq_true_eq, hnext]
        refine ⟨fun h => ⟨hp, h.2⟩, fun h => ⟨?_, h.2⟩⟩
        show (offset : Int) - previous.2 ≤ 1
        omega
      · rw [if_neg hp]
        refine ⟨fun h => ?_, fun h => absurd h.1 hp⟩
        -- the next one that is there comes too late
        cases hrest : (fragmentsFrom whole (offset + part.length) parts).filter p with
        | nil =>
            rw [hrest] at h
            have hend : previous.2 = (totalLength : Int) - 1 := of_decide_eq_true h
            omega
        | cons g rest =>
            have hg : g ∈ fragmentsFrom whole (offset + part.length) parts := by
              apply List.mem_of_mem_filter
              rw [hrest]
              exact List.mem_cons_self
            have hoffset := fragmentsFrom_offset hg
            rw [hrest, List.map_cons, noHolesAfter, decide_eq_true_eq] at h
            have hgap : (g.fragmentOffset : Int) - previous.2 ≤ 1 := h.1
            omega

theorem noHoles_filter (hne : ∀ part ∈ parts, part ≠ [])
    (hlength : whole.totalLength = parts.flatten.length) {p : FragmentedHandshake → Bool}
    (hsome : (fragmentsFrom whole 0 parts).filter p ≠ []) :
    noHoles whole.totalLength (((fragmentsFrom whole 0 parts).filter p).map range) = true ↔
      ∀ f ∈ fragmentsFrom whole 0 parts, p f = true := by
  cases parts with
  | nil => exact absurd rfl hsome
  | cons part parts =>
      have hpos := List.length_pos_iff.mpr (hne part List.mem_cons_self)
      have hne' : ∀ part ∈ parts, part ≠ [] :=
        fun part' hpart => hne part' (List.mem_cons_of_mem _ hpart)
      rw [List.flatten_cons, List.length_append] at hlength
      rw [fragmentsFrom, List.filter_cons] at hsome ⊢
      rw [List.forall_mem_cons]
      by_cases hp : p { whole with fragmentOffset := 0, fragment := part } = true
      · have hend : (range { whole with fragmentOffset := 0, fragment := part }).2 =
            ((0 + part.length : Nat) : Int) - 1 := by
          show ((0 : Nat) : Int) + part.length - 1 = _
          omega
        have hlength' : whole.totalLength = 0 + part.length + parts.flatten.length := by omega
        have hnext := @noHolesAfter_filter whole parts _ hne' _ hend _ hlength' p
        rw [if_pos hp, List.map_cons, noHoles, decide_eq_true_eq, hnext]
        exact ⟨fun h => ⟨hp, h.2⟩, fun h => ⟨rfl, h.2⟩⟩
      · rw [if_neg hp] at hsome ⊢
        refine ⟨fun h => ?_, fun h => absurd h.1 hp⟩
        cases hrest : (fragmentsFrom whole (0 + part.length) parts).filter p with
        | nil => exact absurd hrest hsome
        | cons g rest =>
            have hg : g ∈ fragmentsFrom whole (0 + part.length) parts := by
              apply List.mem_of_mem_filter
              rw [hrest]
              exact List.mem_cons_self
            have hoffset := fragmentsFrom_offset hg
            rw [hrest, List.map_cons, noHoles, decide_eq_true_eq] at h
            have hstart : g.fragmentOffset = 0 := h.1
            omega

-- One after the other they write the body.
theorem combine_fragmentsFrom (front rest : Bytes) (hlength : rest.length = parts.flatten.length) :
    combine (fragmentsFrom whole front.length parts) (front ++ rest) = front ++ parts.flatten := by
  induction parts generalizing front rest with
  | nil =>
      have hnil : rest = [] := List.eq_nil_of_length_eq_zero hlength
      rw [hnil]
      rfl
  | cons part parts ih =>
      rw [List.flatten_cons, List.length_append] at hlength
      have hnext := ih (front ++ part) (rest.drop part.length) (by
        rw [List.length_drop]
        omega)
      rw [List.length_append] at hnext
      have hfirst : overwrite (front ++ rest) front.length part =
          (front ++ part) ++ rest.drop part.length := by
        rw [overwrite_append, overwrite_zero (by omega), List.append_assoc]
      show combine (fragmentsFrom whole (front.length + part.length) parts)
        (overwrite (front ++ rest) front.length part) = _
      rw [hfirst, hnext, List.append_assoc, List.flatten_cons]

/-- A message as it is delivered: whole, or in two or more parts that are not empty. -/
inductive Delivered (whole : FragmentedHandshake) : List FragmentedHandshake → Prop
  | whole : Delivered whole [whole]
  | parts (parts : List Bytes) (htwo : 2 ≤ parts.length) (hne : ∀ part ∈ parts, part ≠ [])
      (hbody : parts.flatten = whole.fragment) : Delivered whole (fragmentsFrom whole 0 parts)

namespace Delivered

variable {pieces : List FragmentedHandshake} {fragments : List FragmentedHandshake}
  {msg : FragmentedHandshake}

theorem sameMessage (h : Delivered whole pieces) (hf : f ∈ pieces) : f.sameMessage whole = true := by
  cases h with
  | whole =>
      rcases List.mem_singleton.mp hf with rfl
      exact sameMessage_iff.mpr ⟨rfl, rfl, rfl⟩
  | parts => exact fragmentsFrom_sameMessage hf

theorem ne_nil (h : Delivered whole pieces) : pieces ≠ [] := by
  cases h with
  | whole => exact List.cons_ne_nil _ _
  | parts parts htwo _ _ =>
      cases parts with
      | nil => cases htwo
      | cons => exact List.cons_ne_nil _ _

theorem strict (h : Delivered whole pieces) :
    pieces.Pairwise fun a b => a.fragmentOffset < b.fragmentOffset := by
  cases h with
  | whole => exact List.pairwise_singleton _ _
  | parts _ _ hne _ => exact fragmentsFrom_strict hne

-- Sorting what has arrived of a message leaves out the pieces that are missing.
theorem sort_found (h : Delivered whole pieces) {found : List FragmentedHandshake}
    (hnodup : found.Nodup) (hpieces : ∀ f ∈ found, f ∈ pieces) :
    found.insertionSort (fun a b => a.fragmentOffset ≤ b.fragmentOffset) =
        pieces.filter (fun f => decide (f ∈ found)) ∧
      (found.map range).insertionSort (fun a b => a.1 ≤ b.1) =
        (pieces.filter fun f => decide (f ∈ found)).map range := by
  have hstrict := h.strict.filter fun f => decide (f ∈ found)
  have hperm : found.Perm (pieces.filter fun f => decide (f ∈ found)) := by
    apply (List.perm_ext_iff_of_nodup hnodup (nodup_of_strict hstrict)).mpr
    intro f
    rw [List.mem_filter, decide_eq_true_eq]
    exact ⟨fun hf => ⟨hpieces f hf, hf⟩, fun hf => hf.2⟩
  have hsort := insertionSort_eq_of_perm hperm hstrict
  refine ⟨hsort, ?_⟩
  rw [← hsort]
  exact (List.map_insertionSort _ _ range found fun _ _ _ _ => Iff.rfl).symm

-- The message is complete once no piece is missing, and it is the one that was sent.
theorem completed_eq (h : Delivered whole pieces) (hwhole : whole.isFragmented = false)
    (hlength : whole.totalLength = whole.fragment.length) (hmsg : msg ∈ pieces)
    (hnodup : (findAllFragments (fragments ++ [msg]) whole).Nodup)
    (hpieces : ∀ f ∈ findAllFragments (fragments ++ [msg]) whole, f ∈ pieces) :
    completed fragments msg =
      if ∀ f ∈ pieces, f ∈ fragments ++ [msg] then some whole else none := by
  have hsorted := h.sort_found hnodup hpieces
  have hsame := h.sameMessage hmsg
  have hmem : ∀ f ∈ pieces,
      f ∈ findAllFragments (fragments ++ [msg]) whole ↔ f ∈ fragments ++ [msg] := by
    intro f hf
    rw [findAllFragments, List.mem_filter]
    exact and_iff_left (h.sameMessage hf)
  cases h with
  | whole =>
      rcases List.mem_singleton.mp hmsg with rfl
      have hall : ∀ f ∈ [msg], f ∈ fragments ++ [msg] :=
        fun f hf => List.mem_append_right _ hf
      rw [if_pos hall, completed, hwhole]
      rfl
  | parts parts htwo hne hbody =>
      rw [← hbody] at hlength
      have hfind : findAllFragments (fragments ++ [msg]) msg =
          findAllFragments (fragments ++ [msg]) whole := findAllFragments_congr hsame _
      have hmsg' : msg ∈ findAllFragments (fragments ++ [msg]) whole :=
        (hmem msg hmsg).mpr (List.mem_append_right _ List.mem_cons_self)
      have hsome : (fragmentsFrom whole 0 parts).filter
          (fun f => decide (f ∈ findAllFragments (fragments ++ [msg]) whole)) ≠ [] :=
        List.ne_nil_of_mem (List.mem_filter.mpr ⟨hmsg, decide_eq_true hmsg'⟩)
      have hholes := noHoles_filter hne hlength hsome
      have hcomplete : isComplete (findAllFragments (fragments ++ [msg]) whole) =
          .ok (noHoles whole.totalLength ((fragmentsFrom whole 0 parts |>.filter
            fun f => decide (f ∈ findAllFragments (fragments ++ [msg]) whole)).map range)) := by
        cases hfound : findAllFragments (fragments ++ [msg]) whole with
        | nil =>
            rw [hfound] at hmsg'
            cases hmsg'
        | cons first rest => rw [isComplete_found hfound, ← hfound, hsorted.2]
      have hfragmented := fragmentsFrom_isFragmented htwo hne hlength hmsg
      rw [completed, if_pos hfragmented, hfind, hcomplete]
      by_cases hall : ∀ f ∈ fragmentsFrom whole 0 parts, f ∈ fragments ++ [msg]
      · have hthere : ∀ f ∈ fragmentsFrom whole 0 parts,
            decide (f ∈ findAllFragments (fragments ++ [msg]) whole) = true :=
          fun f hf => decide_eq_true ((hmem f hf).mpr (hall f hf))
        have hbytes := @combine_fragmentsFrom whole parts []
          ((List.range whole.totalLength).map (zeros 0))
          (by rw [List.length_map, List.length_range, hlength])
        rw [if_pos hall, hholes.mpr hthere]
        simp only
        rw [reassemble_found (zeros 0) (List.ne_nil_of_mem hmsg'), hsorted.1,
          List.filter_eq_self.mpr hthere]
        have hoffset : whole.fragmentOffset = 0 := by
          have hneither := of_decide_eq_false hwhole
          omega
        have hcombined : combine (fragmentsFrom whole 0 parts)
            ((List.range whole.totalLength).map (zeros 0)) = whole.fragment := hbytes.trans hbody
        rw [hcombined, ← hoffset]
        rfl
      · have hhole : noHoles whole.totalLength ((fragmentsFrom whole 0 parts |>.filter
            fun f => decide (f ∈ findAllFragments (fragments ++ [msg]) whole)).map range) =
            false := by
          rw [← Bool.not_eq_true, hholes]
          exact fun hthere => hall fun f hf => (hmem f hf).mp (of_decide_eq_true (hthere f hf))
        rw [if_neg hall, hhole]

-- A piece is a fragment, or it is the only one.
theorem isFragmented_of_ne (h : Delivered whole pieces)
    (hlength : whole.totalLength = whole.fragment.length) {g : FragmentedHandshake} (hf : f ∈ pieces)
    (hg : g ∈ pieces) (hne : f ≠ g) : f.isFragmented = true := by
  cases h with
  | whole =>
      rcases List.mem_singleton.mp hf with rfl
      exact absurd (List.mem_singleton.mp hg).symm hne
  | parts parts htwo hparts hbody =>
      rw [← hbody] at hlength
      exact fragmentsFrom_isFragmented htwo hparts hlength hf

end Delivered

end FragmentedHandshake

namespace ClientHandshakeHandler

open FragmentedHandshake

/-! ## The messages of a flight -/

/-- A well-formed message of the server, and the pieces it arrives in.  It parses to the same object
whatever the memory holds. -/
structure Sent where
  whole : FragmentedHandshake
  message : Handshake
  pieces : List FragmentedHandshake
  totalLength : whole.totalLength = whole.fragment.length
  parses : ∀ memory, Handshake.fromFragment memory whole = .ok message
  delivered : Delivered whole pieces

namespace Sent

def seqNum (m : Sent) : Nat := m.whole.messageSeq

theorem isFragmented (m : Sent) : m.whole.isFragmented = false := by
  rw [← Bool.not_eq_true]
  intro hfragmented
  have hparses := m.parses zeros
  rw [Handshake.fromFragment, if_pos hfragmented] at hparses
  cases hparses

def Arrived (arrived : List FragmentedHandshake) (m : Sent) : Prop := ∀ f ∈ m.pieces, f ∈ arrived

instance (arrived : List FragmentedHandshake) (m : Sent) : Decidable (m.Arrived arrived) :=
  inferInstanceAs (Decidable (∀ f ∈ m.pieces, f ∈ arrived))

end Sent

section Collecting

variable {sent : List Sent} {arrived : List FragmentedHandshake} {m m' : Sent}
  {f piece : FragmentedHandshake}

-- The messages are told apart by their sequence numbers, and so are their pieces.
theorem owner_unique (hstrict : sent.Pairwise fun a b => a.seqNum < b.seqNum) (hm : m ∈ sent)
    (hm' : m' ∈ sent) (hf : f ∈ m.pieces) (hsame : f.sameMessage m'.whole = true) : m = m' := by
  have hmine := (sameMessage_iff.mp (m.delivered.sameMessage hf)).2.1
  have htheirs := (sameMessage_iff.mp hsame).2.1
  exact eq_of_key_eq hstrict hm hm' (hmine.symm.trans htheirs)

theorem arrived_concat_other (hstrict : sent.Pairwise fun a b => a.seqNum < b.seqNum) (hm : m ∈ sent)
    (hm' : m' ∈ sent) (hpiece : piece ∈ m.pieces) (hne : m' ≠ m) :
    m'.Arrived (arrived ++ [piece]) ↔ m'.Arrived arrived := by
  refine ⟨fun h f hf => ?_, fun h f hf => List.mem_append_left _ (h f hf)⟩
  rcases List.mem_append.mp (h f hf) with hin | hin
  · exact hin
  · rcases List.mem_singleton.mp hin with rfl
    exact absurd (owner_unique hstrict hm' hm hf (m.delivered.sameMessage hpiece)) hne

/-- A fragment of a message that has not arrived completely. -/
def isOpen (sent : List Sent) (arrived : List FragmentedHandshake) (f : FragmentedHandshake) : Bool :=
  f.isFragmented && sent.any fun m => f.sameMessage m.whole && !decide (m.Arrived arrived)

theorem isOpen_eq (hstrict : sent.Pairwise fun a b => a.seqNum < b.seqNum) (hm : m ∈ sent)
    (hf : f ∈ m.pieces) :
    isOpen sent arrived f = (f.isFragmented && !decide (m.Arrived arrived)) := by
  unfold isOpen
  congr 1
  rw [Bool.eq_iff_iff, List.any_eq_true]
  constructor
  · rintro ⟨m', hm', hopen⟩
    rcases Bool.and_eq_true_iff.mp hopen with ⟨hsame, hmissing⟩
    rw [owner_unique hstrict hm hm' hf hsame]
    exact hmissing
  · intro hmissing
    exact ⟨m, hm, Bool.and_eq_true_iff.mpr ⟨m.delivered.sameMessage hf, hmissing⟩⟩

/-- The handler holds what has arrived of a flight: the messages of which every piece is there, and the
fragments of the others. -/
structure Collecting (sent : List Sent) (arrived : List FragmentedHandshake)
    (start h : ClientHandshakeHandler) : Prop where
  flightState : h.toFlightState = start.toFlightState
  lastProcessedSeqNum : h.lastProcessedSeqNum = start.lastProcessedSeqNum
  incompleteMessages : h.incompleteMessages = arrived.filter (isOpen sent arrived)
  completeMessages : ∀ e, e ∈ h.completeMessages.entries ↔
    ∃ m ∈ sent, m.Arrived arrived ∧ e = (m.seqNum, m.message)

/-- One more piece arrives, for the first time. -/
structure Arrives (sent : List Sent) (arrived : List FragmentedHandshake) (m : Sent)
    (piece : FragmentedHandshake) : Prop where
  strict : sent.Pairwise fun a b => a.seqNum < b.seqNum
  mem : m ∈ sent
  isPiece : piece ∈ m.pieces
  known : ∀ f ∈ arrived, ∃ m ∈ sent, f ∈ m.pieces
  nodup : (arrived ++ [piece]).Nodup

namespace Arrives

variable (h : Arrives sent arrived m piece)

include h

theorem not_mem : piece ∉ arrived := by
  intro hin
  exact (List.nodup_append.mp h.nodup).2.2 piece hin piece List.mem_cons_self rfl

theorem not_arrived : ¬m.Arrived arrived := fun hall => h.not_mem (hall piece h.isPiece)

theorem known_concat {f : FragmentedHandshake} (hf : f ∈ arrived ++ [piece]) :
    ∃ m ∈ sent, f ∈ m.pieces := by
  rcases List.mem_append.mp hf with hin | hin
  · exact h.known f hin
  · rw [List.mem_singleton.mp hin]
    exact ⟨m, h.mem, h.isPiece⟩

theorem completed_eq :
    completed (arrived.filter (isOpen sent arrived)) piece =
      if m.Arrived (arrived ++ [piece]) then some m.whole else none := by
  have hsublist : (arrived.filter (isOpen sent arrived) ++ [piece]).Sublist (arrived ++ [piece]) :=
    List.filter_sublist.append_right _
  have hnodup : (findAllFragments (arrived.filter (isOpen sent arrived) ++ [piece])
      m.whole).Nodup := (h.nodup.sublist hsublist).filter _
  have hpieces : ∀ f ∈ findAllFragments (arrived.filter (isOpen sent arrived) ++ [piece]) m.whole,
      f ∈ m.pieces := by
    intro f hf
    rcases List.mem_filter.mp hf with ⟨hin, hsame⟩
    rcases h.known_concat (hsublist.subset hin) with ⟨m', hm', hf'⟩
    rw [← owner_unique h.strict hm' h.mem hf' hsame]
    exact hf'
  rw [m.delivered.completed_eq m.isFragmented m.totalLength h.isPiece hnodup hpieces]
  -- a piece of this message that has arrived is an open fragment
  have hiff : (∀ f ∈ m.pieces, f ∈ arrived.filter (isOpen sent arrived) ++ [piece]) ↔
      m.Arrived (arrived ++ [piece]) := by
    refine ⟨fun hall f hf => hsublist.subset (hall f hf), fun hall f hf => ?_⟩
    rcases List.mem_append.mp (hall f hf) with hin | hin
    · refine List.mem_append_left _ (List.mem_filter.mpr ⟨hin, ?_⟩)
      have hne : f ≠ piece := fun heq => h.not_mem (heq ▸ hin)
      rw [isOpen_eq h.strict h.mem hf, m.delivered.isFragmented_of_ne m.totalLength hf h.isPiece hne,
        decide_eq_false h.not_arrived]
      rfl
    · exact List.mem_append_right _ hin
  simp only [hiff]

-- What the piece changes for the fragments that were there before.
theorem isOpen_concat {f : FragmentedHandshake} (hf : f ∈ arrived) :
    isOpen sent (arrived ++ [piece]) f = (isOpen sent arrived f &&
      !(decide (m.Arrived (arrived ++ [piece])) && f.sameMessage piece)) := by
  rcases h.known f hf with ⟨m', hm', hf'⟩
  rw [isOpen_eq h.strict hm' hf', isOpen_eq h.strict hm' hf',
    sameMessage_congr (m.delivered.sameMessage h.isPiece)]
  by_cases hmine : m' = m
  · subst hmine
    rw [m'.delivered.sameMessage hf', decide_eq_false h.not_arrived]
    cases f.isFragmented <;> cases decide (m'.Arrived (arrived ++ [piece])) <;> rfl
  · have hother : f.sameMessage m.whole = false := by
      rw [← Bool.not_eq_true]
      exact fun hsame => hmine (owner_unique h.strict hm' h.mem hf' hsame)
    have hsame : decide (m'.Arrived (arrived ++ [piece])) = decide (m'.Arrived arrived) :=
      decide_eq_decide.mpr (arrived_concat_other h.strict h.mem hm' h.isPiece hmine)
    rw [hother, hsame, Bool.and_false, Bool.not_false, Bool.and_true]

-- If the piece is the whole message, no other piece belongs to it.
theorem sameMessage_unfragmented (hfragmented : piece.isFragmented = false)
    {f : FragmentedHandshake} (hf : f ∈ arrived) : f.sameMessage piece = false := by
  rw [← Bool.not_eq_true]
  intro hsame
  rcases h.known f hf with ⟨m', hm', hf'⟩
  rw [sameMessage_congr (m.delivered.sameMessage h.isPiece)] at hsame
  have heq := owner_unique h.strict hm' h.mem hf' hsame
  subst heq
  have hne : piece ≠ f := fun heq => h.not_mem (heq ▸ hf)
  rw [m'.delivered.isFragmented_of_ne m'.totalLength h.isPiece hf' hne] at hfragmented
  cases hfragmented

theorem remaining_eq :
    remaining (arrived.filter (isOpen sent arrived)) piece =
      (arrived ++ [piece]).filter (isOpen sent (arrived ++ [piece])) := by
  have hpiece : isOpen sent (arrived ++ [piece]) piece =
      (piece.isFragmented && !decide (m.Arrived (arrived ++ [piece]))) :=
    isOpen_eq h.strict h.mem h.isPiece
  rw [List.filter_append, List.filter_congr fun f hf => h.isOpen_concat hf, List.filter_singleton,
    hpiece]
  unfold remaining
  by_cases hfragmented : piece.isFragmented = true
  · rw [if_pos hfragmented, h.completed_eq, hfragmented, Bool.true_and]
    by_cases harrived : m.Arrived (arrived ++ [piece])
    · rw [if_pos harrived, decide_eq_true harrived]
      simp only [Option.isSome_some, if_true, Bool.true_and, Bool.not_true]
      have hself : piece.sameMessage piece = true := sameMessage_iff.mpr ⟨rfl, rfl, rfl⟩
      rw [List.filter_append, List.filter_filter, List.filter_singleton, hself]
      congr 1
      apply List.filter_congr
      intro f _
      exact Bool.and_comm _ _
    · rw [if_neg harrived, decide_eq_false harrived]
      simp
  · rw [Bool.not_eq_true] at hfragmented
    have hone : ∀ f ∈ arrived, (isOpen sent arrived f &&
        !(decide (m.Arrived (arrived ++ [piece])) && f.sameMessage piece)) =
        isOpen sent arrived f := by
      intro f hf
      rw [h.sameMessage_unfragmented hfragmented hf, Bool.and_false, Bool.not_false, Bool.and_true]
    rw [hfragmented, List.filter_congr hone]
    simp

end Arrives

variable {start h : ClientHandshakeHandler}

-- What the handler holds after a piece is stored.
theorem Collecting.store (hcollecting : Collecting sent arrived start h)
    (harrives : Arrives sent arrived m piece) (memory : MessageMemory) :
    ∃ h', storeMessage memory piece h = .ok (decide (m.Arrived (arrived ++ [piece]))) h' ∧
      Collecting sent (arrived ++ [piece]) start h' := by
  have hseq : piece.messageSeq = m.seqNum :=
    (sameMessage_iff.mp (m.delivered.sameMessage harrives.isPiece)).2.1
  have hcompleted := harrives.completed_eq
  have hremaining := harrives.remaining_eq
  rw [← hcollecting.incompleteMessages] at hcompleted hremaining
  have hother : ∀ m' ∈ sent, m' ≠ m → (m'.Arrived (arrived ++ [piece]) ↔ m'.Arrived arrived) :=
    fun m' hm' hne =>
      arrived_concat_other harrives.strict harrives.mem hm' harrives.isPiece hne
  rw [storeMessage_eq, hcompleted]
  by_cases hall : m.Arrived (arrived ++ [piece])
  · rw [if_pos hall, decide_eq_true hall]
    simp only [m.parses, hremaining, hseq]
    refine ⟨_, rfl, hcollecting.flightState, hcollecting.lastProcessedSeqNum, rfl, fun e => ?_⟩
    show e ∈ (h.completeMessages.set m.seqNum m.message).entries ↔ _
    rw [IndexMap.mem_entries_set, hcollecting.completeMessages]
    constructor
    · rintro (rfl | ⟨⟨m', hm', harrived, rfl⟩, hne⟩)
      · exact ⟨m, harrives.mem, hall, rfl⟩
      · exact ⟨m', hm', fun f hf => List.mem_append_left _ (harrived f hf), rfl⟩
    · rintro ⟨m', hm', harrived, rfl⟩
      by_cases hmine : m' = m
      · left
        rw [hmine]
      · refine .inr ⟨⟨m', hm', (hother m' hm' hmine).mp harrived, rfl⟩, fun hkey => hmine ?_⟩
        exact eq_of_key_eq harrives.strict hm' harrives.mem hkey
  · rw [if_neg hall, decide_eq_false hall]
    simp only [hremaining]
    refine ⟨_, rfl, hcollecting.flightState, hcollecting.lastProcessedSeqNum, rfl, fun e => ?_⟩
    show e ∈ h.completeMessages.entries ↔ _
    rw [hcollecting.completeMessages]
    refine exists_congr fun m' => and_congr_right fun hm' => and_congr_left fun _ => ?_
    by_cases hmine : m' = m
    · rw [hmine]
      exact iff_of_false harrives.not_arrived hall
    · exact (hother m' hm' hmine).symm

end Collecting

/-! ## The whole flight -/

/-- The handler expects a flight that ends with `final`: the messages have the next sequence numbers,
and only the last one is of a type that is expected. -/
structure Expects (h : ClientHandshakeHandler) (init : List Sent) (final : Sent) : Prop where
  numbers : ∃ first : Nat, (first : Int) = h.lastProcessedSeqNum + 1 ∧
    (init ++ [final]).map Sent.seqNum = List.range' first (init.length + 1)
  types : ∃ expected, h.expectedResponses = some expected ∧ final.message.msgType ∈ expected ∧
    ∀ m ∈ init, m.message.msgType ∉ expected

theorem mem_of_uninterrupted {previous : Int} {seqNums : List Nat} {i j : Nat}
    (h : uninterrupted previous seqNums = true) (hj : j ∈ seqNums) (hlow : previous < i)
    (hhigh : i ≤ j) : i ∈ seqNums := by
  induction seqNums generalizing previous with
  | nil => cases hj
  | cons first rest ih =>
      rw [uninterrupted, decide_eq_true_eq] at h
      rcases Nat.lt_or_ge first i with hlt | hge
      · rcases List.mem_cons.mp hj with rfl | hj
        · omega
        · exact List.mem_cons_of_mem _ (ih h.2 hj (by omega))
      · have hfirst : i = first := by omega
        rw [hfirst]
        exact List.mem_cons_self

section Flight

variable {init : List Sent} {final : Sent} {start h : ClientHandshakeHandler}
  {arrived : List FragmentedHandshake}

theorem Expects.strict (hexpects : start.Expects init final) :
    (init ++ [final]).Pairwise fun a b => a.seqNum < b.seqNum := by
  rcases hexpects.numbers with ⟨first, _, hnumbers⟩
  have hsorted : (List.range' first (init.length + 1)).Pairwise (· < ·) :=
    List.pairwise_lt_range' 1 Nat.one_pos
  rw [← hnumbers, List.pairwise_map] at hsorted
  exact hsorted

theorem Expects.mem_numbers (hexpects : start.Expects init final) {m : Sent}
    (hm : m ∈ init ++ [final]) : start.lastProcessedSeqNum < m.seqNum ∧ m.seqNum ≤ final.seqNum := by
  rcases hexpects.numbers with ⟨first, hfirst, hnumbers⟩
  have hmem : m.seqNum ∈ List.range' first (init.length + 1) :=
    hnumbers ▸ List.mem_map_of_mem hm
  have hlast : final.seqNum = first + init.length := by
    rw [List.range'_1_concat, List.map_append] at hnumbers
    exact List.singleton_inj.mp (List.append_inj_right' hnumbers rfl)
  rw [List.mem_range'_1] at hmem
  omega

theorem Collecting.mem_keys (hcollecting : Collecting (init ++ [final]) arrived start h)
    {seqNum : Nat} (hseq : seqNum ∈ h.completeMessages.keys) :
    ∃ m ∈ init ++ [final], m.Arrived arrived ∧ m.seqNum = seqNum := by
  rcases List.mem_map.mp hseq with ⟨e, he, rfl⟩
  rcases (hcollecting.completeMessages e).mp he with ⟨m, hm, harrived, rfl⟩
  exact ⟨m, hm, harrived, rfl⟩

-- As long as a message is missing, no flight is complete.
theorem Collecting.completeFlight_none (hcollecting : Collecting (init ++ [final]) arrived start h)
    (hexpects : start.Expects init final) {m : Sent} (hm : m ∈ init ++ [final])
    (hmissing : ¬m.Arrived arrived) : h.completeFlight = none := by
  rcases hexpects.types with ⟨expected, hexpected, _, hothers⟩
  rw [← hcollecting.flightState] at hexpected
  unfold completeFlight
  by_cases hgap : uninterrupted h.lastProcessedSeqNum h.completeMessages.keys = true
  · rw [if_pos hgap]
    cases hlast : h.completeMessages.last? with
    | none => rfl
    | some lastMsg =>
        simp only [hexpected]
        apply if_neg
        intro htype
        -- the last message that is there is one of the flight, and not the final one
        rcases Option.map_eq_some_iff.mp hlast with ⟨e, he, hmessage⟩
        rcases (hcollecting.completeMessages e).mp (List.mem_of_getLast? he) with
          ⟨m', hm', harrived, rfl⟩
        subst hmessage
        rcases List.mem_append.mp hm' with hinit | hfinal
        · exact hothers m' hinit htype
        · rcases List.mem_singleton.mp hfinal with rfl
          have hkey : m'.seqNum ∈ h.completeMessages.keys :=
            List.mem_map.mpr ⟨_, List.mem_of_getLast? he, rfl⟩
          have hnumbers := hexpects.mem_numbers hm
          rw [← hcollecting.lastProcessedSeqNum] at hnumbers
          have hmine := mem_of_uninterrupted hgap hkey hnumbers.1 hnumbers.2
          rcases hcollecting.mem_keys hmine with ⟨m'', hm'', harrived'', hseq⟩
          rw [eq_of_key_eq hexpects.strict hm'' hm hseq] at harrived''
          exact hmissing harrived''
  · rw [if_neg hgap]

-- When none is missing, the flight is complete.
theorem Collecting.completeFlight_some (hcollecting : Collecting (init ++ [final]) arrived start h)
    (hexpects : start.Expects init final) (hall : ∀ m ∈ init ++ [final], m.Arrived arrived) :
    h.completeFlight = some ((init ++ [final]).map (·.message), final.message) := by
  rcases hexpects.types with ⟨expected, hexpected, htype, _⟩
  rw [← hcollecting.flightState] at hexpected
  have hentries : h.completeMessages.entries =
      (init ++ [final]).map fun m => (m.seqNum, m.message) := by
    apply eq_of_strict h.completeMessages.sorted
    · rw [List.pairwise_map]
      exact hexpects.strict
    · intro e
      rw [hcollecting.completeMessages, List.mem_map]
      exact exists_congr fun m => and_congr_right fun hm =>
        ⟨fun he => he.2.symm, fun he => ⟨hall m hm, he.symm⟩⟩
  have hkeys : h.completeMessages.keys = (init ++ [final]).map Sent.seqNum := by
    rw [IndexMap.keys, hentries, List.map_map]
    rfl
  have hvalues : h.completeMessages.values = (init ++ [final]).map (·.message) := by
    rw [IndexMap.values, hentries, List.map_map]
    rfl
  have hlast : h.completeMessages.last? = some final.message := by
    rw [IndexMap.last?, hentries, List.map_append, List.getLast?_append]
    rfl
  have hgap : uninterrupted h.lastProcessedSeqNum h.completeMessages.keys = true := by
    rcases hexpects.numbers with ⟨first, hfirst, hnumbers⟩
    rw [hcollecting.lastProcessedSeqNum]
    have hmem : ∀ seqNum, seqNum ∈ h.completeMessages.keys ↔
        first ≤ seqNum ∧ seqNum ≤ first + init.length := by
      intro seqNum
      rw [hkeys, hnumbers, List.mem_range'_1]
      omega
    exact uninterrupted_of_interval h.completeMessages.keys_sorted hfirst.symm hmem
  exact completeFlight_eq_some.mpr ⟨hgap, hvalues, hlast, expected, hexpected, htype⟩

theorem Expects.nodup_pieces (hexpects : start.Expects init final) :
    ((init ++ [final]).flatMap Sent.pieces).Nodup := by
  rw [List.nodup_flatMap]
  refine ⟨fun m _ => nodup_of_strict m.delivered.strict, ?_⟩
  refine hexpects.strict.imp fun {m m'} hlt => ?_
  intro f hf hf'
  have hseq := (sameMessage_iff.mp (m.delivered.sameMessage hf)).2.1
  have hseq' := (sameMessage_iff.mp (m'.delivered.sameMessage hf')).2.1
  have heq : m.seqNum = m'.seqNum := hseq.symm.trans hseq'
  omega

/-- The handler after the flight was handled. -/
def handled (opts : Options) (crypto : Crypto) (messages : List Handshake) (lastMsg : Handshake)
    (start : ClientHandshakeHandler) : ClientHandshakeHandler where
  toFlightState := afterFlight lastMsg (FlightState.handle opts crypto lastMsg.msgType messages
    (beforeFlight messages lastMsg start.toFlightState))
  lastProcessedSeqNum := lastMsg.messageSeq
  incompleteMessages := []
  completeMessages := .empty

def arrivals (pieces : List (MessageMemory × FragmentedHandshake)) : List Input :=
  pieces.map fun piece => .message piece.1 piece.2

-- As long as a message is missing, a piece is stored and nothing is handled.
theorem Collecting.take_incomplete (opts : Options) (crypto : Crypto)
    (hcollecting : Collecting (init ++ [final]) arrived start h)
    (hexpects : start.Expects init final) {m m' : Sent} {piece : FragmentedHandshake}
    (harrives : Arrives (init ++ [final]) arrived m piece) (memory : MessageMemory)
    (hm' : m' ∈ init ++ [final]) (hmissing : ¬m'.Arrived (arrived ++ [piece])) :
    h.flightOf (.message memory piece) = none ∧
      Collecting (init ++ [final]) (arrived ++ [piece]) start
        (h.take opts crypto (.message memory piece)) := by
  rcases hcollecting.store harrives memory with ⟨h', hstore, hcollecting'⟩
  have hnone := hcollecting'.completeFlight_none hexpects hm' hmissing
  have hflight : h.flightOf (.message memory piece) =
      flightIn (.ok (decide (m.Arrived (arrived ++ [piece]))) h') := congrArg flightIn hstore
  rw [take_message, hstore, hflight]
  cases decide (m.Arrived (arrived ++ [piece])) with
  | false => exact ⟨rfl, hcollecting'⟩
  | true =>
      rw [proceed, hnone]
      exact ⟨hnone, hcollecting'⟩

-- The last piece completes the flight.
theorem Collecting.take_last (opts : Options) (crypto : Crypto)
    (hcollecting : Collecting (init ++ [final]) arrived start h)
    (hexpects : start.Expects init final) {m : Sent} {piece : FragmentedHandshake}
    (harrives : Arrives (init ++ [final]) arrived m piece) (memory : MessageMemory)
    (hall : ∀ m ∈ init ++ [final], m.Arrived (arrived ++ [piece])) :
    h.flightOf (.message memory piece) =
        some ((init ++ [final]).map (·.message), final.message) ∧
      h.take opts crypto (.message memory piece) =
        handled opts crypto ((init ++ [final]).map (·.message)) final.message start := by
  rcases hcollecting.store harrives memory with ⟨h', hstore, hcollecting'⟩
  have hcomplete := hcollecting'.completeFlight_some hexpects hall
  have hincomplete : h'.incompleteMessages = [] := by
    rw [hcollecting'.incompleteMessages, List.filter_eq_nil_iff]
    intro f hf hopen
    rcases harrives.known_concat hf with ⟨m, hm, hf'⟩
    rw [isOpen_eq hexpects.strict hm hf', decide_eq_true (hall m hm), Bool.not_true,
      Bool.and_false] at hopen
    cases hopen
  have hflight : h.flightOf (.message memory piece) =
      flightIn (.ok (decide (m.Arrived (arrived ++ [piece]))) h') := congrArg flightIn hstore
  rw [decide_eq_true (hall m harrives.mem)] at hstore hflight
  refine ⟨hflight.trans hcomplete, ?_⟩
  rw [take_message, hstore, proceed, hcomplete]
  simp only
  rw [finalState_handleFlight, handled, hcollecting'.flightState, hincomplete]

theorem Collecting.run (opts : Options) (crypto : Crypto)
    (hcollecting : Collecting (init ++ [final]) arrived start h)
    (hexpects : start.Expects init final) {rest : List (MessageMemory × FragmentedHandshake)}
    (hne : rest ≠ [])
    (hperm : (arrived ++ rest.map Prod.snd).Perm ((init ++ [final]).flatMap Sent.pieces)) :
    h.flights opts crypto (arrivals rest.dropLast) = [] ∧
      h.flights opts crypto (arrivals rest) =
        [((init ++ [final]).map (·.message), final.message)] ∧
      h.takeAll opts crypto (arrivals rest) =
        handled opts crypto ((init ++ [final]).map (·.message)) final.message start := by
  induction rest generalizing arrived h with
  | nil => exact absurd rfl hne
  | cons first rest ih =>
      rcases first with ⟨memory, piece⟩
      rw [List.map_cons, List.append_cons] at hperm
      have hnodup := hperm.nodup_iff.mpr hexpects.nodup_pieces
      have hknown : ∀ f ∈ arrived ++ [piece] ++ rest.map Prod.snd,
          ∃ m ∈ init ++ [final], f ∈ m.pieces :=
        fun f hf => List.mem_flatMap.mp (hperm.mem_iff.mp hf)
      rcases hknown piece (List.mem_append_left _ (List.mem_append_right _ List.mem_cons_self)) with
        ⟨m, hm, hpiece⟩
      have harrives : Arrives (init ++ [final]) arrived m piece :=
        ⟨hexpects.strict, hm, hpiece,
          fun f hf => hknown f (List.mem_append_left _ (List.mem_append_left _ hf)),
          (List.nodup_append.mp hnodup).1⟩
      cases rest with
      | nil =>
          have hall : ∀ m ∈ init ++ [final], m.Arrived (arrived ++ [piece]) := by
            intro m hm f hf
            rw [List.map_nil, List.append_nil] at hperm
            exact hperm.mem_iff.mpr (List.mem_flatMap.mpr ⟨m, hm, hf⟩)
          rcases hcollecting.take_last opts crypto hexpects harrives memory hall with
            ⟨hflight, htake⟩
          refine ⟨rfl, ?_, htake⟩
          show (h.flightOf (.message memory piece)).toList ++ [] = _
          rw [hflight]
          rfl
      | cons next rest =>
          -- the next piece is missing
          have hnext : next.2 ∈ arrived ++ [piece] ++ (next :: rest).map Prod.snd :=
            List.mem_append_right _ List.mem_cons_self
          rcases hknown next.2 hnext with ⟨m', hm', hf'⟩
          have hmissing : ¬m'.Arrived (arrived ++ [piece]) := by
            intro harrived
            exact (List.nodup_append.mp hnodup).2.2 next.2 (harrived next.2 hf') next.2
              List.mem_cons_self rfl
          rcases hcollecting.take_incomplete opts crypto hexpects harrives memory hm' hmissing with
            ⟨hflight, hcollecting'⟩
          rcases ih hcollecting' (List.cons_ne_nil _ _) hperm with ⟨hbefore, hflights, hfinal⟩
          refine ⟨?_, ?_, hfinal⟩
          · show (h.flightOf (.message memory piece)).toList ++ _ = _
            rw [hflight]
            exact hbefore
          · show (h.flightOf (.message memory piece)).toList ++ _ = _
            rw [hflight]
            exact hflights

-- Nothing has arrived yet.
theorem Collecting.nothing (hincomplete : h.incompleteMessages = [])
    (hcomplete : h.completeMessages = .empty) : Collecting (init ++ [final]) [] h h := by
  refine ⟨rfl, rfl, hincomplete, fun e => ?_⟩
  rw [hcomplete]
  refine ⟨fun he => absurd he List.not_mem_nil, ?_⟩
  rintro ⟨m, _, harrived, _⟩
  -- every message has a piece
  rcases List.exists_mem_of_ne_nil _ m.delivered.ne_nil with ⟨f, hf⟩
  exact absurd (harrived f hf) List.not_mem_nil

/-- A flight that arrives whole and in order. -/
def inOrder (memory : MessageMemory) (sent : List Sent) : List Input :=
  sent.map fun m => .message memory m.whole

theorem takeAll_inOrder (opts : Options) (crypto : Crypto) (hexpects : h.Expects init final)
    (hincomplete : h.incompleteMessages = []) (hcomplete : h.completeMessages = .empty)
    (memory : MessageMemory) :
    h.takeAll opts crypto (inOrder memory (init ++ [final])) =
      handled opts crypto ((init ++ [final]).map (·.message)) final.message h := by
  -- the same messages, with one piece each
  let unfragmented (m : Sent) : Sent := { m with pieces := [m.whole], delivered := .whole }
  have hseq : Sent.seqNum ∘ unfragmented = Sent.seqNum := rfl
  have hexpects' : h.Expects (init.map unfragmented) (unfragmented final) := by
    rcases hexpects.numbers with ⟨first, hfirst, hnumbers⟩
    rcases hexpects.types with ⟨expected, hexpected, htype, hothers⟩
    refine ⟨⟨first, hfirst, ?_⟩, expected, hexpected, htype, ?_⟩
    · rw [List.length_map, ← hnumbers, List.map_append, List.map_append, List.map_map, hseq]
      rfl
    · intro m hm
      rcases List.mem_map.mp hm with ⟨m', hm', rfl⟩
      exact hothers m' hm'
  have hpieces : ((init.map unfragmented) ++ [unfragmented final]).flatMap Sent.pieces =
      ((init ++ [final]).map fun m => (memory, m.whole)).map Prod.snd := by
    rw [List.map_map, List.flatMap_append, List.flatMap_map, List.map_append]
    show init.flatMap (fun m => [m.whole]) ++ [final.whole] = _
    rw [← List.map_eq_flatMap]
    rfl
  have hmessages : ((init.map unfragmented) ++ [unfragmented final]).map (·.message) =
      (init ++ [final]).map (·.message) := by
    rw [List.map_append, List.map_append, List.map_map]
    rfl
  have hinputs : arrivals ((init ++ [final]).map fun m : Sent => (memory, m.whole)) =
      inOrder memory (init ++ [final]) := by
    rw [arrivals, List.map_map]
    rfl
  have hnothing : Collecting (init.map unfragmented ++ [unfragmented final]) [] h h :=
    .nothing hincomplete hcomplete
  have hperm : ([] ++ ((init ++ [final]).map fun m : Sent => (memory, m.whole)).map Prod.snd).Perm
      ((init.map unfragmented ++ [unfragmented final]).flatMap Sent.pieces) := by
    rw [hpieces]
    exact List.Perm.refl _
  have hne : (init ++ [final]).map (fun m : Sent => (memory, m.whole)) ≠ [] := by simp
  have hrun := (hnothing.run opts crypto hexpects' hne hperm).2.2
  rw [hmessages, hinputs] at hrun
  exact hrun

end Flight

/-- The order in which the pieces of a flight arrive makes no difference: the handler of the flight is
called once, with the last piece and on what was there before the first, and everything is as if the
messages had arrived whole and in order. -/
theorem flight_anyOrder (opts : Options) (crypto : Crypto) {h : ClientHandshakeHandler}
    {init : List Sent} {final : Sent} (hexpects : h.Expects init final)
    (hincomplete : h.incompleteMessages = []) (hcomplete : h.completeMessages = .empty)
    {pieces : List (MessageMemory × FragmentedHandshake)}
    (hpieces : (pieces.map Prod.snd).Perm ((init ++ [final]).flatMap Sent.pieces))
    (memory : MessageMemory) :
    h.flights opts crypto (arrivals pieces.dropLast) = [] ∧
      h.flights opts crypto (arrivals pieces) =
        [((init ++ [final]).map (·.message), final.message)] ∧
      h.takeAll opts crypto (arrivals pieces) =
        handled opts crypto ((init ++ [final]).map (·.message)) final.message h ∧
      h.takeAll opts crypto (arrivals pieces) =
        h.takeAll opts crypto (inOrder memory (init ++ [final])) := by
  have hne : pieces ≠ [] := by
    rintro rfl
    rcases List.exists_mem_of_ne_nil _ final.delivered.ne_nil with ⟨f, hf⟩
    have hmem : f ∈ (init ++ [final]).flatMap Sent.pieces :=
      List.mem_flatMap.mpr ⟨final, List.mem_append_right _ List.mem_cons_self, hf⟩
    exact absurd (hpieces.mem_iff.mpr hmem) List.not_mem_nil
  rcases (Collecting.nothing hincomplete hcomplete).run opts crypto hexpects hne hpieces with
    ⟨hbefore, hflights, hfinal⟩
  exact ⟨hbefore, hflights, hfinal,
    hfinal.trans (takeAll_inOrder opts crypto hexpects hincomplete hcomplete memory).symm⟩

end ClientHandshakeHandler

namespace Sample

open ClientHandshakeHandler

/-- A ServerHello in two fragments. -/
def sentServerHello : Sent where
  whole := serverHelloMessage
  message := serverHelloParsed
  parses memory := (fromFragment_same (by decide) memory zeros).trans (by decide)
  pieces := FragmentedHandshake.fragmentsFrom serverHelloMessage 0
    [serverHello.take 2, serverHello.drop 2]
  totalLength := rfl
  delivered := .parts _ (by decide) (by decide) (by decide)

def sentServerHelloDone : Sent where
  whole := serverHelloDoneMessage
  message := ⟨1, .serverHelloDone⟩
  pieces := [serverHelloDoneMessage]
  totalLength := rfl
  parses _ := rfl
  delivered := .whole

/-- The fragments in the wrong order, with the second message between them. -/
def mixedUp : List (MessageMemory × FragmentedHandshake) :=
  (sentServerHello.pieces.drop 1 ++ sentServerHelloDone.pieces ++
    sentServerHello.pieces.take 1).map fun piece => (memory 1, piece)

def awaitingServerHello : ClientHandshakeHandler := (run []).socket.handshakeHandler

end Sample

open Sample in
theorem ClientHandshakeHandler.flight_anyOrder_sample :
    awaitingServerHello.flights opts crypto (arrivals mixedUp.dropLast) = [] ∧
      awaitingServerHello.flights opts crypto (arrivals mixedUp) =
        [([sentServerHello, sentServerHelloDone].map (·.message), ⟨1, .serverHelloDone⟩)] ∧
      awaitingServerHello.takeAll opts crypto (arrivals mixedUp) =
        handled opts crypto ([sentServerHello, sentServerHelloDone].map (·.message))
          ⟨1, .serverHelloDone⟩ awaitingServerHello ∧
      awaitingServerHello.takeAll opts crypto (arrivals mixedUp) =
        awaitingServerHello.takeAll opts crypto
          (inOrder (memory 0) [sentServerHello, sentServerHelloDone]) := by
  have hexpects : awaitingServerHello.Expects [sentServerHello] sentServerHelloDone :=
    ⟨⟨0, by decide, by decide⟩, [.serverHelloDone, .helloVerifyRequest], by decide, by decide,
      by decide⟩
  exact flight_anyOrder opts crypto hexpects (by decide) (by decide) (by decide) (memory 0)

end DtlsClient
