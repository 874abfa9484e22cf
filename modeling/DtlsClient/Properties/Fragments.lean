import DtlsClient.Library.Sorting
import DtlsClient.Properties.Flights
import DtlsClient.Properties.Reassembly

/-!
# Splitting a message and putting it together

`isComplete` looks at neighbours in the order of their offsets.  What it accepts covers the message and
is reassembled to it.  What covers the message it accepts unless a fragment is stranded: the last one that
arrived with its offset, inside an earlier one, with no other fragment beginning in it or right behind it.
`split` cuts off one fragment only.
-/

open Library

namespace DtlsClient

namespace FragmentedHandshake

/-- A message in one piece, which its fragments are cut from. -/
structure Unfragmented (m : FragmentedHandshake) : Prop where
  fragmentOffset : m.fragmentOffset = 0
  totalLength : m.totalLength = m.fragment.length

/-- The fragment has the message's bytes at its offset. -/
structure IsFragmentOf (m f : FragmentedHandshake) : Prop where
  sameMessage : f.sameMessage m = true
  fragment : f.fragment <+: m.fragment.drop f.fragmentOffset

/-- The fragment has the byte at this offset of the message. -/
def covers (f : FragmentedHandshake) (i : Nat) : Bool :=
  f.fragmentOffset ≤ i ∧ i < f.fragmentOffset + f.fragment.length

def Covered (msg : FragmentedHandshake) (fragments : List FragmentedHandshake) : Prop :=
  ∀ i < msg.totalLength, ∃ f ∈ fragments, f.covers i = true

instance (msg : FragmentedHandshake) (fragments : List FragmentedHandshake) :
    Decidable (Covered msg fragments) := inferInstanceAs (Decidable (∀ i < _, _))

variable {m msg : FragmentedHandshake} {fragments : List FragmentedHandshake}

theorem findAllFragments_self (hsame : ∀ f ∈ fragments, f.sameMessage msg = true) :
    findAllFragments fragments msg = fragments := List.filter_eq_self.mpr hsame

/-! ## What is accepted -/

-- Whatever the fragments are, as long as they belong to one message.
theorem isComplete_covered (hsame : ∀ f ∈ fragments, f.sameMessage msg = true)
    (hcomplete : isComplete fragments = .ok true) : Covered msg fragments := by
  intro i hi
  have hfound := findAllFragments_self hsame
  rw [← hfound] at hcomplete
  rcases isComplete_covers hcomplete hi with ⟨f, hf, hcovers⟩
  rw [hfound] at hf
  exact ⟨f, hf, decide_eq_true hcovers⟩

-- The bytes of the message, written over themselves.
theorem combine_self {messages : List FragmentedHandshake}
    (hmessages : ∀ f ∈ messages, f.fragment <+: m.fragment.drop f.fragmentOffset) :
    combine messages m.fragment = m.fragment := by
  induction messages with
  | nil => rfl
  | cons f messages ih =>
      rw [combine, overwrite_self (hmessages f List.mem_cons_self)]
      exact ih fun g hg => hmessages g (List.mem_cons_of_mem _ hg)

theorem reassemble_fragments (hm : m.Unfragmented) (hfragments : ∀ f ∈ fragments, m.IsFragmentOf f)
    (hcomplete : isComplete fragments = .ok true) (memory : Memory) :
    reassemble memory fragments = .ok m := by
  have hsame : ∀ f ∈ fragments, f.sameMessage m = true := fun f hf => (hfragments f hf).sameMessage
  have hfound := findAllFragments_self hsame
  have hne : findAllFragments fragments m ≠ [] := by
    intro hnil
    rw [← hfound, hnil] at hcomplete
    cases hcomplete
  have hreassemble := reassemble_found memory hne
  rw [hfound] at hreassemble
  generalize hsorted : fragments.insertionSort (fun a b => a.fragmentOffset ≤ b.fragmentOffset) = sorted
    at hreassemble
  have hmem : ∀ f, f ∈ sorted ↔ f ∈ fragments := by
    intro f
    rw [← hsorted]
    exact List.mem_insertionSort _
  have hlength : m.fragment.length = ((List.range m.totalLength).map memory).length := by
    rw [List.length_map, List.length_range, hm.totalLength]
  have hcombined : combine sorted ((List.range m.totalLength).map memory) = m.fragment := by
    calc combine sorted ((List.range m.totalLength).map memory)
        = combine sorted m.fragment := by
          apply List.ext_getElem?
          intro i
          apply combine_getElem? hlength
          by_cases hi : i < m.totalLength
          · rcases isComplete_covered hsame hcomplete i hi with ⟨f, hf, hcovers⟩
            exact .inr ⟨f, (hmem f).mpr hf, of_decide_eq_true hcovers⟩
          · left
            have hout : m.fragment.length ≤ i := by
              rw [← hm.totalLength]
              omega
            rw [List.getElem?_eq_none hout, List.getElem?_eq_none (hlength ▸ hout)]
      _ = m.fragment := combine_self fun f hf => (hfragments f ((hmem f).mp hf)).fragment
  rw [hreassemble, hcombined, ← hm.fragmentOffset]

/-- Fragments of a message that are accepted are reassembled to it, whatever the memory held; any
fragments of one message that are accepted cover it. -/
theorem isComplete_sound :
    (∀ m fragments memory, m.Unfragmented → fragments ≠ [] → (∀ f ∈ fragments, m.IsFragmentOf f) →
      isComplete fragments = .ok true → reassemble memory fragments = .ok m) ∧
    ∀ msg fragments, (∀ f ∈ fragments, f.sameMessage msg = true) →
      isComplete fragments = .ok true → Covered msg fragments :=
  ⟨fun _ _ memory hm _ hfragments hcomplete => reassemble_fragments hm hfragments hcomplete memory,
    fun _ _ hsame hcomplete => isComplete_covered hsame hcomplete⟩

-- Two fragments that overlap and an empty one, in another order.
theorem isComplete_sound_sample :
    let m : FragmentedHandshake := ⟨.serverHello, 4, 0, 0, [1, 2, 3, 4]⟩
    let fragments : List FragmentedHandshake :=
      [⟨.serverHello, 4, 0, 2, []⟩, ⟨.serverHello, 4, 0, 2, [3, 4]⟩, ⟨.serverHello, 4, 0, 0, [1, 2, 3]⟩]
    reassemble (fun _ => 0) fragments = .ok m ∧ Covered m fragments := by
  intro m fragments
  have hfragments : ∀ f ∈ fragments,
      f.sameMessage m = true ∧ f.fragment <+: m.fragment.drop f.fragmentOffset := by decide
  exact ⟨isComplete_sound.1 m fragments _ ⟨rfl, rfl⟩ (List.cons_ne_nil _ _)
      (fun f hf => ⟨(hfragments f hf).1, (hfragments f hf).2⟩) rfl,
    isComplete_sound.2 m fragments (fun f hf => (hfragments f hf).1) rfl⟩

/-! ## What covers a message -/

/-- Fragments with bytes, of one message and inside it. -/
structure PieceOf (msg f : FragmentedHandshake) : Prop where
  sameMessage : f.sameMessage msg = true
  fragment : f.fragment ≠ []
  inside : f.fragmentOffset + f.fragment.length ≤ msg.totalLength

/-- Each fragment that arrived last with its offset reaches the end of the message, or another one
begins in it or right behind it. -/
def NoneStranded (msg : FragmentedHandshake) (fragments : List FragmentedHandshake) : Prop :=
  ∀ f ∈ fragments, LastOfKey fragmentOffset fragments f →
    f.fragmentOffset + f.fragment.length = msg.totalLength ∨
      ∃ g ∈ fragments, f.fragmentOffset < g.fragmentOffset ∧
        g.fragmentOffset ≤ f.fragmentOffset + f.fragment.length

instance (msg : FragmentedHandshake) (fragments : List FragmentedHandshake) :
    Decidable (NoneStranded msg fragments) :=
  inferInstanceAs (Decidable (∀ f ∈ fragments, _ = some f → _))

/-- The second fragment touches or overlaps the first one, or lies in it. -/
def Touches (f g : FragmentedHandshake) : Prop :=
  g.fragmentOffset ≤ f.fragmentOffset + f.fragment.length

theorem noHolesAfter_iff (totalLength : Nat) (f : FragmentedHandshake)
    (fragments : List FragmentedHandshake) :
    noHolesAfter totalLength f.range (fragments.map range) = true ↔
      (f :: fragments).IsChain Touches ∧
        ∀ g, (f :: fragments).getLast? = some g →
          g.fragmentOffset + g.fragment.length = totalLength := by
  induction fragments generalizing f with
  | nil =>
      rw [List.map_nil, noHolesAfter, decide_eq_true_eq, List.getLast?_singleton]
      unfold range
      simp only
      constructor
      · intro h
        refine ⟨.singleton f, fun g hg => ?_⟩
        rw [← Option.some.inj hg]
        omega
      · rintro ⟨_, hlast⟩
        have hend := hlast f rfl
        omega
  | cons g fragments ih =>
      have htouches : (g.range.1 : Int) - f.range.2 ≤ 1 ↔ Touches f g := by
        unfold Touches range
        simp only
        omega
      rw [List.map_cons, noHolesAfter, decide_eq_true_eq, ih, htouches, List.isChain_cons_cons,
        and_assoc, List.getLast?_cons_cons]

theorem noHoles_iff (totalLength : Nat) (fragments : List FragmentedHandshake) :
    noHoles totalLength (fragments.map range) = true ↔
      (∀ f, fragments.head? = some f → f.fragmentOffset = 0) ∧ fragments.IsChain Touches ∧
        ∀ f, fragments.getLast? = some f →
          f.fragmentOffset + f.fragment.length = totalLength := by
  cases fragments with
  | nil =>
      refine iff_of_true rfl ⟨fun f h => ?_, .nil, fun f h => ?_⟩
      · cases h
      · cases h
  | cons f fragments =>
      rw [List.map_cons, noHoles, decide_eq_true_eq, noHolesAfter_iff, List.head?_cons]
      simp only [Option.some.injEq, forall_eq']
      rfl

theorem isComplete_eq (hne : fragments ≠ []) (hsame : ∀ f ∈ fragments, f.sameMessage msg = true) :
    isComplete fragments =
      .ok (noHoles msg.totalLength ((sortBy fragmentOffset fragments).map range)) := by
  have hfound := findAllFragments_self hsame
  cases fragments with
  | nil => exact absurd rfl hne
  | cons first rest =>
      have hmap := List.map_insertionSort
        (r := fun a b : FragmentedHandshake => a.fragmentOffset ≤ b.fragmentOffset)
        (s := fun a b : Nat × Int => a.1 ≤ b.1) range (first :: rest) fun _ _ _ _ => Iff.rfl
      rw [isComplete_found hfound, sortBy, hmap]

-- The first byte is in a fragment with the least offset.
theorem Covered.head_offset (hcovered : Covered msg fragments)
    (hpieces : ∀ f ∈ fragments, msg.PieceOf f) {f : FragmentedHandshake}
    (hf : (sortBy fragmentOffset fragments).head? = some f) : f.fragmentOffset = 0 := by
  have hpiece := hpieces f (mem_sortBy.mp (List.mem_of_mem_head? hf))
  have hpos := List.length_pos_iff.mpr hpiece.fragment
  have hinside := hpiece.inside
  rcases hcovered 0 (by omega) with ⟨g, hg, hcovers⟩
  have hzero := (of_decide_eq_true hcovers).1
  have hle : f.fragmentOffset ≤ g.fragmentOffset := by
    have hsorted := pairwise_sortBy fragmentOffset fragments
    rcases List.head?_eq_some_iff.mp hf with ⟨rest, hrest⟩
    rw [hrest] at hsorted
    exact key_le_of_mem hsorted (hrest ▸ mem_sortBy.mpr hg)
  omega

/-- What is accepted, of the fragments of one message: what covers it and leaves none stranded. -/
theorem isComplete_iff (hne : fragments ≠ []) (hpieces : ∀ f ∈ fragments, msg.PieceOf f) :
    isComplete fragments = .ok true ↔ Covered msg fragments ∧ NoneStranded msg fragments := by
  have hsame : ∀ f ∈ fragments, f.sameMessage msg = true := fun f hf => (hpieces f hf).sameMessage
  have hsorted := pairwise_sortBy fragmentOffset fragments
  have hchain := isChain_sorted_iff (R := Touches)
    (fun a b heq => by unfold Touches; omega)
    (fun a b c hle htouches => Nat.le_trans hle htouches) hsorted
  simp only [lastOfKey_sortBy, mem_sortBy] at hchain
  have hlast : ∀ f, (sortBy fragmentOffset fragments).getLast? = some f ↔
      LastOfKey fragmentOffset fragments f ∧
        ∀ g ∈ fragments, g.fragmentOffset ≤ f.fragmentOffset := by
    intro f
    have h := @getLast?_sorted _ _ _ fragmentOffset _ f hsorted
    simp only [lastOfKey_sortBy, mem_sortBy] at h
    exact h
  have hholes : isComplete fragments = .ok true ↔ _ :=
    (congrArg (· = Except.ok true) (isComplete_eq hne hsame)).to_iff.trans
      ((Except.ok.injEq ..).to_iff.trans (noHoles_iff msg.totalLength (sortBy fragmentOffset fragments)))
  constructor
  · intro hcomplete
    refine ⟨isComplete_covered hsame hcomplete, fun f _ hf => ?_⟩
    rcases hholes.mp hcomplete with ⟨_, htouching, hend⟩
    rcases hchain.mp htouching f hf with hmax | hnext
    · exact .inl (hend f ((hlast f).mpr ⟨hf, hmax⟩))
    · exact .inr hnext
  · rintro ⟨hcovered, hstranded⟩
    rw [hholes]
    refine ⟨fun f hf => ?_, hchain.mpr fun f hf => ?_, fun f hf => ?_⟩
    · exact hcovered.head_offset hpieces hf
    · rcases hstranded f hf.mem hf with hend | hnext
      · by_cases hmax : ∀ g ∈ fragments, g.fragmentOffset ≤ f.fragmentOffset
        · exact .inl hmax
        · right
          push Not at hmax
          rcases hmax with ⟨g, hg, hlt⟩
          have hpiece := hpieces g hg
          have hinside := hpiece.inside
          refine ⟨g, hg, hlt, ?_⟩
          unfold Touches
          omega
      · exact .inr hnext
    · rcases (hlast f).mp hf with ⟨hkey, hmax⟩
      rcases hstranded f hkey.mem hkey with hend | ⟨g, hg, hlt, _⟩
      · exact hend
      · exact absurd (hmax g hg) (by omega)

/-- Fragments that cover their message are accepted, and with further fragments they are accepted
still, if and only if neither leaves a fragment stranded. -/
theorem isComplete_overlap_iff {more : List FragmentedHandshake} (hne : fragments ≠ [])
    (hpieces : ∀ f ∈ fragments ++ more, msg.PieceOf f) :
    ((Covered msg fragments → isComplete fragments = .ok true) ∧
      (isComplete fragments = .ok true → isComplete (fragments ++ more) = .ok true)) ↔
    (Covered msg fragments → NoneStranded msg fragments ∧ NoneStranded msg (fragments ++ more)) := by
  have hne' : fragments ++ more ≠ [] := fun h => hne (List.append_eq_nil_iff.mp h).1
  have hcovered : Covered msg fragments → Covered msg (fragments ++ more) := by
    intro h i hi
    rcases h i hi with ⟨f, hf, hcovers⟩
    exact ⟨f, List.mem_append_left _ hf, hcovers⟩
  rw [isComplete_iff hne fun f hf => hpieces f (List.mem_append_left _ hf),
    isComplete_iff hne' hpieces]
  constructor
  · rintro ⟨hfirst, hmore⟩ h
    have hcomplete := hfirst h
    exact ⟨hcomplete.2, (hmore hcomplete).2⟩
  · intro h
    exact ⟨fun hc => ⟨hc, (h hc).1⟩, fun hcomplete => ⟨hcovered hcomplete.1, (h hcomplete.1).2⟩⟩

namespace Sample

/-- A fragment of a message of ten bytes. -/
def piece (fragmentOffset length : Nat) : FragmentedHandshake :=
  ⟨.serverHello, 10, 0, fragmentOffset, List.replicate length 0⟩

end Sample

theorem isComplete_overlap_sample :
    let fragments := [Sample.piece 4 6, Sample.piece 0 4]
    let more := [Sample.piece 2 4]
    ((Covered (Sample.piece 0 10) fragments → isComplete fragments = .ok true) ∧
      (isComplete fragments = .ok true → isComplete (fragments ++ more) = .ok true)) ↔
    (Covered (Sample.piece 0 10) fragments → NoneStranded (Sample.piece 0 10) fragments ∧
      NoneStranded (Sample.piece 0 10) (fragments ++ more)) := by
  intro fragments more
  have hpieces : ∀ f ∈ fragments ++ more, f.sameMessage (Sample.piece 0 10) = true ∧
      f.fragment ≠ [] ∧ f.fragmentOffset + f.fragment.length ≤ 10 := by decide
  exact isComplete_overlap_iff (List.cons_ne_nil _ _) fun f hf =>
    ⟨(hpieces f hf).1, (hpieces f hf).2.1, (hpieces f hf).2.2⟩

/-- The bytes 5 and 6 once more, in a fragment of their own: with it the message is not complete, and
if it was complete before, it no longer is. -/
theorem isComplete_nested :
    ¬(Covered (Sample.piece 0 10) [Sample.piece 4 6, Sample.piece 5 2, Sample.piece 0 4] →
        isComplete [Sample.piece 4 6, Sample.piece 5 2, Sample.piece 0 4] = .ok true) ∧
      ¬(isComplete [Sample.piece 4 6, Sample.piece 0 4] = .ok true →
        isComplete ([Sample.piece 4 6, Sample.piece 0 4] ++ [Sample.piece 5 2]) = .ok true) := by
  have hthree : isComplete [Sample.piece 4 6, Sample.piece 5 2, Sample.piece 0 4] = .ok false := rfl
  have htwo : isComplete [Sample.piece 4 6, Sample.piece 0 4] = .ok true := rfl
  have hmore : isComplete ([Sample.piece 4 6, Sample.piece 0 4] ++ [Sample.piece 5 2]) =
      .ok false := rfl
  constructor
  · intro h
    rw [hthree] at h
    have heq := h (by decide)
    cases heq
  · intro h
    rw [hmore] at h
    have heq := h htwo
    cases heq

/-! ## Splitting -/

/-- The pieces have at most `max` bytes each, every byte of the body is in exactly one of them, and in
any order they are complete and are reassembled to the message. -/
def SplitsWhole (m : FragmentedHandshake) (max : Nat) : Prop :=
  ∃ pieces, m.split max = .ok pieces ∧
    (∀ f ∈ pieces, f.fragment.length ≤ max ∧
      f.fragmentOffset + f.fragment.length ≤ m.fragment.length) ∧
    (∀ i < m.fragment.length, (pieces.countP fun f => f.covers i) = 1) ∧
    ∀ order, order.Perm pieces → isComplete order = .ok true ∧
      ∀ memory, reassemble memory order = .ok m

-- The byte behind the only piece is in none.
theorem SplitsWhole.length_le (hne : m.fragment ≠ []) {max : Nat} (hmax : 1 ≤ max)
    (h : m.SplitsWhole max) : m.fragment.length ≤ max := by
  have hsplit := m.split_eq hmax
  rw [if_neg hne] at hsplit
  rcases h with ⟨pieces, hpieces, _, hpartition, _⟩
  rw [hsplit] at hpieces
  by_contra hlong
  have hcount := hpartition max (by omega)
  rw [← Except.ok.inj hpieces, List.countP_singleton, covers, decide_eq_false] at hcount
  · cases hcount
  · show ¬(0 ≤ max ∧ max < 0 + (m.fragment.take max).length)
    rw [List.length_take]
    omega

/-- A message is split without a loss if and only if it fits in one fragment. -/
theorem split_iff (hm : m.Unfragmented) (hne : m.fragment ≠ []) {max : Nat} (hmax : 1 ≤ max) :
    m.SplitsWhole max ↔ m.fragment.length ≤ max := by
  have hsplit := m.split_eq hmax
  rw [if_neg hne] at hsplit
  constructor
  · exact SplitsWhole.length_le hne hmax
  · intro hfits
    have hwhole : (⟨m.msgType, m.fragment.length, m.messageSeq, 0, m.fragment.take max⟩ :
        FragmentedHandshake) = m := by
      rw [List.take_of_length_le hfits, ← hm.totalLength, ← hm.fragmentOffset]
    rw [hwhole] at hsplit
    refine ⟨[m], hsplit, fun f hf => ?_, fun i hi => ?_, fun order hperm => ?_⟩
    · rw [List.mem_singleton.mp hf, hm.fragmentOffset]
      omega
    · have hcovers : m.covers i = true := decide_eq_true ⟨by rw [hm.fragmentOffset]; omega, by omega⟩
      rw [List.countP_singleton, hcovers]
      rfl
    · rw [List.perm_singleton.mp hperm]
      have hsame : ∀ f ∈ [m], f.sameMessage m = true := by
        intro f hf
        rw [List.mem_singleton.mp hf]
        exact sameMessage_iff.mpr ⟨rfl, rfl, rfl⟩
      have hcomplete : isComplete [m] = .ok true := by
        rw [isComplete_eq (List.cons_ne_nil m []) hsame]
        congr 1
        rw [noHoles_iff]
        refine ⟨fun f hf => ?_, .singleton m, fun f hf => ?_⟩
        · rw [List.mem_singleton.mp (mem_sortBy.mp (List.mem_of_mem_head? hf))]
          exact hm.fragmentOffset
        · rw [List.mem_singleton.mp (mem_sortBy.mp (List.mem_of_getLast? hf)), hm.totalLength,
            hm.fragmentOffset, Nat.zero_add]
      refine ⟨hcomplete, reassemble_fragments hm (fun f hf => ⟨hsame f hf, ?_⟩) hcomplete⟩
      rw [List.mem_singleton.mp hf, hm.fragmentOffset]
      exact List.prefix_rfl

theorem split_iff_sample :
    let m : FragmentedHandshake := ⟨.serverHello, 4, 0, 0, [1, 2, 3, 4]⟩
    m.SplitsWhole 4 ↔ m.fragment.length ≤ 4 :=
  split_iff ⟨rfl, rfl⟩ (List.cons_ne_nil _ _) (by decide)

/-- The ClientKeyExchange for a PSK identity of 1239 bytes is one byte longer than a fragment. -/
theorem split_longIdentity :
    ¬SplitsWhole ⟨.clientKeyExchange, 1241, 1, 0, [0x04, 0xD7] ++ List.replicate 1239 0x61⟩
      (RecordLayer.MAX_PAYLOAD_SIZE - headerLength) := by
  intro h
  have hle := h.length_le (List.cons_ne_nil _ _) (by decide)
  rw [List.length_append, List.length_replicate] at hle
  exact absurd hle (by decide)

end FragmentedHandshake

end DtlsClient
