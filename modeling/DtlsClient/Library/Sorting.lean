import Mathlib.Data.List.Chain
import Mathlib.Data.List.Sort

/-!
# Sorting by a key

Insertion sort leaves the elements of one key in the order they came in.  What a sorted list has at
its end, and whether each element stands in a relation to the next one, is told from the list as it was
before: only the last element of each key counts.
-/

namespace Library

variable {α β : Type} [LinearOrder β]

def sortBy (key : α → β) (l : List α) : List α := l.insertionSort fun a b => key a ≤ key b

/-- Of the elements with its key it comes last. -/
def LastOfKey (key : α → β) (l : List α) (a : α) : Prop :=
  (l.filter fun b => key b = key a).getLast? = some a

variable {key : α → β} {l : List α} {a : α}

theorem pairwise_sortBy (key : α → β) (l : List α) :
    (sortBy key l).Pairwise fun a b => key a ≤ key b := List.pairwise_insertionSort _ l

theorem mem_sortBy : a ∈ sortBy key l ↔ a ∈ l := List.mem_insertionSort _

-- Elements of one key do not change their order.
theorem filter_sortBy (key : α → β) (l : List α) (k : β) :
    ((sortBy key l).filter fun a => key a = k) = l.filter fun a => key a = k := by
  have hkeys : ∀ a ∈ l.filter (fun a => key a = k), key a = k :=
    fun a ha => of_decide_eq_true (List.mem_filter.mp ha).2
  have hequal : (l.filter fun a => key a = k).Pairwise fun a b => key a ≤ key b := by
    apply List.pairwise_of_forall_mem_list
    intro a ha b hb
    rw [hkeys a ha, hkeys b hb]
  have hsublist := (List.sublist_insertionSort hequal List.filter_sublist).filter
    fun a => decide (key a = k)
  rw [List.filter_filter] at hsublist
  simp only [Bool.and_self] at hsublist
  have hperm := (List.perm_insertionSort (fun a b => key a ≤ key b) l).filter
    fun a => decide (key a = k)
  exact (hsublist.eq_of_length hperm.length_eq.symm).symm

theorem lastOfKey_sortBy : LastOfKey key (sortBy key l) a ↔ LastOfKey key l a := by
  unfold LastOfKey
  rw [filter_sortBy]

theorem LastOfKey.mem (h : LastOfKey key l a) : a ∈ l :=
  (List.mem_filter.mp (List.mem_of_getLast? h)).1

theorem lastOfKey_concat : LastOfKey key (l ++ [a]) a := by
  unfold LastOfKey
  rw [List.filter_append, List.filter_cons, if_pos (decide_eq_true rfl), List.filter_nil,
    List.getLast?_concat]

-- An element in front counts no more than those behind it.
theorem lastOfKey_cons {b : α} (hb : ∃ c ∈ l, key c = key a) :
    LastOfKey key (b :: l) a ↔ LastOfKey key l a := by
  unfold LastOfKey
  rcases hb with ⟨c, hc, hkey⟩
  have hne : (l.filter fun c => key c = key a) ≠ [] :=
    List.ne_nil_of_mem (List.mem_filter.mpr ⟨hc, decide_eq_true hkey⟩)
  by_cases hba : key b = key a
  · rw [List.filter_cons, if_pos (decide_eq_true hba), List.getLast?_cons,
      List.getLast?_eq_some_getLast hne]
    rfl
  · rw [List.filter_cons, if_neg (by simpa using hba)]

theorem key_le_of_mem {b : α} (hsorted : (a :: l).Pairwise fun a b => key a ≤ key b)
    (hb : b ∈ a :: l) : key a ≤ key b := by
  rcases List.mem_cons.mp hb with rfl | hb
  · exact le_rfl
  · exact (List.pairwise_cons.mp hsorted).1 b hb

-- Where the next element has a greater key, all that follow have.
theorem lastOfKey_first {b : α} (hsorted : (b :: l).Pairwise fun a b => key a ≤ key b)
    (hlt : key a < key b) : LastOfKey key (a :: b :: l) a := by
  have hnone : (b :: l).filter (fun b => key b = key a) = [] := by
    rw [List.filter_eq_nil_iff]
    intro c hc heq
    exact absurd (of_decide_eq_true heq) (ne_of_gt (lt_of_lt_of_le hlt (key_le_of_mem hsorted hc)))
  unfold LastOfKey
  rw [List.filter_cons, if_pos (decide_eq_true rfl), hnone]
  rfl

/-- A sorted list ends with the last of the elements that have the greatest key. -/
theorem getLast?_sorted (hsorted : l.Pairwise fun a b => key a ≤ key b) :
    l.getLast? = some a ↔ LastOfKey key l a ∧ ∀ b ∈ l, key b ≤ key a := by
  rcases List.eq_nil_or_concat' l with rfl | ⟨init, last, rfl⟩
  · constructor
    · intro h
      cases h
    · rintro ⟨h, _⟩
      cases h.mem
  · have hlast : ∀ b ∈ init ++ [last], key b ≤ key last := by
      intro b hb
      rcases List.mem_append.mp hb with hinit | hsame
      · exact (List.pairwise_append.mp hsorted).2.2 b hinit last List.mem_cons_self
      · rw [List.mem_singleton.mp hsame]
    rw [List.getLast?_concat, Option.some.injEq]
    constructor
    · rintro rfl
      exact ⟨lastOfKey_concat, hlast⟩
    · rintro ⟨h, hmax⟩
      have hkey : key last = key a :=
        le_antisymm (hmax last (List.mem_append_right _ List.mem_cons_self)) (hlast a h.mem)
      unfold LastOfKey at h
      rw [List.filter_append, List.filter_cons, if_pos (decide_eq_true hkey), List.filter_nil,
        List.getLast?_concat] at h
      exact Option.some.inj h

theorem LastOfKey.eq_first {x a : α} (h : LastOfKey key (x :: l) a)
    (hfirst : ¬∃ c ∈ l, key c = key a) : a = x := by
  rcases List.mem_cons.mp h.mem with hax | hin
  · exact hax
  · exact absurd ⟨a, hin, rfl⟩ hfirst

/-- In a sorted list each element stands in the relation to the next one if, for each key but the
greatest, the last element with this key stands in it to some element of a greater key. -/
theorem isChain_sorted_iff {R : α → α → Prop} (hequal : ∀ a b, key a = key b → R a b)
    (hmono : ∀ a b c, key b ≤ key c → R a c → R a b)
    (hsorted : l.Pairwise fun a b => key a ≤ key b) :
    l.IsChain R ↔ ∀ a, LastOfKey key l a →
      (∀ b ∈ l, key b ≤ key a) ∨ ∃ b ∈ l, key a < key b ∧ R a b := by
  induction l with
  | nil => exact iff_of_true .nil fun a h => by cases h.mem
  | cons x l ih =>
      rw [List.pairwise_cons] at hsorted
      rcases hsorted with ⟨hfirst, hrest⟩
      have htail := ih hrest
      cases l with
      | nil =>
          refine iff_of_true (.singleton x) fun a h => .inl ?_
          rw [List.mem_singleton.mp h.mem]
          intro b hb
          rw [List.mem_singleton.mp hb]
      | cons y l =>
          have hxy : key x ≤ key y := hfirst y List.mem_cons_self
          rw [List.isChain_cons_cons, htail]
          constructor
          · rintro ⟨hR, hchain⟩ a ha
            by_cases hmem : ∃ c ∈ y :: l, key c = key a
            · rw [lastOfKey_cons hmem] at ha
              rcases hchain a ha with hmax | ⟨b, hb, hlt, hRb⟩
              · left
                intro b hb
                rcases List.mem_cons.mp hb with rfl | hb
                · exact le_trans hxy (hmax y List.mem_cons_self)
                · exact hmax b hb
              · exact .inr ⟨b, List.mem_cons_of_mem _ hb, hlt, hRb⟩
            · -- the element is the first one, and all others have greater keys
              have hax := ha.eq_first hmem
              subst hax
              have hlt : key a < key y := lt_of_le_of_ne hxy fun heq =>
                hmem ⟨y, List.mem_cons_self, heq.symm⟩
              exact .inr ⟨y, List.mem_cons_of_mem _ List.mem_cons_self, hlt, hR⟩
          · intro hall
            constructor
            · rcases lt_or_eq_of_le hxy with hlt | heq
              · rcases hall x (lastOfKey_first hrest hlt) with hmax | ⟨b, hb, hltb, hRb⟩
                · exact absurd (hmax y (List.mem_cons_of_mem _ List.mem_cons_self)) (not_le_of_gt hlt)
                · rcases List.mem_cons.mp hb with rfl | hb
                  · exact absurd hltb (lt_irrefl _)
                  · exact hmono x y b (key_le_of_mem hrest hb) hRb
              · exact hequal x y heq
            · intro a ha
              have hmem : ∃ c ∈ y :: l, key c = key a := ⟨a, ha.mem, rfl⟩
              rcases hall a ((lastOfKey_cons hmem).mpr ha) with hmax | ⟨b, hb, hlt, hRb⟩
              · exact .inl fun b hb => hmax b (List.mem_cons_of_mem _ hb)
              · rcases List.mem_cons.mp hb with rfl | hb
                · exact absurd (hfirst a ha.mem) (not_le_of_gt hlt)
                · exact .inr ⟨b, hb, hlt, hRb⟩

end Library
