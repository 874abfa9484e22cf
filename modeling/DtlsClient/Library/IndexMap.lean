import Mathlib.Data.List.Sort

/-!
# Objects keyed by array indices

A dynamic-language object whose property names are array indices enumerates them in ascending order.
`IndexMap` is such an object: its entries are sorted by their index.
-/

namespace Library

structure IndexMap (α : Type) where
  entries : List (Nat × α)
  sorted : entries.Pairwise fun a b => a.1 < b.1
deriving DecidableEq, Repr

namespace IndexMap

variable {α : Type}

def empty : IndexMap α := ⟨[], .nil⟩

/-- Assigning a property: replaces the entry with this index or adds one at its place. -/
def insertEntry (i : Nat) (a : α) : List (Nat × α) → List (Nat × α)
  | [] => [(i, a)]
  | e :: es =>
      if i < e.1 then (i, a) :: e :: es
      else if i = e.1 then (i, a) :: es
      else e :: insertEntry i a es

theorem mem_insertEntry {i : Nat} {a : α} {es : List (Nat × α)} {e : Nat × α}
    (h : e ∈ insertEntry i a es) : e = (i, a) ∨ e ∈ es := by
  induction es with
  | nil => exact .inl (List.mem_singleton.mp h)
  | cons x xs ih =>
      rw [insertEntry] at h
      split at h
      · exact List.mem_cons.mp h
      · split at h
        · rcases List.mem_cons.mp h with h | h
          · exact .inl h
          · exact .inr (List.mem_cons_of_mem _ h)
        · rcases List.mem_cons.mp h with h | h
          · exact .inr (h ▸ List.mem_cons_self)
          · exact (ih h).imp_right (List.mem_cons_of_mem _)

theorem insertEntry_sorted (i : Nat) (a : α) {es : List (Nat × α)}
    (h : es.Pairwise fun a b => a.1 < b.1) :
    (insertEntry i a es).Pairwise fun a b => a.1 < b.1 := by
  induction es with
  | nil => exact List.pairwise_singleton _ _
  | cons x xs ih =>
      rw [List.pairwise_cons] at h
      rw [insertEntry]
      split
      · rename_i hlt
        refine List.pairwise_cons.mpr ⟨fun y hy => ?_, List.pairwise_cons.mpr h⟩
        rcases List.mem_cons.mp hy with rfl | hy
        · exact hlt
        · exact Nat.lt_trans hlt (h.1 y hy)
      · split
        · rename_i heq
          exact List.pairwise_cons.mpr ⟨fun y hy => heq ▸ h.1 y hy, h.2⟩
        · rename_i hlt hne
          refine List.pairwise_cons.mpr ⟨fun y hy => ?_, ih h.2⟩
          rcases mem_insertEntry hy with rfl | hy
          · exact Nat.lt_of_le_of_ne (Nat.le_of_not_lt hlt) (Ne.symm hne)
          · exact h.1 y hy

def set (m : IndexMap α) (i : Nat) (a : α) : IndexMap α :=
  ⟨insertEntry i a m.entries, insertEntry_sorted i a m.sorted⟩

def get? (m : IndexMap α) (i : Nat) : Option α := m.entries.lookup i

def keys (m : IndexMap α) : List Nat := m.entries.map Prod.fst

def values (m : IndexMap α) : List α := m.entries.map Prod.snd

/-- The entry with the greatest index. -/
def last? (m : IndexMap α) : Option α := m.entries.getLast?.map Prod.snd

theorem keys_sorted (m : IndexMap α) : m.keys.Pairwise (· < ·) := List.pairwise_map.mpr m.sorted

theorem mem_keys_set {m : IndexMap α} {i : Nat} {a : α} {k : Nat} :
    k ∈ (m.set i a).keys ↔ k = i ∨ k ∈ m.keys := by
  unfold keys set
  simp only
  induction m.entries with
  | nil => exact ⟨fun h => .inl (List.mem_singleton.mp h), fun h =>
      List.mem_singleton.mpr (h.resolve_right List.not_mem_nil)⟩
  | cons e es ih =>
      rw [insertEntry]
      split
      · rw [List.map_cons, List.mem_cons]
      · split
        · rename_i heq
          rw [List.map_cons, List.map_cons, List.mem_cons, List.mem_cons, heq]
          exact ⟨fun h => h.imp_right .inr, fun h => h.elim .inl fun h => h⟩
        · rw [List.map_cons, List.map_cons, List.mem_cons, List.mem_cons, ih]
          exact or_left_comm

theorem lookup_insertEntry (i : Nat) (a : α) (es : List (Nat × α)) :
    (insertEntry i a es).lookup i = some a := by
  induction es with
  | nil => exact List.lookup_cons_self
  | cons e es ih =>
      rw [insertEntry]
      split
      · exact List.lookup_cons_self
      · split
        · exact List.lookup_cons_self
        · rename_i hne
          have hkey : (i == e.1) = false := beq_false_of_ne hne
          rw [List.lookup_cons, hkey]
          exact ih

theorem get?_set_self (m : IndexMap α) (i : Nat) (a : α) : (m.set i a).get? i = some a :=
  lookup_insertEntry i a m.entries

theorem getLast?_insertEntry {i : Nat} {a : α} {es : List (Nat × α)}
    (hsorted : es.Pairwise fun a b => a.1 < b.1) (h : ∀ e ∈ es, e.1 ≤ i) :
    (insertEntry i a es).getLast?.map Prod.snd = some a := by
  induction es with
  | nil => rfl
  | cons e es ih =>
      rw [List.pairwise_cons] at hsorted
      have he : e.1 ≤ i := h e List.mem_cons_self
      rw [insertEntry, if_neg (by omega)]
      split
      · rename_i heq
        -- nothing comes after an entry with the greatest index
        have hnil : es = [] := by
          apply List.eq_nil_iff_forall_not_mem.mpr
          intro e' he'
          have hlt := hsorted.1 e' he'
          have hle := h e' (List.mem_cons_of_mem _ he')
          omega
        rw [hnil]
        rfl
      · have hrest := ih hsorted.2 fun e' he' => h e' (List.mem_cons_of_mem _ he')
        rw [List.getLast?_cons]
        cases hlast : (insertEntry i a es).getLast? with
        | none =>
            rw [hlast] at hrest
            cases hrest
        | some e' =>
            rw [hlast] at hrest
            exact hrest

-- An assignment at or beyond the end is the last entry.
theorem last?_set {m : IndexMap α} {i : Nat} {a : α} (h : ∀ k ∈ m.keys, k ≤ i) :
    (m.set i a).last? = some a :=
  getLast?_insertEntry m.sorted fun e he => h e.1 (List.mem_map_of_mem he)

theorem mem_insertEntry_iff {i : Nat} {a : α} {es : List (Nat × α)}
    (hsorted : es.Pairwise fun a b => a.1 < b.1) {e : Nat × α} :
    e ∈ insertEntry i a es ↔ e = (i, a) ∨ e ∈ es ∧ e.1 ≠ i := by
  induction es with
  | nil => simp [insertEntry]
  | cons x xs ih =>
      rw [List.pairwise_cons] at hsorted
      rw [insertEntry]
      split
      · rename_i hlt
        -- what is there comes after the new entry
        have hne : ∀ y ∈ x :: xs, y.1 ≠ i := by
          intro y hy
          rcases List.mem_cons.mp hy with rfl | hy
          · omega
          · have hxy := hsorted.1 y hy
            omega
        rw [List.mem_cons]
        exact or_congr_right ⟨fun hy => ⟨hy, hne e hy⟩, fun hy => hy.1⟩
      · split
        · rename_i heq
          have hne : ∀ y ∈ xs, y.1 ≠ i := by
            intro y hy
            have hxy := hsorted.1 y hy
            omega
          rw [List.mem_cons, List.mem_cons]
          refine or_congr_right ⟨fun hy => ⟨.inr hy, hne e hy⟩, fun hy => ?_⟩
          rcases hy with ⟨rfl | hy, hi⟩
          · exact absurd heq.symm hi
          · exact hy
        · rename_i hne
          rw [List.mem_cons, ih hsorted.2, List.mem_cons]
          constructor
          · rintro (rfl | rfl | hy)
            · exact .inr ⟨.inl rfl, fun h => hne h.symm⟩
            · exact .inl rfl
            · exact .inr ⟨.inr hy.1, hy.2⟩
          · rintro (rfl | ⟨rfl | hy, hi⟩)
            · exact .inr (.inl rfl)
            · exact .inl rfl
            · exact .inr (.inr ⟨hy, hi⟩)

theorem mem_entries_set {m : IndexMap α} {i : Nat} {a : α} {e : Nat × α} :
    e ∈ (m.set i a).entries ↔ e = (i, a) ∨ e ∈ m.entries ∧ e.1 ≠ i :=
  mem_insertEntry_iff m.sorted

end IndexMap

/-! ## Lists that are sorted by a key -/

section Sorted

variable {α : Type} {key : α → Nat} {l sorted : List α}

theorem eq_of_key_eq (hsorted : sorted.Pairwise fun a b => key a < key b) {a b : α}
    (ha : a ∈ sorted) (hb : b ∈ sorted) (hkey : key a = key b) : a = b := by
  induction sorted with
  | nil => cases ha
  | cons x xs ih =>
      rw [List.pairwise_cons] at hsorted
      rcases List.mem_cons.mp ha with rfl | hax
      · rcases List.mem_cons.mp hb with rfl | hbx
        · rfl
        · have hlt := hsorted.1 b hbx
          omega
      · rcases List.mem_cons.mp hb with rfl | hbx
        · have hlt := hsorted.1 a hax
          omega
        · exact ih hsorted.2 hax hbx

theorem nodup_of_strict (hsorted : sorted.Pairwise fun a b => key a < key b) : sorted.Nodup :=
  hsorted.imp fun {a b} hlt heq => by
    rw [heq] at hlt
    omega

-- Sorting undoes any change of the order.
theorem insertionSort_eq_of_perm (hperm : l.Perm sorted)
    (hsorted : sorted.Pairwise fun a b => key a < key b) :
    l.insertionSort (fun a b => key a ≤ key b) = sorted := by
  have htotal : Std.Total fun a b : α => key a ≤ key b := ⟨fun a b => Nat.le_total _ _⟩
  have htrans : IsTrans α fun a b : α => key a ≤ key b := ⟨fun a b c => Nat.le_trans⟩
  have hperm' := (List.perm_insertionSort (fun a b : α => key a ≤ key b) l).trans hperm
  apply List.Perm.eq_of_pairwise _ (List.pairwise_insertionSort _ l)
    (hsorted.imp fun hlt => Nat.le_of_lt hlt) hperm'
  intro a b ha hb hab hba
  exact eq_of_key_eq hsorted (hperm'.mem_iff.mp ha) hb (by omega)

-- Two lists in strict order with the same members are the same.
theorem eq_of_strict {l' : List α} (hl : l.Pairwise fun a b => key a < key b)
    (hl' : l'.Pairwise fun a b => key a < key b) (hmem : ∀ a, a ∈ l ↔ a ∈ l') : l = l' := by
  have hperm := (List.perm_ext_iff_of_nodup (nodup_of_strict hl) (nodup_of_strict hl')).mpr hmem
  apply List.Perm.eq_of_pairwise _ (hl.imp fun hlt => Nat.le_of_lt hlt)
    (hl'.imp fun hlt => Nat.le_of_lt hlt) hperm
  intro a b ha hb hab hba
  exact eq_of_key_eq hl' (hperm.mem_iff.mp ha) hb (by omega)

end Sorted

end Library
