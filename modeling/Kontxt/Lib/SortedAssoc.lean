import Mathlib.Data.List.Basic
import Mathlib.Order.Lattice

/-!
# Association Lists in Key Order

A map written as the list of its entries in the order of their keys. Such a list
is determined by what is looked up in it, so two maps with the same entries are
written the same way.

## Main definitions

* `Ordered`: The entries stand in the order of their keys, each key once.
* `insertSorted`: Adding an entry, or replacing the one with its key.

## Theorems

* `ordered_insertSorted`, `lookup_insertSorted`, `mem_insertSorted`: The list after
  an insertion.
* `Ordered.lookup_eq_some_iff`: What is looked up is an entry.
* `Ordered.lookup_reverse`: The order of reading does not matter.
* `Ordered.ext`: What is looked up determines the list.
-/

namespace Kontxt

namespace Lib

variable {κ β : Type} [LinearOrder κ]

/-- The entries stand in the order of their keys, each key once. -/
def Ordered (l : List (κ × β)) : Prop :=
  l.Pairwise fun a b => a.1 < b.1

/-- Adding an entry, or replacing the one with its key. -/
def insertSorted (k : κ) (v : β) : List (κ × β) → List (κ × β)
  | [] => [(k, v)]
  | e :: rest =>
    if k < e.1 then (k, v) :: e :: rest
    else if k = e.1 then (k, v) :: rest
    else e :: insertSorted k v rest

theorem mem_insertSorted (k : κ) (v : β) (l : List (κ × β)) (e : κ × β)
    (h : e ∈ insertSorted k v l) : e = (k, v) ∨ e ∈ l := by
  induction l with
  | nil => exact Or.inl (List.mem_singleton.mp h)
  | cons x rest ih =>
      unfold insertSorted at h
      split at h
      · exact List.mem_cons.mp h
      · split at h
        · rcases List.mem_cons.mp h with h | h
          · exact Or.inl h
          · exact Or.inr (List.mem_cons_of_mem _ h)
        · rcases List.mem_cons.mp h with rfl | h
          · exact Or.inr List.mem_cons_self
          · exact (ih h).imp_right (List.mem_cons_of_mem _)

theorem ordered_insertSorted (k : κ) (v : β) (l : List (κ × β)) (h : Ordered l) :
    Ordered (insertSorted k v l) := by
  induction l with
  | nil => exact List.pairwise_singleton _ _
  | cons x rest ih =>
      rcases List.pairwise_cons.mp h with ⟨hfirst, hrest⟩
      unfold insertSorted
      split
      · rename_i hlt
        refine List.pairwise_cons.mpr ⟨?_, h⟩
        intro e he
        rcases List.mem_cons.mp he with rfl | he
        · exact hlt
        · exact lt_trans hlt (hfirst e he)
      · rename_i hnot
        split
        · rename_i heq
          exact List.pairwise_cons.mpr ⟨fun e he => heq ▸ hfirst e he, hrest⟩
        · rename_i hne
          refine List.pairwise_cons.mpr ⟨?_, ih hrest⟩
          intro e he
          rcases mem_insertSorted k v rest e he with rfl | he
          · exact lt_of_le_of_ne (not_lt.mp hnot) (Ne.symm hne)
          · exact hfirst e he

variable [BEq κ] [LawfulBEq κ]

theorem lookup_insertSorted (k : κ) (v : β) (l : List (κ × β)) (j : κ) :
    (insertSorted k v l).lookup j = if j = k then some v else l.lookup j := by
  induction l with
  | nil =>
      rw [insertSorted, List.lookup_cons, List.lookup_nil]
      by_cases hj : j = k
      · rw [beq_iff_eq.mpr hj, if_pos hj]
      · rw [beq_eq_false_iff_ne.mpr hj, if_neg hj]
  | cons x rest ih =>
      rcases x with ⟨key, value⟩
      unfold insertSorted
      split
      · rw [List.lookup_cons]
        by_cases hj : j = k
        · rw [beq_iff_eq.mpr hj, if_pos hj]
        · rw [beq_eq_false_iff_ne.mpr hj, if_neg hj]
      · split
        · rename_i heq
          have hkey : k = key := heq
          rw [List.lookup_cons, List.lookup_cons, ← hkey]
          by_cases hj : j = k
          · rw [beq_iff_eq.mpr hj, if_pos hj]
          · rw [beq_eq_false_iff_ne.mpr hj, if_neg hj]
        · rename_i hne
          rw [List.lookup_cons, List.lookup_cons, ih]
          by_cases hkey : j = key
          · have hj : j ≠ k := fun hj => hne (hj.symm.trans hkey)
            simp only [beq_iff_eq.mpr hkey, if_neg hj]
          · rw [beq_eq_false_iff_ne.mpr hkey]

/-- What is looked up is an entry. -/
theorem Ordered.lookup_eq_some_iff (l : List (κ × β)) (h : Ordered l) (k : κ) (v : β) :
    l.lookup k = some v ↔ (k, v) ∈ l := by
  induction l with
  | nil => simp
  | cons x rest ih =>
      rcases x with ⟨key, value⟩
      rcases List.pairwise_cons.mp h with ⟨hfirst, hrest⟩
      rw [List.lookup_cons, List.mem_cons]
      by_cases hkey : k = key
      · subst hkey
        rw [beq_self_eq_true]
        constructor
        · intro hv
          cases hv
          exact Or.inl rfl
        · rintro (heq | hmem)
          · cases heq
            rfl
          · exact absurd (hfirst _ hmem) (lt_irrefl k)
      · rw [beq_eq_false_iff_ne.mpr hkey, ih hrest]
        constructor
        · exact Or.inr
        · rintro (heq | hmem)
          · cases heq
            exact absurd rfl hkey
          · exact hmem

/-- Reading the entries from the end finds the same. -/
theorem Ordered.lookup_reverse (l : List (κ × β)) (h : Ordered l) (k : κ) :
    l.reverse.lookup k = l.lookup k := by
  induction l with
  | nil => rfl
  | cons x rest ih =>
      rcases x with ⟨key, value⟩
      rcases List.pairwise_cons.mp h with ⟨hfirst, hrest⟩
      rw [List.reverse_cons, List.lookup_append, ih hrest, List.lookup_cons, List.lookup_cons,
        List.lookup_nil]
      by_cases hkey : k = key
      · subst hkey
        have hnone : rest.lookup k = none := by
          rw [List.lookup_eq_none_iff]
          intro e he
          exact bne_iff_ne.mpr (ne_of_lt (hfirst e he))
        rw [beq_self_eq_true, hnone]
        rfl
      · rw [beq_eq_false_iff_ne.mpr hkey]
        exact Option.or_none

/-- What is looked up determines the list. -/
theorem Ordered.ext (l₁ l₂ : List (κ × β)) (h₁ : Ordered l₁) (h₂ : Ordered l₂)
    (h : ∀ k, l₁.lookup k = l₂.lookup k) : l₁ = l₂ := by
  -- The entries are the same, and an order has one way to list them.
  have hmem : ∀ e, e ∈ l₁ ↔ e ∈ l₂ := by
    intro e
    rw [← Ordered.lookup_eq_some_iff l₁ h₁ e.1 e.2, ← Ordered.lookup_eq_some_iff l₂ h₂ e.1 e.2, h]
  have hnodup : ∀ l : List (κ × β), Ordered l → l.Nodup := by
    intro l hl
    exact hl.imp fun hlt heq => absurd (heq ▸ hlt) (lt_irrefl _)
  have hperm : l₁.Perm l₂ := (List.perm_ext_iff_of_nodup (hnodup l₁ h₁) (hnodup l₂ h₂)).mpr hmem
  exact hperm.eq_of_pairwise (fun a b _ _ hab hba => absurd (lt_trans hab hba) (lt_irrefl _)) h₁ h₂

end Lib

end Kontxt
