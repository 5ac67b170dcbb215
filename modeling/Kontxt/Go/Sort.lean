import Mathlib.Data.List.Sort
import Mathlib.Data.Prod.Lex

/-!
# Sorting a Slice

What a caller of `sort.Slice` may rely on. The function sorts by a strict weak
order and is not stable, so elements that compare equal may come out in any
order. `SortSlice` is any function with that behaviour, and a result stated for
all of them does not lean on the algorithm the standard library happens to use.

Stability stops mattering once no two elements compare equal. The comparisons
the repository passes order records by a key, and `sort_strict` says that
distinct keys come out strictly increasing, which pins the result down:
`eq_of_strict` makes a strictly increasing permutation unique.

## Main definitions

* `StrictWeak`: A comparison `sort.Slice` accepts.
* `lessBy`: Comparing records by a key.
* `SortSlice`: A function that behaves as `sort.Slice` is documented to.
* `SortSlice.insertion`: Insertion sort, to run the model with.

## Theorems

* `strictWeak_lessBy`: Comparing by a key is a strict weak order.
* `sort_strict`: Distinct keys are sorted strictly.
* `eq_of_strict`: Strictly increasing permutations are equal.
* `sort_eq_of_perm`: Sorting by distinct keys forgets the order.
-/

namespace Kontxt

namespace Go

/-- A comparison that orders its arguments up to ties: asymmetric, and with
    ties an equivalence. -/
structure StrictWeak {α : Type} (less : α → α → Bool) : Prop where
  asymm : ∀ a b, less a b = true → less b a = false
  split : ∀ a b c, less a c = true → less a b = true ∨ less b c = true

/-- Comparing records by a key. -/
def lessBy {α κ : Type} [LinearOrder κ] (key : α → κ) (a b : α) : Bool :=
  decide (key a < key b)

theorem strictWeak_lessBy {α κ : Type} [LinearOrder κ] (key : α → κ) :
    StrictWeak (lessBy key) where
  asymm := by
    intro a b h
    simp only [lessBy, decide_eq_true_eq, decide_eq_false_iff_not] at h ⊢
    exact not_lt_of_gt h
  split := by
    intro a b c h
    simp only [lessBy, decide_eq_true_eq] at h ⊢
    rcases lt_or_ge (key a) (key b) with hab | hba
    · exact Or.inl hab
    · exact Or.inr (lt_of_le_of_lt hba h)

/-- A function that behaves as `sort.Slice` is documented to: it permutes its
    argument, and under a strict weak order leaves no later element below an
    earlier one. Nothing is promised about the order of ties. -/
structure SortSlice where
  sort : {α : Type} → (α → α → Bool) → List α → List α
  perm : ∀ {α : Type} (less : α → α → Bool) (l : List α), (sort less l).Perm l
  sorted : ∀ {α : Type} (less : α → α → Bool) (l : List α), StrictWeak less →
    (sort less l).Pairwise (fun a b => less b a = false)

/-- Insertion sort. -/
def SortSlice.insertion : SortSlice where
  sort := fun less l => l.insertionSort (fun a b => less b a = false)
  perm := fun less l => List.perm_insertionSort _ l
  sorted := by
    intro α less l h
    have htotal : Std.Total (fun a b : α => less b a = false) := by
      refine ⟨fun a b => ?_⟩
      cases hba : less b a with
      | false => exact Or.inl rfl
      | true => exact Or.inr (h.asymm b a hba)
    have htrans : IsTrans α (fun a b : α => less b a = false) := by
      refine ⟨fun a b c hab hbc => ?_⟩
      cases hca : less c a with
      | false => rfl
      | true =>
          -- A tie chain would have to break at `b` on one side or the other.
          rcases h.split c b a hca with hcb | hba
          · rw [← hcb, hbc]
          · rw [← hba, hab]
    exact List.pairwise_insertionSort _ l

variable {α κ : Type} [LinearOrder κ]

/-- Distinct keys come out strictly increasing. -/
theorem sort_strict (S : SortSlice) (key : α → κ) (l : List α) (hnd : (l.map key).Nodup) :
    (S.sort (lessBy key) l).Pairwise (fun a b => key a < key b) := by
  have hsorted := S.sorted (lessBy key) l (strictWeak_lessBy key)
  have hnd' : ((S.sort (lessBy key) l).map key).Nodup :=
    ((S.perm (lessBy key) l).map key).nodup_iff.mpr hnd
  rw [List.Nodup, List.pairwise_map] at hnd'
  refine (hsorted.and hnd').imp ?_
  intro a b hgiven
  rcases hgiven with ⟨hle, hne⟩
  simp only [lessBy, decide_eq_false_iff_not, not_lt] at hle
  exact lt_of_le_of_ne hle hne

/-- A strictly increasing permutation of a slice is unique. -/
theorem eq_of_strict (key : α → κ) {l l' : List α}
    (hl : l.Pairwise (fun a b => key a < key b)) (hl' : l'.Pairwise (fun a b => key a < key b))
    (hperm : l.Perm l') : l = l' :=
  hperm.eq_of_pairwise (fun _ _ _ _ hab hba => absurd hab (not_lt_of_gt hba)) hl hl'

/-- Distinct keys come out in one order, whatever order they came in and
    whatever the algorithm does with ties. -/
theorem sort_eq_of_perm (S S' : SortSlice) (key : α → κ) {l l' : List α} (hperm : l.Perm l')
    (hnd : (l.map key).Nodup) : S.sort (lessBy key) l = S'.sort (lessBy key) l' := by
  have hnd' : (l'.map key).Nodup := (hperm.map key).nodup_iff.mp hnd
  refine eq_of_strict key (sort_strict S key l hnd) (sort_strict S' key l' hnd') ?_
  exact (S.perm _ l).trans (hperm.trans (S'.perm _ l').symm)

end Go

end Kontxt
