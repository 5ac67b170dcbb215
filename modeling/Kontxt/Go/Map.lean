import Mathlib.Data.Finmap

/-!
# Go Maps

A Go map is a finite map with no order of its own. Mathlib's `Finmap` is that
object, and its equality is the one `reflect.DeepEqual` has in mind: same keys,
same value at each.

Two things a Go program does with a map are not in Mathlib and are added here.
A `range` loop that rebuilds the map value by value is `mapVal`, and one that
deletes the entries it selects is `deleteKeys`; the language allows deleting
during iteration, and each entry is judged by its own key, so the order of the
loop does not show. A `range` loop that collects the values into a slice does
show it. `Ranges` relates a map to every slice such a loop can produce, and a
result about the loop quantifies over all of them.

## Main definitions

* `GoMap`: The type `map[K]V`.
* `mapVal`: The map with a function applied to every value.
* `deleteKeys`: The map without the keys a predicate selects.
* `Ranges`: A slice some `range` loop over the map can collect.
* `RangesKeys`, `RangesEntries`: The same for a loop over the keys, and over
  both.

## Theorems

* `mapVal_mapVal`: Mapping twice maps once.
* `mapVal_id`: Mapping the identity changes nothing.
* `lookup_deleteKeys`: Looking up after a selective deletion.
* `lookup_mapVal`: Looking up after mapping.
* `mem_of_ranges`, `mem_of_rangesKeys`: A collected slice holds exactly the map's
  values, or its keys.
* `mem_of_rangesEntries`, `nodup_of_rangesEntries`: A loop over the entries meets
  exactly the map's, and every key once.
* `exists_ranges`: Some slice can be collected.
* `ranges_singleton`: Collecting a map with one entry.
* `exists_ranges_of_mapVal_eq`: Collecting maps that agree after mapping.
-/

namespace Kontxt

namespace Go

/-- The type `map[K]V`. -/
abbrev GoMap (K V : Type) := Finmap (fun _ : K => V)

variable {K V W X : Type}

/-- Applying a function to every value, as `for k, v := range m` does when it
    stores `f(v)` under `k` in a fresh map. -/
def mapVal (f : V → W) (m : GoMap K V) : GoMap K W where
  entries := m.entries.map (fun e => ⟨e.1, f e.2⟩)
  nodupKeys := by
    have h := m.nodupKeys
    rw [← Multiset.nodup_keys, Multiset.keys] at h ⊢
    rw [Multiset.map_map]
    exact h

/-- Deleting the keys `p` selects, as `for k := range m` does when it calls
    `delete(m, k)` under a test of `k`. -/
def deleteKeys (p : K → Bool) (m : GoMap K V) : GoMap K V where
  entries := m.entries.filter (fun e => p e.1 = false)
  nodupKeys := by
    have h := m.nodupKeys
    rw [← Multiset.nodup_keys, Multiset.keys] at h ⊢
    exact Multiset.nodup_of_le (Multiset.map_le_map (Multiset.filter_le _ _)) h

/-- The slices a loop `for _, v := range m` can collect. -/
def Ranges (m : GoMap K V) (l : List V) : Prop :=
  (l : Multiset V) = m.entries.map Sigma.snd

/-- The slices a loop `for k := range m` can collect. -/
def RangesKeys (m : GoMap K V) (l : List K) : Prop :=
  (l : Multiset K) = m.entries.map Sigma.fst

/-- The entries in the order a loop `for k, v := range m` can meet them. -/
def RangesEntries (m : GoMap K V) (l : List (K × V)) : Prop :=
  (l : Multiset (K × V)) = m.entries.map fun e => (e.1, e.2)

theorem mapVal_mapVal (f : V → W) (g : W → X) (m : GoMap K V) :
    mapVal g (mapVal f m) = mapVal (fun v => g (f v)) m := by
  apply Finmap.ext
  simp only [mapVal, Multiset.map_map, Function.comp_def]

theorem mapVal_id (m : GoMap K V) : mapVal (fun v => v) m = m := by
  apply Finmap.ext
  simp only [mapVal, Sigma.eta, Multiset.map_id']

theorem eq_empty_of_card (m : GoMap K V) (h : ¬m.entries.card > 0) : m = ∅ := by
  have hzero : m.entries = 0 := Multiset.card_eq_zero.mp (by omega)
  exact Finmap.ext hzero

section Lookup

variable [DecidableEq K]

theorem lookup_deleteKeys (p : K → Bool) (m : GoMap K V) (k : K) :
    (deleteKeys p m).lookup k = if p k then none else m.lookup k := by
  apply Option.ext
  intro v
  rw [Finmap.lookup_eq_some_iff]
  simp only [deleteKeys, Multiset.mem_filter]
  cases hp : p k with
  | true => simp only [Bool.true_eq_false, and_false, if_true, reduceCtorEq]
  | false =>
      simp only [and_true, Bool.false_eq_true, if_false]
      exact Finmap.lookup_eq_some_iff.symm

theorem lookup_mapVal (f : V → W) (m : GoMap K V) (k : K) :
    (mapVal f m).lookup k = (m.lookup k).map f := by
  apply Option.ext
  intro w
  rw [Finmap.lookup_eq_some_iff, Option.map_eq_some_iff]
  simp only [mapVal, Multiset.mem_map, Finmap.lookup_eq_some_iff]
  constructor
  · intro hgiven
    rcases hgiven with ⟨⟨j, v⟩, hmem, heq⟩
    cases heq
    exact ⟨v, hmem, rfl⟩
  · intro hgiven
    rcases hgiven with ⟨v, hmem, rfl⟩
    exact ⟨⟨k, v⟩, hmem, rfl⟩

/-- The keys met hold exactly the keys of the map. -/
theorem mem_of_rangesKeys {m : GoMap K V} {l : List K} (h : RangesKeys m l) (k : K) :
    k ∈ l ↔ (m.lookup k).isSome = true := by
  rw [← Multiset.mem_coe, h, Option.isSome_iff_exists]
  simp only [Multiset.mem_map, Finmap.lookup_eq_some_iff]
  constructor
  · intro hgiven
    rcases hgiven with ⟨⟨j, v⟩, hmem, rfl⟩
    exact ⟨v, hmem⟩
  · intro hgiven
    rcases hgiven with ⟨v, hmem⟩
    exact ⟨⟨k, v⟩, hmem, rfl⟩

/-- A collected slice holds exactly the map's values. -/
theorem mem_of_ranges {m : GoMap K V} {l : List V} (h : Ranges m l) (v : V) :
    v ∈ l ↔ ∃ k, m.lookup k = some v := by
  rw [← Multiset.mem_coe, h]
  simp only [Multiset.mem_map, Finmap.lookup_eq_some_iff]
  constructor
  · intro hgiven
    rcases hgiven with ⟨⟨k, w⟩, hmem, rfl⟩
    exact ⟨k, hmem⟩
  · intro hgiven
    rcases hgiven with ⟨k, hmem⟩
    exact ⟨⟨k, v⟩, hmem, rfl⟩

/-- A loop over the entries meets exactly the map's. -/
theorem mem_of_rangesEntries {m : GoMap K V} {l : List (K × V)} (h : RangesEntries m l) (k : K)
    (v : V) : (k, v) ∈ l ↔ m.lookup k = some v := by
  rw [← Multiset.mem_coe, h, Multiset.mem_map, Finmap.lookup_eq_some_iff]
  constructor
  · intro hgiven
    rcases hgiven with ⟨⟨j, w⟩, hmem, heq⟩
    cases heq
    exact hmem
  · intro hmem
    exact ⟨⟨k, v⟩, hmem, rfl⟩

end Lookup

/-- A loop over the entries meets every key once. -/
theorem nodup_of_rangesEntries {m : GoMap K V} {l : List (K × V)} (h : RangesEntries m l) :
    (l.map Prod.fst).Nodup := by
  have hkeys : ((l.map Prod.fst : List K) : Multiset K) = m.entries.keys := by
    rw [← Multiset.map_coe, h, Multiset.map_map]
    rfl
  rw [← Multiset.coe_nodup, hkeys]
  exact Multiset.nodup_keys.mpr m.nodupKeys

/-- Some slice can be collected. -/
theorem exists_ranges (m : GoMap K V) : ∃ l, Ranges m l :=
  Quot.exists_rep (m.entries.map Sigma.snd)

/-- A map with one entry can be collected in one way. -/
theorem ranges_singleton (k : K) (v : V) (l : List V) :
    Ranges (Finmap.singleton k v) l ↔ l = [v] :=
  Multiset.coe_eq_singleton

/-- Maps that agree after a function is applied can be collected in agreeing
    ways. -/
theorem exists_ranges_of_mapVal_eq (f : V → W) (m m' : GoMap K V)
    (h : mapVal f m = mapVal f m') (l : List V) (hl : Ranges m l) :
    ∃ l', Ranges m' l' ∧ l'.map f = l.map f := by
  rcases exists_ranges m' with ⟨l', hl'⟩
  have hentries : ∀ n : GoMap K V,
      (n.entries.map Sigma.snd).map f = (mapVal f n).entries.map Sigma.snd := by
    intro n
    simp only [mapVal, Multiset.map_map, Function.comp_def]
  have hperm : (l.map f).Perm (l'.map f) := by
    rw [← Multiset.coe_eq_coe, ← Multiset.map_coe, ← Multiset.map_coe, hl, hl', hentries,
      hentries, h]
  have hforall : List.Forall₂ (fun b a => b = f a) (l'.map f) l' := by
    rw [List.forall₂_map_left_iff, List.forall₂_same]
    exact fun _ _ => rfl
  rcases List.perm_comp_forall₂ hperm hforall with ⟨l'', hmapped, hl''⟩
  refine ⟨l'', (Multiset.coe_eq_coe.mpr hl'').trans hl', ?_⟩
  have heq : List.Forall₂ Eq (l.map f) (l''.map f) := List.forall₂_map_right_iff.mpr hmapped
  exact (List.forall₂_eq_eq_eq ▸ heq : l.map f = l''.map f).symm

end Go

end Kontxt
