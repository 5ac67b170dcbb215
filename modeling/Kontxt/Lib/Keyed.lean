import Kontxt.Go.Map

/-!
# Keyed Lists and Maps

Two ways of holding records under keys. One party keeps a list and edits it by
scanning for the first record with a key; the other keeps a map. Both stand for
the same thing, a partial function from keys to records, and `view` is that
function for a list.

The editing operations are described by what they do to the view. Replacing
the first match or appending (`upsertFirst`) updates the view at one key
whatever the list holds. Removing the first match does not, when a key occurs
twice: it uncovers the second record. So removal is described for lists whose
keys are distinct, which is why `DistinctKeys` has to be carried along, and
every operation here preserves it. Removing by a test of the key (`List.filter`)
drops all matches and needs no such care.

On the map side `insertAll` stores records one after another, and the last
record stored under a key is the one found, hence the reversed list in
`lookup_insertAll`.

## Main definitions

* `view`: The partial function a keyed list stands for.
* `DistinctKeys`: No key occurs twice.
* `upsertFirst`: Replace the first record with the key, or append.
* `insertAll`: Store a list of records in a map, in order.

## Theorems

* `view_upsertFirst`: Upserting updates the view at one key.
* `view_eraseP`: Removing the first match clears the view at one key.
* `view_filter`: Filtering by key clears the view where the filter says.
* `view_reverse`: Distinct keys make the scan order irrelevant.
* `view_flatMap_reverse`: Looking through lists joined together.
* `distinctKeys_upsertFirst`: Upserting keeps keys distinct.
* `lookup_insertAll`: Stored records are found, the last one under a key first.
* `lookup_insertAll_empty`: Storing distinct keys in an empty map gives the view.
* `ranges_insertAll`, `perm_of_ranges_insertAll`: Collecting what was stored gives it
  back, up to order.
-/

namespace Kontxt

namespace Lib

open Go

variable {α κ : Type} [DecidableEq κ] (key : α → κ)

/-- The partial function a keyed list stands for: a scan for the key. -/
def view (l : List α) (k : κ) : Option α :=
  l.find? (fun r => key r = k)

/-- No key occurs twice. -/
def DistinctKeys (l : List α) : Prop :=
  (l.map key).Nodup

instance (l : List α) : Decidable (DistinctKeys key l) :=
  inferInstanceAs (Decidable (l.map key).Nodup)

/-- Replace the first record with the new record's key, or append it. -/
def upsertFirst (r : α) : List α → List α
  | [] => [r]
  | x :: xs => if key x = key r then r :: xs else x :: upsertFirst r xs

/-- Store a list of records in a map, in order. -/
def insertAll (m : GoMap κ α) (l : List α) : GoMap κ α :=
  l.foldl (fun m r => m.insert (key r) r) m

theorem view_cons (x : α) (xs : List α) (k : κ) :
    view key (x :: xs) k = if key x = k then some x else view key xs k := by
  unfold view
  rw [List.find?_cons]
  by_cases hx : key x = k
  · simp only [hx, decide_true, if_true]
  · simp only [hx, decide_false, if_false]

theorem view_append (l l' : List α) (k : κ) :
    view key (l ++ l') k = (view key l k).or (view key l' k) := by
  unfold view
  rw [List.find?_append]

/-- Looking among images is looking for what they are images of. -/
theorem view_map {β : Type} (f : β → α) (l : List β) (k : κ) :
    view key (l.map f) k = (view (fun b => key (f b)) l k).map f := by
  unfold view
  rw [List.find?_map]
  rfl

/-- Renaming keys one to one does not change what is found. -/
theorem view_injective {ι : Type} [DecidableEq ι] (g : κ → ι) (hg : Function.Injective g)
    (l : List α) (k : κ) : view (fun r => g (key r)) l (g k) = view key l k := by
  unfold view
  simp only [hg.eq_iff]

theorem view_eq_none (l : List α) (k : κ) (h : k ∉ l.map key) : view key l k = none := by
  unfold view
  rw [List.find?_eq_none]
  intro r hr hk
  exact h (List.mem_map.mpr ⟨r, hr, of_decide_eq_true hk⟩)

/-- A record the view finds is in the list, under the key asked for. -/
theorem mem_of_view (l : List α) (k : κ) (r : α) (h : view key l k = some r) :
    r ∈ l ∧ key r = k := by
  unfold view at h
  have hk := List.find?_some h
  exact ⟨List.mem_of_find?_eq_some h, of_decide_eq_true hk⟩

/-- With distinct keys every record of the list is the one its key finds. -/
theorem view_of_mem (l : List α) (hd : DistinctKeys key l) (r : α) (hr : r ∈ l) :
    view key l (key r) = some r := by
  induction l with
  | nil => exact absurd hr List.not_mem_nil
  | cons x xs ih =>
      rw [DistinctKeys, List.map_cons, List.nodup_cons] at hd
      rw [view_cons]
      rcases List.mem_cons.mp hr with rfl | hmem
      · rw [if_pos rfl]
      · have hne : key x ≠ key r := by
          intro hc
          exact hd.1 (hc ▸ List.mem_map_of_mem hmem)
        rw [if_neg hne]
        -- The head has another key, so the scan goes on.
        exact ih hd.2 hmem

/-- Upserting updates the view at one key and nowhere else. -/
theorem view_upsertFirst (r : α) (l : List α) (k : κ) :
    view key (upsertFirst key r l) k = if key r = k then some r else view key l k := by
  induction l with
  | nil => rw [upsertFirst, view_cons]
  | cons x xs ih =>
      rw [upsertFirst]
      by_cases hx : key x = key r
      · rw [if_pos hx, view_cons, view_cons, hx]
        by_cases hk : key r = k
        · rw [if_pos hk, if_pos hk]
        · rw [if_neg hk, if_neg hk, if_neg hk]
      · rw [if_neg hx, view_cons, view_cons, ih]
        by_cases hk : key r = k
        · rw [if_pos hk, if_pos hk, if_neg (fun hc => hx (hc.trans hk.symm))]
        · rw [if_neg hk, if_neg hk]

/-- Removing the first record with a key clears the view there, provided no
    second record was hiding behind it. -/
theorem view_eraseP (k₀ : κ) (l : List α) (hd : DistinctKeys key l) (k : κ) :
    view key (l.eraseP (fun r => key r = k₀)) k = if k₀ = k then none else view key l k := by
  induction l with
  | nil =>
      rw [List.eraseP_nil, view_eq_none key [] k List.not_mem_nil]
      simp only [ite_self]
  | cons x xs ih =>
      rw [DistinctKeys, List.map_cons, List.nodup_cons] at hd
      rw [List.eraseP_cons, view_cons]
      by_cases hx : key x = k₀
      · simp only [hx, decide_true, cond_true]
        by_cases hk : k₀ = k
        · rw [if_pos hk, ← hk, ← hx]
          -- Distinct keys: no second record comes to light.
          exact view_eq_none key xs (key x) hd.1
        · rw [if_neg hk, if_neg hk]
      · simp only [hx, decide_false, cond_false]
        rw [view_cons, ih hd.2]
        by_cases hk : k₀ = k
        · rw [if_pos hk, if_pos hk, if_neg (fun hc => hx (hc.trans hk.symm))]
        · rw [if_neg hk, if_neg hk]

/-- Filtering by a test of the key clears the view where the test fails. -/
theorem view_filter (p : κ → Bool) (l : List α) (k : κ) :
    view key (l.filter (fun r => p (key r))) k = if p k then view key l k else none := by
  induction l with
  | nil =>
      rw [List.filter_nil, view_eq_none key [] k List.not_mem_nil]
      simp only [ite_self]
  | cons x xs ih =>
      rw [List.filter_cons, view_cons]
      by_cases hp : p (key x) = true
      · rw [if_pos hp, view_cons, ih]
        by_cases hk : key x = k
        · rw [if_pos hk, if_pos hk, if_pos (hk ▸ hp)]
        · rw [if_neg hk, if_neg hk]
      · rw [if_neg hp, ih]
        by_cases hk : key x = k
        · rw [if_neg (hk ▸ hp), if_neg (hk ▸ hp)]
        · rw [if_neg hk]

/-- With distinct keys a scan from the back finds what a scan from the front
    finds. -/
theorem view_reverse (l : List α) (hd : DistinctKeys key l) (k : κ) :
    view key l.reverse k = view key l k := by
  induction l with
  | nil => rfl
  | cons x xs ih =>
      rw [DistinctKeys, List.map_cons, List.nodup_cons] at hd
      rw [List.reverse_cons, view_append, ih hd.2, view_cons, view_cons]
      by_cases hk : key x = k
      · rw [if_pos hk, if_pos hk, view_eq_none key xs k (hk ▸ hd.1), Option.none_or]
      · rw [if_neg hk, if_neg hk, view_eq_none key [] k List.not_mem_nil, Option.or_none]

/-- Looking from the back through lists joined together. When the key tells
    which list a record is from, the order of the lists does not matter. -/
theorem view_flatMap_reverse {γ ι : Type} (f : γ → List α) (group : κ → ι) (name : γ → ι)
    (gs : List γ) (hgroup : ∀ g, ∀ r ∈ f g, group (key r) = name g) (hd : (gs.map name).Nodup)
    (k : κ) (r : α) :
    view key (gs.flatMap f).reverse k = some r ↔
      ∃ g ∈ gs, view key (f g).reverse k = some r := by
  induction gs with
  | nil =>
      rw [List.flatMap_nil, List.reverse_nil, view_eq_none key [] k List.not_mem_nil]
      simp only [reduceCtorEq, List.not_mem_nil, false_and, exists_false]
  | cons g gs ih =>
      rw [List.map_cons, List.nodup_cons] at hd
      rw [List.flatMap_cons, List.reverse_append, view_append, Option.or_eq_some_iff,
        ih hd.2, List.exists_mem_cons_iff]
      constructor
      · intro h
        rcases h with hrest | ⟨_, hg⟩
        · exact Or.inr hrest
        · exact Or.inl hg
      · intro h
        rcases h with hg | hrest
        · refine Or.inr ⟨?_, hg⟩
          cases hview : view key (gs.flatMap f).reverse k with
          | none => rfl
          | some r' =>
              -- Both lists would hold the key, so they would have one name.
              rcases (mem_of_view key _ k r hg) with ⟨hmem, hk⟩
              rcases (mem_of_view key _ k r' hview) with ⟨hmem', hk'⟩
              rcases List.mem_flatMap.mp (List.mem_reverse.mp hmem') with ⟨g', hg', hr'⟩
              have hname : name g = name g' := by
                rw [← hgroup g r (List.mem_reverse.mp hmem), ← hgroup g' r' hr', hk, hk']
              exact absurd (hname ▸ List.mem_map_of_mem hg') hd.1
        · exact Or.inl hrest

theorem mem_map_upsertFirst (r : α) (l : List α) (k : κ) :
    k ∈ (upsertFirst key r l).map key ↔ k = key r ∨ k ∈ l.map key := by
  induction l with
  | nil => simp only [upsertFirst, List.map_cons, List.map_nil, List.mem_singleton,
      List.not_mem_nil, or_false]
  | cons x xs ih =>
      rw [upsertFirst]
      by_cases hx : key x = key r
      · rw [if_pos hx]
        simp only [List.map_cons, List.mem_cons, hx, or_self_left]
      · rw [if_neg hx]
        simp only [List.map_cons, List.mem_cons, ih]
        exact or_left_comm

/-- An upserted list holds the new record and otherwise old ones. -/
theorem eq_or_mem_of_mem_upsertFirst (r : α) (l : List α) (x : α) (h : x ∈ upsertFirst key r l) :
    x = r ∨ x ∈ l := by
  induction l with
  | nil => exact Or.inl (List.mem_singleton.mp h)
  | cons y ys ih =>
      rw [upsertFirst] at h
      by_cases hy : key y = key r
      · rw [if_pos hy] at h
        rcases List.mem_cons.mp h with hx | hx
        · exact Or.inl hx
        · exact Or.inr (List.mem_cons_of_mem y hx)
      · rw [if_neg hy] at h
        rcases List.mem_cons.mp h with hx | hx
        · exact Or.inr (hx ▸ List.mem_cons_self)
        · rcases ih hx with hx | hx
          · exact Or.inl hx
          · exact Or.inr (List.mem_cons_of_mem y hx)

theorem mem_upsertFirst_self (r : α) (l : List α) : r ∈ upsertFirst key r l := by
  induction l with
  | nil => exact List.mem_singleton.mpr rfl
  | cons y ys ih =>
      rw [upsertFirst]
      by_cases hy : key y = key r
      · rw [if_pos hy]
        exact List.mem_cons_self
      · rw [if_neg hy]
        exact List.mem_cons_of_mem y ih

/-- Upserting keeps every record with another key. -/
theorem mem_upsertFirst_of_ne (r : α) (l : List α) (x : α) (hx : x ∈ l) (hne : key x ≠ key r) :
    x ∈ upsertFirst key r l := by
  induction l with
  | nil => exact absurd hx List.not_mem_nil
  | cons y ys ih =>
      rw [upsertFirst]
      rcases List.mem_cons.mp hx with rfl | hmem
      · rw [if_neg hne]
        exact List.mem_cons_self
      · by_cases hy : key y = key r
        · rw [if_pos hy]
          exact List.mem_cons_of_mem r hmem
        · rw [if_neg hy]
          exact List.mem_cons_of_mem y (ih hmem)

/-- Upserting keeps keys distinct. -/
theorem distinctKeys_upsertFirst (r : α) (l : List α) (hd : DistinctKeys key l) :
    DistinctKeys key (upsertFirst key r l) := by
  induction l with
  | nil => exact List.nodup_singleton (key r)
  | cons x xs ih =>
      rw [DistinctKeys, List.map_cons, List.nodup_cons] at hd
      rw [upsertFirst]
      by_cases hx : key x = key r
      · rw [if_pos hx, DistinctKeys, List.map_cons, List.nodup_cons, ← hx]
        exact hd
      · rw [if_neg hx, DistinctKeys, List.map_cons, List.nodup_cons]
        refine ⟨fun hmem => ?_, ih hd.2⟩
        rcases (mem_map_upsertFirst key r xs (key x)).mp hmem with hc | hc
        · exact hx hc
        · exact hd.1 hc

omit [DecidableEq κ] in
/-- A sublist of a list with distinct keys has distinct keys. -/
theorem distinctKeys_sublist {l l' : List α} (h : l'.Sublist l) (hd : DistinctKeys key l) :
    DistinctKeys key l' :=
  (h.map key).nodup hd

/-- Stored records are found, the last one stored under a key winning. -/
theorem lookup_insertAll (l : List α) (m : GoMap κ α) (k : κ) :
    (insertAll key m l).lookup k = (view key l.reverse k).or (m.lookup k) := by
  induction l generalizing m with
  | nil => rfl
  | cons x xs ih =>
      have hstep : insertAll key m (x :: xs) = insertAll key (m.insert (key x) x) xs := rfl
      rw [hstep, ih, List.reverse_cons, view_append, view_cons, Option.or_assoc]
      -- What is stored later wins, so the tail is asked first and then the head.
      congr 1
      by_cases hk : key x = k
      · rw [if_pos hk, ← hk, Finmap.lookup_insert, Option.some_or]
      · rw [if_neg hk, Finmap.lookup_insert_of_ne m (fun hc => hk hc.symm),
          view_eq_none key [] k List.not_mem_nil, Option.none_or]

/-- Storing records with distinct keys in an empty map gives the list's view. -/
theorem lookup_insertAll_empty (l : List α) (hd : DistinctKeys key l) (k : κ) :
    (insertAll key ∅ l).lookup k = view key l k := by
  rw [lookup_insertAll, view_reverse key l hd, Finmap.lookup_empty, Option.or_none]

/-- What was stored under distinct keys can be collected again. -/
theorem ranges_insertAll (l : List α) (hd : DistinctKeys key l) :
    Ranges (insertAll key ∅ l) l := by
  -- Storing a record under a fresh key adds one entry, over any map that has
  -- none of the keys yet.
  have hgen : ∀ (xs : List α) (m : GoMap κ α), DistinctKeys key xs →
      (∀ r ∈ xs, key r ∉ m) →
      (insertAll key m xs).entries.map Sigma.snd
        = (xs : Multiset α) + m.entries.map Sigma.snd := by
    intro xs
    induction xs with
    | nil => intro m _ _; simp only [insertAll, List.foldl_nil, Multiset.coe_nil, zero_add]
    | cons x xs ih =>
        intro m hxs hfresh
        rw [DistinctKeys, List.map_cons, List.nodup_cons] at hxs
        have hx : key x ∉ m := hfresh x List.mem_cons_self
        have hstep : insertAll key m (x :: xs) = insertAll key (m.insert (key x) x) xs := rfl
        rw [hstep, ih (m.insert (key x) x) hxs.2, Finmap.entries_insert_of_notMem hx,
          Multiset.map_cons, ← Multiset.cons_coe, Multiset.add_cons, Multiset.cons_add]
        intro r hr hmem
        rcases Finmap.mem_insert.mp hmem with hc | hc
        · exact hxs.1 (hc ▸ List.mem_map_of_mem hr)
        · exact hfresh r (List.mem_cons_of_mem x hr) hc
  have h := hgen l ∅ hd (fun r _ => Finmap.notMem_empty)
  exact ((add_zero _).symm.trans h.symm : (l : Multiset α) = _)

/-- Collecting what was stored under distinct keys gives it back, up to
    order. -/
theorem perm_of_ranges_insertAll (l : List α) (hd : DistinctKeys key l) (l' : List α)
    (hl' : Ranges (insertAll key ∅ l) l') : l'.Perm l :=
  Multiset.coe_eq_coe.mp (hl'.trans (ranges_insertAll key l hd).symm)

end Lib

end Kontxt
