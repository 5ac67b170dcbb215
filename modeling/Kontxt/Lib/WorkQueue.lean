import Mathlib.Data.Finset.Erase
import Mathlib.Data.Finset.Insert
import Mathlib.Data.List.Nodup

/-!
# Work Queues Without Duplicates

A queue of keys that workers take from. A key is queued at most once however
often it is added, and a key that is added while a worker has it is queued
again only when the worker is done. So no two workers ever have one key, and no
addition is lost.

Three sets describe the state: the keys queued, the keys that are `dirty`, that
is, have been added since they were last taken, and the keys workers have. The
queued keys are the dirty ones nobody has. That is a field of the structure, so
a queue in which a key got lost cannot be built, and users may reason about the
dirty keys alone.

## Main definitions

* `WorkQueue`: Queued, dirty and processed keys.
* `WorkQueue.add`: Adding a key.
* `WorkQueue.take`: Taking the first key.
* `WorkQueue.done`: A worker is done with a key.
* `WorkQueue.ofKeys`: A queue to start with.

## Theorems

* `WorkQueue.mem_dirty_add`, `WorkQueue.mem_dirty_take`,
  `WorkQueue.dirty_done`: What the operations do to the dirty keys.
* `WorkQueue.dirty_eq_empty`: With nothing queued and nobody working, nothing is
  dirty.
-/

namespace Kontxt

namespace Lib

/-- A queue of keys without duplicates. -/
structure WorkQueue (κ : Type) [DecidableEq κ] where
  queue : List κ
  dirty : Finset κ
  processing : Finset κ
  nodup : queue.Nodup
  mem_queue : ∀ k, k ∈ queue ↔ k ∈ dirty ∧ k ∉ processing

namespace WorkQueue

variable {κ : Type} [DecidableEq κ]

/-- Nothing queued and nobody working. -/
def empty : WorkQueue κ where
  queue := []
  dirty := ∅
  processing := ∅
  nodup := List.nodup_nil
  mem_queue := fun k => by simp only [List.not_mem_nil, Finset.notMem_empty, false_and]

/-- Add a key. One that is dirty is queued already, or will be. -/
def add (q : WorkQueue κ) (k : κ) : WorkQueue κ :=
  if hd : k ∈ q.dirty then q
  else if hp : k ∈ q.processing then
    { q with
      dirty := insert k q.dirty
      mem_queue := by
        intro j
        rw [q.mem_queue j, Finset.mem_insert]
        constructor
        · intro h
          exact ⟨Or.inr h.1, h.2⟩
        · intro h
          rcases h.1 with rfl | hj
          · exact absurd hp h.2
          · exact ⟨hj, h.2⟩ }
  else
    { q with
      queue := q.queue ++ [k]
      dirty := insert k q.dirty
      nodup := by
        have hnew : k ∉ q.queue := fun h => hd ((q.mem_queue k).mp h).1
        rw [List.nodup_append]
        refine ⟨q.nodup, List.nodup_singleton k, fun a ha b hb => ?_⟩
        rw [List.mem_singleton.mp hb]
        intro hc
        exact hnew (hc ▸ ha)
      mem_queue := by
        intro j
        rw [List.mem_append, q.mem_queue j, List.mem_singleton, Finset.mem_insert]
        constructor
        · intro h
          rcases h with h | rfl
          · exact ⟨Or.inr h.1, h.2⟩
          · exact ⟨Or.inl rfl, hp⟩
        · intro h
          rcases h.1 with rfl | hj
          · exact Or.inr rfl
          · exact Or.inl ⟨hj, h.2⟩ }

/-- Take the first key. -/
def take (q : WorkQueue κ) (k : κ) (rest : List κ) (h : q.queue = k :: rest) : WorkQueue κ where
  queue := rest
  dirty := q.dirty.erase k
  processing := insert k q.processing
  nodup := by
    have hnodup := q.nodup
    rw [h] at hnodup
    exact (List.nodup_cons.mp hnodup).2
  mem_queue := by
    intro j
    have hnodup := q.nodup
    have hj := q.mem_queue j
    rw [h] at hnodup hj
    rw [List.mem_cons] at hj
    rw [Finset.mem_erase, Finset.mem_insert, not_or]
    constructor
    · intro hmem
      have hne : j ≠ k := fun hc => (List.nodup_cons.mp hnodup).1 (hc ▸ hmem)
      have hboth := hj.mp (Or.inr hmem)
      exact ⟨⟨hne, hboth.1⟩, hne, hboth.2⟩
    · intro hgiven
      rcases hgiven with ⟨⟨hne, hdirty⟩, _, hfree⟩
      exact (hj.mpr ⟨hdirty, hfree⟩).resolve_left hne

/-- A worker is done with a key it had: a key that is dirty by now is queued
    again. -/
def done (q : WorkQueue κ) (k : κ) (hk : k ∈ q.processing) : WorkQueue κ where
  queue := if k ∈ q.dirty then q.queue ++ [k] else q.queue
  dirty := q.dirty
  processing := q.processing.erase k
  nodup := by
    have hnew : k ∉ q.queue := fun h => ((q.mem_queue k).mp h).2 hk
    by_cases hd : k ∈ q.dirty
    · rw [if_pos hd, List.nodup_append]
      refine ⟨q.nodup, List.nodup_singleton k, fun a ha b hb => ?_⟩
      rw [List.mem_singleton.mp hb]
      intro hc
      exact hnew (hc ▸ ha)
    · rw [if_neg hd]
      exact q.nodup
  mem_queue := by
    intro j
    have hfree : j ∉ q.processing.erase k ↔ j = k ∨ j ∉ q.processing := by
      rw [Finset.mem_erase, not_and_or, ne_eq, not_not]
    rw [hfree]
    by_cases hd : k ∈ q.dirty
    · rw [if_pos hd, List.mem_append, q.mem_queue j, List.mem_singleton]
      constructor
      · intro h
        rcases h with h | rfl
        · exact ⟨h.1, Or.inr h.2⟩
        · exact ⟨hd, Or.inl rfl⟩
      · intro h
        rcases h.2 with hjk | hj
        · exact Or.inr hjk
        · exact Or.inl ⟨h.1, hj⟩
    · rw [if_neg hd, q.mem_queue j]
      constructor
      · intro h
        exact ⟨h.1, Or.inr h.2⟩
      · intro h
        rcases h.2 with rfl | hj
        · exact absurd h.1 hd
        · exact ⟨h.1, hj⟩

/-- A queue to start with. -/
def ofKeys (keys : List κ) : WorkQueue κ :=
  keys.foldl add empty

theorem dirty_add (q : WorkQueue κ) (k : κ) : (q.add k).dirty = insert k q.dirty := by
  unfold add
  by_cases hd : k ∈ q.dirty
  · rw [dif_pos hd, Finset.insert_eq_of_mem hd]
  · rw [dif_neg hd]
    by_cases hp : k ∈ q.processing
    · rw [dif_pos hp]
    · rw [dif_neg hp]

@[simp]
theorem processing_add (q : WorkQueue κ) (k : κ) : (q.add k).processing = q.processing := by
  unfold add
  by_cases hd : k ∈ q.dirty
  · rw [dif_pos hd]
  · rw [dif_neg hd]
    by_cases hp : k ∈ q.processing
    · rw [dif_pos hp]
    · rw [dif_neg hp]

/-- A key that is neither dirty nor processed is queued last. -/
theorem queue_add (q : WorkQueue κ) (k : κ) (hd : k ∉ q.dirty) (hp : k ∉ q.processing) :
    (q.add k).queue = q.queue ++ [k] := by
  unfold add
  rw [dif_neg hd, dif_neg hp]

theorem mem_dirty_add (q : WorkQueue κ) (k j : κ) :
    j ∈ (q.add k).dirty ↔ j = k ∨ j ∈ q.dirty := by
  rw [dirty_add, Finset.mem_insert]

theorem mem_dirty_take (q : WorkQueue κ) (k : κ) (rest : List κ) (h : q.queue = k :: rest)
    (j : κ) : j ∈ (q.take k rest h).dirty ↔ j ≠ k ∧ j ∈ q.dirty :=
  Finset.mem_erase

@[simp]
theorem dirty_done (q : WorkQueue κ) (k : κ) (hk : k ∈ q.processing) :
    (q.done k hk).dirty = q.dirty :=
  rfl

/-- With nothing queued and nobody working, nothing is dirty. -/
theorem dirty_eq_empty (q : WorkQueue κ) (hqueue : q.queue = []) (hproc : q.processing = ∅) :
    q.dirty = ∅ := by
  refine Finset.eq_empty_of_forall_notMem fun k hk => ?_
  have hmem : k ∈ q.queue := (q.mem_queue k).mpr ⟨hk, by
    rw [hproc]
    exact Finset.notMem_empty k⟩
  rw [hqueue] at hmem
  exact List.not_mem_nil hmem

theorem mem_dirty_foldl_add (keys : List κ) (q : WorkQueue κ) (k : κ) :
    k ∈ (keys.foldl add q).dirty ↔ k ∈ keys ∨ k ∈ q.dirty := by
  induction keys generalizing q with
  | nil => simp only [List.foldl_nil, List.not_mem_nil, false_or]
  | cons j keys ih =>
      rw [List.foldl_cons, ih, mem_dirty_add, List.mem_cons, or_assoc]
      exact or_left_comm

theorem processing_foldl_add (keys : List κ) (q : WorkQueue κ) :
    (keys.foldl add q).processing = q.processing := by
  induction keys generalizing q with
  | nil => rfl
  | cons j keys ih => rw [List.foldl_cons, ih, processing_add]

/-- The keys to start with are dirty, and nobody works. -/
theorem mem_dirty_ofKeys (keys : List κ) (k : κ) : k ∈ (ofKeys keys).dirty ↔ k ∈ keys := by
  unfold ofKeys
  rw [mem_dirty_foldl_add]
  simp only [empty, Finset.notMem_empty, or_false]

theorem processing_ofKeys (keys : List κ) : (ofKeys keys).processing = ∅ :=
  processing_foldl_add keys empty

end WorkQueue

end Lib

end Kontxt
