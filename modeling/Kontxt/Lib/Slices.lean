import Mathlib.Data.List.Basic
import Mathlib.Logic.Function.Basic
import Mathlib.Order.Lattice

/-!
# Slices of Shared Arrays

Memory that is a collection of arrays, and slices as windows on them. A slice has an
address, an offset, a length, and a capacity: how far it may grow where it is. Two
slices of one array share cells, so writing through one changes what the other shows.

Appending writes behind the end of a slice when its capacity has room, over whatever
another slice of the array has there, and otherwise moves everything to a new array.
How much larger than needed a new array is made is given. The values to append are
read before any of them is written, so they may come from the array itself.

What an operation does is described twice: by the contents of the slice it returns,
and by the arrays it leaves alone. It changes at most the array of the slice it is
given, and a new one. `Extends` is that second half, and composes.

Removing an element shifts the rest over it, and filtering in place writes the
elements it keeps to the front while it still reads the rest. That the reads see what
was there before needs the writes to stay behind them, which is what `filterIn_spec`
carries along.

## Main definitions

* `Memory`, `Slice`: Arrays, and windows on them.
* `Slice.Valid`: A window that lies in its array.
* `Memory.contents`: What a slice shows.
* `Memory.write`, `Memory.append`: Writing an element, and appending some.
* `Memory.Extends`: A memory with new arrays and one changed array.
* `Memory.firstIndex`: Scanning a slice.
* `Memory.removeFirstIn`, `Memory.filterIn`: Removing elements in place.

## Theorems

* `Memory.contents_write`, `Memory.append_spec`: What the operations do to a slice.
* `Memory.contents_of_agree`: A slice shows what its array holds.
* `Memory.firstIndex_eq`: A scan finds the first element that passes.
* `Memory.removeFirstIn_spec`: Removing in place is removing.
* `Memory.filterIn_spec`: Filtering in place is filtering.
-/

namespace Kontxt

namespace Lib

variable {α : Type}

/-- Arrays by address, and the first address that is free. -/
structure Memory (α : Type) where
  arrays : Nat → List α
  next : Nat

/-- A window on an array. -/
structure Slice where
  ptr : Nat
  off : Nat
  len : Nat
  cap : Nat
  deriving Repr, DecidableEq

/-- A window that lies in its array. -/
structure Slice.Valid (m : Memory α) (s : Slice) : Prop where
  len_le : s.len ≤ s.cap
  cap_le : s.off + s.cap ≤ (m.arrays s.ptr).length
  allocated : s.ptr < m.next

/-- The elements before an index. The capacity stays. -/
def Slice.upTo (s : Slice) (i : Nat) : Slice :=
  { s with len := i }

/-- The elements from an index on. -/
def Slice.startingAt (s : Slice) (i : Nat) : Slice :=
  { s with off := s.off + i, len := s.len - i, cap := s.cap - i }

/-- A list with some of its elements replaced by others, from an index on. -/
def overwrite (l : List α) (k : Nat) (vs : List α) : List α :=
  l.take k ++ vs ++ l.drop (k + vs.length)

namespace Memory

/-- What a slice shows. -/
def contents (m : Memory α) (s : Slice) : List α :=
  ((m.arrays s.ptr).drop s.off).take s.len

/-- An element of a slice. -/
def read (m : Memory α) (s : Slice) (i : Nat) : Option α :=
  if i < s.len then (m.arrays s.ptr)[s.off + i]? else none

/-- An array in place of the one at an address. -/
def put (m : Memory α) (ptr : Nat) (cells : List α) : Memory α :=
  { m with arrays := Function.update m.arrays ptr cells }

/-- A new array, and the slice that shows all of it but some room at its end. -/
def alloc (m : Memory α) (vs room : List α) : Memory α × Slice :=
  ({ arrays := Function.update m.arrays m.next (vs ++ room), next := m.next + 1 },
    { ptr := m.next, off := 0, len := vs.length, cap := vs.length + room.length })

/-- Assign an element of a slice. -/
def write (m : Memory α) (s : Slice) (i : Nat) (v : α) : Memory α :=
  m.put s.ptr ((m.arrays s.ptr).set (s.off + i) v)

/-- Append to a slice: where it is if there is room, and else in a new array with
    `room` behind the elements. -/
def append (m : Memory α) (s : Slice) (vs room : List α) : Memory α × Slice :=
  if s.len + vs.length ≤ s.cap then
    (m.put s.ptr (overwrite (m.arrays s.ptr) (s.off + s.len) vs),
      { s with len := s.len + vs.length })
  else m.alloc (m.contents s ++ vs) room

/-- A memory in which only the array at one address may have changed, and that may
    have new arrays. Arrays keep their size. -/
structure Extends (m m' : Memory α) (ptr : Nat) : Prop where
  next_le : m.next ≤ m'.next
  others : ∀ p, p < m.next → p ≠ ptr → m'.arrays p = m.arrays p
  size : ∀ p, p < m.next → (m'.arrays p).length = (m.arrays p).length

theorem Extends.refl (m : Memory α) (ptr : Nat) : Extends m m ptr :=
  ⟨le_refl _, fun _ _ _ => rfl, fun _ _ => rfl⟩

theorem Extends.trans {m m' m'' : Memory α} {ptr : Nat} (h : Extends m m' ptr)
    (h' : Extends m' m'' ptr) : Extends m m'' ptr where
  next_le := h.next_le.trans h'.next_le
  others := fun p hp hne =>
    (h'.others p (hp.trans_le h.next_le) hne).trans (h.others p hp hne)
  size := fun p hp => (h'.size p (hp.trans_le h.next_le)).trans (h.size p hp)

/-- A window that lies in its array still does. -/
theorem Extends.valid {m m' : Memory α} {ptr : Nat} (h : Extends m m' ptr) {s : Slice}
    (hs : s.Valid m) : s.Valid m' where
  len_le := hs.len_le
  cap_le := by
    rw [h.size s.ptr hs.allocated]
    exact hs.cap_le
  allocated := hs.allocated.trans_le h.next_le

section Contents

theorem getElem?_contents (m : Memory α) (s : Slice) (i : Nat) :
    (m.contents s)[i]? = m.read s i := by
  unfold contents read
  rw [List.getElem?_take, List.getElem?_drop]

theorem length_contents (m : Memory α) (s : Slice) (hs : s.Valid m) :
    (m.contents s).length = s.len := by
  have hcap := hs.cap_le
  have hlen := hs.len_le
  unfold contents
  rw [List.length_take, List.length_drop]
  omega

/-- A slice shows what its array holds. -/
theorem contents_of_agree (m m' : Memory α) (s : Slice) (h : m'.arrays s.ptr = m.arrays s.ptr) :
    m'.contents s = m.contents s := by
  unfold contents
  rw [h]

theorem contents_upTo (m : Memory α) (s : Slice) (i : Nat) (hi : i ≤ s.len) :
    m.contents (s.upTo i) = (m.contents s).take i := by
  unfold contents Slice.upTo
  rw [List.take_take, Nat.min_eq_left hi]

theorem contents_startingAt (m : Memory α) (s : Slice) (i : Nat) :
    m.contents (s.startingAt i) = (m.contents s).drop i := by
  unfold contents Slice.startingAt
  rw [List.drop_take, List.drop_drop]

theorem valid_upTo {m : Memory α} {s : Slice} (hs : s.Valid m) (i : Nat) (hi : i ≤ s.len) :
    (s.upTo i).Valid m :=
  ⟨hi.trans hs.len_le, hs.cap_le, hs.allocated⟩

end Contents

section Operations

theorem put_arrays (m : Memory α) (ptr : Nat) (cells : List α) :
    (m.put ptr cells).arrays ptr = cells :=
  Function.update_self ..

/-- Replacing an array by one of the same size. -/
theorem extends_put (m : Memory α) (ptr : Nat) (cells : List α)
    (hsize : cells.length = (m.arrays ptr).length) : Extends m (m.put ptr cells) ptr where
  next_le := le_refl _
  others := fun _ _ hne => Function.update_of_ne hne ..
  size := by
    intro p _
    by_cases hp : p = ptr
    · rw [hp, put_arrays, hsize]
    · exact congrArg List.length (Function.update_of_ne hp ..)

/-- A new array leaves the others as they are. -/
theorem extends_alloc (m : Memory α) (vs room : List α) (ptr : Nat) :
    Extends m (m.alloc vs room).1 ptr where
  next_le := Nat.le_succ _
  others := fun _ hp _ => Function.update_of_ne hp.ne ..
  size := fun _ hp => congrArg List.length (Function.update_of_ne hp.ne ..)

theorem alloc_arrays (m : Memory α) (vs room : List α) :
    (m.alloc vs room).1.arrays m.next = vs ++ room :=
  Function.update_self ..

theorem valid_alloc (m : Memory α) (vs room : List α) :
    (m.alloc vs room).2.Valid (m.alloc vs room).1 where
  len_le := Nat.le_add_right _ _
  cap_le := by
    show 0 + (vs.length + room.length) ≤ ((m.alloc vs room).1.arrays m.next).length
    rw [alloc_arrays, List.length_append]
    omega
  allocated := Nat.lt_succ_self _

theorem contents_alloc (m : Memory α) (vs room : List α) :
    (m.alloc vs room).1.contents (m.alloc vs room).2 = vs := by
  show (((m.alloc vs room).1.arrays m.next).drop 0).take vs.length = vs
  rw [alloc_arrays, List.drop_zero, List.take_left]

theorem extends_write (m : Memory α) (s : Slice) (i : Nat) (v : α) :
    Extends m (m.write s i v) s.ptr :=
  extends_put m s.ptr _ (List.length_set ..)

/-- Assigning an element of a slice. -/
theorem contents_write (m : Memory α) (s : Slice) (i : Nat) (v : α) :
    (m.write s i v).contents s = (m.contents s).set i v := by
  unfold contents write
  rw [put_arrays, List.drop_set]
  have hnot : ¬s.off + i < s.off := by omega
  rw [if_neg hnot, Nat.add_sub_cancel_left, List.take_set]

theorem length_overwrite (l : List α) (k : Nat) (vs : List α) (h : k + vs.length ≤ l.length) :
    (overwrite l k vs).length = l.length := by
  unfold overwrite
  rw [List.length_append, List.length_append, List.length_take, List.length_drop]
  omega

/-- The cells from some offset on, up to the end of what was written. -/
theorem take_drop_overwrite (l : List α) (off n : Nat) (vs : List α)
    (h : off + n + vs.length ≤ l.length) :
    ((overwrite l (off + n) vs).drop off).take (n + vs.length) = (l.drop off).take n ++ vs := by
  unfold overwrite
  have hk : (l.take (off + n)).length = off + n := by
    rw [List.length_take]
    omega
  have hoff : off ≤ (l.take (off + n) ++ vs).length := by
    rw [List.length_append, hk]
    omega
  have hoff' : off ≤ (l.take (off + n)).length := by omega
  rw [List.drop_append_of_le_length hoff, List.drop_append_of_le_length hoff']
  have hdrop : (l.take (off + n)).drop off = (l.drop off).take n := by
    rw [List.drop_take, Nat.add_sub_cancel_left]
  have hlen : ((l.drop off).take n ++ vs).length = n + vs.length := by
    rw [List.length_append, List.length_take, List.length_drop]
    omega
  rw [hdrop, List.take_append_of_le_length hlen.ge, List.take_of_length_le hlen.le]

/-- Appending to a slice: the slice it returns is valid and shows the elements of the
    one it was given and then the new ones, and it is the only one that changed. -/
theorem append_spec (m : Memory α) (s : Slice) (vs room : List α) (hs : s.Valid m) :
    (m.append s vs room).2.Valid (m.append s vs room).1 ∧
      (m.append s vs room).1.contents (m.append s vs room).2 = m.contents s ++ vs ∧
      Extends m (m.append s vs room).1 s.ptr := by
  have hcap := hs.cap_le
  unfold append
  by_cases hroom : s.len + vs.length ≤ s.cap
  · rw [if_pos hroom]
    have hfits : s.off + s.len + vs.length ≤ (m.arrays s.ptr).length := by omega
    have hsize := length_overwrite (m.arrays s.ptr) (s.off + s.len) vs hfits
    refine ⟨⟨hroom, ?_, hs.allocated⟩, ?_, extends_put m s.ptr _ hsize⟩
    · show s.off + s.cap ≤ ((m.put s.ptr _).arrays s.ptr).length
      rw [put_arrays, hsize]
      exact hcap
    · show ((((m.put s.ptr _).arrays s.ptr).drop s.off).take (s.len + vs.length)) = _
      rw [put_arrays]
      exact take_drop_overwrite (m.arrays s.ptr) s.off s.len vs hfits
  · rw [if_neg hroom]
    exact ⟨valid_alloc m _ room, contents_alloc m _ room, extends_alloc m _ room s.ptr⟩

end Operations

section Scans

/-- The index of the first element that passes, from an index on, in a slice with `n`
    elements left. -/
def scan (m : Memory α) (s : Slice) (p : α → Bool) : Nat → Nat → Option Nat
  | 0, _ => none
  | n + 1, i =>
    match m.read s i with
    | none => none
    | some r => if p r then some i else scan m s p n (i + 1)

/-- A loop over a slice that stops at the first element that passes. -/
def firstIndex (m : Memory α) (s : Slice) (p : α → Bool) : Option Nat :=
  m.scan s p s.len 0

theorem scan_eq (m : Memory α) (s : Slice) (p : α → Bool) (n i : Nat)
    (hn : i + n = (m.contents s).length) :
    m.scan s p n i = (((m.contents s).drop i).findIdx? p).map (i + ·) := by
  induction n generalizing i with
  | zero =>
      rw [List.drop_eq_nil_of_le (by omega)]
      rfl
  | succ n ih =>
      have hi : i < (m.contents s).length := by omega
      unfold scan
      rw [← getElem?_contents, List.getElem?_eq_getElem hi, List.drop_eq_getElem_cons hi,
        List.findIdx?_cons]
      by_cases hp : p ((m.contents s)[i]) = true
      · simp only [hp, if_true, Option.map_some, Nat.add_zero]
      · simp only [hp, Bool.false_eq_true, if_false]
        rw [ih (i + 1) (by omega), Option.map_map]
        refine congrArg (fun f => Option.map f _) (funext fun k => ?_)
        show i + 1 + k = i + (k + 1)
        omega

/-- A scan finds the first element that passes. -/
theorem firstIndex_eq (m : Memory α) (s : Slice) (p : α → Bool) (hs : s.Valid m) :
    m.firstIndex s p = (m.contents s).findIdx? p := by
  unfold firstIndex
  rw [scan_eq m s p s.len 0 (by rw [length_contents m s hs, Nat.zero_add]), List.drop_zero]
  have hid : ((0 : Nat) + ·) = id := funext Nat.zero_add
  rw [hid, Option.map_id]
  rfl

/-- Remove the first element that passes, by appending what comes after it to what
    comes before. -/
def removeFirstIn (m : Memory α) (s : Slice) (p : α → Bool) : Memory α × Slice :=
  match m.firstIndex s p with
  | none => (m, s)
  | some i => m.append (s.upTo i) (m.contents (s.startingAt (i + 1))) []

/-- Removing in place is removing. -/
theorem removeFirstIn_spec (m : Memory α) (s : Slice) (p : α → Bool) (hs : s.Valid m) :
    (m.removeFirstIn s p).2.Valid (m.removeFirstIn s p).1 ∧
      (m.removeFirstIn s p).1.contents (m.removeFirstIn s p).2 = (m.contents s).eraseP p ∧
      Extends m (m.removeFirstIn s p).1 s.ptr := by
  unfold removeFirstIn
  rw [firstIndex_eq m s p hs]
  cases hfind : (m.contents s).findIdx? p with
  | none =>
      refine ⟨hs, ?_, Extends.refl m s.ptr⟩
      rw [List.eraseP_of_forall_not]
      intro a ha
      rw [List.findIdx?_eq_none_iff] at hfind
      rw [hfind a ha]
      exact Bool.false_ne_true
  | some i =>
      have hi : i < (m.contents s).length := (List.findIdx?_eq_some_iff_findIdx_eq.mp hfind).1
      have hlen := length_contents m s hs
      have hup : i ≤ s.len := by omega
      rcases append_spec m (s.upTo i) (m.contents (s.startingAt (i + 1))) []
        (valid_upTo hs i hup) with ⟨hvalid, hcontents, hext⟩
      refine ⟨hvalid, ?_, hext⟩
      rw [hcontents, contents_upTo m s i hup, contents_startingAt,
        ← List.eraseIdx_eq_take_drop_succ, List.eraseP_eq_eraseIdx, hfind]

/-- The loop of a filter in place: the elements from an index on that pass are written
    to the end of `out`. -/
def filterLoop (p : α → Bool) (s : Slice) : Nat → Nat → Memory α → Slice → Memory α × Slice
  | 0, _, m, out => (m, out)
  | n + 1, i, m, out =>
    match m.read s i with
    | none => (m, out)
    | some r =>
      if p r then
        let appended := m.append out [r] []
        filterLoop p s n (i + 1) appended.1 appended.2
      else filterLoop p s n (i + 1) m out

/-- Filter a slice in place, from its beginning. -/
def filterIn (m : Memory α) (s : Slice) (p : α → Bool) : Memory α × Slice :=
  filterLoop p s s.len 0 m (s.upTo 0)

/-- Appending one element to the front of a slice writes over the next one. -/
theorem append_upTo (m : Memory α) (s : Slice) (k : Nat) (r : α) (room : List α)
    (hs : s.Valid m) (hk : k < s.len) :
    m.append (s.upTo k) [r] room = (m.write s k r, s.upTo (k + 1)) := by
  have hlen := hs.len_le
  have hcap := hs.cap_le
  have hroom : (s.upTo k).len + [r].length ≤ (s.upTo k).cap := by
    show k + 1 ≤ s.cap
    omega
  have hcell : overwrite (m.arrays s.ptr) (s.off + k) [r] = (m.arrays s.ptr).set (s.off + k) r := by
    unfold overwrite
    rw [List.set_eq_take_append_cons_drop, if_pos (by omega), List.append_assoc,
      List.singleton_append, List.length_singleton]
  unfold append write
  rw [if_pos hroom]
  show (m.put s.ptr (overwrite (m.arrays s.ptr) (s.off + k) [r]), _) = _
  rw [hcell]
  rfl

/-- The loop of a filter in place. As `out` never gets ahead of the index, what is
    still to be read is as it was. -/
theorem filterLoop_spec (p : α → Bool) (s : Slice) (n i k : Nat) (m : Memory α)
    (hs : s.Valid m) (hn : i + n = s.len) (hk : k ≤ i) :
    ∃ k', k' ≤ s.len ∧ (filterLoop p s n i m (s.upTo k)).2 = s.upTo k' ∧
      (filterLoop p s n i m (s.upTo k)).1.contents (s.upTo k') =
        (m.contents s).take k ++ ((m.contents s).drop i).filter p ∧
      Extends m (filterLoop p s n i m (s.upTo k)).1 s.ptr := by
  induction n generalizing i k m with
  | zero =>
      have hend : (m.contents s).drop i = [] := by
        rw [List.drop_eq_nil_of_le]
        rw [length_contents m s hs]
        omega
      refine ⟨k, by omega, rfl, ?_, Extends.refl m s.ptr⟩
      rw [hend, List.filter_nil, List.append_nil]
      exact contents_upTo m s k (by omega)
  | succ n ih =>
      have hi : i < (m.contents s).length := by
        rw [length_contents m s hs]
        omega
      have hread : m.read s i = some (m.contents s)[i] := by
        rw [← getElem?_contents, List.getElem?_eq_getElem hi]
      unfold filterLoop
      rw [hread, List.drop_eq_getElem_cons hi]
      simp only []
      by_cases hp : p (m.contents s)[i] = true
      · rw [if_pos hp, append_upTo m s k _ [] hs (by omega), List.filter_cons_of_pos hp]
        have hext := extends_write m s k (m.contents s)[i]
        rcases ih (i + 1) (k + 1) (m.write s k (m.contents s)[i]) (hext.valid hs) (by omega)
          (by omega) with ⟨k', hk', hout, hcontents, hext'⟩
        refine ⟨k', hk', hout, ?_, hext.trans hext'⟩
        -- The write is behind the index, so it is not seen from there on.
        rw [hcontents, contents_write, List.drop_set_of_lt (by omega),
          List.take_succ_eq_append_getElem (by rw [List.length_set]; omega),
          List.getElem_set_self, List.take_set_of_le (le_refl k), List.append_assoc,
          List.singleton_append]
      · rw [if_neg hp, List.filter_cons_of_neg hp]
        exact ih (i + 1) k m hs (by omega) (by omega)

/-- Filtering in place is filtering. -/
theorem filterIn_spec (m : Memory α) (s : Slice) (p : α → Bool) (hs : s.Valid m) :
    (m.filterIn s p).2.Valid (m.filterIn s p).1 ∧
      (m.filterIn s p).1.contents (m.filterIn s p).2 = (m.contents s).filter p ∧
      Extends m (m.filterIn s p).1 s.ptr := by
  unfold filterIn
  rcases filterLoop_spec p s s.len 0 0 m hs (Nat.zero_add _) (le_refl 0) with
    ⟨k', hk', hout, hcontents, hext⟩
  rw [hout]
  refine ⟨valid_upTo (hext.valid hs) k' hk', ?_, hext⟩
  rw [hcontents, List.take_zero, List.drop_zero, List.nil_append]

end Scans

end Memory

end Lib

end Kontxt
