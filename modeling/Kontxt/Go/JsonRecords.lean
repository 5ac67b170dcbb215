import Kontxt.Go.JsonText

/-!
# Lists of Records

A struct with one list of structs of strings, as a decoder reads it and an encoder
writes it. A decoder reads the first value of a text and leaves what follows.

Decoding into a slice does not start from nothing: an item is put into the element
that is there, and keeps the fields that it leaves out. A list that is named twice
in an object is therefore read over itself, also over elements that a shorter list
in between had hidden. Null and the empty array start anew.

## Main definitions

* `scanFirst`: The first value of a text.
* `RecordSlice`, `fillSlice`: Decoding an array into a slice of structs.
* `decodeRecords`: Decoding a struct with one list of structs.
* `recordsText`: Such a struct as an encoder writes it.

## Theorems

* `equalFold_ascii`: Comparing ASCII names but for case.
* `fillStruct_known`: A struct takes the fields it has and skips the others.
* `decodeRecords_recordsText`: A list that is written and read has the records it had.
-/

namespace Kontxt

namespace Go

section Decoding

/-- The first value of a text, whatever follows it. -/
def scanFirst (F : FloatText) (l : List Char) : Option Doc :=
  (scanValue F l.length maxNestingDepth l).map Prod.fst

variable (F : FloatText) (u : Unicode) (names : List String)

/-- One item put into an element that is there. Null leaves it alone. -/
def fillRecord (fields : String → String) : Doc → Option (String → String)
  | .null => some fields
  | .obj members => fillStruct u names members fields
  | _ => none

/-- The items of an array put into the elements of a slice's array, which grows by
    empty ones when there are more. -/
def fillRecords : List Doc → List (String → String) → Option (List (String → String))
  | [], elems => some elems
  | d :: rest, elems =>
    match fillRecord u names (elems.headD fun _ => "") d with
    | none => none
    | some fields => (fillRecords rest elems.tail).map (fields :: ·)

/-- A slice of structs: the elements of its array, and how many of them it shows. -/
structure RecordSlice where
  array : List (String → String)
  len : Nat

/-- The slice that is nil, or new. -/
def RecordSlice.empty : RecordSlice where
  array := []
  len := 0

/-- A value put into a slice. -/
def fillSlice (s : RecordSlice) : Doc → Option RecordSlice
  | .null => some .empty
  | .arr [] => some .empty
  | .arr items =>
    (fillRecords u names items s.array).map fun array => { array := array, len := items.length }
  | _ => none

/-- The members of an object put into a struct with one list. -/
def fillList (field : String) : List (String × Doc) → RecordSlice → Option RecordSlice
  | [], s => some s
  | (key, d) :: rest, s =>
    match fieldOf u [field] key with
    | none => fillList field rest s
    | some _ =>
      match fillSlice u names s d with
      | none => none
      | some s => fillList field rest s

/-- `Decode` into a struct with one list of structs of strings. -/
def decodeRecords (field : String) (s : String) : Option (List (String → String)) :=
  match scanFirst F s.toList with
  | some .null => some []
  | some (.obj members) =>
    (fillList u names field members .empty).map fun s => s.array.take s.len
  | _ => none

/-- Such a struct as an encoder writes it, and a line break. -/
def recordsText (field : String) (records : List (List (String × String))) : String :=
  String.ofList
    (writeJson F (.obj [(field, .arr (records.map fun r => .obj (r.map fun e => (e.1, .str e.2))))])
      ++ ['\n'])

end Decoding

section Reading

/-- ASCII names are the same but for case when their capitals are. -/
theorem equalFold_ascii (u : Unicode) (s t : String)
    (hs : s.toList.all (fun c => decide (c.toNat < 128)) = true)
    (ht : t.toList.all (fun c => decide (c.toNat < 128)) = true) :
    equalFold u s t = (s.toList.map Char.toUpper == t.toList.map Char.toUpper) := by
  have hfold : ∀ l : List Char, l.all (fun c => decide (c.toNat < 128)) = true →
      l.map u.foldRep = l.map Char.toUpper := by
    intro l hl
    refine List.map_congr_left fun c hc => u.foldRep_ascii c ?_
    exact of_decide_eq_true (List.all_eq_true.mp hl c hc)
  unfold equalFold
  rw [hfold _ hs, hfold _ ht]

theorem scanFirst_writeJson (F : FloatText) (v : Json) (tail : List Char)
    (h : Fits F maxNestingDepth v) (hends : EndsNumber tail) :
    scanFirst F (writeJson F v ++ tail) = some (toDoc v) := by
  have hscan := scanValue_writeJson F maxNestingDepth v h (writeJson F v ++ tail).length tail
    (by rw [List.length_append]; omega) hends
  unfold scanFirst
  rw [hscan]
  rfl

variable (F : FloatText) (u : Unicode) (names : List String)

/-- A struct takes the fields it has, the last of a name, and skips the others. -/
theorem fillStruct_known (fields : List (String × String)) (acc : String → String)
    (hknown : ∀ e ∈ fields, e.1 ∈ names ∨ fieldOf u names e.1 = none) :
    ∃ f, fillStruct u names (toDocMembers (fields.map fun e => (e.1, .str e.2))) acc = some f ∧
      ∀ name ∈ names, f name = (fields.reverse.lookup name).getD (acc name) := by
  induction fields generalizing acc with
  | nil => exact ⟨acc, rfl, fun _ _ => rfl⟩
  | cons e rest ih =>
      rcases e with ⟨key, s⟩
      have hrest : ∀ e ∈ rest, e.1 ∈ names ∨ fieldOf u names e.1 = none :=
        fun e he => hknown e (List.mem_cons_of_mem _ he)
      have hlookup : ∀ name, ((key, s) :: rest).reverse.lookup name =
          (rest.reverse.lookup name).or (if name = key then some s else none) := by
        intro name
        rw [List.reverse_cons, List.lookup_append, List.lookup_cons, List.lookup_nil]
        by_cases hname : name = key
        · rw [if_pos hname, beq_iff_eq.mpr hname]
        · rw [if_neg hname, beq_eq_false_iff_ne.mpr hname]
      rw [List.map_cons, toDocMembers, toDoc, fillStruct.eq_def]
      rcases hknown (key, s) List.mem_cons_self with hkey | hskip
      · -- The field is set, and a later one of the name may set it again.
        have hfield : fieldOf u names key = some key := if_pos hkey
        rcases ih (Function.update acc key s) hrest with ⟨f, hfill, hf⟩
        refine ⟨f, by simpa only [hfield] using hfill, fun name hname => ?_⟩
        rw [hf name hname, hlookup]
        cases rest.reverse.lookup name with
        | some s' => rfl
        | none =>
            by_cases heq : name = key
            · rw [if_pos heq, heq, Function.update_self]
              rfl
            · rw [if_neg heq, Function.update_of_ne heq]
              rfl
      · rcases ih acc hrest with ⟨f, hfill, hf⟩
        refine ⟨f, by simpa only [hskip] using hfill, fun name hname => ?_⟩
        -- A name that is skipped is not one of the names.
        have hne : name ≠ key := by
          intro heq
          have hfield : fieldOf u names key = some key := if_pos (heq ▸ hname)
          rw [hfield] at hskip
          cases hskip
        rw [hf name hname, hlookup, if_neg hne, Option.or_none]

/-- Records put into a slice that is empty. -/
theorem fillRecords_known (records : List (List (String × String)))
    (hknown : ∀ r ∈ records, ∀ e ∈ r, e.1 ∈ names ∨ fieldOf u names e.1 = none) :
    ∃ fs, fillRecords u names
        (toDocs (records.map fun r => .obj (r.map fun e => (e.1, .str e.2)))) [] = some fs ∧
      fs.length = records.length ∧
      List.Forall₂ (fun r f => ∀ name ∈ names, f name = (r.reverse.lookup name).getD "")
        records fs := by
  induction records with
  | nil => exact ⟨[], rfl, rfl, .nil⟩
  | cons r rest ih =>
      rcases fillStruct_known u names r (fun _ => "") (hknown r List.mem_cons_self) with
        ⟨f, hfill, hf⟩
      rcases ih fun r hr => hknown r (List.mem_cons_of_mem _ hr) with ⟨fs, hfills, hlen, hfs⟩
      refine ⟨f :: fs, ?_, by rw [List.length_cons, hlen, List.length_cons], .cons hf hfs⟩
      rw [List.map_cons, toDocs, toDoc, fillRecords, fillRecord]
      simp only [List.headD_nil, List.tail_nil, hfill, hfills, Option.map_some]

theorem length_toDocs (xs : List Json) : (toDocs xs).length = xs.length := by
  induction xs with
  | nil => rfl
  | cons x rest ih => rw [toDocs, List.length_cons, List.length_cons, ih]

theorem fits_records (records : List (List (String × String))) (field : String) :
    Fits F maxNestingDepth
      (.obj [(field, .arr (records.map fun r => .obj (r.map fun e => (e.1, .str e.2))))]) := by
  refine .obj 9999 _ fun e he => ?_
  rw [List.mem_singleton.mp he]
  refine .arr 9998 _ fun x hx => ?_
  rcases List.mem_map.mp hx with ⟨r, _, rfl⟩
  exact fits_strings F 9997 r

/-- A list that is written and read has as many records as it had, with the fields
    they had. -/
theorem decodeRecords_recordsText (field : String) (records : List (List (String × String)))
    (hknown : ∀ r ∈ records, ∀ e ∈ r, e.1 ∈ names ∨ fieldOf u names e.1 = none) :
    ∃ fs, decodeRecords F u names field (recordsText F field records) = some fs ∧
      List.Forall₂ (fun r f => ∀ name ∈ names, f name = (r.reverse.lookup name).getD "")
        records fs := by
  have hscan := scanFirst_writeJson F _ ['\n'] (fits_records F records field)
    (endsNumber_cons '\n' [] (by decide))
  have hfield : fieldOf u [field] field = some field := if_pos (List.mem_singleton_self field)
  rcases fillRecords_known u names records hknown with ⟨fs, hfill, hlen, hfs⟩
  refine ⟨fs, ?_, hfs⟩
  unfold decodeRecords recordsText
  rw [String.toList_ofList, hscan, toDoc, toDocMembers, toDoc, toDocMembers]
  simp only [fillList, hfield]
  cases records with
  | nil =>
      cases hfs
      rfl
  | cons r rest =>
      have htake : fs.take (toDocs ((r :: rest).map
          fun r => .obj (r.map fun e => (e.1, .str e.2)))).length = fs := by
        rw [length_toDocs, List.length_map, ← hlen, List.take_length]
      rw [List.map_cons, toDocs] at hfill htake ⊢
      simp only [fillSlice, RecordSlice.empty, hfill, Option.map_some, htake]

end Reading

end Go

end Kontxt
