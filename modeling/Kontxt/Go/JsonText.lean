import Kontxt.Go.JsonScan
import Kontxt.Lib.SortedAssoc

/-!
# Marshalling and Unmarshalling

What `json.Marshal` writes and `json.Unmarshal` reads, for the three shapes the
program uses: a dynamic value, a `map[string]any`, and a struct of strings. A map
is written with its keys in order, so a value is written as its canonical form.
An object is read member by member, a later member of a name in place of an
earlier one. A struct takes a member whose name is a field's, or a field's but for
case; it leaves out the others, and keeps a field when the member is null.

Which of the scanner's or decoder's errors a text gives is not told apart: the
text of the error is a parameter.

## Main definitions

* `canon`: A value with every object's members in key order.
* `marshal`: `json.Marshal` of a dynamic value.
* `unmarshalObject`: `json.Unmarshal` into a `map[string]any`.
* `structText`: A struct of strings as an encoder writes it.
* `unmarshalStruct`: `json.Unmarshal` into a struct of strings.

## Theorems

* `lookup_canonMembers`: The members of a canonical form.
* `decode_toDoc_canon`: A value that is written and read has the canonical form it had.
* `unmarshalObject_marshal`: An object that is written and read has the members it had.
* `unmarshalStruct_structText`: A struct that is written and read has the fields it had.
-/

namespace Kontxt

namespace Go

open Lib

section Canonical

mutual

/-- A value with the members of every object in key order, the first of a name
    only. -/
def canon : Json → Json
  | .null => .null
  | .bool b => .bool b
  | .num q => .num q
  | .str s => .str s
  | .arr xs => .arr (canonItems xs)
  | .obj members => .obj (canonMembers members)

/-- The canonical forms of an array's items. -/
def canonItems : List Json → List Json
  | [] => []
  | x :: rest => canon x :: canonItems rest

/-- The members of an object in key order. -/
def canonMembers : List (String × Json) → List (String × Json)
  | [] => []
  | (k, v) :: rest => insertSorted k (canon v) (canonMembers rest)

end

theorem ordered_canonMembers (members : List (String × Json)) :
    Ordered (canonMembers members) := by
  induction members with
  | nil => exact List.Pairwise.nil
  | cons e rest ih =>
      rcases e with ⟨k, v⟩
      rw [canonMembers]
      exact ordered_insertSorted k (canon v) _ ih

/-- The members of a canonical form are the canonical forms of the members. -/
theorem lookup_canonMembers (members : List (String × Json)) (k : String) :
    (canonMembers members).lookup k = (members.lookup k).map canon := by
  induction members with
  | nil => rfl
  | cons e rest ih =>
      rcases e with ⟨name, v⟩
      rw [canonMembers, lookup_insertSorted, List.lookup_cons, ih]
      by_cases hname : k = name
      · rw [if_pos hname, beq_iff_eq.mpr hname]
        rfl
      · rw [if_neg hname, beq_eq_false_iff_ne.mpr hname]

theorem mem_canonMembers (members : List (String × Json)) (e : String × Json)
    (h : e ∈ canonMembers members) : ∃ e' ∈ members, e.2 = canon e'.2 := by
  induction members with
  | nil => cases h
  | cons e' rest ih =>
      rcases e' with ⟨k, v⟩
      rw [canonMembers] at h
      rcases mem_insertSorted k (canon v) _ e h with rfl | h
      · exact ⟨(k, v), List.mem_cons_self, rfl⟩
      · rcases ih h with ⟨e', he', heq⟩
        exact ⟨e', List.mem_cons_of_mem _ he', heq⟩

theorem mem_canonItems (xs : List Json) (x : Json) (h : x ∈ canonItems xs) :
    ∃ x' ∈ xs, x = canon x' := by
  induction xs with
  | nil => cases h
  | cons y rest ih =>
      rw [canonItems] at h
      rcases List.mem_cons.mp h with rfl | h
      · exact ⟨y, List.mem_cons_self, rfl⟩
      · rcases ih h with ⟨x', hx', heq⟩
        exact ⟨x', List.mem_cons_of_mem _ hx', heq⟩

/-- Objects with the same members have the same canonical form. -/
theorem canonMembers_eq (o o' : List (String × Json))
    (h : ∀ k, (o.lookup k).map canon = (o'.lookup k).map canon) :
    canonMembers o = canonMembers o' := by
  refine Ordered.ext _ _ (ordered_canonMembers o) (ordered_canonMembers o') fun k => ?_
  rw [lookup_canonMembers, lookup_canonMembers, h]

/-- The canonical form of what can be written can be written. -/
theorem Fits.canon (F : FloatText) (depth : Nat) (v : Json) (h : Fits F depth v) :
    Fits F depth (canon v) := by
  induction h with
  | null depth => rw [Go.canon]; exact .null depth
  | bool depth b => rw [Go.canon]; exact .bool depth b
  | num depth q hq => rw [Go.canon]; exact .num depth q hq
  | str depth s => rw [Go.canon]; exact .str depth s
  | arr depth xs hxs ih =>
      rw [Go.canon]
      refine .arr depth _ fun x hx => ?_
      rcases mem_canonItems xs x hx with ⟨x', hx', rfl⟩
      exact ih x' hx'
  | obj depth members hmembers ih =>
      rw [Go.canon]
      refine .obj depth _ fun e he => ?_
      rcases mem_canonMembers members e he with ⟨e', he', heq⟩
      rw [heq]
      exact ih e' he'

end Canonical

section Values

/-- `json.Marshal` of a dynamic value. -/
def marshal (F : FloatText) (v : Json) : String :=
  String.ofList (writeJson F (canon v))

/-- `json.Unmarshal` into a nil `map[string]any`: the text `null` leaves it nil. -/
def unmarshalObject (F : FloatText) (invalid : String → String) (s : String) :
    Except String (Option Object) :=
  match scanDoc F s.toList with
  | some .null => .ok none
  | some (.obj members) =>
    match decodeMembers members [] with
    | some o => .ok (some o)
    | none => .error (invalid s)
  | _ => .error (invalid s)

/-- A plain number is read back from its literal. -/
theorem decode_numberDoc (F : FloatText) (q : Rat) (hq : F.Writes q) :
    decode (numberDoc q) = some (.num q) := by
  unfold FloatText.Writes at hq
  unfold numberDoc
  by_cases hplain : IsPlain q
  · rw [if_pos hplain] at hq ⊢
    rcases hplain with ⟨hden, hlt⟩
    have hshort := (shorten_nearestDouble q.num.natAbs hq).1
    have habs : (withSign q.num (shorten nearestDouble q.num.natAbs)).natAbs =
        shorten nearestDouble q.num.natAbs := by
      unfold withSign
      split <;> omega
    have hrange : ∀ e, 70 < e → q.num.natAbs < 2 ^ e := by
      intro e he
      calc q.num.natAbs < 10 ^ 21 := hlt
        _ < 2 ^ 70 := by decide
        _ ≤ 2 ^ e := Nat.pow_le_pow_right (by decide) he.le
    have hrange := hrange 1024 (by decide)
    have hzero : nearestDouble 0 = 0 := nearestDouble_of_le 0 (Nat.zero_le _)
    -- A negative number is not shortened to zero, so the sign stays.
    have hsign : withSign (withSign q.num (shorten nearestDouble q.num.natAbs)) q.num.natAbs =
        q.num := by
      have hpos : q.num < 0 → shorten nearestDouble q.num.natAbs ≠ 0 := by
        intro hneg h
        rw [h, hzero] at hshort
        omega
      unfold withSign
      split <;> split <;> omega
    have hvalue : (q.num : Rat) = q := Rat.coe_int_num_of_den_eq_one hden
    rw [decode, decodeInteger, habs, hshort, if_pos hrange, hsign, hvalue]
  · rw [if_neg hplain, decode]
    rfl

theorem decodeMembers_isSome (members : List (String × Doc)) (o : Object)
    (h : ∀ e ∈ members, (decode e.2).isSome = true) :
    ∃ o', decodeMembers members o = some o' := by
  induction members generalizing o with
  | nil => exact ⟨o, by rw [decodeMembers]⟩
  | cons e rest ih =>
      rcases e with ⟨k, d⟩
      rcases Option.isSome_iff_exists.mp (h (k, d) List.mem_cons_self) with ⟨v, hv⟩
      rcases ih (o.set k v) fun e he => h e (List.mem_cons_of_mem _ he) with ⟨o', ho'⟩
      exact ⟨o', by rw [decodeMembers, hv]; exact ho'⟩

theorem toDocMembers_eq_map (members : List (String × Json)) :
    toDocMembers members = members.map fun e => (e.1, toDoc e.2) := by
  induction members with
  | nil => rfl
  | cons e rest ih => rw [toDocMembers, ih, List.map_cons]

theorem lookup_toDocMembers (members : List (String × Json)) (k : String) :
    (toDocMembers members).lookup k = (members.lookup k).map toDoc := by
  induction members with
  | nil => rfl
  | cons e rest ih =>
      rcases e with ⟨name, v⟩
      rw [toDocMembers, List.lookup_cons, List.lookup_cons, ih]
      by_cases hname : k = name
      · rw [beq_iff_eq.mpr hname]
        rfl
      · rw [beq_eq_false_iff_ne.mpr hname]

theorem ordered_toDocMembers (members : List (String × Json)) (h : Ordered members) :
    Ordered (toDocMembers members) := by
  rw [toDocMembers_eq_map]
  exact List.Pairwise.map _ (fun _ _ hlt => hlt) h

/-- Whether a value is read with its canonical form. -/
def ReadsBack (v : Json) : Prop :=
  ∃ v', decode (toDoc (canon v)) = some v' ∧ canon v' = canon v

/-- The items of an array are read with their canonical forms. -/
theorem decodeItems_canonItems (xs : List Json) (h : ∀ x ∈ xs, ReadsBack x) :
    ∃ xs', decodeItems (toDocs (canonItems xs)) = some xs' ∧ canonItems xs' = canonItems xs := by
  induction xs with
  | nil => exact ⟨[], by rw [canonItems, toDocs, decodeItems], rfl⟩
  | cons x rest ih =>
      rcases h x List.mem_cons_self with ⟨x', hx, hx'⟩
      rcases ih fun y hy => h y (List.mem_cons_of_mem _ hy) with ⟨rest', hrest, hrest'⟩
      refine ⟨x' :: rest', ?_, by rw [canonItems, canonItems, hx', hrest']⟩
      rw [canonItems, toDocs, decodeItems, hx, hrest]

/-- The members of an object are read with their canonical forms. -/
theorem decodeMembers_canonMembers (members : List (String × Json))
    (h : ∀ e ∈ members, ReadsBack e.2) :
    ∃ o, decodeMembers (toDocMembers (canonMembers members)) [] = some o ∧
      canonMembers o = canonMembers members ∧
      ∀ k, o.lookup k = (members.lookup k).bind fun v => decode (toDoc (canon v)) := by
  have hsome : ∀ e ∈ toDocMembers (canonMembers members), (decode e.2).isSome = true := by
    intro e he
    rw [toDocMembers_eq_map] at he
    rcases List.mem_map.mp he with ⟨e', he', rfl⟩
    rcases mem_canonMembers members e' he' with ⟨e'', he'', heq⟩
    rcases h e'' he'' with ⟨v', hv', _⟩
    rw [heq, hv']
    rfl
  rcases decodeMembers_isSome _ [] hsome with ⟨o, ho⟩
  -- Each name occurs once, so which member of a name is read does not matter.
  have hlookup : ∀ k, o.lookup k =
      (members.lookup k).bind fun v => decode (toDoc (canon v)) := by
    intro k
    rw [lookup_decodeMembers _ [] o ho k,
      Ordered.lookup_reverse _ (ordered_toDocMembers _ (ordered_canonMembers members)),
      lookup_toDocMembers, lookup_canonMembers]
    cases members.lookup k with
    | none => rfl
    | some v => rfl
  refine ⟨o, ho, canonMembers_eq o members fun k => ?_, hlookup⟩
  rw [hlookup]
  cases hk : members.lookup k with
  | none => rfl
  | some v =>
      rcases List.lookup_eq_some_iff.mp hk with ⟨l₁, l₂, hmembers, _⟩
      have hmem : (k, v) ∈ members := by
        rw [hmembers]
        exact List.mem_append_right _ List.mem_cons_self
      rcases h (k, v) hmem with ⟨v', hv', hcanon⟩
      rw [Option.bind_some, hv', Option.map_some, Option.map_some, hcanon]

/-- A value that is written and read has the canonical form it had. -/
theorem decode_toDoc_canon (F : FloatText) (depth : Nat) (v : Json) (h : Fits F depth v) :
    ReadsBack v := by
  induction h with
  | null depth => exact ⟨.null, by rw [canon, toDoc, decode], rfl⟩
  | bool depth b => exact ⟨.bool b, by rw [canon, toDoc, decode], rfl⟩
  | num depth q hq => exact ⟨.num q, by rw [canon, toDoc, decode_numberDoc F q hq], rfl⟩
  | str depth s => exact ⟨.str s, by rw [canon, toDoc, decode], rfl⟩
  | arr depth xs hxs ih =>
      rcases decodeItems_canonItems xs ih with ⟨xs', hdecode, hcanon⟩
      refine ⟨.arr xs', ?_, by rw [canon, canon, hcanon]⟩
      rw [canon, toDoc, decode, hdecode]
      rfl
  | obj depth members hmembers ih =>
      rcases decodeMembers_canonMembers members ih with ⟨o, hdecode, hcanon, _⟩
      refine ⟨.obj o, ?_, by rw [canon, canon, hcanon]⟩
      rw [canon, toDoc, decode, hdecode]
      rfl

/-- An object that is written and read has the members it had, in their canonical
    forms. -/
theorem unmarshalObject_marshal (F : FloatText) (invalid : String → String) (o : Object)
    (h : Fits F maxNestingDepth (.obj o)) :
    ∃ o', unmarshalObject F invalid (marshal F (.obj o)) = .ok (some o') ∧
      canon (.obj o') = canon (.obj o) ∧
      ∀ k, o'.lookup k = (o.lookup k).bind fun v => decode (toDoc (canon v)) := by
  have hmembers : ∀ e ∈ o, ReadsBack e.2 := by
    intro e he
    cases h with
    | obj _ _ hfits => exact decode_toDoc_canon F _ e.2 (hfits e he)
  rcases decodeMembers_canonMembers o hmembers with ⟨o', hdecode, hcanon, hlookup⟩
  have hscan := scanDoc_writeJson F (canon (.obj o)) [] (Fits.canon F _ _ h)
    (fun c hc => absurd hc List.not_mem_nil)
  refine ⟨o', ?_, by rw [canon, canon, hcanon], hlookup⟩
  unfold unmarshalObject marshal
  rw [String.toList_ofList]
  rw [List.append_nil] at hscan
  rw [hscan, canon, toDoc]
  simp only [hdecode]

end Values

section Structs

/-- A struct of strings as an encoder writes it: fields in the order of the struct,
    and a line break. -/
def structText (F : FloatText) (fields : List (String × String)) : String :=
  String.ofList (writeJson F (.obj (fields.map fun e => (e.1, .str e.2))) ++ ['\n'])

/-- The field of a member's name: the one of that name, or else the first of the
    name but for case. -/
def fieldOf (u : Unicode) (names : List String) (key : String) : Option String :=
  if key ∈ names then some key else names.find? fun name => equalFold u name key

/-- The members of an object, one after the other, put into a struct of strings. A
    member that is neither a string nor null is an error. -/
def fillStruct (u : Unicode) (names : List String) :
    List (String × Doc) → (String → String) → Option (String → String)
  | [], fields => some fields
  | (key, d) :: rest, fields =>
    match fieldOf u names key, d with
    | none, _ => fillStruct u names rest fields
    | some _, .null => fillStruct u names rest fields
    | some name, .str s => fillStruct u names rest (Function.update fields name s)
    | some _, _ => none

/-- `json.Unmarshal` into a struct of strings that are all empty. -/
def unmarshalStruct (F : FloatText) (u : Unicode) (names : List String) (s : String) :
    Option (String → String) :=
  match scanDoc F s.toList with
  | some .null => some fun _ => ""
  | some (.obj members) => fillStruct u names members fun _ => ""
  | _ => none

theorem fits_strings (F : FloatText) (depth : Nat) (fields : List (String × String)) :
    Fits F (depth + 1) (.obj (fields.map fun e => (e.1, .str e.2))) := by
  refine .obj depth _ fun e he => ?_
  rcases List.mem_map.mp he with ⟨e', _, rfl⟩
  exact .str depth e'.2

/-- Fields under their own names are taken over, the last of a name. -/
theorem fillStruct_strings (u : Unicode) (names : List String) (fields : List (String × String))
    (acc : String → String) (hnames : ∀ e ∈ fields, e.1 ∈ names) :
    fillStruct u names (toDocMembers (fields.map fun e => (e.1, .str e.2))) acc =
      some fun name => (fields.reverse.lookup name).getD (acc name) := by
  induction fields generalizing acc with
  | nil => rfl
  | cons e rest ih =>
      rcases e with ⟨key, s⟩
      have hkey : fieldOf u names key = some key := if_pos (hnames (key, s) List.mem_cons_self)
      rw [List.map_cons, toDocMembers, toDoc, fillStruct.eq_def]
      simp only [hkey]
      rw [ih _ fun e he => hnames e (List.mem_cons_of_mem _ he)]
      congr 1
      funext name
      rw [List.reverse_cons, List.lookup_append, List.lookup_cons, List.lookup_nil]
      cases rest.reverse.lookup name with
      | some s' => rfl
      | none =>
          by_cases hname : name = key
          · rw [beq_iff_eq.mpr hname, hname, Function.update_self]
            rfl
          · rw [beq_eq_false_iff_ne.mpr hname, Function.update_of_ne hname]
            rfl

/-- A text of strings is read into a struct, whatever they are. Blanks may follow. -/
theorem unmarshalStruct_strings (F : FloatText) (u : Unicode) (names : List String)
    (fields : List (String × String)) (tail : List Char) (hnames : ∀ e ∈ fields, e.1 ∈ names)
    (htail : ∀ c ∈ tail, isBlank c = true) :
    unmarshalStruct F u names
        (String.ofList (writeJson F (.obj (fields.map fun e => (e.1, .str e.2))) ++ tail)) =
      some fun name => (fields.reverse.lookup name).getD "" := by
  have hscan := scanDoc_writeJson F _ tail (fits_strings F 9999 fields) htail
  unfold unmarshalStruct
  rw [String.toList_ofList, hscan, toDoc]
  exact fillStruct_strings u names fields _ hnames

/-- A struct that is written and read has the fields it had. -/
theorem unmarshalStruct_structText (F : FloatText) (u : Unicode) (names : List String)
    (fields : List (String × String)) (hnames : ∀ e ∈ fields, e.1 ∈ names) :
    unmarshalStruct F u names (structText F fields) =
      some fun name => (fields.reverse.lookup name).getD "" :=
  unmarshalStruct_strings F u names fields ['\n'] hnames (List.forall_mem_singleton.mpr rfl)

end Structs

end Go

end Kontxt
