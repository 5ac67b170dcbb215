import Kontxt.Go.Strings
import Mathlib.Algebra.Ring.Nat
import Mathlib.Data.List.Sort
import Mathlib.Data.String.Basic

/-!
# Query Strings and Forms

How package `net/url` writes a form and reads one. A value is escaped byte by
byte: letters, digits and four marks stand for themselves, a space is a plus,
and any other byte is a percent sign with two hexadecimal digits. Reading goes
over the pieces between ampersands, ten thousand at most, skips the empty ones, and
keeps an error without stopping at it; a form with an error is refused whole by
everyone who reads one here.

A Go string is any sequence of bytes. A `String` here is text, so bytes that are
not the encoding of a text are read as the replacement character, and the error
of a bad escape shows whole runes.

## Main definitions

* `utf8`, `ofUtf8`: The bytes of a text, and the text of some bytes.
* `queryEscape`: `url.QueryEscape`.
* `queryUnescape`: `url.QueryUnescape`.
* `parseQuery`: `url.ParseQuery`.
* `valuesEncode`: `url.Values.Encode`.

## Theorems

* `queryUnescape_queryEscape`: Unescaping undoes escaping.
* `parseQuery_valuesEncode`: Reading an encoded form gives its values back, sorted, unless
  there are too many.
* `lookup_sortValues`: Sorting leaves the first value of each key.
* `length_valuesEncode_le`: Escaping makes a value at most three times as long.
-/

namespace Kontxt

namespace Go

section Bytes

/-- The bytes of a text. -/
def utf8 (s : String) : List UInt8 :=
  s.toList.flatMap String.utf8EncodeChar

/-- The text of some bytes. -/
def ofUtf8 (bytes : List UInt8) : String :=
  match bytes.toByteArray.utf8Decode? with
  | some runes => String.ofList runes.toList
  | none => "�"

/-- A text can be read back from its bytes. -/
theorem ofUtf8_utf8 (s : String) : ofUtf8 (utf8 s) = s := by
  have hdecode : (utf8 s).toByteArray.utf8Decode? = some s.toList.toArray :=
    List.utf8Decode?_utf8Encode
  unfold ofUtf8
  rw [hdecode]
  simp

end Bytes

section Escaping

/-- The digit of `upperhex`. -/
def upperHex (d : Nat) : Char :=
  "0123456789ABCDEF".toList.getD d '0'

/-- `unhex`, with `ishex` as its domain. -/
def unhex (c : Char) : Option Nat :=
  if '0' ≤ c ∧ c ≤ '9' then some (c.toNat - 48)
  else if 'a' ≤ c ∧ c ≤ 'f' then some (c.toNat - 97 + 10)
  else if 'A' ≤ c ∧ c ≤ 'F' then some (c.toNat - 65 + 10)
  else none

/-- Whether a byte stands for itself: `shouldEscape` is false of it. -/
def standsForItself (b : UInt8) : Bool :=
  let c := b.toNat
  ('a'.toNat ≤ c && c ≤ 'z'.toNat) || ('A'.toNat ≤ c && c ≤ 'Z'.toNat) ||
    ('0'.toNat ≤ c && c ≤ '9'.toNat) || c == '-'.toNat || c == '_'.toNat || c == '.'.toNat ||
    c == '~'.toNat

/-- One byte, escaped. -/
def escapeByte (b : UInt8) : List Char :=
  if b = 0x20 then ['+']
  else if standsForItself b then [Char.ofNat b.toNat]
  else ['%', upperHex (b.toNat / 16), upperHex (b.toNat % 16)]

/-- `url.QueryEscape`. -/
def queryEscape (s : String) : String :=
  String.ofList ((utf8 s).flatMap escapeByte)

/-- `EscapeError`: the text from the bad escape on, three runes of it at most. -/
def escapeError (u : Unicode) (rest : List Char) : String :=
  "invalid URL escape " ++ quote u (String.ofList (rest.take 3))

/-- The bytes of an escaped text. -/
def unescapeBytes (u : Unicode) : List Char → Except String (List UInt8)
  | [] => .ok []
  | c :: rest =>
    if c = '%' then
      match rest with
      | high :: low :: rest' =>
        match unhex high, unhex low with
        | some a, some b => (unescapeBytes u rest').map (UInt8.ofNat (a * 16 + b) :: ·)
        | _, _ => .error (escapeError u (c :: high :: low :: rest'))
      | _ => .error (escapeError u (c :: rest))
    else if c = '+' then (unescapeBytes u rest).map (0x20 :: ·)
    else (unescapeBytes u rest).map (String.utf8EncodeChar c ++ ·)

/-- `url.QueryUnescape`. -/
def queryUnescape (u : Unicode) (s : String) : Except String String :=
  (unescapeBytes u s.toList).map ofUtf8

theorem unhex_upperHex : ∀ d < 16, unhex (upperHex d) = some d := by
  decide

theorem toNat_ofNat (n : Nat) (h : n < 128) : (Char.ofNat n).toNat = n := by
  have hvalid : n.isValidChar := Or.inl (by omega)
  unfold Char.ofNat
  rw [dif_pos hvalid]
  rfl

/-- What stands for itself is one of the letters, digits and marks of ASCII, and
    none of the runes a form is cut at or that unescaping treats on its own. -/
theorem of_standsForItself (b : UInt8) (h : standsForItself b = true) :
    b.toNat < 128 ∧ ∀ c ∈ ['%', '+', '&', '=', ';'], Char.ofNat b.toNat ≠ c := by
  simp only [standsForItself, Bool.or_eq_true, Bool.and_eq_true, decide_eq_true_eq, beq_iff_eq,
    Char.reduceToNat] at h
  have hlt : b.toNat < 128 := by omega
  refine ⟨hlt, fun c hc heq => ?_⟩
  have hvalue : b.toNat = c.toNat := by rw [← heq, toNat_ofNat _ hlt]
  simp only [List.mem_cons, List.not_mem_nil, or_false] at hc
  rcases hc with rfl | rfl | rfl | rfl | rfl <;> simp only [Char.reduceToNat] at hvalue <;> omega

/-- A byte of ASCII is the whole encoding of its rune. -/
theorem utf8EncodeChar_ofNat (b : UInt8) (h : b.toNat < 128) :
    String.utf8EncodeChar (Char.ofNat b.toNat) = [b] := by
  have hvalue : (Char.ofNat b.toNat).val.toNat = b.toNat := toNat_ofNat _ h
  unfold String.utf8EncodeChar
  rw [hvalue, if_pos (by omega), UInt8.ofNat_toNat]

theorem upperHex_ne (d : Nat) (hd : d < 16) (c : Char) (hc : c ∈ ['&', '=', ';']) :
    upperHex d ≠ c := by
  have hall : ∀ d < 16, ['&', '=', ';'].all (fun c => upperHex d != c) = true := by decide
  exact bne_iff_ne.mp (List.all_eq_true.mp (hall d hd) c hc)

/-- The runes a form is cut at do not occur in an escaped byte. -/
theorem not_mem_escapeByte (b : UInt8) (c : Char) (hc : c ∈ ['&', '=', ';']) :
    c ∉ escapeByte b := by
  have hplus : c ≠ '+' ∧ c ≠ '%' := by
    simp only [List.mem_cons, List.not_mem_nil, or_false] at hc
    rcases hc with rfl | rfl | rfl <;> decide
  have hlt : b.toNat < 256 := b.toNat_lt
  unfold escapeByte
  split
  · simpa using hplus.1
  · split
    · rename_i hself
      have hne := (of_standsForItself b hself).2 c
        (List.mem_cons_of_mem _ (List.mem_cons_of_mem _ hc))
      simpa using hne.symm
    · have hhigh := upperHex_ne (b.toNat / 16) (by omega) c hc
      have hlow := upperHex_ne (b.toNat % 16) (by omega) c hc
      simp [hplus.2, hhigh.symm, hlow.symm]

theorem unescapeBytes_plus (u : Unicode) (rest : List Char) :
    unescapeBytes u ('+' :: rest) = (unescapeBytes u rest).map (0x20 :: ·) := by
  rw [unescapeBytes.eq_def]
  rfl

theorem unescapeBytes_of_ne (u : Unicode) (c : Char) (rest : List Char) (hpercent : c ≠ '%')
    (hplus : c ≠ '+') :
    unescapeBytes u (c :: rest) =
      (unescapeBytes u rest).map (String.utf8EncodeChar c ++ ·) := by
  rw [unescapeBytes.eq_def]
  simp only [if_neg hpercent, if_neg hplus]

/-- Unescaping reads one escaped byte off the front. -/
theorem unescapeBytes_escapeByte (u : Unicode) (b : UInt8) (rest : List Char) :
    unescapeBytes u (escapeByte b ++ rest) = (unescapeBytes u rest).map (b :: ·) := by
  unfold escapeByte
  by_cases hspace : b = 0x20
  · rw [if_pos hspace, hspace, List.singleton_append, unescapeBytes_plus]
  · rw [if_neg hspace]
    by_cases hself : standsForItself b = true
    · rcases of_standsForItself b hself with ⟨hascii, hmarks⟩
      rw [if_pos hself, List.singleton_append,
        unescapeBytes_of_ne u _ rest (hmarks '%' (by decide)) (hmarks '+' (by decide)),
        utf8EncodeChar_ofNat b hascii]
      rfl
    · have hlt : b.toNat < 256 := b.toNat_lt
      have hvalue : b.toNat / 16 * 16 + b.toNat % 16 = b.toNat := by omega
      rw [if_neg hself, List.cons_append, List.cons_append, List.singleton_append, unescapeBytes,
        if_pos rfl]
      simp only [unhex_upperHex (b.toNat / 16) (by omega),
        unhex_upperHex (b.toNat % 16) (by omega), hvalue, UInt8.ofNat_toNat]

theorem unescapeBytes_flatMap (u : Unicode) (bytes : List UInt8) :
    unescapeBytes u (bytes.flatMap escapeByte) = .ok bytes := by
  induction bytes with
  | nil => rfl
  | cons b bytes ih =>
      rw [List.flatMap_cons, unescapeBytes_escapeByte, ih]
      rfl

/-- Unescaping undoes escaping. -/
theorem queryUnescape_queryEscape (u : Unicode) (s : String) :
    queryUnescape u (queryEscape s) = .ok s := by
  unfold queryUnescape queryEscape
  rw [String.toList_ofList, unescapeBytes_flatMap]
  exact congrArg Except.ok (ofUtf8_utf8 s)

/-- The runes a form is cut at do not occur in an escaped text. -/
theorem not_mem_queryEscape (s : String) (c : Char) (hc : c ∈ ['&', '=', ';']) :
    c ∉ (queryEscape s).toList := by
  unfold queryEscape
  rw [String.toList_ofList, List.mem_flatMap]
  intro hmem
  rcases hmem with ⟨b, _, hb⟩
  exact not_mem_escapeByte b c hc hb

end Escaping

section Forms

/-- `strings.Cut` on a one-rune separator: what comes before the first of it, and
    what comes after. -/
def cut (s : String) (sep : Char) : String × String :=
  (String.ofList (s.toList.takeWhile (· != sep)),
    String.ofList (s.toList.dropWhile (· != sep)).tail)

/-- One piece of a query: the values read so far and the error kept so far, after
    it. A semicolon is an error that takes the place of an earlier one. -/
def parseSetting (u : Unicode) (acc : List (String × String) × Option String)
    (setting : String) : List (String × String) × Option String :=
  if setting.toList.contains ';' then (acc.1, some "invalid semicolon separator in query")
  else if setting = "" then acc
  else
    match queryUnescape u (cut setting '=').1, queryUnescape u (cut setting '=').2 with
    | .error e, _ => (acc.1, acc.2.or (some e))
    | .ok _, .error e => (acc.1, acc.2.or (some e))
    | .ok key, .ok value => (acc.1 ++ [(key, value)], acc.2)

/-- `defaultMaxParams`: how many pieces a query may have, empty ones included. -/
def maxQueryParams : Nat := 10000

/-- `url.ParseQuery`, for a caller that gives up on an error. The values stand in
    the order of the query. -/
def parseQuery (u : Unicode) (query : String) : Except String (List (String × String)) :=
  if maxQueryParams < (split query '&').length then
    .error "number of URL query parameters exceeded limit"
  else
    match (split query '&').foldl (parseSetting u) ([], none) with
    | (_, some e) => .error e
    | (values, none) => .ok values

/-- The values of a form by key, those of one key in the order they have. -/
def sortValues (form : List (String × String)) : List (String × String) :=
  form.mergeSort fun a b => decide (a.1 ≤ b.1)

/-- One value of a form, escaped. -/
def encodeSetting (e : String × String) : String :=
  queryEscape e.1 ++ "=" ++ queryEscape e.2

/-- `url.Values.Encode`. -/
def valuesEncode (form : List (String × String)) : String :=
  "&".intercalate ((sortValues form).map encodeSetting)

theorem cut_append (a b : String) (sep : Char) (ha : sep ∉ a.toList) :
    cut (a ++ String.singleton sep ++ b) sep = (a, b) := by
  have hskip : ∀ c ∈ a.toList, (c != sep) = true := by
    intro c hc
    exact bne_iff_ne.mpr fun hsep => ha (hsep ▸ hc)
  have htext : (a ++ String.singleton sep ++ b).toList = a.toList ++ sep :: b.toList := by
    simp
  unfold cut
  rw [htext, List.takeWhile_append_of_pos hskip, List.dropWhile_append_of_pos hskip]
  simp

/-- A value that was encoded is read back, whatever was read before. -/
theorem parseSetting_encodeSetting (u : Unicode) (acc : List (String × String) × Option String)
    (e : String × String) :
    parseSetting u acc (encodeSetting e) = (acc.1 ++ [e], acc.2) := by
  have hsemi : (encodeSetting e).toList.contains ';' = false := by
    have hkey := not_mem_queryEscape e.1 ';' (by decide)
    have hvalue := not_mem_queryEscape e.2 ';' (by decide)
    simp [encodeSetting, hkey, hvalue]
  have hne : encodeSetting e ≠ "" := by
    intro h
    have hlist := congrArg String.toList h
    simp [encodeSetting] at hlist
  have hcut : cut (encodeSetting e) '=' = (queryEscape e.1, queryEscape e.2) :=
    cut_append _ _ '=' (not_mem_queryEscape e.1 '=' (by decide))
  unfold parseSetting
  rw [hsemi, if_neg Bool.false_ne_true, if_neg hne, hcut, queryUnescape_queryEscape,
    queryUnescape_queryEscape]

theorem foldl_parseSetting (u : Unicode) (form acc : List (String × String)) :
    (form.map encodeSetting).foldl (parseSetting u) (acc, none) = (acc ++ form, none) := by
  induction form generalizing acc with
  | nil => simp
  | cons e form ih =>
      rw [List.map_cons, List.foldl_cons, parseSetting_encodeSetting, ih, List.append_assoc,
        List.singleton_append]

theorem length_sortValues (form : List (String × String)) :
    (sortValues form).length = form.length :=
  (List.mergeSort_perm form _).length_eq

/-- An empty query is one empty piece. -/
theorem parseQuery_empty (u : Unicode) : parseQuery u "" = .ok [] := by
  unfold parseQuery
  rw [split_eq_singleton "" '&' (by decide), List.length_singleton, if_neg (by decide)]
  rfl

/-- Reading an encoded form gives its values back, sorted by key, unless there are too
    many. -/
theorem parseQuery_valuesEncode (u : Unicode) (form : List (String × String)) :
    parseQuery u (valuesEncode form) =
      if maxQueryParams < form.length then .error "number of URL query parameters exceeded limit"
      else .ok (sortValues form) := by
  have hlength := length_sortValues form
  unfold valuesEncode
  cases hform : sortValues form with
  | nil =>
      rw [hform, List.length_nil] at hlength
      rw [List.map_nil, String.intercalate_nil, ← hlength, if_neg (Nat.not_lt_zero _)]
      exact parseQuery_empty u
  | cons e rest =>
      rw [hform] at hlength
      have hclean : ∀ piece ∈ (e :: rest).map encodeSetting, '&' ∉ piece.toList := by
        intro piece hpiece
        rcases List.mem_map.mp hpiece with ⟨setting, _, rfl⟩
        have hkey := not_mem_queryEscape setting.1 '&' (by decide)
        have hvalue := not_mem_queryEscape setting.2 '&' (by decide)
        simp [encodeSetting, hkey, hvalue]
      have hsplit := split_intercalate ((e :: rest).map encodeSetting) '&' (by simp) hclean
      unfold parseQuery
      rw [show "&" = String.singleton '&' from rfl, hsplit, List.length_map, hlength,
        foldl_parseSetting]
      rfl

/-- Sorting keeps the values of a key as they stand. -/
theorem filter_sortValues (form : List (String × String)) (k : String) :
    (sortValues form).filter (fun e => e.1 == k) = form.filter (fun e => e.1 == k) := by
  have hperm : (sortValues form).Perm form := List.mergeSort_perm _ _
  have hequal : (form.filter (fun e => e.1 == k)).Pairwise
      (fun a b => decide (a.1 ≤ b.1) = true) := by
    rw [List.pairwise_iff_forall_sublist]
    intro a b hab
    have ha := (List.mem_filter.mp (hab.subset List.mem_cons_self)).2
    have hb := (List.mem_filter.mp (hab.subset (List.mem_cons_of_mem _ List.mem_cons_self))).2
    rw [decide_eq_true_eq, eq_of_beq ha, eq_of_beq hb]
  -- The values of a key are in order already, so sorting keeps them in a row.
  have hsub : (form.filter (fun e => e.1 == k)).Sublist (sortValues form) := by
    refine List.sublist_mergeSort ?_ ?_ hequal List.filter_sublist
    · intro a b c hab hbc
      rw [decide_eq_true_eq] at hab hbc ⊢
      exact le_trans hab hbc
    · intro a b
      rw [Bool.or_eq_true, decide_eq_true_eq, decide_eq_true_eq]
      exact le_total a.1 b.1
  have hfilter := hsub.filter (fun e => e.1 == k)
  rw [List.filter_filter] at hfilter
  simp only [Bool.and_self] at hfilter
  exact (hfilter.eq_of_length (hperm.filter _).length_eq.symm).symm

theorem lookup_eq_filter {β : Type} (form : List (String × β)) (k : String) :
    form.lookup k = ((form.filter (fun e => e.1 == k)).head?).map Prod.snd := by
  induction form with
  | nil => rfl
  | cons e form ih =>
      rcases e with ⟨name, value⟩
      rw [List.lookup_cons, List.filter_cons]
      by_cases hname : k = name
      · rw [beq_iff_eq.mpr hname, beq_iff_eq.mpr hname.symm]
        rfl
      · rw [beq_eq_false_iff_ne.mpr hname, beq_eq_false_iff_ne.mpr (Ne.symm hname)]
        exact ih

/-- The first value of a key is what it was. -/
theorem lookup_sortValues (form : List (String × String)) (k : String) :
    (sortValues form).lookup k = form.lookup k := by
  rw [lookup_eq_filter, filter_sortValues, ← lookup_eq_filter]

end Forms

section Sizes

theorem utf8_append (a b : String) : utf8 (a ++ b) = utf8 a ++ utf8 b := by
  unfold utf8
  rw [String.toList_append, List.flatMap_append]

theorem length_upperHex : ∀ d < 16, (String.utf8EncodeChar (upperHex d)).length = 1 := by
  decide

/-- An escaped byte takes three bytes at most. -/
theorem length_escapeByte_le (b : UInt8) :
    ((escapeByte b).flatMap String.utf8EncodeChar).length ≤ 3 := by
  have hlt : b.toNat < 256 := b.toNat_lt
  unfold escapeByte
  split
  · decide
  · split
    · rename_i hself
      rw [List.flatMap_singleton, utf8EncodeChar_ofNat b (of_standsForItself b hself).1,
        List.length_singleton]
      omega
    · have hhigh := length_upperHex (b.toNat / 16) (by omega)
      have hlow := length_upperHex (b.toNat % 16) (by omega)
      have hpercent : (String.utf8EncodeChar '%').length = 1 := by decide
      simp only [List.flatMap_cons, List.flatMap_nil, List.append_nil, List.length_append, hhigh,
        hlow, hpercent]
      omega

theorem length_queryEscape_le (s : String) :
    (utf8 (queryEscape s)).length ≤ 3 * (utf8 s).length := by
  unfold queryEscape
  generalize utf8 s = bytes
  induction bytes with
  | nil => decide
  | cons b bytes ih =>
      have hb := length_escapeByte_le b
      unfold utf8 at ih ⊢
      rw [String.toList_ofList] at ih ⊢
      rw [List.flatMap_cons, List.flatMap_append, List.length_append, List.length_cons]
      omega

/-- What a value of a form takes at most. -/
def settingSize (e : String × String) : Nat :=
  3 * (utf8 e.1).length + 3 * (utf8 e.2).length + 2

theorem length_encodeSetting_le (e : String × String) :
    (utf8 (encodeSetting e)).length + 1 ≤ settingSize e := by
  have hkey := length_queryEscape_le e.1
  have hvalue := length_queryEscape_le e.2
  have hequals : (utf8 "=").length = 1 := by decide
  unfold encodeSetting settingSize
  rw [utf8_append, utf8_append, List.length_append, List.length_append]
  omega

theorem length_intercalate_le (form : List (String × String)) :
    (utf8 ("&".intercalate (form.map encodeSetting))).length ≤ (form.map settingSize).sum := by
  induction form with
  | nil => decide
  | cons e rest ih =>
      have he := length_encodeSetting_le e
      cases rest with
      | nil =>
          rw [List.map_singleton, String.intercalate_singleton, List.map_singleton,
            List.sum_singleton]
          omega
      | cons e' rest =>
          have hamp : (utf8 "&").length = 1 := by decide
          have htext : "&".intercalate ((e :: e' :: rest).map encodeSetting) =
              encodeSetting e ++ "&" ++ "&".intercalate ((e' :: rest).map encodeSetting) :=
            String.intercalate_cons_cons
          have hsum : ((e :: e' :: rest).map settingSize).sum =
              settingSize e + ((e' :: rest).map settingSize).sum := List.sum_cons
          rw [htext, hsum, utf8_append, utf8_append, List.length_append, List.length_append]
          omega

/-- Escaping makes a value at most three times as long. -/
theorem length_valuesEncode_le (form : List (String × String)) :
    (utf8 (valuesEncode form)).length ≤ (form.map settingSize).sum := by
  have hperm : (sortValues form).Perm form := List.mergeSort_perm _ _
  have hsum : ((sortValues form).map settingSize).sum = (form.map settingSize).sum :=
    (hperm.map settingSize).sum_nat
  rw [← hsum]
  exact length_intercalate_le (sortValues form)

end Sizes

end Go

end Kontxt
