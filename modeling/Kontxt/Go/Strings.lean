import Mathlib.Data.List.TakeWhile

/-!
# Go Strings

The functions of packages `strings`, `strconv` and `unicode` the repository
calls, on Lean strings. A Go string is a sequence of bytes and a Lean string a
sequence of code points; the two agree on valid UTF-8, where byte order and
code point order also agree, so `<` on Lean strings is Go's `<`.

White space is spelled out, because `strings.Fields` decides what a scope is.
The case and printability tables of package `unicode` are not: `Unicode`
holds them as fields with their values on ASCII, and every result of the
development is stated for all such tables.

## Main definitions

* `isSpace`: The runes `strings.Fields` separates on.
* `fields`: `strings.Fields`.
* `cutQuery`: A request path up to its first question mark.
* `hasPrefix`, `hasSuffix`: `strings.HasPrefix` and `strings.HasSuffix`.
* `trimPrefix`, `trimSuffix`: `strings.TrimPrefix` and `strings.TrimSuffix`.
* `afterFirst`, `beforeLast`: Slices at the first and last of a rune.
* `split`, `trim`: `strings.Split` and `strings.Trim`, by one rune.
* `Unicode`: The tables of package `unicode`.
* `equalFold`: `strings.EqualFold`.
* `toLower`: `strings.ToLower`.
* `quote`: `strconv.Quote`, the `%q` verb.

## Theorems

* `splitOn_append`: The first piece of a split.
* `afterFirst_eq_some`: The slice after the first of a rune.
* `beforeLast_append`, `beforeLast_eq_none`: The slice before the last of a rune.
* `split_append`: A split at a separator.
* `hasPrefix_iff`, `trimPrefix_append`: A text that begins with another.
* `intercalate_split`, `split_intercalate`: Between a text and its pieces.
* `not_isSpace_of_mem_fields`: A field holds no white space.
* `fields_of_mem_fields`: A field is its own only field.
* `equalFold_refl`: A string folds to itself.
-/

namespace Kontxt

namespace Go

/-- `unicode.IsSpace`: the Unicode property White_Space. -/
def isSpace (c : Char) : Bool :=
  let n := c.toNat
  (0x09 ≤ n && n ≤ 0x0d) || n == 0x20 || n == 0x85 || n == 0xa0 || n == 0x1680 ||
    (0x2000 ≤ n && n ≤ 0x200a) || n == 0x2028 || n == 0x2029 || n == 0x202f ||
    n == 0x205f || n == 0x3000

/-- `strings.Fields`: the maximal runs of non-space runes, in order. -/
def fields (s : String) : List String :=
  ((s.toList.splitOnP isSpace).filter (fun f => !f.isEmpty)).map String.ofList

/-- A path with everything from its first `?` removed. The source spells this
    as `strings.Index(path, "?")` followed by a slice. -/
def cutQuery (path : String) : String :=
  String.ofList (path.toList.takeWhile (fun c => c != '?'))

/-- `strings.HasPrefix`. -/
def hasPrefix (s p : String) : Bool :=
  p.toList.isPrefixOf s.toList

/-- `strings.HasSuffix`. -/
def hasSuffix (s p : String) : Bool :=
  p.toList.isSuffixOf s.toList

/-- `strings.TrimPrefix`. -/
def trimPrefix (s p : String) : String :=
  if hasPrefix s p then String.ofList (s.toList.drop p.toList.length) else s

/-- `strings.TrimSuffix`. -/
def trimSuffix (s p : String) : String :=
  if hasSuffix s p then String.ofList (s.toList.take (s.toList.length - p.toList.length)) else s

/-- What follows the first of a rune, if it occurs: `strings.Index` followed by a
    slice. -/
def afterFirst (s : String) (c : Char) : Option String :=
  match s.toList.dropWhile (· != c) with
  | [] => none
  | _ :: rest => some (String.ofList rest)

/-- What precedes the last of a rune, if it occurs: `strings.LastIndex` followed
    by a slice. -/
def beforeLast (s : String) (c : Char) : Option String :=
  match s.toList.reverse.dropWhile (· != c) with
  | [] => none
  | _ :: rest => some (String.ofList rest.reverse)

/-- `strings.Split` on a one-rune separator. -/
def split (s : String) (sep : Char) : List String :=
  (s.toList.splitOn sep).map String.ofList

/-- `strings.Trim` with a one-rune cutset. -/
def trim (s : String) (c : Char) : String :=
  String.ofList (((s.toList.dropWhile (· == c)).reverse.dropWhile (· == c)).reverse)

/-- The tables of package `unicode`. `foldRep` is the least rune of a rune's
    `SimpleFold` orbit, so two runes fold together when it agrees on them. -/
structure Unicode where
  toLower : Char → Char
  foldRep : Char → Char
  isPrint : Char → Bool
  toLower_ascii : ∀ c : Char, c.toNat < 128 → toLower c = c.toLower
  foldRep_ascii : ∀ c : Char, c.toNat < 128 → foldRep c = c.toUpper
  isPrint_ascii : ∀ c : Char, c.toNat < 128 → isPrint c = (0x20 ≤ c.toNat && c.toNat < 0x7f)

/-- Tables that treat every rune beyond ASCII as caseless and unprintable,
    which is enough to run the model on ASCII inputs. -/
def Unicode.ascii : Unicode where
  toLower := Char.toLower
  foldRep := Char.toUpper
  isPrint := fun c => 0x20 ≤ c.toNat && c.toNat < 0x7f
  toLower_ascii := fun _ _ => rfl
  foldRep_ascii := fun _ _ => rfl
  isPrint_ascii := fun _ _ => rfl

/-- `strings.EqualFold`: equality under simple case folding. -/
def equalFold (u : Unicode) (s t : String) : Bool :=
  s.toList.map u.foldRep == t.toList.map u.foldRep

/-- `strings.ToLower`. -/
def toLower (u : Unicode) (s : String) : String :=
  String.ofList (s.toList.map u.toLower)

/-- A number in hexadecimal, padded with zeros to `width` digits. -/
def hexDigits (width n : Nat) : String :=
  let ds := Nat.toDigits 16 n
  String.ofList (List.replicate (width - ds.length) '0' ++ ds)

/-- One rune of a quoted string, escaped as `strconv.Quote` escapes it. -/
def quoteRune (u : Unicode) (c : Char) : String :=
  if c.toNat == 0x22 || c.toNat == 0x5c then "\\" ++ c.toString
  else if u.isPrint c then c.toString
  else match c.toNat with
    | 0x07 => "\\a"
    | 0x08 => "\\b"
    | 0x0c => "\\f"
    | 0x0a => "\\n"
    | 0x0d => "\\r"
    | 0x09 => "\\t"
    | 0x0b => "\\v"
    | n =>
      if n < 0x20 || n == 0x7f then "\\x" ++ hexDigits 2 n
      else if n < 0x10000 then "\\u" ++ hexDigits 4 n
      else "\\U" ++ hexDigits 8 n

/-- `strconv.Quote`. -/
def quote (u : Unicode) (s : String) : String :=
  "\"" ++ String.join (s.toList.map (quoteRune u)) ++ "\""

/-- A piece of a split holds no separator. -/
theorem not_of_mem_splitOnP (p : Char → Bool) (l piece : List Char) (h : piece ∈ l.splitOnP p) :
    ∀ c ∈ piece, p c = false := by
  induction l generalizing piece with
  | nil =>
      rw [List.splitOnP_nil, List.mem_singleton] at h
      rw [h]
      intro c hc
      exact absurd hc List.not_mem_nil
  | cons x xs ih =>
      rw [List.splitOnP_cons_eq_if_modifyHead] at h
      cases hx : p x with
      | true =>
          rw [hx, if_pos rfl] at h
          rcases List.mem_cons.mp h with rfl | hmem
          · intro c hc
            exact absurd hc List.not_mem_nil
          · exact ih piece hmem
      | false =>
          rw [hx, if_neg Bool.false_ne_true] at h
          -- The rune joins the first piece, and the other pieces are those of the tail.
          cases hsplit : xs.splitOnP p with
          | nil =>
              rw [hsplit] at h
              exact absurd h List.not_mem_nil
          | cons first rest =>
              rw [hsplit, List.modifyHead_cons] at h
              rcases List.mem_cons.mp h with rfl | hmem
              · intro c hc
                rcases List.mem_cons.mp hc with rfl | hc
                · exact hx
                · exact ih first (hsplit ▸ List.mem_cons_self) c hc
              · exact ih piece (hsplit ▸ List.mem_cons_of_mem first hmem)

/-- What stands in front of the first separator begins the first piece. -/
theorem splitOn_append (sep : Char) (l rest : List Char) (hl : sep ∉ l) :
    ∃ first pieces, (l ++ rest).splitOn sep = (l ++ first) :: pieces := by
  induction l with
  | nil =>
      cases hsplit : rest.splitOn sep with
      | nil => exact absurd hsplit (List.splitOnP_ne_nil _ _)
      | cons first pieces => exact ⟨first, pieces, hsplit⟩
  | cons x xs ih =>
      rw [List.mem_cons, not_or] at hl
      rcases ih hl.2 with ⟨first, pieces, hsplit⟩
      have hx : (x == sep) = false := beq_eq_false_iff_ne.mpr fun hc => hl.1 hc.symm
      refine ⟨first, pieces, ?_⟩
      unfold List.splitOn at hsplit ⊢
      rw [List.cons_append, List.splitOnP_cons_eq_if_modifyHead, hx, if_neg Bool.false_ne_true,
        hsplit, List.modifyHead_cons, List.cons_append]

/-- A field holds no white space. -/
theorem not_isSpace_of_mem_fields (s f : String) (h : f ∈ fields s) :
    ∀ c ∈ f.toList, isSpace c = false := by
  unfold fields at h
  obtain ⟨piece, hpiece, rfl⟩ := List.mem_map.mp h
  rw [String.toList_ofList]
  exact not_of_mem_splitOnP isSpace s.toList piece (List.mem_filter.mp hpiece).1

/-- A field is its own only field. -/
theorem fields_of_mem_fields (s f : String) (h : f ∈ fields s) : fields f = [f] := by
  have hspace := not_isSpace_of_mem_fields s f h
  have hne : (!f.toList.isEmpty) = true := by
    unfold fields at h
    obtain ⟨piece, hpiece, rfl⟩ := List.mem_map.mp h
    rw [String.toList_ofList]
    exact (List.mem_filter.mp hpiece).2
  unfold fields
  simp only [List.splitOnP_eq_singleton hspace, List.filter_cons, hne, if_true, List.filter_nil,
    List.map_cons, List.map_nil, String.ofList_toList]

/-- The last of a rune is where the text after it has no other. -/
theorem beforeLast_append (c : Char) (l r : List Char) (hr : c ∉ r) :
    beforeLast (String.ofList (l ++ c :: r)) c = some (String.ofList l) := by
  have hskip : ∀ x ∈ r.reverse, (x != c) = true := by
    intro x hx
    rw [List.mem_reverse] at hx
    exact bne_iff_ne.mpr fun hxc => hr (hxc ▸ hx)
  have hreverse : (l ++ c :: r).reverse = r.reverse ++ c :: l.reverse := by simp
  unfold beforeLast
  rw [String.toList_ofList, hreverse, List.dropWhile_append_of_pos hskip]
  simp

theorem beforeLast_eq_none (c : Char) (s : String) (hs : c ∉ s.toList) :
    beforeLast s c = none := by
  have hskip : s.toList.reverse.dropWhile (· != c) = [] := by
    rw [List.dropWhile_eq_nil_iff]
    intro x hx
    rw [List.mem_reverse] at hx
    exact bne_iff_ne.mpr fun hxc => hs (hxc ▸ hx)
  unfold beforeLast
  rw [hskip]

/-- A split at a separator is the two splits one after the other. -/
theorem split_append (sep : Char) (s t : List Char) :
    split (String.ofList (s ++ sep :: t)) sep =
      split (String.ofList s) sep ++ split (String.ofList t) sep := by
  unfold split
  rw [String.toList_ofList, String.toList_ofList, String.toList_ofList,
    List.splitOn_append_cons_self, List.map_append]

theorem split_ne_nil (s : String) (sep : Char) : split s sep ≠ [] := by
  unfold split
  simp

/-- A text without the separator is its own only piece. -/
theorem split_eq_singleton (s : String) (sep : Char) (hs : sep ∉ s.toList) :
    split s sep = [s] := by
  unfold split
  rw [List.splitOn_eq_singleton hs, List.map_singleton, String.ofList_toList]

/-- No piece has the separator. -/
theorem not_mem_of_mem_split (s piece : String) (sep : Char) (h : piece ∈ split s sep) :
    sep ∉ piece.toList := by
  unfold split at h
  rcases List.mem_map.mp h with ⟨l, hl, rfl⟩
  rw [String.toList_ofList]
  intro hsep
  have hnot := not_of_mem_splitOnP (· == sep) s.toList l hl sep hsep
  rw [beq_self_eq_true] at hnot
  cases hnot

/-- Joining the pieces gives the text back. -/
theorem intercalate_split (s : String) (sep : Char) :
    (String.singleton sep).intercalate (split s sep) = s := by
  apply String.toList_injective
  rw [String.toList_intercalate, String.toList_singleton]
  unfold split
  rw [List.map_map]
  have hpieces : (s.toList.splitOn sep).map (String.toList ∘ String.ofList) =
      s.toList.splitOn sep := by
    simp
  rw [hpieces, List.intercalate_splitOn]

/-- Splitting what was joined gives the pieces back. -/
theorem split_intercalate (pieces : List String) (sep : Char) (hne : pieces ≠ [])
    (hsep : ∀ piece ∈ pieces, sep ∉ piece.toList) :
    split ((String.singleton sep).intercalate pieces) sep = pieces := by
  unfold split
  rw [String.toList_intercalate, String.toList_singleton, List.splitOn_intercalate]
  · simp
  · intro l hl
    rcases List.mem_map.mp hl with ⟨piece, hpiece, rfl⟩
    exact hsep piece hpiece
  · simpa using hne

/-- The pieces determine the text. -/
theorem split_inj (s t : String) (sep : Char) (h : split s sep = split t sep) : s = t := by
  rw [← intercalate_split s sep, h, intercalate_split]

theorem hasPrefix_iff (s p : String) : hasPrefix s p = true ↔ ∃ rest, s = p ++ rest := by
  unfold hasPrefix
  rw [List.isPrefixOf_iff_prefix]
  constructor
  · intro h
    rcases h with ⟨rest, hrest⟩
    refine ⟨String.ofList rest, String.toList_injective ?_⟩
    rw [String.toList_append, String.toList_ofList, hrest]
  · intro h
    rcases h with ⟨rest, rfl⟩
    exact ⟨rest.toList, by rw [String.toList_append]⟩

theorem trimPrefix_append (p s : String) : trimPrefix (p ++ s) p = s := by
  have hstart : hasPrefix (p ++ s) p = true := (hasPrefix_iff _ _).mpr ⟨s, rfl⟩
  unfold trimPrefix
  rw [if_pos hstart, String.toList_append, List.drop_left, String.ofList_toList]

/-- What follows the first of a rune. -/
theorem afterFirst_eq_some (s rest : String) (c : Char) :
    afterFirst s c = some rest ↔
      ∃ before : String, c ∉ before.toList ∧ s.toList = before.toList ++ c :: rest.toList := by
  unfold afterFirst
  constructor
  · intro h
    have hsplit := List.takeWhile_append_dropWhile (p := (· != c)) (l := s.toList)
    cases hdrop : s.toList.dropWhile (· != c) with
    | nil =>
        rw [hdrop] at h
        cases h
    | cons x xs =>
        -- The rune at which the scan stops is the one looked for.
        have hx : x = c := by
          have hne : s.toList.dropWhile (· != c) ≠ [] := by
            rw [hdrop]
            exact List.cons_ne_nil x xs
          have hstop := List.head_dropWhile_not (· != c) hne
          simpa [hdrop] using hstop
        rw [hdrop] at h hsplit
        simp only [Option.some.injEq] at h
        refine ⟨String.ofList (s.toList.takeWhile (· != c)), ?_, ?_⟩
        · rw [String.toList_ofList]
          intro hmem
          have hnot := List.mem_takeWhile_imp hmem
          simp at hnot
        · rw [← h, String.toList_ofList, String.toList_ofList, ← hx, hx]
          exact (hx ▸ hsplit).symm
  · intro h
    rcases h with ⟨before, hbefore, hs⟩
    have hskip : ∀ x ∈ before.toList, (x != c) = true := by
      intro x hx
      exact bne_iff_ne.mpr fun hxc => hbefore (hxc ▸ hx)
    rw [hs, List.dropWhile_append_of_pos hskip]
    simp

theorem equalFold_refl (u : Unicode) (s : String) : equalFold u s s = true := by
  simp only [equalFold, beq_self_eq_true]

example : fields " read:docs\twrite  admin " = ["read:docs", "write", "admin"] := by decide

end Go

end Kontxt
