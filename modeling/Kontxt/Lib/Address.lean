import Mathlib.Data.List.Basic

/-!
# The Text of IP Addresses

Addresses as people and programs write them. An IPv4 address is four decimal
numbers with dots between them, without leading zeros, so there is one way to
write it. An IPv6 address is eight groups of hexadecimal digits with colons
between them, where one run of zero groups may be left out and the last two
groups may be written as an IPv4 address, so there are many ways to write it.

A peer is written as an address alone or as an address with a port. The port
follows a colon, and since IPv6 addresses have colons of their own, those are put
in brackets first.

Of the syntax two things are used: which characters a text can have, and where
its colons are. IPv4 text has no colon at all. IPv6 text has one that is not at
its start, and no bracket.

## Main definitions

* `Addr`: An IPv4 or an IPv6 address.
* `parseIPv4`, `parseIPv6`, `parseAddr`: Reading an address.
* `isPort`: The text of a port.
* `PeerText`: The ways to write an address as a peer.

## Theorems

* `mem_splitOn`: Every character is a separator or in a piece.
* `eq_of_parseIPv4`: There is one way to write an IPv4 address.
* `not_mem_of_parseIPv4`: IPv4 text has digits and dots only.
* `not_bracket_of_parseIPv6`: IPv6 text has no bracket.
* `colon_of_parseIPv6`: IPv6 text has a colon that is not at its start.
* `parseAddr_eq_v4`, `parseAddr_of_parseIPv6`: A text reads as one kind only.
-/

namespace Kontxt

namespace Lib

section Pieces

theorem mem_intercalate (sep c : Char) (pieces : List (List Char))
    (h : c ∈ [sep].intercalate pieces) : c = sep ∨ ∃ piece ∈ pieces, c ∈ piece := by
  induction pieces with
  | nil => simp [List.intercalate] at h
  | cons p ps ih =>
      cases ps with
      | nil => exact Or.inr ⟨p, List.mem_singleton_self p, by simpa [List.intercalate] using h⟩
      | cons q qs =>
          have hsplit : [sep].intercalate (p :: q :: qs) =
              p ++ sep :: [sep].intercalate (q :: qs) := by
            simp [List.intercalate, List.intersperse]
          rw [hsplit, List.mem_append, List.mem_cons] at h
          rcases h with h | h | h
          · exact Or.inr ⟨p, List.mem_cons_self, h⟩
          · exact Or.inl h
          · rcases ih h with h | ⟨piece, hpiece, hc⟩
            · exact Or.inl h
            · exact Or.inr ⟨piece, List.mem_cons_of_mem p hpiece, hc⟩

/-- Every character of a text is a separator or in one of its pieces. -/
theorem mem_splitOn (sep c : Char) (l : List Char) (h : c ∈ l) :
    c = sep ∨ ∃ piece ∈ l.splitOn sep, c ∈ piece := by
  have htext : [sep].intercalate (l.splitOn sep) = l := List.intercalate_splitOn sep
  rw [← htext] at h
  exact mem_intercalate sep c _ h

/-- Reading every piece, if all of them can be read. -/
def parseEach (f : List Char → Option Nat) : List (List Char) → Option (List Nat)
  | [] => some []
  | piece :: rest =>
    match f piece, parseEach f rest with
    | some n, some ns => some (n :: ns)
    | _, _ => none

theorem parseEach_cons (f : List Char → Option Nat) (piece : List Char)
    (rest : List (List Char)) (ns : List Nat) :
    parseEach f (piece :: rest) = some ns ↔
      ∃ n ms, f piece = some n ∧ parseEach f rest = some ms ∧ ns = n :: ms := by
  rw [parseEach]
  cases f piece with
  | none => simp
  | some n =>
      cases parseEach f rest with
      | none => simp
      | some ms => simp [eq_comm]

theorem parseEach_mem (f : List Char → Option Nat) (pieces : List (List Char)) (ns : List Nat)
    (h : parseEach f pieces = some ns) : ∀ piece ∈ pieces, ∃ n, f piece = some n := by
  induction pieces generalizing ns with
  | nil => simp
  | cons p ps ih =>
      rcases (parseEach_cons f p ps ns).mp h with ⟨n, ms, hp, hps, _⟩
      rw [List.forall_mem_cons]
      exact ⟨⟨n, hp⟩, ih ms hps⟩

end Pieces

section IPv4

/-- The number decimal digits stand for. -/
def decimalValue (l : List Char) : Nat :=
  l.foldl (fun v c => 10 * v + (c.toNat - '0'.toNat)) 0

/-- One number of an IPv4 address, written in the one way it can be. -/
def parseOctet (l : List Char) : Option Nat :=
  if l.all Char.isDigit = true ∧ (toString (decimalValue l)).toList = l ∧ decimalValue l ≤ 255 then
    some (decimalValue l)
  else none

/-- Four numbers with dots between them. -/
def parseIPv4 (l : List Char) : Option (List Nat) :=
  (parseEach parseOctet (l.splitOn '.')).filter (·.length = 4)

theorem parseOctet_eq_some (l : List Char) (n : Nat) (h : parseOctet l = some n) :
    (∀ c ∈ l, c.isDigit = true) ∧ l = (toString n).toList := by
  unfold parseOctet at h
  by_cases hok : l.all Char.isDigit = true ∧ (toString (decimalValue l)).toList = l ∧
      decimalValue l ≤ 255
  · rw [if_pos hok] at h
    rw [← Option.some.inj h]
    exact ⟨List.all_eq_true.mp hok.1, hok.2.1.symm⟩
  · rw [if_neg hok] at h
    cases h

theorem parseIPv4_eq_some (l : List Char) (octets : List Nat) (h : parseIPv4 l = some octets) :
    parseEach parseOctet (l.splitOn '.') = some octets ∧ octets.length = 4 := by
  unfold parseIPv4 at h
  rw [Option.filter_eq_some_iff] at h
  exact ⟨h.1, of_decide_eq_true h.2⟩

/-- The pieces are the numbers as they are written. -/
theorem parseEach_octets (pieces : List (List Char)) (octets : List Nat)
    (h : parseEach parseOctet pieces = some octets) :
    pieces = octets.map fun n => (toString n).toList := by
  induction pieces generalizing octets with
  | nil =>
      cases h
      rfl
  | cons p ps ih =>
      rcases (parseEach_cons parseOctet p ps octets).mp h with ⟨n, ms, hp, hps, rfl⟩
      rw [List.map_cons, ← ih ms hps, ← (parseOctet_eq_some p n hp).2]

/-- There is one way to write an IPv4 address. -/
theorem eq_of_parseIPv4 (l l' : List Char) (octets : List Nat) (h : parseIPv4 l = some octets)
    (h' : parseIPv4 l' = some octets) : l = l' := by
  -- The pieces are the numbers as written, and the text is the pieces joined.
  have hpieces := parseEach_octets _ _ (parseIPv4_eq_some l octets h).1
  have hpieces' := parseEach_octets _ _ (parseIPv4_eq_some l' octets h').1
  calc l = ['.'].intercalate (l.splitOn '.') := (List.intercalate_splitOn '.').symm
    _ = ['.'].intercalate (l'.splitOn '.') := by rw [hpieces, hpieces']
    _ = l' := List.intercalate_splitOn '.'

/-- IPv4 text has digits and dots only. -/
theorem mem_of_parseIPv4 (l : List Char) (octets : List Nat) (h : parseIPv4 l = some octets)
    (c : Char) (hc : c ∈ l) : c = '.' ∨ c.isDigit = true := by
  rcases mem_splitOn '.' c l hc with hdot | ⟨piece, hpiece, hmem⟩
  · exact Or.inl hdot
  · rcases parseEach_mem _ _ _ (parseIPv4_eq_some l octets h).1 piece hpiece with ⟨n, hn⟩
    exact Or.inr ((parseOctet_eq_some piece n hn).1 c hmem)

/-- A character that is neither a digit nor a dot is not in IPv4 text. -/
theorem not_mem_of_parseIPv4 (l : List Char) (octets : List Nat) (h : parseIPv4 l = some octets)
    (c : Char) (hdot : c ≠ '.') (hdigit : c.isDigit = false) : c ∉ l := by
  intro hc
  rcases mem_of_parseIPv4 l octets h c hc with hc | hc
  · exact hdot hc
  · rw [hdigit] at hc
    cases hc

theorem ne_nil_of_parseIPv4 (l : List Char) (octets : List Nat) (h : parseIPv4 l = some octets) :
    l ≠ [] := by
  intro hnil
  have hnone : parseIPv4 [] = none := by decide
  rw [hnil, hnone] at h
  cases h

end IPv4

section IPv6

/-- The number a hexadecimal digit stands for. -/
def hexValue (c : Char) : Nat :=
  if c.isDigit then c.toNat - '0'.toNat
  else if c.isLower then c.toNat - 'a'.toNat + 10
  else c.toNat - 'A'.toNat + 10

/-- One group of an IPv6 address. -/
def parseHextet (l : List Char) : Option Nat :=
  if l ≠ [] ∧ l.length ≤ 4 ∧ l.all Char.isHexDigit = true then
    some (l.foldl (fun v c => 16 * v + hexValue c) 0)
  else none

/-- Groups with colons between them, the last two of which may be written as an
    IPv4 address. -/
def parseGroups : List (List Char) → Option (List Nat)
  | [] => some []
  | [piece] =>
    match parseHextet piece with
    | some n => some [n]
    | none =>
      match parseIPv4 piece with
      | some [a, b, c, d] => some [256 * a + b, 256 * c + d]
      | _ => none
  | piece :: rest =>
    match parseHextet piece, parseGroups rest with
    | some n, some ns => some (n :: ns)
    | _, _ => none

/-- What stands before and after the first two colons in a row. -/
def cutEllipsis : List Char → Option (List Char × List Char)
  | ':' :: ':' :: rest => some ([], rest)
  | c :: rest => (cutEllipsis rest).map fun sides => (c :: sides.1, sides.2)
  | [] => none

/-- A side of two colons in a row, which may be empty. -/
def parseSide (parse : List (List Char) → Option (List Nat)) (l : List Char) :
    Option (List Nat) :=
  if l = [] then some [] else parse (l.splitOn ':')

/-- An IPv6 address: all groups, or fewer with two colons in a row for the zero
    groups left out. -/
def parseIPv6 (l : List Char) : Option (List Nat) :=
  match cutEllipsis l with
  | none => (parseGroups (l.splitOn ':')).filter (·.length = 8)
  | some (left, right) =>
    match parseSide (parseEach parseHextet) left, parseSide parseGroups right with
    | some ls, some rs =>
      if ls.length + rs.length ≤ 7 then
        some (ls ++ List.replicate (8 - ls.length - rs.length) 0 ++ rs)
      else none
    | _, _ => none

/-- The characters of IPv6 text. -/
def isIPv6Char (c : Char) : Bool :=
  c.isHexDigit || c == ':' || c == '.'

theorem parseHextet_chars (l : List Char) (n : Nat) (h : parseHextet l = some n) :
    ∀ c ∈ l, isIPv6Char c = true := by
  unfold parseHextet at h
  by_cases hok : l ≠ [] ∧ l.length ≤ 4 ∧ l.all Char.isHexDigit = true
  · intro c hc
    simp [isIPv6Char, List.all_eq_true.mp hok.2.2 c hc]
  · rw [if_neg hok] at h
    cases h

theorem parseIPv4_chars (l : List Char) (octets : List Nat) (h : parseIPv4 l = some octets) :
    ∀ c ∈ l, isIPv6Char c = true := by
  intro c hc
  rcases mem_of_parseIPv4 l octets h c hc with hdot | hdigit
  · simp [isIPv6Char, hdot]
  · simp [isIPv6Char, Char.isHexDigit, hdigit]

/-- What reading groups takes: a last piece that is a group or an IPv4 address, or
    a group and the rest. -/
theorem parseGroups_cons (piece : List Char) (rest : List (List Char)) (ns : List Nat)
    (h : parseGroups (piece :: rest) = some ns) :
    (rest = [] ∧ ns.length ≤ 2 ∧ ∀ c ∈ piece, isIPv6Char c = true) ∨
    ∃ n ms, parseHextet piece = some n ∧ parseGroups rest = some ms ∧ ns = n :: ms := by
  cases rest with
  | nil =>
      refine Or.inl ⟨rfl, ?_⟩
      rw [parseGroups] at h
      cases hhex : parseHextet piece with
      | some n =>
          rw [hhex] at h
          rw [← Option.some.inj h]
          exact ⟨by simp, parseHextet_chars piece n hhex⟩
      | none =>
          -- The last piece may stand for two groups.
          rw [hhex] at h
          simp only [] at h
          split at h
          · next a b c d hfour =>
            rw [← Option.some.inj h]
            exact ⟨by simp, parseIPv4_chars piece _ hfour⟩
          · cases h
  | cons q qs =>
      rw [parseGroups] at h
      · cases hhex : parseHextet piece with
        | none =>
            rw [hhex] at h
            cases h
        | some n =>
            rw [hhex] at h
            cases hrest : parseGroups (q :: qs) with
            | none =>
                rw [hrest] at h
                cases h
            | some ms =>
                rw [hrest] at h
                exact Or.inr ⟨n, ms, rfl, rfl, (Option.some.inj h).symm⟩
      · simp

theorem parseGroups_chars (pieces : List (List Char)) (ns : List Nat)
    (h : parseGroups pieces = some ns) : ∀ piece ∈ pieces, ∀ c ∈ piece, isIPv6Char c = true := by
  induction pieces generalizing ns with
  | nil => simp
  | cons p ps ih =>
      rw [List.forall_mem_cons]
      rcases parseGroups_cons p ps ns h with ⟨rfl, _, hchars⟩ | ⟨n, ms, hp, hps, _⟩
      · exact ⟨hchars, by simp⟩
      · exact ⟨parseHextet_chars p n hp, ih ms hps⟩

theorem parseSide_chars (parse : List (List Char) → Option (List Nat))
    (hparse : ∀ pieces ns, parse pieces = some ns →
      ∀ piece ∈ pieces, ∀ c ∈ piece, isIPv6Char c = true)
    (l : List Char) (ns : List Nat) (h : parseSide parse l = some ns) :
    ∀ c ∈ l, isIPv6Char c = true := by
  intro c hc
  unfold parseSide at h
  by_cases hnil : l = []
  · rw [hnil] at hc
    exact absurd hc List.not_mem_nil
  · rw [if_neg hnil] at h
    rcases mem_splitOn ':' c l hc with hcolon | ⟨piece, hpiece, hmem⟩
    · rw [hcolon]
      decide
    · exact hparse _ ns h piece hpiece c hmem

theorem cutEllipsis_eq_some (l left right : List Char) (h : cutEllipsis l = some (left, right)) :
    l = left ++ ':' :: ':' :: right := by
  induction l using cutEllipsis.induct generalizing left with
  | case1 rest =>
      rw [cutEllipsis] at h
      cases h
      rfl
  | case2 c rest hno ih =>
      -- The text does not start with the two colons, so they are in the rest.
      rw [cutEllipsis] at h
      · rcases Option.map_eq_some_iff.mp h with ⟨sides, hsides, heq⟩
        cases heq
        rw [ih sides.1 hsides]
        rfl
      · exact hno
  | case3 =>
      rw [cutEllipsis] at h
      cases h

/-- An IPv6 address has all its groups, or two colons in a row with a side on
    each. -/
theorem parseIPv6_cases (l : List Char) (groups : List Nat) (h : parseIPv6 l = some groups) :
    (∃ ns, parseGroups (l.splitOn ':') = some ns ∧ ns.length = 8) ∨
    ∃ left right ls rs, l = left ++ ':' :: ':' :: right ∧
      parseSide (parseEach parseHextet) left = some ls ∧ parseSide parseGroups right = some rs := by
  unfold parseIPv6 at h
  cases hcut : cutEllipsis l with
  | none =>
      rw [hcut] at h
      simp only [Option.filter_eq_some_iff] at h
      exact Or.inl ⟨groups, h.1, of_decide_eq_true h.2⟩
  | some sides =>
      rcases sides with ⟨left, right⟩
      rw [hcut] at h
      simp only [] at h
      cases hleft : parseSide (parseEach parseHextet) left with
      | none =>
          rw [hleft] at h
          cases h
      | some ls =>
          cases hright : parseSide parseGroups right with
          | none =>
              rw [hleft, hright] at h
              cases h
          | some rs =>
              exact Or.inr ⟨left, right, ls, rs, cutEllipsis_eq_some l left right hcut, hleft,
                hright⟩

/-- IPv6 text has hexadecimal digits, colons and dots only. -/
theorem mem_of_parseIPv6 (l : List Char) (groups : List Nat) (h : parseIPv6 l = some groups) :
    ∀ c ∈ l, isIPv6Char c = true := by
  have hhextets : ∀ pieces ns, parseEach parseHextet pieces = some ns →
      ∀ piece ∈ pieces, ∀ c ∈ piece, isIPv6Char c = true := by
    intro pieces ns hns piece hpiece
    rcases parseEach_mem _ _ _ hns piece hpiece with ⟨n, hn⟩
    exact parseHextet_chars piece n hn
  intro c hc
  rcases parseIPv6_cases l groups h with ⟨ns, hns, _⟩ | ⟨left, right, ls, rs, rfl, hls, hrs⟩
  · rcases mem_splitOn ':' c l hc with hcolon | ⟨piece, hpiece, hmem⟩
    · rw [hcolon]
      decide
    · exact parseGroups_chars _ ns hns piece hpiece c hmem
  · simp only [List.mem_append, List.mem_cons] at hc
    rcases hc with hc | hc | hc | hc
    · exact parseSide_chars _ hhextets left ls hls c hc
    · rw [hc]
      decide
    · rw [hc]
      decide
    · exact parseSide_chars _ parseGroups_chars right rs hrs c hc

/-- IPv6 text has no bracket. -/
theorem not_bracket_of_parseIPv6 (l : List Char) (groups : List Nat)
    (h : parseIPv6 l = some groups) : ']' ∉ l := by
  intro hbracket
  exact absurd (mem_of_parseIPv6 l groups h ']' hbracket) (by decide)

/-- Where there is a colon, there is a last one, and no less stands in front of
    it. -/
theorem exists_last_colon (a b : List Char) (ha : a ≠ []) :
    ∃ before after, a ++ ':' :: b = before ++ ':' :: after ∧ before ≠ [] ∧ ':' ∉ after := by
  -- The last colon of `b` is the first from its end.
  by_cases hcolon : ':' ∈ b.reverse
  · rcases List.eq_append_cons_of_mem hcolon with ⟨after, between, heq, hafter⟩
    have hb : b = between.reverse ++ ':' :: after.reverse := by
      rw [← List.reverse_reverse b, heq]
      simp
    refine ⟨a ++ ':' :: between.reverse, after.reverse, ?_, by simp, ?_⟩
    · rw [hb]
      simp
    · rwa [List.mem_reverse]
  · rw [List.mem_reverse] at hcolon
    exact ⟨a, b, rfl, ha, hcolon⟩

/-- IPv6 text has a colon that is not at its start. -/
theorem colon_of_parseIPv6 (l : List Char) (groups : List Nat) (h : parseIPv6 l = some groups) :
    ∃ before after, l = before ++ ':' :: after ∧ before ≠ [] := by
  rcases parseIPv6_cases l groups h with ⟨ns, hns, hlength⟩ | ⟨left, right, _, _, rfl, _, _⟩
  · by_cases hcolon : ':' ∈ l
    · rcases List.eq_append_cons_of_mem hcolon with ⟨before, after, rfl, _⟩
      refine ⟨before, after, rfl, ?_⟩
      intro hnil
      subst hnil
      -- The piece in front of a colon at the start is empty, and no group.
      have hsplit : (':' :: after).splitOn ':' = [] :: after.splitOn ':' := by
        simp [List.splitOn, List.splitOnP_cons_eq_if_modifyHead]
      rw [List.nil_append, hsplit] at hns
      rcases parseGroups_cons _ _ ns hns with ⟨hrest, _⟩ | ⟨n, ms, hhex, _⟩
      · exact absurd hrest (List.splitOnP_ne_nil _ _)
      · exact absurd hhex (by simp [parseHextet])
    · -- Without a colon there is one piece, and at most two groups.
      have hsplit : l.splitOn ':' = [l] := by
        refine List.splitOnP_eq_singleton fun c hc => ?_
        exact beq_eq_false_iff_ne.mpr fun hsame => hcolon (hsame ▸ hc)
      rw [hsplit] at hns
      rcases parseGroups_cons _ _ ns hns with ⟨_, hshort, _⟩ | ⟨n, ms, _, hrest, rfl⟩
      · omega
      · cases hrest
        simp at hlength
  · -- Of two colons in a row the second has the first before it.
    exact ⟨left ++ [':'], right, by simp, by simp⟩

end IPv6

section Peers

/-- An IPv4 or an IPv6 address. -/
inductive Addr where
  | v4 (octets : List Nat)
  | v6 (groups : List Nat)
  deriving Repr, DecidableEq

/-- The address a text stands for. -/
def parseAddr (s : String) : Option Addr :=
  match parseIPv4 s.toList with
  | some octets => some (.v4 octets)
  | none => (parseIPv6 s.toList).map .v6

/-- The text of a port. -/
def isPort (s : String) : Bool :=
  s != "" && s.toList.all Char.isDigit && decide (decimalValue s.toList < 65536)

/-- The ways to write an address as a peer: alone, or with a port. -/
inductive PeerText : String → Addr → Prop
  | bare (s : String) (addr : Addr) (haddr : parseAddr s = some addr) : PeerText s addr
  | port4 (s port : String) (octets : List Nat) (haddr : parseIPv4 s.toList = some octets)
      (hport : isPort port = true) : PeerText (s ++ ":" ++ port) (.v4 octets)
  | port6 (s port : String) (groups : List Nat) (haddr : parseIPv6 s.toList = some groups)
      (hport : isPort port = true) : PeerText ("[" ++ s ++ "]:" ++ port) (.v6 groups)

theorem parseAddr_eq_v4 (s : String) (octets : List Nat) :
    parseAddr s = some (.v4 octets) ↔ parseIPv4 s.toList = some octets := by
  unfold parseAddr
  cases parseIPv4 s.toList with
  | some os => simp
  | none => simp

theorem parseAddr_eq_v6 (s : String) (groups : List Nat)
    (h : parseAddr s = some (.v6 groups)) : parseIPv6 s.toList = some groups := by
  unfold parseAddr at h
  cases hfour : parseIPv4 s.toList with
  | some os =>
      rw [hfour] at h
      cases h
  | none =>
      rw [hfour] at h
      simpa using h

/-- A text that reads as an IPv6 address does not read as an IPv4 one. -/
theorem parseAddr_of_parseIPv6 (s : String) (groups : List Nat)
    (h : parseIPv6 s.toList = some groups) : parseAddr s = some (.v6 groups) := by
  have hcolon : ':' ∈ s.toList := by
    rcases colon_of_parseIPv6 s.toList groups h with ⟨before, after, heq, _⟩
    rw [heq]
    simp
  unfold parseAddr
  cases hfour : parseIPv4 s.toList with
  | some octets =>
      exact absurd hcolon (not_mem_of_parseIPv4 _ octets hfour ':' (by decide) (by decide))
  | none => rw [h, Option.map_some]

/-- A port has digits only. -/
theorem not_mem_of_isPort (s : String) (h : isPort s = true) (c : Char)
    (hdigit : c.isDigit = false) : c ∉ s.toList := by
  intro hc
  unfold isPort at h
  simp only [Bool.and_eq_true, List.all_eq_true] at h
  rw [h.1.2 c hc] at hdigit
  cases hdigit

end Peers

end Lib

end Kontxt
