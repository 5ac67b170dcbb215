import Kontxt.Go.Number
import Kontxt.Go.Url

/-!
# The Text of JSON Documents

The syntax half of `encoding/json`: the text a value is written as, and the
scanner that reads a text into a `Doc`. A string is escaped rune by rune, with the
runes that HTML treats on its own among those escaped. The scanner is the one of
`Unmarshal`: blanks between tokens, no control characters in strings, the number
grammar of JSON, and at most ten thousand arrays and objects inside each other.

A number literal ends where a rune follows that no literal has; since only blanks,
commas and closing brackets may follow one, this accepts what the scanner's state
machine accepts. Numbers with a fraction or an exponent are read and written by
`strconv`, which is a parameter with what it promises. A scan is given fuel, and
the length of a text is always enough.

## Main definitions

* `writeString`, `scanString`, `joinUnits`: The text of a string, and reading it.
* `FloatText`: Writing and reading the numbers that are not plain integers.
* `scanNumber`: Reading a number.
* `writeJson`: The text of a value.
* `scanValue`, `scanDoc`: Reading a value, and reading a whole text.
* `Fits`: Values whose numbers are doubles and that are not too deep.

## Theorems

* `scanString_writeRunes`, `joinUnits_unitOf`: A string that was written is read back.
* `scanNumber_numberRunes`: A number that was written is read back.
* `scanValue_writeJson`: A value that was written is read off the front of a text.
* `scanDoc_writeJson`: A text is read as the value it was written for.
-/

namespace Kontxt

namespace Go

open Lib

section Strings

/-- The digit of `hex`. -/
def lowerHex (d : Nat) : Char :=
  "0123456789abcdef".toList.getD d '0'

/-- Four hexadecimal digits. -/
def hex4 (n : Nat) : List Char :=
  [lowerHex (n / 4096 % 16), lowerHex (n / 256 % 16), lowerHex (n / 16 % 16), lowerHex (n % 16)]

/-- The runes with an escape letter of their own. -/
def shortEscapes : List (Char × Char) :=
  [('"', '"'), ('\\', '\\'), (Char.ofNat 0x08, 'b'), (Char.ofNat 0x0c, 'f'), ('\n', 'n'),
    ('\r', 'r'), ('\t', 't')]

/-- The other runes that are not written as they are. -/
def needsCode (c : Char) : Bool :=
  c.toNat < 0x20 || c == '<' || c == '>' || c == '&' || c.toNat == 0x2028 || c.toNat == 0x2029

/-- One rune of a string, as `appendString` writes it with `escapeHTML`. -/
def writeRune (c : Char) : List Char :=
  match shortEscapes.lookup c with
  | some letter => ['\\', letter]
  | none => if needsCode c then '\\' :: 'u' :: hex4 c.toNat else [c]

/-- `appendString`. -/
def writeString (s : String) : List Char :=
  '"' :: (s.toList.flatMap writeRune ++ ['"'])

/-- The rune of an escape letter: those that are written, and the slash. -/
def ofShortEscape (letter : Char) : Option Char :=
  [('"', '"'), ('\\', '\\'), ('/', '/'), ('b', Char.ofNat 0x08), ('f', Char.ofNat 0x0c),
    ('n', '\n'), ('r', '\r'), ('t', '\t')].lookup letter

/-- `getu4`, on the digits. -/
def readHex4 (a b c d : Char) : Option Nat :=
  match unhex a, unhex b, unhex c, unhex d with
  | some a, some b, some c, some d => some (((a * 16 + b) * 16 + c) * 16 + d)
  | _, _, _, _ => none

/-- A unit of a string: a rune, or a code of four digits. -/
inductive StringUnit where
  | rune (c : Char)
  | code (n : Nat)
  deriving Repr, DecidableEq

/-- The rest of a string after its opening quote: its units, and what follows the
    closing quote. -/
def scanString : List Char → Option (List StringUnit × List Char)
  | [] => none
  | c :: rest =>
    if c = '"' then some ([], rest)
    else if c.toNat < 0x20 then none
    else if c = '\\' then
      match rest with
      | 'u' :: h₁ :: h₂ :: h₃ :: h₄ :: rest' =>
        match readHex4 h₁ h₂ h₃ h₄ with
        | none => none
        | some n => (scanString rest').map fun p => (.code n :: p.1, p.2)
      | letter :: rest' =>
        match ofShortEscape letter with
        | none => none
        | some r => (scanString rest').map fun p => (.rune r :: p.1, p.2)
      | [] => none
    else (scanString rest).map fun p => (.rune c :: p.1, p.2)

/-- The first half of a pair. -/
def isHighSurrogate (n : Nat) : Bool :=
  0xd800 ≤ n && n < 0xdc00

/-- The second half of a pair. -/
def isLowSurrogate (n : Nat) : Bool :=
  0xdc00 ≤ n && n < 0xe000

/-- The runes of a string's units, given the first half of a pair that is open. A
    half that stays alone is replaced. -/
def joinUnits : Option Nat → List StringUnit → List Char
  | none, [] => []
  | some _, [] => ['�']
  | none, .rune c :: rest => c :: joinUnits none rest
  | some _, .rune c :: rest => '�' :: c :: joinUnits none rest
  | none, .code n :: rest =>
    if isHighSurrogate n = true then joinUnits (some n) rest
    else if isLowSurrogate n = true then '�' :: joinUnits none rest
    else Char.ofNat n :: joinUnits none rest
  | some high, .code n :: rest =>
    if isLowSurrogate n = true then
      Char.ofNat (0x10000 + (high - 0xd800) * 0x400 + (n - 0xdc00)) :: joinUnits none rest
    else if isHighSurrogate n = true then '�' :: joinUnits (some n) rest
    else '�' :: Char.ofNat n :: joinUnits none rest

/-- The unit a rune is written as. -/
def unitOf (c : Char) : StringUnit :=
  if (shortEscapes.lookup c).isNone = true ∧ needsCode c = true then .code c.toNat else .rune c

theorem unhex_lowerHex : ∀ d < 16, unhex (lowerHex d) = some d := by
  decide

/-- Four digits are read back. -/
theorem readHex4_hex4 (n : Nat) (h : n < 65536) :
    readHex4 (lowerHex (n / 4096 % 16)) (lowerHex (n / 256 % 16)) (lowerHex (n / 16 % 16))
      (lowerHex (n % 16)) = some n := by
  have hdigit : ∀ m, unhex (lowerHex (m % 16)) = some (m % 16) := by
    intro m
    exact unhex_lowerHex _ (Nat.mod_lt _ (by decide))
  unfold readHex4
  rw [hdigit, hdigit, hdigit, hdigit]
  simp only [Option.some.injEq]
  omega

theorem ofShortEscape_of_mem : ∀ e ∈ shortEscapes, ofShortEscape e.2 = some e.1 ∧ e.2 ≠ 'u' := by
  decide

/-- A rune that is written as it is neither ends a string nor begins an escape. -/
theorem plain_of_not_escaped (c : Char) (hshort : shortEscapes.lookup c = none)
    (hcode : needsCode c = false) : c ≠ '"' ∧ ¬c.toNat < 0x20 ∧ c ≠ '\\' := by
  refine ⟨?_, ?_, ?_⟩
  · rintro rfl
    exact absurd hshort (by decide)
  · intro hlt
    simp [needsCode, hlt] at hcode
  · rintro rfl
    exact absurd hshort (by decide)

theorem toNat_lt_of_needsCode (c : Char) (h : needsCode c = true) : c.toNat < 65536 := by
  simp only [needsCode, Bool.or_eq_true, decide_eq_true_eq, beq_iff_eq] at h
  rcases h with ((((h | rfl) | rfl) | rfl) | h) | h
  · omega
  · decide
  · decide
  · decide
  · omega
  · omega

theorem scanString_backslash_letter (letter r : Char) (rest : List Char) (hu : letter ≠ 'u')
    (hr : ofShortEscape letter = some r) :
    scanString ('\\' :: letter :: rest) =
      (scanString rest).map fun p => (.rune r :: p.1, p.2) := by
  rw [scanString.eq_def]
  have hquote : '\\' ≠ '"' := by decide
  have hcontrol : ¬('\\').toNat < 0x20 := by decide
  simp only [if_neg hquote, if_neg hcontrol, if_true]
  split
  · rename_i heq
    exact absurd (List.cons.inj heq).1 hu
  · rename_i heq
    cases heq
    rw [hr]
  · rename_i heq
    cases heq

theorem scanString_plain (c : Char) (rest : List Char) (hquote : c ≠ '"')
    (hcontrol : ¬c.toNat < 0x20) (hback : c ≠ '\\') :
    scanString (c :: rest) = (scanString rest).map fun p => (.rune c :: p.1, p.2) := by
  rw [scanString.eq_def]
  simp only [if_neg hquote, if_neg hcontrol, if_neg hback]

/-- Scanning reads one written rune off the front. -/
theorem scanString_writeRune (c : Char) (rest : List Char) :
    scanString (writeRune c ++ rest) =
      (scanString rest).map fun p => (unitOf c :: p.1, p.2) := by
  unfold writeRune unitOf
  cases hshort : shortEscapes.lookup c with
  | some letter =>
      rcases List.lookup_eq_some_iff.mp hshort with ⟨l₁, l₂, htable, _⟩
      have hmem : (c, letter) ∈ shortEscapes := by
        rw [htable]
        exact List.mem_append_right _ List.mem_cons_self
      rcases ofShortEscape_of_mem _ hmem with ⟨hr, hu⟩
      exact scanString_backslash_letter letter c rest hu hr
  | none =>
      by_cases hcode : needsCode c = true
      · have hread := readHex4_hex4 c.toNat (toNat_lt_of_needsCode c hcode)
        simp only [hcode, if_true, Option.isNone_none, and_self]
        change scanString ('\\' :: 'u' :: _ :: _ :: _ :: _ :: rest) = _
        rw [scanString, if_neg (by decide), if_neg (by decide), if_pos rfl, hread]
      · have hcode : needsCode c = false := by simpa using hcode
        rcases plain_of_not_escaped c hshort hcode with ⟨hquote, hcontrol, hback⟩
        simp only [hcode, Bool.false_eq_true, if_false, and_false, List.singleton_append]
        exact scanString_plain c rest hquote hcontrol hback

/-- A string is scanned up to its closing quote. -/
theorem scanString_writeRunes (l rest : List Char) :
    scanString (l.flatMap writeRune ++ '"' :: rest) = some (l.map unitOf, rest) := by
  induction l with
  | nil =>
      rw [List.flatMap_nil, List.nil_append, scanString.eq_def]
      rfl
  | cons c l ih =>
      rw [List.flatMap_cons, List.append_assoc, scanString_writeRune, ih]
      rfl

/-- No rune is half of a pair, so a unit stands for the rune it was written for. -/
theorem joinUnits_cons_unitOf (c : Char) (rest : List StringUnit) :
    joinUnits none (unitOf c :: rest) = c :: joinUnits none rest := by
  unfold unitOf
  split
  · have hvalid : c.toNat < 0xd800 ∨ 0xdfff < c.toNat := by
      rcases c.valid with hlow | hhigh
      · exact Or.inl hlow
      · exact Or.inr hhigh.1
    have hhigh : isHighSurrogate c.toNat = false := by
      simp only [isHighSurrogate, Bool.and_eq_false_iff, decide_eq_false_iff_not]
      omega
    have hlow : isLowSurrogate c.toNat = false := by
      simp only [isLowSurrogate, Bool.and_eq_false_iff, decide_eq_false_iff_not]
      omega
    simp only [joinUnits, hhigh, hlow, Bool.false_eq_true, if_false, Char.ofNat_toNat]
  · rw [joinUnits]

/-- The units of a string stand for its runes. -/
theorem joinUnits_unitOf (l : List Char) : joinUnits none (l.map unitOf) = l := by
  induction l with
  | nil => rfl
  | cons c l ih => rw [List.map_cons, joinUnits_cons_unitOf, ih]

end Strings

section Numbers

/-- The runes of number literals. -/
def isNumberRune (c : Char) : Bool :=
  c.isDigit || c == '-' || c == '+' || c == '.' || c == 'e' || c == 'E'

/-- A literal after its sign. -/
def afterMinus : List Char → List Char
  | c :: rest => if c = '-' then rest else c :: rest
  | [] => []

/-- A text after at least one digit. -/
def afterDigits : List Char → Option (List Char)
  | c :: rest => if c.isDigit = true then some (rest.dropWhile Char.isDigit) else none
  | [] => none

/-- A literal after its whole part: a zero, or digits that do not begin with one. -/
def afterWhole : List Char → Option (List Char)
  | c :: rest => if c = '0' then some rest else afterDigits (c :: rest)
  | [] => none

/-- A literal after its fraction, if it has one. -/
def afterFraction : List Char → Option (List Char)
  | c :: rest => if c = '.' then afterDigits rest else some (c :: rest)
  | [] => some []

/-- A literal after its exponent, if it has one. -/
def afterExponent : List Char → Option (List Char)
  | c :: rest =>
    if c = 'e' ∨ c = 'E' then
      match rest with
      | sign :: digits =>
        if sign = '+' ∨ sign = '-' then afterDigits digits else afterDigits (sign :: digits)
      | [] => none
    else some (c :: rest)
  | [] => some []

/-- Whether a literal has neither fraction nor exponent. -/
def isIntegerLiteral (literal : List Char) : Bool :=
  afterWhole (afterMinus literal) == some []

/-- `isValidNumber`. -/
def isValidNumber (literal : List Char) : Bool :=
  ((afterWhole (afterMinus literal)).bind afterFraction).bind afterExponent == some []

/-- The number of an integer literal. -/
def integerValue : List Char → Int
  | c :: rest =>
    if c = '-' then -(Nat.ofDigitChars 10 rest 0 : Nat)
    else (Nat.ofDigitChars 10 (c :: rest) 0 : Nat)
  | [] => 0

/-- Whether a number is written without fraction and exponent. -/
def IsPlain (q : Rat) : Prop :=
  q.den = 1 ∧ q.num.natAbs < 10 ^ 21

instance (q : Rat) : Decidable (IsPlain q) :=
  inferInstanceAs (Decidable (_ ∧ _))

/-- What `strconv` does for the numbers that are not written plainly: writing a
    double, reading a literal, if it is in range, and that a double is read back. -/
structure FloatText where
  isDouble : Rat → Prop
  write : Rat → String
  read : String → Option Rat
  write_runes : ∀ q, isDouble q → ∀ c ∈ (write q).toList, isNumberRune c = true
  write_valid : ∀ q, isDouble q → isValidNumber (write q).toList = true
  write_not_integer : ∀ q, isDouble q → isIntegerLiteral (write q).toList = false
  read_write : ∀ q, isDouble q → read (write q) = some q

/-- Enough for values whose numbers are all written plainly. -/
def FloatText.plain : FloatText where
  isDouble := fun _ => False
  write := fun _ => ""
  read := fun _ => none
  write_runes := fun _ h => h.elim
  write_valid := fun _ h => h.elim
  write_not_integer := fun _ h => h.elim
  read_write := fun _ h => h.elim

/-- The numbers that can be written and read back. -/
def FloatText.Writes (F : FloatText) (q : Rat) : Prop :=
  if IsPlain q then nearestDouble q.num.natAbs = q.num.natAbs else F.isDouble q

/-- The text of a number. -/
def numberRunes (F : FloatText) (q : Rat) : List Char :=
  if IsPlain q then (numberText q.num).toList else (F.write q).toList

/-- The literal a number is written as. -/
def numberDoc (q : Rat) : Doc :=
  if IsPlain q then .integer (withSign q.num (shorten nearestDouble q.num.natAbs))
  else .decimal (some q)

/-- Reading a number off the front of a text. -/
def scanNumber (F : FloatText) (l : List Char) : Option (Doc × List Char) :=
  let literal := l.takeWhile isNumberRune
  let rest := l.dropWhile isNumberRune
  if isIntegerLiteral literal then some (.integer (integerValue literal), rest)
  else if isValidNumber literal then some (.decimal (F.read (String.ofList literal)), rest)
  else none

/-- A text that no number literal goes on into. -/
def EndsNumber (rest : List Char) : Prop :=
  ∀ c ∈ rest.head?, isNumberRune c = false

/-- A literal is read whole when nothing goes on. -/
theorem takeWhile_isNumberRune (literal rest : List Char)
    (hliteral : ∀ c ∈ literal, isNumberRune c = true) (hrest : EndsNumber rest) :
    (literal ++ rest).takeWhile isNumberRune = literal ∧
      (literal ++ rest).dropWhile isNumberRune = rest := by
  rw [List.takeWhile_append_of_pos hliteral, List.dropWhile_append_of_pos hliteral]
  cases rest with
  | nil => simp
  | cons c rest =>
      have hc : isNumberRune c = false := hrest c rfl
      rw [List.takeWhile_cons_of_neg (by simp [hc]), List.dropWhile_cons_of_neg (by simp [hc]),
        List.append_nil]
      exact ⟨rfl, rfl⟩

/-- The digits of a number begin with a zero only for zero itself. -/
theorem toDigits_eq (n : Nat) :
    n = 0 ∧ Nat.toDigits 10 n = ['0'] ∨
      ∃ c rest, Nat.toDigits 10 n = c :: rest ∧ c ≠ '0' ∧ c.isDigit = true ∧
        ∀ d ∈ rest, d.isDigit = true := by
  induction n using Nat.strongRecOn with
  | ind n ih =>
      by_cases hsmall : n < 10
      · have hdigit : ∀ m < 10, m = 0 ∨ m.digitChar ≠ '0' ∧ m.digitChar.isDigit = true := by
          decide
        rw [Nat.toDigits_of_lt_base hsmall]
        rcases hdigit n hsmall with rfl | ⟨hzero, hisDigit⟩
        · exact Or.inl ⟨rfl, rfl⟩
        · exact Or.inr ⟨_, [], rfl, hzero, hisDigit, fun d hd => absurd hd List.not_mem_nil⟩
      · right
        rw [Nat.toDigits_of_base_le (by decide) (by omega)]
        rcases ih (n / 10) (by omega) with ⟨hzero, _⟩ | ⟨c, rest, hdigits, hc, hdigit, hrest⟩
        · omega
        · refine ⟨c, rest ++ [(n % 10).digitChar], ?_, hc, hdigit, ?_⟩
          · rw [hdigits, List.cons_append]
          intro d hd
          rcases List.mem_append.mp hd with hd | hd
          · exact hrest d hd
          · have hlast : ∀ m < 10, m.digitChar.isDigit = true := by decide
            rw [List.mem_singleton.mp hd]
            exact hlast _ (Nat.mod_lt _ (by decide))

/-- The digits of a number are an integer literal. -/
theorem afterWhole_toDigits (n : Nat) : afterWhole (Nat.toDigits 10 n) = some [] := by
  rcases toDigits_eq n with ⟨_, hdigits⟩ | ⟨c, rest, hdigits, hc, hdigit, hrest⟩
  · rw [hdigits]
    rfl
  · rw [hdigits]
    simp only [afterWhole, afterDigits, if_neg hc, hdigit, if_true, Option.some.injEq,
      List.dropWhile_eq_nil_iff]
    exact hrest

/-- The digits of a number do not begin with a sign. -/
theorem toDigits_eq_cons (n : Nat) :
    ∃ c rest, Nat.toDigits 10 n = c :: rest ∧ c ≠ '-' ∧ isNumberRune c = true := by
  have hpos : 0 < (Nat.toDigits 10 n).length := Nat.length_toDigits_pos
  cases hdigits : Nat.toDigits 10 n with
  | nil => rw [hdigits] at hpos; exact absurd hpos (by decide)
  | cons c rest =>
      have hdigit : c.isDigit = true := by
        refine Nat.isDigit_of_mem_toDigits (by decide) (by decide) (b := 10) (n := n) ?_
        rw [hdigits]
        exact List.mem_cons_self
      refine ⟨c, rest, rfl, ?_, ?_⟩
      · rintro rfl
        exact absurd hdigit (by decide)
      · simp [isNumberRune, hdigit]

theorem isNumberRune_of_mem_toDigits (n : Nat) (c : Char) (h : c ∈ Nat.toDigits 10 n) :
    isNumberRune c = true := by
  simp [isNumberRune, Nat.isDigit_of_mem_toDigits (by decide) (by decide) h]

/-- A signed number's text: its runes, that it is an integer literal, and its value. -/
theorem integerLiteral_signed (negative : Bool) (n : Nat) (literal : List Char)
    (h : literal = (if negative then ['-'] else []) ++ Nat.toDigits 10 n) :
    (∀ c ∈ literal, isNumberRune c = true) ∧ isIntegerLiteral literal = true ∧
      integerValue literal = if negative then -(n : Int) else n := by
  have hvalue : Nat.ofDigitChars 10 (Nat.toDigits 10 n) 0 = n :=
    Nat.ofDigitChars_toDigits (by decide) (by decide)
  have hwhole := afterWhole_toDigits n
  cases negative with
  | true =>
      rw [if_pos rfl, List.singleton_append] at h
      subst h
      refine ⟨?_, ?_, ?_⟩
      · intro c hc
        rcases List.mem_cons.mp hc with rfl | hc
        · decide
        · exact isNumberRune_of_mem_toDigits n c hc
      · simp only [isIntegerLiteral, afterMinus, if_true, hwhole, beq_self_eq_true]
      · simp only [integerValue, if_true, hvalue]
  | false =>
      rw [if_neg Bool.false_ne_true, List.nil_append] at h
      subst h
      rcases toDigits_eq_cons n with ⟨c, rest, hdigits, hc, _⟩
      refine ⟨fun c hc => isNumberRune_of_mem_toDigits n c hc, ?_, ?_⟩
      · rw [hdigits] at hwhole ⊢
        simp only [isIntegerLiteral, afterMinus, if_neg hc, hwhole, beq_self_eq_true]
      · rw [hdigits] at hvalue ⊢
        simp only [integerValue, if_neg hc, hvalue, Bool.false_eq_true, if_false]

/-- The text of a plain number. -/
theorem toList_numberText (n : Int) (h : n.natAbs < 10 ^ 21) :
    (numberText n).toList = (if decide (n < 0) then ['-'] else []) ++
      Nat.toDigits 10 (shorten nearestDouble n.natAbs) := by
  unfold numberText doubleText
  rw [if_pos h]
  by_cases hneg : n < 0
  · simp [hneg]
  · simp [hneg]

/-- A number that was written is read back. -/
theorem scanNumber_numberRunes (F : FloatText) (q : Rat) (rest : List Char) (hq : F.Writes q)
    (hrest : EndsNumber rest) :
    scanNumber F (numberRunes F q ++ rest) = some (numberDoc q, rest) := by
  unfold FloatText.Writes at hq
  unfold numberRunes numberDoc scanNumber
  by_cases hplain : IsPlain q
  · rcases integerLiteral_signed (decide (q.num < 0)) _ _ (toList_numberText q.num hplain.2) with
      ⟨hrunes, hinteger, hvalue⟩
    rcases takeWhile_isNumberRune _ rest hrunes hrest with ⟨htake, hdrop⟩
    simp only [if_pos hplain, htake, hdrop, hinteger, if_true, hvalue, withSign,
      decide_eq_true_eq]
  · rw [if_neg hplain] at hq
    rcases takeWhile_isNumberRune _ rest (F.write_runes q hq) hrest with ⟨htake, hdrop⟩
    simp only [if_neg hplain, htake, hdrop, F.write_not_integer q hq, F.write_valid q hq,
      Bool.false_eq_true, if_false, if_true, String.ofList_toList, F.read_write q hq]

end Numbers

section Values

mutual

/-- The text of a value, members in the order they stand. -/
def writeJson (F : FloatText) : Json → List Char
  | .null => ['n', 'u', 'l', 'l']
  | .bool true => ['t', 'r', 'u', 'e']
  | .bool false => ['f', 'a', 'l', 's', 'e']
  | .num q => numberRunes F q
  | .str s => writeString s
  | .arr xs => '[' :: (writeItems F xs ++ [']'])
  | .obj members => '{' :: (writeMembers F members ++ ['}'])

/-- The items of an array. -/
def writeItems (F : FloatText) : List Json → List Char
  | [] => []
  | x :: rest => writeJson F x ++ writeMoreItems F rest

/-- The items after the first. -/
def writeMoreItems (F : FloatText) : List Json → List Char
  | [] => []
  | x :: rest => ',' :: (writeJson F x ++ writeMoreItems F rest)

/-- The members of an object. -/
def writeMembers (F : FloatText) : List (String × Json) → List Char
  | [] => []
  | (k, v) :: rest => writeString k ++ ':' :: (writeJson F v ++ writeMoreMembers F rest)

/-- The members after the first. -/
def writeMoreMembers (F : FloatText) : List (String × Json) → List Char
  | [] => []
  | (k, v) :: rest =>
    ',' :: (writeString k ++ ':' :: (writeJson F v ++ writeMoreMembers F rest))

end

/-- `isSpace` of the scanner. -/
def isBlank (c : Char) : Bool :=
  c == ' ' || c == '\t' || c == '\r' || c == '\n'

/-- What follows a rune, if it is the next that is not blank. -/
def token (c : Char) (l : List Char) : Option (List Char) :=
  match l.dropWhile isBlank with
  | d :: rest => if d = c then some rest else none
  | [] => none

/-- What follows a word, if it is next. -/
def word (w l : List Char) : Option (List Char) :=
  if w.isPrefixOf (l.dropWhile isBlank) then some ((l.dropWhile isBlank).drop w.length) else none

/-- A string with both its quotes. -/
def scanQuoted (l : List Char) : Option (String × List Char) :=
  (token '"' l).bind fun rest =>
    (scanString rest).map fun p => (String.ofList (joinUnits none p.1), p.2)

/-- A value that is neither an array nor an object. -/
def scanScalar (F : FloatText) (l : List Char) : Option (Doc × List Char) :=
  match token '"' l with
  | some _ => (scanQuoted l).map fun p => (.str p.1, p.2)
  | none =>
    match word ['n', 'u', 'l', 'l'] l with
    | some rest => some (.null, rest)
    | none =>
      match word ['t', 'r', 'u', 'e'] l with
      | some rest => some (.bool true, rest)
      | none =>
        match word ['f', 'a', 'l', 's', 'e'] l with
        | some rest => some (.bool false, rest)
        | none => scanNumber F (l.dropWhile isBlank)

mutual

/-- A value, with the number of arrays and objects that may still be opened. -/
def scanValue (F : FloatText) : Nat → Nat → List Char → Option (Doc × List Char)
  | 0, _, _ => none
  | fuel + 1, depth, l =>
    match token '[' l, token '{' l with
    | some rest, _ =>
      match depth with
      | 0 => none
      | depth + 1 =>
        match token ']' rest with
        | some rest' => some (.arr [], rest')
        | none => (scanItems F fuel depth rest).map fun p => (.arr p.1, p.2)
    | none, some rest =>
      match depth with
      | 0 => none
      | depth + 1 =>
        match token '}' rest with
        | some rest' => some (.obj [], rest')
        | none => (scanMembers F fuel depth rest).map fun p => (.obj p.1, p.2)
    | none, none => scanScalar F l

/-- The items of an array up to its closing bracket. -/
def scanItems (F : FloatText) : Nat → Nat → List Char → Option (List Doc × List Char)
  | 0, _, _ => none
  | fuel + 1, depth, l =>
    match scanValue F fuel depth l with
    | none => none
    | some (d, rest) =>
      match token ',' rest with
      | some rest' => (scanItems F fuel depth rest').map fun p => (d :: p.1, p.2)
      | none => (token ']' rest).map fun rest' => ([d], rest')

/-- The members of an object up to its closing brace. -/
def scanMembers (F : FloatText) : Nat → Nat → List Char → Option (List (String × Doc) × List Char)
  | 0, _, _ => none
  | fuel + 1, depth, l =>
    match (scanQuoted l).bind fun p => (token ':' p.2).map fun rest => (p.1, rest) with
    | none => none
    | some (k, l) =>
      match scanValue F fuel depth l with
      | none => none
      | some (d, rest) =>
        match token ',' rest with
        | some rest' => (scanMembers F fuel depth rest').map fun p => ((k, d) :: p.1, p.2)
        | none => (token '}' rest).map fun rest' => ([(k, d)], rest')

end

/-- `maxNestingDepth`. -/
def maxNestingDepth : Nat := 10000

/-- The document a whole text is: blanks may follow the value, and nothing else. -/
def scanDoc (F : FloatText) (l : List Char) : Option Doc :=
  match scanValue F l.length maxNestingDepth l with
  | some (d, rest) => if rest.dropWhile isBlank = [] then some d else none
  | none => none

mutual

/-- The document a value is written as. -/
def toDoc : Json → Doc
  | .null => .null
  | .bool b => .bool b
  | .num q => numberDoc q
  | .str s => .str s
  | .arr xs => .arr (toDocs xs)
  | .obj members => .obj (toDocMembers members)

/-- The documents of an array's items. -/
def toDocs : List Json → List Doc
  | [] => []
  | x :: rest => toDoc x :: toDocs rest

/-- The documents of an object's members. -/
def toDocMembers : List (String × Json) → List (String × Doc)
  | [] => []
  | (k, v) :: rest => (k, toDoc v) :: toDocMembers rest

end

/-- Values whose numbers can be written and with at most so many arrays and objects
    inside each other. -/
inductive Fits (F : FloatText) : Nat → Json → Prop
  | null (depth : Nat) : Fits F depth .null
  | bool (depth : Nat) (b : Bool) : Fits F depth (.bool b)
  | num (depth : Nat) (q : Rat) (h : F.Writes q) : Fits F depth (.num q)
  | str (depth : Nat) (s : String) : Fits F depth (.str s)
  | arr (depth : Nat) (xs : List Json) (h : ∀ x ∈ xs, Fits F depth x) :
      Fits F (depth + 1) (.arr xs)
  | obj (depth : Nat) (members : List (String × Json)) (h : ∀ e ∈ members, Fits F depth e.2) :
      Fits F (depth + 1) (.obj members)

theorem token_cons (c : Char) (rest : List Char) (hblank : isBlank c = false) :
    token c (c :: rest) = some rest := by
  unfold token
  rw [List.dropWhile_cons_of_neg (by simp [hblank])]
  simp

theorem token_eq_none (c d : Char) (rest : List Char) (hblank : isBlank d = false) (hne : d ≠ c) :
    token c (d :: rest) = none := by
  unfold token
  rw [List.dropWhile_cons_of_neg (by simp [hblank])]
  simp [hne]

theorem word_eq_none (w : List Char) (c d : Char) (rest : List Char) (hblank : isBlank d = false)
    (hne : d ≠ c) : word (c :: w) (d :: rest) = none := by
  unfold word
  rw [List.dropWhile_cons_of_neg (by simp [hblank])]
  simp [hne.symm]

theorem scanQuoted_writeString (s : String) (rest : List Char) :
    scanQuoted (writeString s ++ rest) = some (s, rest) := by
  unfold scanQuoted writeString
  rw [List.cons_append, List.append_assoc, token_cons '"' _ (by decide), Option.bind_some,
    List.singleton_append, scanString_writeRunes, Option.map_some, joinUnits_unitOf,
    String.ofList_toList]

/-- A number begins with one of its runes. -/
theorem numberRunes_eq_cons (F : FloatText) (q : Rat) (hq : F.Writes q) :
    ∃ c tail, numberRunes F q = c :: tail ∧ isNumberRune c = true := by
  unfold FloatText.Writes at hq
  unfold numberRunes
  by_cases hplain : IsPlain q
  · rw [if_pos hplain, toList_numberText q.num hplain.2]
    by_cases hneg : q.num < 0
    · exact ⟨'-', _, by rw [if_pos (decide_eq_true hneg), List.singleton_append], by decide⟩
    · rcases toDigits_eq_cons (shorten nearestDouble q.num.natAbs) with ⟨c, tail, hdigits, _, hc⟩
      exact ⟨c, tail, by rw [if_neg (by simpa using hneg), List.nil_append, hdigits], hc⟩
  · rw [if_neg hplain] at hq ⊢
    have hvalid := F.write_valid q hq
    have hrunes := F.write_runes q hq
    cases hwrite : (F.write q).toList with
    | nil => rw [hwrite] at hvalid; exact absurd hvalid (by decide)
    | cons c tail => exact ⟨c, tail, rfl, hrunes c (by rw [hwrite]; exact List.mem_cons_self)⟩

/-- A number's first rune is none of the runes another token begins with. -/
theorem ne_of_isNumberRune (c : Char) (hc : isNumberRune c = true) :
    isBlank c = false ∧ ∀ d ∈ ['[', ']', '{', '}', '"', 'n', 't', 'f'], c ≠ d := by
  refine ⟨?_, ?_⟩
  · by_contra hblank
    simp only [isBlank, Bool.not_eq_false, Bool.or_eq_true, beq_iff_eq] at hblank
    rcases hblank with ((rfl | rfl) | rfl) | rfl <;> exact absurd hc (by decide)
  · rintro d hd rfl
    have hnot : ['[', ']', '{', '}', '"', 'n', 't', 'f'].all (fun d => !isNumberRune d) = true := by
      decide
    have hd := List.all_eq_true.mp hnot c hd
    rw [hc] at hd
    cases hd

/-- What a value begins with is not blank and closes nothing. -/
theorem writeJson_eq_cons (F : FloatText) (depth : Nat) (v : Json) (h : Fits F depth v) :
    ∃ c tail, writeJson F v = c :: tail ∧ isBlank c = false ∧ c ≠ ']' ∧ c ≠ '}' := by
  cases h with
  | null => exact ⟨'n', _, by rw [writeJson], by decide⟩
  | bool _ b =>
      cases b with
      | true => exact ⟨'t', _, by rw [writeJson], by decide⟩
      | false => exact ⟨'f', _, by rw [writeJson], by decide⟩
  | num _ q hq =>
      rcases numberRunes_eq_cons F q hq with ⟨c, tail, htext, hc⟩
      rcases ne_of_isNumberRune c hc with ⟨hblank, hne⟩
      exact ⟨c, tail, by rw [writeJson, htext], hblank, hne ']' (by decide), hne '}' (by decide)⟩
  | str _ s => exact ⟨'"', _, by rw [writeJson, writeString], by decide⟩
  | arr _ xs hxs => exact ⟨'[', _, by rw [writeJson], by decide⟩
  | obj _ members hmembers => exact ⟨'{', _, by rw [writeJson], by decide⟩

/-- What opens neither an array nor an object is a scalar. -/
theorem scanValue_scalar (F : FloatText) (fuel depth : Nat) (c : Char) (l : List Char)
    (hblank : isBlank c = false) (harr : c ≠ '[') (hobj : c ≠ '{') :
    scanValue F (fuel + 1) depth (c :: l) = scanScalar F (c :: l) := by
  rw [scanValue, token_eq_none '[' c l hblank harr, token_eq_none '{' c l hblank hobj]

/-- A value that was written is read off the front of a text, with as much fuel as
    the text is long. -/
def Scans (F : FloatText) (depth : Nat) (v : Json) : Prop :=
  ∀ fuel rest, (writeJson F v).length ≤ fuel → EndsNumber rest →
    scanValue F fuel depth (writeJson F v ++ rest) = some (toDoc v, rest)

theorem endsNumber_cons (c : Char) (rest : List Char) (hc : isNumberRune c = false) :
    EndsNumber (c :: rest) := by
  intro d hd
  cases hd
  exact hc

/-- The items of an array are read up to its closing bracket. -/
theorem scanItems_writeItems (F : FloatText) (depth : Nat) (xs : List Json) (x : Json)
    (hall : ∀ y ∈ x :: xs, Scans F depth y) (fuel : Nat) (rest : List Char)
    (hfuel : (writeItems F (x :: xs)).length + 1 ≤ fuel) :
    scanItems F fuel depth (writeItems F (x :: xs) ++ ']' :: rest) =
      some (toDocs (x :: xs), rest) := by
  induction xs generalizing x fuel with
  | nil =>
      simp only [writeItems, writeMoreItems, List.append_nil] at hfuel ⊢
      obtain ⟨fuel, rfl⟩ : ∃ n, fuel = n + 1 := ⟨fuel - 1, by omega⟩
      have hx := hall x List.mem_cons_self fuel (']' :: rest) (by omega)
        (endsNumber_cons ']' rest (by decide))
      simp only [scanItems, hx, token_eq_none ',' ']' rest (by decide) (by decide),
        token_cons ']' rest (by decide), Option.map_some, toDocs]
  | cons y ys ih =>
      have htext : writeItems F (x :: y :: ys) =
          writeJson F x ++ ',' :: writeItems F (y :: ys) := by
        simp only [writeItems, writeMoreItems]
      rw [htext, List.length_append, List.length_cons] at hfuel
      rw [htext, List.append_assoc, List.cons_append]
      obtain ⟨fuel, rfl⟩ : ∃ n, fuel = n + 1 := ⟨fuel - 1, by omega⟩
      have hx := hall x List.mem_cons_self fuel (',' :: (writeItems F (y :: ys) ++ ']' :: rest))
        (by omega) (endsNumber_cons ',' _ (by decide))
      have hrest := ih y (fun z hz => hall z (List.mem_cons_of_mem _ hz)) fuel (by omega)
      simp only [scanItems, hx, token_cons ',' _ (by decide : isBlank ',' = false), hrest,
        Option.map_some, toDocs]

/-- The members of an object are read up to its closing brace. -/
theorem scanMembers_writeMembers (F : FloatText) (depth : Nat) (ms : List (String × Json))
    (m : String × Json) (hall : ∀ e ∈ m :: ms, Scans F depth e.2) (fuel : Nat) (rest : List Char)
    (hfuel : (writeMembers F (m :: ms)).length + 1 ≤ fuel) :
    scanMembers F fuel depth (writeMembers F (m :: ms) ++ '}' :: rest) =
      some (toDocMembers (m :: ms), rest) := by
  induction ms generalizing m fuel with
  | nil =>
      rcases m with ⟨k, v⟩
      simp only [writeMembers, writeMoreMembers, List.append_nil, List.length_append,
        List.length_cons] at hfuel
      obtain ⟨fuel, rfl⟩ : ∃ n, fuel = n + 1 := ⟨fuel - 1, by omega⟩
      have hv := hall (k, v) List.mem_cons_self fuel ('}' :: rest) (by simp only; omega)
        (endsNumber_cons '}' rest (by decide))
      simp only [writeMembers, writeMoreMembers, List.append_nil, List.append_assoc,
        List.cons_append, scanMembers, scanQuoted_writeString, Option.bind_some,
        token_cons ':' _ (by decide : isBlank ':' = false), Option.map_some, hv,
        token_eq_none ',' '}' rest (by decide) (by decide), token_cons '}' rest (by decide),
        toDocMembers]
  | cons n ns ih =>
      rcases m with ⟨k, v⟩
      have htext : writeMembers F ((k, v) :: n :: ns) =
          writeString k ++ ':' :: (writeJson F v ++ ',' :: writeMembers F (n :: ns)) := by
        rcases n with ⟨k', v'⟩
        simp only [writeMembers, writeMoreMembers]
      rw [htext, List.length_append, List.length_cons, List.length_append,
        List.length_cons] at hfuel
      rw [htext]
      obtain ⟨fuel, rfl⟩ : ∃ n, fuel = n + 1 := ⟨fuel - 1, by omega⟩
      have hv := hall (k, v) List.mem_cons_self fuel
        (',' :: (writeMembers F (n :: ns) ++ '}' :: rest)) (by simp only; omega)
        (endsNumber_cons ',' _ (by decide))
      have hrest := ih n (fun e he => hall e (List.mem_cons_of_mem _ he)) fuel (by omega)
      simp only [List.append_assoc, List.cons_append, scanMembers, scanQuoted_writeString,
        Option.bind_some, token_cons ':' _ (by decide : isBlank ':' = false), Option.map_some, hv,
        token_cons ',' _ (by decide : isBlank ',' = false), hrest, toDocMembers]

/-- An array whose items are read is read. -/
theorem scans_arr (F : FloatText) (depth : Nat) (xs : List Json)
    (hfits : ∀ x ∈ xs, Fits F depth x) (hall : ∀ x ∈ xs, Scans F depth x) :
    Scans F (depth + 1) (.arr xs) := by
  intro fuel rest hfuel _
  simp only [writeJson, List.length_cons, List.length_append, List.length_nil] at hfuel
  obtain ⟨fuel, rfl⟩ : ∃ n, fuel = n + 1 := ⟨fuel - 1, by omega⟩
  have htext : writeJson F (.arr xs) ++ rest = '[' :: (writeItems F xs ++ ']' :: rest) := by
    simp only [writeJson, List.cons_append, List.append_assoc, List.nil_append]
  rw [htext, scanValue, token_cons '[' _ (by decide)]
  cases xs with
  | nil =>
      simp only [writeItems, List.nil_append, token_cons ']' rest (by decide), toDoc, toDocs]
  | cons x xs =>
      have hitems := scanItems_writeItems F depth xs x hall fuel rest (by omega)
      rcases writeJson_eq_cons F depth x (hfits x List.mem_cons_self) with
        ⟨c, tail, hx, hblank, hclose, _⟩
      have hopen : token ']' (writeItems F (x :: xs) ++ ']' :: rest) = none := by
        rw [writeItems, hx]
        exact token_eq_none ']' c _ hblank hclose
      simp only [hopen, hitems, Option.map_some, toDoc]

/-- An object whose members are read is read. -/
theorem scans_obj (F : FloatText) (depth : Nat) (members : List (String × Json))
    (hall : ∀ e ∈ members, Scans F depth e.2) : Scans F (depth + 1) (.obj members) := by
  intro fuel rest hfuel _
  simp only [writeJson, List.length_cons, List.length_append, List.length_nil] at hfuel
  obtain ⟨fuel, rfl⟩ : ∃ n, fuel = n + 1 := ⟨fuel - 1, by omega⟩
  have htext : writeJson F (.obj members) ++ rest =
      '{' :: (writeMembers F members ++ '}' :: rest) := by
    simp only [writeJson, List.cons_append, List.append_assoc, List.nil_append]
  rw [htext, scanValue, token_eq_none '[' '{' _ (by decide) (by decide),
    token_cons '{' _ (by decide)]
  cases members with
  | nil =>
      simp only [writeMembers, List.nil_append, token_cons '}' rest (by decide), toDoc,
        toDocMembers]
  | cons m ms =>
      have hmembers := scanMembers_writeMembers F depth ms m hall fuel rest (by omega)
      have hopen : token '}' (writeMembers F (m :: ms) ++ '}' :: rest) = none := by
        rcases m with ⟨k, v⟩
        rw [writeMembers, writeString]
        exact token_eq_none '}' '"' _ (by decide) (by decide)
      simp only [hopen, hmembers, Option.map_some, toDoc]

/-- A number is read as a scalar. -/
theorem scanScalar_numberRunes (F : FloatText) (q : Rat) (rest : List Char) (hq : F.Writes q)
    (hrest : EndsNumber rest) :
    scanScalar F (numberRunes F q ++ rest) = some (numberDoc q, rest) := by
  have hscan := scanNumber_numberRunes F q rest hq hrest
  rcases numberRunes_eq_cons F q hq with ⟨c, tail, htext, hc⟩
  rcases ne_of_isNumberRune c hc with ⟨hblank, hne⟩
  rw [htext, List.cons_append] at hscan ⊢
  unfold scanScalar
  rw [token_eq_none '"' c _ hblank (hne '"' (by decide)),
    word_eq_none _ 'n' c _ hblank (hne 'n' (by decide)),
    word_eq_none _ 't' c _ hblank (hne 't' (by decide)),
    word_eq_none _ 'f' c _ hblank (hne 'f' (by decide)),
    List.dropWhile_cons_of_neg (by simp [hblank])]
  exact hscan

/-- A value that was written is read off the front of a text. -/
theorem scanValue_writeJson (F : FloatText) (depth : Nat) (v : Json) (h : Fits F depth v) :
    Scans F depth v := by
  induction h with
  | null depth =>
      intro fuel rest hfuel _
      obtain ⟨fuel, rfl⟩ : ∃ n, fuel = n + 1 := ⟨fuel - 1, by simp [writeJson] at hfuel; omega⟩
      rw [writeJson, List.cons_append, scanValue_scalar F fuel depth 'n' _ (by decide) (by decide)
        (by decide)]
      rfl
  | bool depth b =>
      intro fuel rest hfuel _
      cases b with
      | true =>
          obtain ⟨fuel, rfl⟩ : ∃ n, fuel = n + 1 :=
            ⟨fuel - 1, by simp [writeJson] at hfuel; omega⟩
          rw [writeJson, List.cons_append, scanValue_scalar F fuel depth 't' _ (by decide)
            (by decide) (by decide)]
          rfl
      | false =>
          obtain ⟨fuel, rfl⟩ : ∃ n, fuel = n + 1 :=
            ⟨fuel - 1, by simp [writeJson] at hfuel; omega⟩
          rw [writeJson, List.cons_append, scanValue_scalar F fuel depth 'f' _ (by decide)
            (by decide) (by decide)]
          rfl
  | num depth q hq =>
      intro fuel rest hfuel hrest
      have hscan := scanScalar_numberRunes F q rest hq hrest
      rcases numberRunes_eq_cons F q hq with ⟨c, tail, htext, hc⟩
      rcases ne_of_isNumberRune c hc with ⟨hblank, hne⟩
      rw [writeJson, htext, List.length_cons] at hfuel
      obtain ⟨fuel, rfl⟩ : ∃ n, fuel = n + 1 := ⟨fuel - 1, by omega⟩
      rw [writeJson, toDoc, ← hscan, htext, List.cons_append,
        scanValue_scalar F fuel depth c _ hblank (hne '[' (by decide)) (hne '{' (by decide))]
  | str depth s =>
      intro fuel rest hfuel _
      rw [writeJson, writeString, List.length_cons] at hfuel
      obtain ⟨fuel, rfl⟩ : ∃ n, fuel = n + 1 := ⟨fuel - 1, by omega⟩
      have hquoted := scanQuoted_writeString s rest
      rw [writeJson, toDoc]
      rw [writeString, List.cons_append] at hquoted ⊢
      rw [scanValue_scalar F fuel depth '"' _ (by decide) (by decide) (by decide), scanScalar,
        token_cons '"' _ (by decide), hquoted]
      rfl
  | arr depth xs hxs ih => exact scans_arr F depth xs hxs ih
  | obj depth members hmembers ih => exact scans_obj F depth members ih

/-- A text is read as the value it was written for. Blanks may follow. -/
theorem scanDoc_writeJson (F : FloatText) (v : Json) (tail : List Char)
    (h : Fits F maxNestingDepth v) (htail : ∀ c ∈ tail, isBlank c = true) :
    scanDoc F (writeJson F v ++ tail) = some (toDoc v) := by
  have hends : EndsNumber tail := by
    intro c hc
    by_contra hnumber
    have hblank := htail c (List.mem_of_mem_head? hc)
    rw [(ne_of_isNumberRune c (by simpa using hnumber)).1] at hblank
    cases hblank
  have hscan := scanValue_writeJson F maxNestingDepth v h (writeJson F v ++ tail).length tail
    (by rw [List.length_append]; omega) hends
  unfold scanDoc
  simp only [hscan, List.dropWhile_eq_nil_iff.mpr htail, if_true]

end Values

end Go

end Kontxt
