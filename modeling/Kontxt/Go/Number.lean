import Kontxt.Go.Json
import Kontxt.Lib.Rounding
import Mathlib.Data.List.TakeWhile

/-!
# Numbers in JSON Documents

How `encoding/json` reads integer literals and writes them again. Decoding into
an `any` turns every number into a double, the nearest one, and refuses a number
that is out of range. Encoding writes a double with as few digits as it takes to
read it back: padded with zeros below `10 ^ 21`, and from there on with an
exponent.

A `Doc` is the syntax of a document, with integer literals as the numbers they
stand for. The double of an integer literal is an integer again, so whole numbers
are enough here; of a number with a fraction or an exponent only the double it is
read as is kept. The literal `-0` is not told apart from `0`, since a decoded
number is a rational.

For a whole double the shortest decimal is a whole number too: one with a fraction
has more digits than the double itself or, from seventeen digits on, more digits
than any shortest decimal has.

## Main definitions

* `nearestDouble`: The double a number is read as.
* `Doc`: The syntax of a document.
* `decode`, `decodeMembers`: The value of a document.
* `doubleText`: A whole double as `json.Marshal` writes it.
* `numberText`: The same with a sign.

## Theorems

* `lookup_decodeMembers`, `decode_of_mem`: The members of a decoded object.
* `nearestDouble_of_le`: Numbers that are doubles.
* `shorten_nearestDouble`: What is written is read back, and ends in most zeros.
* `doubleText_inj`, `numberText_inj`: A double can be read back.
-/

namespace Kontxt

namespace Go

open Lib

/-- The double nearest to a number, without a bound on its exponent. -/
def nearestDouble (n : Nat) : Nat :=
  halfEven 53 n

theorem nearest_nearestDouble : Nearest 53 nearestDouble :=
  nearest_halfEven 53 (by decide)

/-- Numbers up to `2 ^ 53` are doubles. -/
theorem nearestDouble_of_le (n : Nat) (h : n ≤ 2 ^ 53) : nearestDouble n = n := by
  refine nearest_nearestDouble.eq_self n ?_
  rcases Nat.eq_or_lt_of_le h with rfl | hlt
  · exact representable_two_pow 53 53 (by decide)
  · exact representable_of_lt 53 n hlt

section Reading

/-- The syntax of a JSON document. A number with a fraction or an exponent stands
    with the double it is read as, if it is in range. -/
inductive Doc where
  | null
  | bool (b : Bool)
  | integer (n : Int)
  | decimal (value : Option Rat)
  | str (s : String)
  | arr (items : List Doc)
  | obj (members : List (String × Doc))

/-- A number of the sign of another. -/
def withSign (n : Int) (magnitude : Nat) : Int :=
  if n < 0 then -magnitude else magnitude

/-- The double of an integer literal, if it is in range. -/
def decodeInteger (n : Int) : Option Json :=
  if nearestDouble n.natAbs < 2 ^ 1024 then some (.num (withSign n (nearestDouble n.natAbs)))
  else none

mutual

/-- The value of a document, if its numbers are in range. -/
def decode : Doc → Option Json
  | .null => some .null
  | .bool b => some (.bool b)
  | .integer n => decodeInteger n
  | .decimal value => value.map .num
  | .str s => some (.str s)
  | .arr items => (decodeItems items).map .arr
  | .obj members => (decodeMembers members []).map .obj

/-- The values of an array. -/
def decodeItems : List Doc → Option (List Json)
  | [] => some []
  | d :: rest =>
    match decode d, decodeItems rest with
    | some v, some vs => some (v :: vs)
    | _, _ => none

/-- The members of an object, assigned one after the other. -/
def decodeMembers : List (String × Doc) → Object → Option Object
  | [], o => some o
  | (k, d) :: rest, o =>
    match decode d with
    | none => none
    | some v => decodeMembers rest (o.set k v)

end

/-- A decoded object has the value of the last member of a name. -/
theorem lookup_decodeMembers (members : List (String × Doc)) (o o' : Object)
    (h : decodeMembers members o = some o') (k : String) :
    o'.lookup k = (members.reverse.lookup k).elim (o.lookup k) decode := by
  induction members generalizing o with
  | nil =>
      cases h
      rfl
  | cons member rest ih =>
      rcases member with ⟨name, d⟩
      unfold decodeMembers at h
      cases hd : decode d with
      | none =>
          rw [hd] at h
          cases h
      | some v =>
          rw [hd] at h
          rw [ih (o.set name v) h, List.reverse_cons, List.lookup_append, Object.lookup_set]
          -- A later member of the name takes the place of this one.
          cases rest.reverse.lookup k with
          | some d' => rfl
          | none =>
              rw [Option.none_or, List.lookup_cons, List.lookup_nil]
              by_cases hname : k = name
              · rw [if_pos hname, beq_iff_eq.mpr hname]
                exact hd.symm
              · rw [if_neg hname, beq_eq_false_iff_ne.mpr hname]

/-- The documents of a decoded object's members are all in range. -/
theorem decode_of_mem (members : List (String × Doc)) (o o' : Object)
    (h : decodeMembers members o = some o') (k : String) (d : Doc) (hd : (k, d) ∈ members) :
    (decode d).isSome = true := by
  induction members generalizing o with
  | nil => cases hd
  | cons member rest ih =>
      rcases member with ⟨name, d'⟩
      unfold decodeMembers at h
      cases hd' : decode d' with
      | none =>
          rw [hd'] at h
          cases h
      | some v =>
          rw [hd'] at h
          rcases List.mem_cons.mp hd with heq | hrest
          · cases heq
            rw [hd']
            rfl
          · exact ih (o.set name v) h hrest

end Reading

section Writing

/-- Digits without the zeros at the end. -/
def trimZeros (digits : List Char) : List Char :=
  (digits.reverse.dropWhile (· == '0')).reverse

/-- A point after the first digit, if there are more. -/
def pointed : List Char → List Char
  | first :: second :: rest => first :: '.' :: second :: rest
  | digits => digits

/-- A number with an exponent. -/
def exponentText (n : Nat) : String :=
  let digits := Nat.toDigits 10 n
  String.ofList (pointed (trimZeros digits)) ++ "e+" ++ toString (digits.length - 1)

/-- A whole double as `json.Marshal` writes it: the shortest decimal that is read as
    the double. -/
def doubleText (v : Nat) : String :=
  if v < 10 ^ 21 then toString (shorten nearestDouble v)
  else exponentText (shorten nearestDouble v)

/-- The same with a sign. -/
def numberText (v : Int) : String :=
  if v < 0 then "-" ++ doubleText v.natAbs else doubleText v.natAbs

/-- What is written is read as the double, and no decimal that is ends in more
    zeros. -/
theorem shorten_nearestDouble (v : Nat) (hv : nearestDouble v = v) :
    nearestDouble (shorten nearestDouble v) = v ∧
      ∀ k m, k ≤ (Nat.toDigits 10 v).length → 10 ^ k ∣ m → nearestDouble m = v →
        10 ^ k ∣ shorten nearestDouble v := by
  refine ⟨round_shorten nearestDouble v hv, ?_⟩
  intro k m hk hm h
  exact dvd_shorten nearest_nearestDouble v k m hv hk hm h

theorem toList_toString (n : Nat) : (toString n).toList = Nat.toDigits 10 n :=
  Nat.toList_repr

theorem toDigits_inj (m n : Nat) (h : Nat.toDigits 10 m = Nat.toDigits 10 n) : m = n := by
  have hvalue := congrArg (fun digits => Nat.ofDigitChars 10 digits 0) h
  rw [Nat.ofDigitChars_toDigits (by decide) (by decide),
    Nat.ofDigitChars_toDigits (by decide) (by decide)] at hvalue
  exact hvalue

/-- What is not a digit is not among a number's digits. -/
theorem not_mem_toDigits (n : Nat) (c : Char) (hc : c.isDigit = false) :
    c ∉ Nat.toDigits 10 n := by
  intro hmem
  have hdigit := Nat.isDigit_of_mem_toDigits (by decide) (by decide) hmem
  rw [hc] at hdigit
  cases hdigit

/-- The zeros that were trimmed can be put back if the length is known. -/
theorem trimZeros_append (digits : List Char) :
    trimZeros digits ++ List.replicate (digits.length - (trimZeros digits).length) '0' =
      digits := by
  have hsplit := List.takeWhile_append_dropWhile (p := (· == '0')) (l := digits.reverse)
  have hzeros : digits.reverse.takeWhile (· == '0') =
      List.replicate (digits.reverse.takeWhile (· == '0')).length '0' := by
    rw [List.eq_replicate_iff]
    refine ⟨rfl, fun c hc => ?_⟩
    have hzero := List.mem_takeWhile_imp hc
    exact eq_of_beq hzero
  have hdigits := congrArg List.reverse hsplit
  rw [List.reverse_append, List.reverse_reverse, hzeros, List.reverse_replicate] at hdigits
  have hlength := congrArg List.length hdigits
  rw [List.length_append, List.length_replicate] at hlength
  have hrest : digits.length - (trimZeros digits).length =
      (digits.reverse.takeWhile (· == '0')).length := by
    unfold trimZeros
    omega
  rw [hrest]
  exact hdigits

theorem mem_of_mem_trimZeros (digits : List Char) (c : Char) (h : c ∈ trimZeros digits) :
    c ∈ digits := by
  rw [← trimZeros_append digits]
  exact List.mem_append_left _ h

theorem pointed_inj (a b : List Char) (h : pointed a = pointed b) : a = b := by
  rcases a with _ | ⟨first, _ | ⟨second, rest⟩⟩ <;>
    rcases b with _ | ⟨first', _ | ⟨second', rest'⟩⟩ <;> simp_all [pointed]

theorem not_mem_pointed (digits : List Char) (c : Char) (hc : c ∉ digits) (hpoint : c ≠ '.') :
    c ∉ pointed digits := by
  rcases digits with _ | ⟨first, _ | ⟨second, rest⟩⟩
  · exact hc
  · exact hc
  · simp only [pointed, List.mem_cons, not_or] at hc ⊢
    exact ⟨hc.1, hpoint, hc.2⟩

theorem toList_exponentText (n : Nat) :
    (exponentText n).toList = pointed (trimZeros (Nat.toDigits 10 n)) ++
      'e' :: '+' :: Nat.toDigits 10 ((Nat.toDigits 10 n).length - 1) := by
  unfold exponentText
  simp only [String.toList_append, String.toList_ofList, toList_toString, List.append_assoc]
  rfl

/-- A number can be read back from its digits and its exponent. -/
theorem exponentText_inj (m n : Nat) (h : exponentText m = exponentText n) : m = n := by
  have hlist := congrArg String.toList h
  rw [toList_exponentText, toList_exponentText] at hlist
  have hmantissa : ∀ k, 'e' ∉ pointed (trimZeros (Nat.toDigits 10 k)) := by
    intro k
    refine not_mem_pointed _ 'e' ?_ (by decide)
    intro hmem
    exact not_mem_toDigits k 'e' (by decide) (mem_of_mem_trimZeros _ _ hmem)
  have hexponent : ∀ k, 'e' ∉ '+' :: Nat.toDigits 10 k := by
    intro k hmem
    rcases List.mem_cons.mp hmem with hplus | hmem
    · exact absurd hplus (by decide)
    · exact not_mem_toDigits k 'e' (by decide) hmem
  -- The exponent begins at the only letter.
  rw [List.append_cons_inj_of_notMem (hmantissa m) (hexponent _)] at hlist
  rcases hlist with ⟨hdigits, _, hrest⟩
  -- The exponent gives the number of digits, and with it the zeros that were trimmed.
  have htrim := pointed_inj _ _ hdigits
  have hlength := toDigits_inj _ _ (List.cons.inj hrest).2
  have hm : 0 < (Nat.toDigits 10 m).length := Nat.length_toDigits_pos
  have hn : 0 < (Nat.toDigits 10 n).length := Nat.length_toDigits_pos
  have hsame : (Nat.toDigits 10 m).length = (Nat.toDigits 10 n).length := by omega
  apply toDigits_inj
  rw [← trimZeros_append (Nat.toDigits 10 m), ← trimZeros_append (Nat.toDigits 10 n), htrim, hsame]

theorem exponentText_ne_toString (m n : Nat) : exponentText m ≠ toString n := by
  intro h
  have hmem : 'e' ∈ (exponentText m).toList := by
    rw [toList_exponentText]
    simp
  rw [h, toList_toString] at hmem
  exact not_mem_toDigits n 'e' (by decide) hmem

theorem toString_nat_inj (m n : Nat) (h : toString m = toString n) : m = n := by
  apply toDigits_inj
  rw [← toList_toString, ← toList_toString, h]

/-- A double can be read back from its text. -/
theorem doubleText_inj (v w : Nat) (hv : nearestDouble v = v) (hw : nearestDouble w = w)
    (h : doubleText v = doubleText w) : v = w := by
  have hshort : shorten nearestDouble v = shorten nearestDouble w := by
    unfold doubleText at h
    by_cases hplain : v < 10 ^ 21
    · rw [if_pos hplain] at h
      by_cases hplain' : w < 10 ^ 21
      · rw [if_pos hplain'] at h
        exact toString_nat_inj _ _ h
      · rw [if_neg hplain'] at h
        exact absurd h.symm (exponentText_ne_toString _ _)
    · rw [if_neg hplain] at h
      by_cases hplain' : w < 10 ^ 21
      · rw [if_pos hplain'] at h
        exact absurd h (exponentText_ne_toString _ _)
      · rw [if_neg hplain'] at h
        exact exponentText_inj _ _ h
  -- Both are what the same decimal is read as.
  calc v = nearestDouble (shorten nearestDouble v) := (shorten_nearestDouble v hv).1.symm
    _ = nearestDouble (shorten nearestDouble w) := by rw [hshort]
    _ = w := (shorten_nearestDouble w hw).1

theorem minus_not_mem_doubleText (v : Nat) : '-' ∉ (doubleText v).toList := by
  unfold doubleText
  split
  · rw [toList_toString]
    exact not_mem_toDigits _ '-' (by decide)
  · rw [toList_exponentText, List.mem_append, List.mem_cons, List.mem_cons, not_or, not_or,
      not_or]
    refine ⟨not_mem_pointed _ '-' ?_ (by decide), by decide, by decide,
      not_mem_toDigits _ '-' (by decide)⟩
    intro hmem
    exact not_mem_toDigits _ '-' (by decide) (mem_of_mem_trimZeros _ _ hmem)

theorem minus_mem_iff (v : Int) : '-' ∈ (numberText v).toList ↔ v < 0 := by
  unfold numberText
  by_cases hv : v < 0
  · rw [if_pos hv, String.toList_append]
    exact iff_of_true (List.mem_append_left _ (by decide)) hv
  · rw [if_neg hv]
    exact iff_of_false (minus_not_mem_doubleText v.natAbs) hv

/-- A whole double can be read back from its text, with its sign. -/
theorem numberText_inj (v w : Int) (hv : nearestDouble v.natAbs = v.natAbs)
    (hw : nearestDouble w.natAbs = w.natAbs) (h : numberText v = numberText w) : v = w := by
  -- Only a negative number has a minus: the exponent is never negative.
  have hsign : v < 0 ↔ w < 0 := by rw [← minus_mem_iff, ← minus_mem_iff, h]
  have habs : v.natAbs = w.natAbs := by
    refine doubleText_inj _ _ hv hw ?_
    unfold numberText at h
    by_cases hneg : v < 0
    · rw [if_pos hneg, if_pos (hsign.mp hneg)] at h
      exact (String.append_right_inj "-").mp h
    · rw [if_neg hneg, if_neg fun hw => hneg (hsign.mpr hw)] at h
      exact h
  omega

end Writing

end Go

end Kontxt
