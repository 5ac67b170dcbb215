import Mathlib.Data.Nat.Digits.Defs
import Mathlib.Data.List.Basic

/-!
# Base64 and Big-Endian Integers

The encoding `base64.RawURLEncoding` and the byte form of a `big.Int`, which
between them carry RSA keys in a key set. A byte is a natural number below
256. Decoding skips line breaks, fails on any other character outside the
alphabet with the character's position, fails on a lone final digit, and
ignores the unused low bits of a final partial group, as the Go decoder does
when it is not strict.

## Main definitions

* `rawURLEncode`: `base64.RawURLEncoding.EncodeToString`.
* `rawURLDecode`: `base64.RawURLEncoding.DecodeString`.
* `bigBytes`: `(*big.Int).Bytes`.
* `setBytes`: `(*big.Int).SetBytes`.

## Theorems

* `rawURLDecode_encode`: Decoding undoes encoding.
* `mem_of_rawURLDecode`: Text that decodes is in the alphabet.
* `setBytes_bigBytes`: Reading back the bytes of a number gives the number.
* `bigBytes_lt`: The bytes of a number are bytes.
-/

namespace Kontxt

namespace Go

/-- The URL-safe alphabet, in digit order. -/
def alphabet : List Char :=
  "ABCDEFGHIJKLMNOPQRSTUVWXYZabcdefghijklmnopqrstuvwxyz0123456789-_".toList

/-- The character of a six-bit digit. -/
def digitChar (d : Nat) : Char :=
  alphabet.getD d 'A'

/-- The digit of a character, if it is in the alphabet. -/
def charDigit (c : Char) : Option Nat :=
  alphabet.idxOf? c

/-- Split bytes into six-bit digits, padding the last with zero bits. -/
def toSextets : List Nat → List Nat
  | a :: b :: c :: rest =>
    a / 4 :: (a % 4 * 16 + b / 16) :: (b % 16 * 4 + c / 64) :: c % 64 :: toSextets rest
  | [a, b] => [a / 4, a % 4 * 16 + b / 16, b % 16 * 4]
  | [a] => [a / 4, a % 4 * 16]
  | [] => []

/-- Join six-bit digits into bytes. A lone final digit holds no byte. -/
def ofSextets : List Nat → Option (List Nat)
  | a :: b :: c :: d :: rest =>
    (ofSextets rest).map
      (fun bytes => (a * 4 + b / 16) :: (b % 16 * 16 + c / 4) :: (c % 4 * 64 + d) :: bytes)
  | [a, b, c] => some [a * 4 + b / 16, b % 16 * 16 + c / 4]
  | [a, b] => some [a * 4 + b / 16]
  | [_] => none
  | [] => some []

/-- `base64.CorruptInputError`. -/
def corruptInput (pos : Nat) : String :=
  "illegal base64 data at input byte " ++ toString pos

/-- Read the digits of a text from position `si` on, skipping line breaks. -/
def readDigits : Nat → List Char → Except String (List Nat)
  | _, [] => .ok []
  | si, c :: cs =>
    if c = '\n' ∨ c = '\r' then readDigits (si + 1) cs
    else
      match charDigit c with
      | none => .error (corruptInput si)
      | some d => (readDigits (si + 1) cs).map (d :: ·)

/-- `base64.RawURLEncoding.EncodeToString`. -/
def rawURLEncode (bytes : List Nat) : String :=
  String.ofList ((toSextets bytes).map digitChar)

/-- `base64.RawURLEncoding.DecodeString`. -/
def rawURLDecode (s : String) : Except String (List Nat) :=
  match readDigits 0 s.toList with
  | .error e => .error e
  | .ok digits =>
    match ofSextets digits with
    | none => .error (corruptInput (s.toList.length - 1))
    | some bytes => .ok bytes

/-- `(*big.Int).Bytes`: the absolute value, most significant byte first. -/
def bigBytes (n : Nat) : List Nat :=
  (Nat.digits 256 n).reverse

/-- `(*big.Int).SetBytes`. -/
def setBytes (bytes : List Nat) : Nat :=
  Nat.ofDigits 256 bytes.reverse

theorem setBytes_bigBytes (n : Nat) : setBytes (bigBytes n) = n := by
  unfold setBytes bigBytes
  rw [List.reverse_reverse, Nat.ofDigits_digits]

theorem bigBytes_lt (n b : Nat) (hb : b ∈ bigBytes n) : b < 256 := by
  unfold bigBytes at hb
  rw [List.mem_reverse] at hb
  exact Nat.digits_lt_base (by omega) hb

/-- The alphabet has no line break and reads back the digit it was asked
    for. -/
theorem charDigit_digitChar (d : Nat) (hd : d < 64) :
    charDigit (digitChar d) = some d ∧ digitChar d ≠ '\n' ∧ digitChar d ≠ '\r' := by
  revert d
  decide

theorem toSextets_lt (bytes : List Nat) (hb : ∀ b ∈ bytes, b < 256) :
    ∀ d ∈ toSextets bytes, d < 64 := by
  induction bytes using toSextets.induct with
  | case1 a b c rest ih =>
      simp only [List.forall_mem_cons] at hb
      simp only [toSextets, List.forall_mem_cons]
      refine ⟨by omega, by omega, by omega, by omega, ih hb.2.2.2⟩
  | case2 a b =>
      simp only [List.forall_mem_cons] at hb
      simp only [toSextets, List.forall_mem_cons]
      refine ⟨by omega, by omega, by omega, fun _ h => absurd h List.not_mem_nil⟩
  | case3 a =>
      simp only [List.forall_mem_cons] at hb
      simp only [toSextets, List.forall_mem_cons]
      refine ⟨by omega, by omega, fun _ h => absurd h List.not_mem_nil⟩
  | case4 => exact fun _ h => absurd h List.not_mem_nil

theorem ofSextets_toSextets (bytes : List Nat) (hb : ∀ b ∈ bytes, b < 256) :
    ofSextets (toSextets bytes) = some bytes := by
  induction bytes using toSextets.induct with
  | case1 a b c rest ih =>
      simp only [List.forall_mem_cons] at hb
      rw [toSextets, ofSextets, ih hb.2.2.2, Option.map_some]
      have ha : a / 4 * 4 + (a % 4 * 16 + b / 16) / 16 = a := by omega
      have hb' : (a % 4 * 16 + b / 16) % 16 * 16 + (b % 16 * 4 + c / 64) / 4 = b := by omega
      have hc : (b % 16 * 4 + c / 64) % 4 * 64 + c % 64 = c := by omega
      rw [ha, hb', hc]
  | case2 a b =>
      simp only [List.forall_mem_cons] at hb
      rw [toSextets, ofSextets]
      have ha : a / 4 * 4 + (a % 4 * 16 + b / 16) / 16 = a := by omega
      have hb' : (a % 4 * 16 + b / 16) % 16 * 16 + b % 16 * 4 / 4 = b := by omega
      rw [ha, hb']
  | case3 a =>
      simp only [List.forall_mem_cons] at hb
      rw [toSextets, ofSextets]
      have ha : a / 4 * 4 + a % 4 * 16 / 16 = a := by omega
      rw [ha]
  | case4 => rfl

theorem readDigits_map (ds : List Nat) (hd : ∀ d ∈ ds, d < 64) (si : Nat) :
    readDigits si (ds.map digitChar) = .ok ds := by
  induction ds generalizing si with
  | nil => rfl
  | cons d ds ih =>
      rw [List.forall_mem_cons] at hd
      obtain ⟨hdigit, hn, hr⟩ := charDigit_digitChar d hd.1
      rw [List.map_cons, readDigits, if_neg (not_or.mpr ⟨hn, hr⟩), hdigit]
      simp only [ih hd.2, Except.map]

/-- Decoding undoes encoding. -/
theorem rawURLDecode_encode (bytes : List Nat) (hb : ∀ b ∈ bytes, b < 256) :
    rawURLDecode (rawURLEncode bytes) = .ok bytes := by
  unfold rawURLDecode rawURLEncode
  rw [String.toList_ofList, readDigits_map (toSextets bytes) (toSextets_lt bytes hb) 0]
  simp only [ofSextets_toSextets bytes hb]

/-- Text that reads as digits is line breaks and the alphabet. -/
theorem mem_of_readDigits (l : List Char) (si : Nat) (ds : List Nat)
    (h : readDigits si l = .ok ds) :
    ∀ c ∈ l, c = '\n' ∨ c = '\r' ∨ (charDigit c).isSome = true := by
  induction l generalizing si ds with
  | nil => exact fun c hc => absurd hc List.not_mem_nil
  | cons x xs ih =>
      rw [readDigits] at h
      by_cases hbreak : x = '\n' ∨ x = '\r'
      · rw [if_pos hbreak] at h
        rw [List.forall_mem_cons]
        exact ⟨hbreak.imp_right Or.inl, ih (si + 1) ds h⟩
      · rw [if_neg hbreak] at h
        cases hdigit : charDigit x with
        | none =>
            rw [hdigit] at h
            cases h
        | some d =>
            rw [hdigit] at h
            cases hrest : readDigits (si + 1) xs with
            | error e =>
                rw [hrest] at h
                cases h
            | ok ds' =>
                rw [List.forall_mem_cons, hdigit]
                exact ⟨Or.inr (Or.inr rfl), ih (si + 1) ds' hrest⟩

/-- Text that decodes is line breaks and the alphabet. -/
theorem mem_of_rawURLDecode (s : String) (bytes : List Nat) (h : rawURLDecode s = .ok bytes) :
    ∀ c ∈ s.toList, c = '\n' ∨ c = '\r' ∨ (charDigit c).isSome = true := by
  unfold rawURLDecode at h
  cases hread : readDigits 0 s.toList with
  | error e =>
      rw [hread] at h
      cases h
  | ok ds => exact mem_of_readDigits s.toList 0 ds hread

end Go

end Kontxt
