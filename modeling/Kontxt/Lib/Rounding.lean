import Mathlib.Data.Nat.Dist
import Mathlib.Tactic.Ring

/-!
# Rounding to Significant Digits

Binary floating-point numbers on the naturals: a number is representable if it
is a significand of `p` bits times a power of two, and rounding takes a number
to a representable one that is nearest to it. What follows from being nearest
holds for any way to break ties: a representable number rounds to itself, and
rounding keeps the order.

`halfEven` is the rounding that breaks ties in favour of an even significand.

The other direction is printing. `shorten` finds the decimal with the fewest
digits that rounds to a given number, and of those the one closest to it, by
trying multiples of ever smaller powers of ten. Whatever it finds rounds to the
number, so the number can be read back.

## Main definitions

* `Representable`: A significand of `p` bits times a power of two.
* `Nearest`: A function that rounds to a nearest representable number.
* `halfEven`: Rounding with ties to the even significand.
* `shorter`: A multiple of a power of ten that rounds to a number.
* `shorten`: The shortest decimal that rounds to a number.

## Theorems

* `Nearest.eq_self`: A representable number rounds to itself.
* `Nearest.mono`: Rounding keeps the order.
* `nearest_halfEven`: Ties to even is a rounding to nearest.
* `round_shorten`: A shortened number rounds to the number.
* `shorten_eq_self`: A number that no other decimal rounds to is not changed.
* `dvd_shorten`: No decimal that rounds to the number ends in more zeros.
-/

namespace Kontxt

namespace Lib

section Nearest

/-- A significand of `p` bits times a power of two. -/
def Representable (p n : Nat) : Prop :=
  ∃ significand exponent, significand < 2 ^ p ∧ n = significand * 2 ^ exponent

/-- A function that takes every number to a representable one, and to none that is
    farther away than another. -/
structure Nearest (p : Nat) (round : Nat → Nat) : Prop where
  representable : ∀ n, Representable p (round n)
  closest : ∀ n m, Representable p m → Nat.dist n (round n) ≤ Nat.dist n m

theorem representable_of_lt (p n : Nat) (h : n < 2 ^ p) : Representable p n :=
  ⟨n, 0, h, by rw [pow_zero, Nat.mul_one]⟩

theorem representable_two_pow (p k : Nat) (hp : 0 < p) : Representable p (2 ^ k) :=
  ⟨1, k, Nat.one_lt_two_pow (by omega), by rw [Nat.one_mul]⟩

variable {p : Nat} {round : Nat → Nat} (hround : Nearest p round)

include hround

/-- A representable number rounds to itself. -/
theorem Nearest.eq_self (n : Nat) (h : Representable p n) : round n = n := by
  have hclosest := hround.closest n n h
  rw [Nat.dist_self, Nat.le_zero] at hclosest
  exact (Nat.eq_of_dist_eq_zero hclosest).symm

/-- Rounding keeps the order. If two numbers changed places, their midpoint would
    lie on the wrong side of both. -/
theorem Nearest.mono (m n : Nat) (h : m ≤ n) : round m ≤ round n := by
  rcases Nat.eq_or_lt_of_le h with rfl | hlt
  · exact Nat.le_refl _
  · by_contra hswap
    have hm := hround.closest m (round n) (hround.representable n)
    have hn := hround.closest n (round m) (hround.representable m)
    unfold Nat.dist at hm hn
    omega

end Nearest

section HalfEven

/-- Round to `p` significant bits, ties to the even significand. -/
def halfEven (p n : Nat) : Nat :=
  let unit := 2 ^ (n.log2 + 1 - p)
  let significand := n / unit
  let rest := n % unit
  if unit < 2 * rest ∨ (2 * rest = unit ∧ significand % 2 = 1) then (significand + 1) * unit
  else significand * unit

/-- No representable number lies between two neighbouring multiples of a unit whose
    significands have all `p` bits. -/
theorem not_representable_between (p q e m : Nat) (hp : 0 < p) (hq : 2 ^ (p - 1) ≤ q)
    (hlow : q * 2 ^ e < m) (hhigh : m < (q + 1) * 2 ^ e) : ¬Representable p m := by
  intro h
  rcases h with ⟨c, t, hc, rfl⟩
  have hpow : 2 ^ (p - 1 + e) < 2 ^ (p + t) :=
    calc 2 ^ (p - 1 + e) = 2 ^ (p - 1) * 2 ^ e := Nat.pow_add 2 (p - 1) e
      _ ≤ q * 2 ^ e := Nat.mul_le_mul_right _ hq
      _ < c * 2 ^ t := hlow
      _ ≤ 2 ^ p * 2 ^ t := Nat.mul_le_mul_right _ (Nat.le_of_lt hc)
      _ = 2 ^ (p + t) := (Nat.pow_add 2 p t).symm
  have hlt : p - 1 + e < p + t := (Nat.pow_lt_pow_iff_right (by omega)).mp hpow
  -- Such a number is a multiple of the unit, and none lies strictly in between.
  have hdvd : c * 2 ^ t = c * 2 ^ (t - e) * 2 ^ e := by
    rw [Nat.mul_assoc, ← Nat.pow_add, Nat.sub_add_cancel (by omega)]
  rw [hdvd] at hlow hhigh
  have hq' := Nat.lt_of_mul_lt_mul_right hlow
  have hq'' := Nat.lt_of_mul_lt_mul_right hhigh
  omega

/-- The significand of a number that is too long has exactly `p` bits. -/
theorem significand_bounds (p n : Nat) (hp : 0 < p) (hlong : p < n.log2 + 1) :
    2 ^ (p - 1) ≤ n / 2 ^ (n.log2 + 1 - p) ∧ n / 2 ^ (n.log2 + 1 - p) < 2 ^ p := by
  have hne : n ≠ 0 := by
    intro h
    rw [h, Nat.log2_zero] at hlong
    omega
  have hunit : 0 < 2 ^ (n.log2 + 1 - p) := Nat.two_pow_pos _
  constructor
  · rw [Nat.le_div_iff_mul_le hunit, ← Nat.pow_add]
    have hsum : p - 1 + (n.log2 + 1 - p) = n.log2 := by omega
    rw [hsum]
    exact Nat.log2_self_le hne
  · rw [Nat.div_lt_iff_lt_mul hunit, ← Nat.pow_add]
    have hsum : p + (n.log2 + 1 - p) = n.log2 + 1 := by omega
    rw [hsum]
    exact Nat.lt_log2_self

/-- A number of at most `p` bits is left alone. -/
theorem halfEven_of_short (p n : Nat) (hshort : n.log2 + 1 ≤ p) : halfEven p n = n := by
  have hzero : n.log2 + 1 - p = 0 := by omega
  unfold halfEven
  simp only [hzero, pow_zero, Nat.div_one, Nat.mod_one, Nat.mul_one]
  rw [if_neg (by omega)]

theorem representable_halfEven (p n : Nat) (hp : 0 < p) : Representable p (halfEven p n) := by
  by_cases hshort : n.log2 + 1 ≤ p
  · rw [halfEven_of_short p n hshort]
    exact representable_of_lt p n
      (Nat.lt_of_lt_of_le Nat.lt_log2_self (Nat.pow_le_pow_right (by omega) hshort))
  · rcases significand_bounds p n hp (by omega) with ⟨_, hlt⟩
    unfold halfEven
    simp only []
    split
    · by_cases hcarry : n / 2 ^ (n.log2 + 1 - p) + 1 = 2 ^ p
      · -- Rounding up carries into a power of two.
        rw [hcarry, ← Nat.pow_add]
        exact representable_two_pow p _ hp
      · exact ⟨_, _, by omega, rfl⟩
    · exact ⟨_, _, hlt, rfl⟩

theorem closest_halfEven (p n m : Nat) (hp : 0 < p) (hm : Representable p m) :
    Nat.dist n (halfEven p n) ≤ Nat.dist n m := by
  by_cases hshort : n.log2 + 1 ≤ p
  · rw [halfEven_of_short p n hshort, Nat.dist_self]
    exact Nat.zero_le _
  · rcases significand_bounds p n hp (by omega) with ⟨hge, _⟩
    unfold halfEven
    simp only []
    generalize n.log2 + 1 - p = e at hge ⊢
    have hdiv : n / 2 ^ e * 2 ^ e + n % 2 ^ e = n := by
      rw [Nat.mul_comm]
      exact Nat.div_add_mod n (2 ^ e)
    have hrest : n % 2 ^ e < 2 ^ e := Nat.mod_lt n (Nat.two_pow_pos e)
    have hnext : (n / 2 ^ e + 1) * 2 ^ e = n / 2 ^ e * 2 ^ e + 2 ^ e := by ring
    -- The number lies between two multiples, and so does no representable one.
    have hside : m ≤ n / 2 ^ e * 2 ^ e ∨ (n / 2 ^ e + 1) * 2 ^ e ≤ m := by
      by_contra hbetween
      rw [not_or] at hbetween
      exact not_representable_between p (n / 2 ^ e) e m hp hge (by omega) (by omega) hm
    unfold Nat.dist
    rw [hnext] at hside ⊢
    split
    · omega
    · omega

/-- Ties to even is one way to round to nearest. -/
theorem nearest_halfEven (p : Nat) (hp : 0 < p) : Nearest p (halfEven p) where
  representable := fun n => representable_halfEven p n hp
  closest := fun n m => closest_halfEven p n m hp

end HalfEven

section Shorten

variable (round : Nat → Nat)

/-- A multiple of a power of ten that rounds to a number: of the two next to the
    number the closer one, the even one if they are equally close, or the only one
    that does. -/
def shorter (v k : Nat) : Option Nat :=
  let low := v / 10 ^ k * 10 ^ k
  let high := low + 10 ^ k
  if round low = v ∧ (round high ≠ v ∨ v - low < high - v ∨
      (v - low = high - v ∧ v / 10 ^ k % 2 = 0)) then some low
  else if round high = v then some high
  else none

/-- Try the powers of ten from the `k`th down. -/
def shortenFrom (v : Nat) : Nat → Nat
  | 0 => v
  | k + 1 => (shorter round v (k + 1)).getD (shortenFrom v k)

/-- The shortest decimal that rounds to a number. A power of ten with more digits
    than the number by two or more does not round to it. -/
def shorten (v : Nat) : Nat :=
  shortenFrom round v (Nat.toDigits 10 v).length

theorem shorter_spec (v k m : Nat) (h : shorter round v k = some m) :
    round m = v ∧ 10 ^ k ∣ m := by
  unfold shorter at h
  simp only [] at h
  split at h
  · next hlow =>
    cases h
    exact ⟨hlow.1, Nat.dvd_mul_left _ _⟩
  · split at h
    · next hhigh =>
      cases h
      exact ⟨hhigh, Nat.dvd_add (Nat.dvd_mul_left _ _) (Nat.dvd_refl _)⟩
    · cases h

theorem round_shortenFrom (v : Nat) (hv : round v = v) (k : Nat) :
    round (shortenFrom round v k) = v := by
  induction k with
  | zero => exact hv
  | succ k ih =>
      unfold shortenFrom
      cases hm : shorter round v (k + 1) with
      | none => exact ih
      | some m => exact (shorter_spec round v (k + 1) m hm).1

/-- A number that rounds to itself can be read back from its shortest decimal. -/
theorem round_shorten (v : Nat) (hv : round v = v) : round (shorten round v) = v :=
  round_shortenFrom round v hv _

theorem shortenFrom_eq_self (v : Nat) (hv : ∀ m, 10 ∣ m → round m = v → m = v) (k : Nat) :
    shortenFrom round v k = v := by
  induction k with
  | zero => rfl
  | succ k ih =>
      unfold shortenFrom
      cases hm : shorter round v (k + 1) with
      | none => exact ih
      | some m =>
          rcases shorter_spec round v (k + 1) m hm with ⟨hround, hdvd⟩
          exact hv m (Nat.dvd_trans (Dvd.intro_left (10 ^ k) rfl) hdvd) hround

/-- A number is its own shortest decimal if no other multiple of ten rounds to
    it. -/
theorem shorten_eq_self (v : Nat) (hv : ∀ m, 10 ∣ m → round m = v → m = v) :
    shorten round v = v :=
  shortenFrom_eq_self round v hv _

variable {p : Nat} {round} (hround : Nearest p round)

include hround

/-- If a multiple of a power of ten rounds to a number, so does one of the two next
    to the number, since rounding keeps the order. -/
theorem round_low_or_high (v k m : Nat) (hv : round v = v) (hm : 10 ^ k ∣ m)
    (h : round m = v) :
    round (v / 10 ^ k * 10 ^ k) = v ∨ round (v / 10 ^ k * 10 ^ k + 10 ^ k) = v := by
  have hpos : 0 < 10 ^ k := Nat.pow_pos (by decide)
  have hlow : v / 10 ^ k * 10 ^ k ≤ v := Nat.div_mul_le_self v (10 ^ k)
  have hhigh : v < v / 10 ^ k * 10 ^ k + 10 ^ k := Nat.lt_div_mul_add hpos
  rcases hm with ⟨q, rfl⟩
  -- The multiple is on one side of the number, and the neighbour on that side lies
  -- between the two.
  by_cases hle : 10 ^ k * q ≤ v
  · have hq : 10 ^ k * q ≤ v / 10 ^ k * 10 ^ k := by
      rw [Nat.mul_comm]
      refine Nat.mul_le_mul_right _ ((Nat.le_div_iff_mul_le hpos).mpr ?_)
      rw [Nat.mul_comm]
      exact hle
    have hup := hround.mono _ _ hq
    have hdown := hround.mono _ _ hlow
    exact Or.inl (by omega)
  · have hq : v / 10 ^ k * 10 ^ k + 10 ^ k ≤ 10 ^ k * q := by
      have hlt : v / 10 ^ k < q := Nat.div_lt_of_lt_mul (by omega)
      rw [Nat.mul_comm (10 ^ k) q, ← Nat.succ_mul]
      exact Nat.mul_le_mul_right _ hlt
    have hup := hround.mono _ _ hq
    have hdown := hround.mono _ _ (Nat.le_of_lt hhigh)
    exact Or.inr (by omega)

theorem shorter_isSome (v k m : Nat) (hv : round v = v) (hm : 10 ^ k ∣ m) (h : round m = v) :
    (shorter round v k).isSome = true := by
  have hside := round_low_or_high hround v k m hv hm h
  unfold shorter
  simp only []
  split
  · rfl
  · next hnot =>
    by_cases hnext : round (v / 10 ^ k * 10 ^ k + 10 ^ k) = v
    · rw [if_pos hnext]
      rfl
    · exact absurd ⟨hside.resolve_right hnext, Or.inl hnext⟩ hnot

theorem dvd_shortenFrom (v k m : Nat) (hv : round v = v) (hm : 10 ^ k ∣ m) (h : round m = v)
    (start : Nat) (hstart : k ≤ start) : 10 ^ k ∣ shortenFrom round v start := by
  induction start with
  | zero =>
      rw [Nat.le_zero.mp hstart, pow_zero]
      exact Nat.one_dvd _
  | succ start ih =>
      unfold shortenFrom
      cases hfound : shorter round v (start + 1) with
      | some found =>
          exact Nat.dvd_trans (Nat.pow_dvd_pow 10 hstart) (shorter_spec round v _ found hfound).2
      | none =>
          -- The search cannot go past the power that has a multiple.
          refine ih (Nat.le_of_lt_succ (Nat.lt_of_le_of_ne hstart ?_))
          rintro rfl
          have hsome := shorter_isSome hround v (start + 1) m hv hm h
          rw [hfound] at hsome
          cases hsome

/-- Of the decimals that round to a number, none that is not longer ends in more zeros
    than the shortest. -/
theorem dvd_shorten (v k m : Nat) (hv : round v = v) (hk : k ≤ (Nat.toDigits 10 v).length)
    (hm : 10 ^ k ∣ m) (h : round m = v) : 10 ^ k ∣ shorten round v :=
  dvd_shortenFrom hround v k m hv hm h _ hk

end Shorten

end Lib

end Kontxt
