import Mathlib.Data.Rat.Init
import Mathlib.Data.List.Basic

/-!
# JSON Values

What `encoding/json` decodes into an `any`: the dynamic values a claims set, a
transaction context or a CEL activation is made of. A number is a rational,
the value of the double it decodes to, and an object is the list of its
members. An `Object` is the type `map[string]any`; the source always reads one
by key, through a type assertion, and the readers below are those assertions.

## Main definitions

* `Json`: A decoded JSON value.
* `Object`: The type `map[string]any`.
* `Object.str`: The assertion `m[k].(string)`, empty when it fails.
* `Object.int`: The conversion `int64(m[k].(float64))`, zero when it fails.
* `Object.obj`: The assertion `m[k].(map[string]any)`, nil when it fails.
* `Object.set`: The assignment `m[k] = v`.
* `hasKey`: Whether a possibly nil map has a key.

## Theorems

* `Object.lookup_set`, `hasKey_set`: The map after an assignment.
-/

namespace Kontxt

namespace Go

/-- A decoded JSON value. -/
inductive Json where
  | null
  | bool (b : Bool)
  | num (n : Rat)
  | str (s : String)
  | arr (xs : List Json)
  | obj (members : List (String × Json))
  deriving Repr

mutual

/-- Equality of JSON values is decidable. -/
def Json.decEq : (a b : Json) → Decidable (a = b)
  | .null, .null => isTrue rfl
  | .bool a, .bool b => decidable_of_iff (a = b) (by simp only [Json.bool.injEq])
  | .num a, .num b => decidable_of_iff (a = b) (by simp only [Json.num.injEq])
  | .str a, .str b => decidable_of_iff (a = b) (by simp only [Json.str.injEq])
  | .arr a, .arr b =>
    @decidable_of_iff _ (a = b) (by simp only [Json.arr.injEq]) (Json.decEqList a b)
  | .obj a, .obj b =>
    @decidable_of_iff _ (a = b) (by simp only [Json.obj.injEq]) (Json.decEqMembers a b)
  | .null, .bool _ | .null, .num _ | .null, .str _ | .null, .arr _ | .null, .obj _
  | .bool _, .null | .bool _, .num _ | .bool _, .str _ | .bool _, .arr _ | .bool _, .obj _
  | .num _, .null | .num _, .bool _ | .num _, .str _ | .num _, .arr _ | .num _, .obj _
  | .str _, .null | .str _, .bool _ | .str _, .num _ | .str _, .arr _ | .str _, .obj _
  | .arr _, .null | .arr _, .bool _ | .arr _, .num _ | .arr _, .str _ | .arr _, .obj _
  | .obj _, .null | .obj _, .bool _ | .obj _, .num _ | .obj _, .str _ | .obj _, .arr _ =>
    isFalse (by simp only [reduceCtorEq, not_false_eq_true])

/-- Equality of JSON arrays. -/
def Json.decEqList : (a b : List Json) → Decidable (a = b)
  | [], [] => isTrue rfl
  | [], _ :: _ => isFalse (by simp only [reduceCtorEq, not_false_eq_true])
  | _ :: _, [] => isFalse (by simp only [reduceCtorEq, not_false_eq_true])
  | x :: xs, y :: ys =>
    have := Json.decEq x y
    have := Json.decEqList xs ys
    decidable_of_iff (x = y ∧ xs = ys) (by simp only [List.cons.injEq])

/-- Equality of JSON objects, member by member. -/
def Json.decEqMembers : (a b : List (String × Json)) → Decidable (a = b)
  | [], [] => isTrue rfl
  | [], _ :: _ => isFalse (by simp only [reduceCtorEq, not_false_eq_true])
  | _ :: _, [] => isFalse (by simp only [reduceCtorEq, not_false_eq_true])
  | (k, x) :: xs, (l, y) :: ys =>
    have := Json.decEq x y
    have := Json.decEqMembers xs ys
    decidable_of_iff ((k = l ∧ x = y) ∧ xs = ys) (by simp only [List.cons.injEq, Prod.mk.injEq])

end

instance : DecidableEq Json := Json.decEq

/-- The type `map[string]any`. -/
abbrev Object := List (String × Json)

/-- The assertion `m[k].(string)` with its failure ignored. -/
def Object.str (m : Object) (k : String) : String :=
  match m.lookup k with
  | some (.str s) => s
  | _ => ""

/-- The conversion `int64(m[k].(float64))`, zero when the member is absent or
    not a number. A conversion to an integer drops the fraction. -/
def Object.int (m : Object) (k : String) : Int :=
  match m.lookup k with
  | some (.num q) => q.num.tdiv q.den
  | _ => 0

/-- The assertion `m[k].(map[string]any)`, nil when it fails. -/
def Object.obj (m : Object) (k : String) : Option Object :=
  match m.lookup k with
  | some (.obj o) => some o
  | _ => none

/-- The assignment `m[k] = v`. -/
def Object.set (m : Object) (k : String) (v : Json) : Object :=
  (k, v) :: m.filter (fun e => e.1 ≠ k)

/-- Whether a possibly nil map has a key. A nil map has none. -/
def hasKey (m : Option Object) (k : String) : Bool :=
  ((m.getD []).lookup k).isSome

theorem Object.lookup_set (m : Object) (k : String) (v : Json) (j : String) :
    (m.set k v).lookup j = if j = k then some v else m.lookup j := by
  unfold Object.set
  by_cases hj : j = k
  · rw [if_pos hj, List.lookup_cons, beq_iff_eq.mpr hj]
  · rw [if_neg hj, List.lookup_cons, beq_eq_false_iff_ne.mpr hj]
    simp only []
    induction m with
    | nil => rfl
    | cons e m ih =>
        by_cases he : e.1 = k
        · have hne : (j == e.1) = false := beq_eq_false_iff_ne.mpr (he ▸ hj)
          rw [List.filter_cons_of_neg (by simp only [he, ne_eq, not_true_eq_false, decide_false,
            Bool.false_eq_true, not_false_eq_true]), ih, List.lookup_cons, hne]
        · rw [List.filter_cons_of_pos (by simp only [he, ne_eq, not_false_eq_true,
            decide_true]), List.lookup_cons, List.lookup_cons, ih]

/-- After an assignment the key is there, and the others are as before. -/
theorem hasKey_set (m : Object) (k : String) (v : Json) (j : String) :
    hasKey (some (m.set k v)) j = true ↔ j = k ∨ hasKey (some m) j = true := by
  unfold hasKey
  rw [Option.getD_some, Option.getD_some, Object.lookup_set]
  by_cases hj : j = k
  · simp only [hj, if_true, Option.isSome_some, true_or]
  · simp only [hj, if_false, false_or]

end Go

end Kontxt
