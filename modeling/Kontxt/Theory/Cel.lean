import Kontxt.Core.ExtAuth
import Kontxt.Lib.Checks

/-!
# What Compiling Does

`compileRules` threads an index and an environment through a list and builds
error texts on the way. None of that matters to which rules compile and to
what: a list compiles exactly when each expression does, and the results stand
in the order of the rules, each built from its own rule and its expression's
program. `compileRules_eq_ok` says so, and everything later about compiled
rules goes through it and never looks inside the compiler again.

The adapter compiles each expression on its own, so an expression that fails
takes no other with it. `compileVerificationRuleCEL_eq` turns that loop into a
`filterMap`.

## Theorems

* `compileExpr_eq_ok`: One expression compiles to the program `programOf` names.
* `compileRules_eq_ok`: A list compiles when every expression does.
* `compileRules_exists_iff`: A list compiles when no expression fails.
* `mem_of_compileRules`: Membership in what a list compiles to.
* `evalExpr_eq_ok`: Evaluation succeeds when the program returns a bool.
* `evaluate_eq_ok`: A rule's programs admit a request when all return true.
* `compileVerificationRuleCEL_eq`: The adapter keeps what compiles, in order.
-/

namespace Kontxt

namespace Cel

open Go Lib

variable {A : Type} (u : Unicode) (noun : String)

theorem compileExpr_eq_ok (env : Env A) (i : Nat) (name cel : String) (p : Program A) :
    compileExpr u noun env i name cel = .ok p ↔ programOf (.ok env) cel = some p := by
  unfold compileExpr programOf
  by_cases hcel : cel = ""
  · simp only [hcel, if_true, reduceCtorEq]
  · simp only [hcel, if_false]
    cases henv : env cel with
    | error e => simp only [reduceCtorEq]
    | ok ast =>
        by_cases hty : ast.outputType = .bool
        · simp only [hty, ne_eq, not_true_eq_false, if_false, if_true]
          cases hp : ast.program with
          | error e => simp only [reduceCtorEq, Except.toOption]
          | ok q => simp only [Except.ok.injEq, Except.toOption, Option.some.injEq]
        · simp only [hty, ne_eq, not_false_eq_true, if_true, if_false, reduceCtorEq]

variable {R P : Type} (name cel : R → String) (build : R → Program A → P)

/-- `q` is what `r` compiles to. -/
def CompilesTo (newEnv : Except String (Env A)) (r : R) (q : P) : Prop :=
  ∃ p, programOf newEnv (cel r) = some p ∧ q = build r p

theorem compileFrom_eq_ok (env : Env A) (rules : List R) (i : Nat) (ps : List P) :
    compileFrom u noun name cel build env i rules = .ok ps ↔
      List.Forall₂ (CompilesTo cel build (.ok env)) rules ps := by
  induction rules generalizing i ps with
  | nil =>
      rw [compileFrom, List.forall₂_nil_left_iff, Except.ok.injEq]
      exact eq_comm
  | cons r rs ih =>
      rw [compileFrom, bind_eq_ok, List.forall₂_cons_left_iff]
      constructor
      · intro hgiven
        rcases hgiven with ⟨p, hp, hrest⟩
        -- The index only shows in error texts, so the tail is compiled as before.
        obtain ⟨qs, hqs, hps⟩ := (bind_eq_ok _ _ _).mp hrest
        rw [compileExpr_eq_ok] at hp
        exact ⟨build r p, qs, ⟨p, hp, rfl⟩, (ih (i + 1) qs).mp hqs, (Except.ok.inj hps).symm⟩
      · intro hgiven
        rcases hgiven with ⟨q, qs, ⟨p, hp, hq⟩, hqs, hps⟩
        refine ⟨p, (compileExpr_eq_ok u noun env i (name r) (cel r) p).mpr hp, ?_⟩
        rw [bind_eq_ok]
        exact ⟨qs, (ih (i + 1) qs).mpr hqs, by rw [hps, hq]⟩

/-- A list of rules compiles exactly when each of its expressions does, and
    the results stand in the order of the rules. -/
theorem compileRules_eq_ok (newEnv : Except String (Env A)) (rules : List R) (ps : List P) :
    compileRules u noun name cel build newEnv rules = .ok ps ↔
      List.Forall₂ (CompilesTo cel build newEnv) rules ps := by
  unfold compileRules
  cases rules with
  | nil =>
      rw [if_pos List.length_nil, List.forall₂_nil_left_iff, Except.ok.injEq]
      exact eq_comm
  | cons r rs =>
      have hlen : (r :: rs).length ≠ 0 := by
        rw [List.length_cons]
        omega
      rw [if_neg hlen]
      cases newEnv with
      | error e =>
          -- Without an environment nothing compiles, and the list is not empty.
          simp only [reduceCtorEq, List.forall₂_cons_left_iff, CompilesTo, programOf, false_and,
            exists_false]
      | ok env => exact compileFrom_eq_ok u noun name cel build env (r :: rs) 0 ps

/-- A list of rules compiles exactly when none of its expressions fails. -/
theorem compileRules_exists_iff (newEnv : Except String (Env A)) (rules : List R) :
    (∃ ps, compileRules u noun name cel build newEnv rules = .ok ps) ↔
      ∀ r ∈ rules, ∃ p, programOf newEnv (cel r) = some p := by
  simp only [compileRules_eq_ok]
  induction rules with
  | nil => exact ⟨fun _ r hr => absurd hr List.not_mem_nil, fun _ => ⟨[], List.Forall₂.nil⟩⟩
  | cons r rs ih =>
      rw [List.forall_mem_cons, ← ih]
      constructor
      · intro hgiven
        rcases hgiven with ⟨ps, hps⟩
        obtain ⟨q, qs, ⟨p, hp, _⟩, hqs, _⟩ := List.forall₂_cons_left_iff.mp hps
        exact ⟨⟨p, hp⟩, qs, hqs⟩
      · intro hgiven
        rcases hgiven with ⟨⟨p, hp⟩, qs, hqs⟩
        exact ⟨build r p :: qs, List.Forall₂.cons ⟨p, hp, rfl⟩ hqs⟩

/-- One rule compiles exactly when its expression has a program. -/
theorem compileRules_singleton (newEnv : Except String (Env A)) (r : R) :
    (∃ ps, compileRules u noun name cel build newEnv [r] = .ok ps) ↔
      (programOf newEnv (cel r)).isSome = true := by
  rw [compileRules_exists_iff, Option.isSome_iff_exists]
  simp only [List.mem_singleton, forall_eq]

/-- What a list compiles to holds what its rules compile to. -/
theorem mem_of_compileRules (newEnv : Except String (Env A)) (rules : List R) (ps : List P)
    (h : compileRules u noun name cel build newEnv rules = .ok ps) (q : P) :
    q ∈ ps ↔ ∃ r ∈ rules, CompilesTo cel build newEnv r q := by
  rw [compileRules_eq_ok] at h
  induction h with
  | nil => simp only [List.not_mem_nil, false_and, exists_false]
  | @cons r q' rs qs hr _ ih =>
      rw [List.mem_cons, List.exists_mem_cons_iff, ih]
      refine or_congr_left ⟨fun hq => hq ▸ hr, fun hq => ?_⟩
      -- A rule compiles to one thing only.
      rcases hr with ⟨p, hp, rfl⟩
      rcases hq with ⟨p', hp', rfl⟩
      rw [Option.some.inj (hp.symm.trans hp')]

theorem evalExpr_eq_ok (ruleName : String) (p : Program A) (activation : A) (b : Bool) :
    evalExpr u noun ruleName p activation = .ok b ↔ p activation = .ok (.bool b) := by
  unfold evalExpr
  cases hv : p activation with
  | error e => simp only [reduceCtorEq]
  | ok v =>
      cases v with
      | bool b' => simp only [Except.ok.injEq, Val.bool.injEq]
      | string s => simp only [reduceCtorEq, Except.ok.injEq]
      | other t _ _ => simp only [reduceCtorEq, Except.ok.injEq]

end Cel

open Go Lib

theorem evaluateOne_eq_ok (u : Unicode) (ctx : Celverify.Context) (p : Celverify.Program) :
    Celverify.evaluateOne u ctx p = .ok () ↔ p.program ctx = .ok (.bool true) := by
  rw [← Cel.evalExpr_eq_ok u "verification" p.name p.program ctx true]
  unfold Celverify.evaluateOne
  cases hv : Cel.evalExpr u "verification" p.name p.program ctx with
  | error e => simp only [reduceCtorEq]
  | ok b =>
      cases b with
      | true => simp only
      | false => simp only [reduceCtorEq, Except.ok.injEq, Bool.false_eq_true]

theorem evaluate_eq_ok (u : Unicode) (programs : List Celverify.Program)
    (ctx : Celverify.Context) :
    Celverify.evaluate u programs ctx = .ok () ↔
      ∀ p ∈ programs, p.program ctx = .ok (.bool true) := by
  unfold Celverify.evaluate
  rw [forM_eq_ok]
  simp only [evaluateOne_eq_ok]

/-- The compiled form of one expression, if it compiles. -/
def compiledCEL (newEnv : Except String (Cel.Env Celverify.Context)) (c : CELRule) :
    Option Celverify.Program :=
  (Cel.programOf newEnv c.cel).map fun p => { name := c.name, program := p, message := c.message }

/-- The adapter keeps the expressions that compile, in order, and an
    expression that does not takes no other with it. -/
theorem compileVerificationRuleCEL_eq (u : Unicode)
    (newEnv : Except String (Cel.Env Celverify.Context)) (r : VerificationRule) :
    compileVerificationRuleCEL u newEnv r = r.celRules.filterMap (compiledCEL newEnv) := by
  unfold compileVerificationRuleCEL
  rw [List.filterMap_eq_flatMap_toList]
  refine List.flatMap_congr ?_
  intro c _
  have hspec := fun ps => Cel.compileRules_eq_ok u "verification" Celverify.Rule.name
    Celverify.Rule.cel
    (fun r p => ({ name := r.name, program := p, message := r.message } : Celverify.Program))
    newEnv [{ name := c.name, cel := c.cel, message := c.message }] ps
  cases hc : Celverify.compile u newEnv
      [{ name := c.name, cel := c.cel, message := c.message }] with
  | error e =>
      -- A program for the expression would have made the one-rule list compile.
      cases hp : Cel.programOf newEnv c.cel with
      | none => simp only [compiledCEL, hp, Option.map_none, Option.toList_none]
      | some p =>
          have hok := (hspec _).mpr (List.Forall₂.cons ⟨p, hp, rfl⟩ List.Forall₂.nil)
          rw [← Celverify.compile, hc] at hok
          cases hok
  | ok ps =>
      obtain ⟨q, qs, ⟨p, hp, hq⟩, hqs, hps⟩ := List.forall₂_cons_left_iff.mp ((hspec ps).mp hc)
      rw [List.forall₂_nil_left_iff] at hqs
      have hp' : Cel.programOf newEnv c.cel = some p := hp
      simp only [compiledCEL, hp', Option.map_some, Option.toList_some, hps, hqs, hq]

end Kontxt
