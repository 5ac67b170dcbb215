import Kontxt.Go.Strings

/-!
# CEL Rules

Verification rules and issuance rules are CEL expressions, compiled by
`celverify.Compile` and `CompileIssuanceRules` and run by `celverify.Evaluate`
and `EvaluateIssuanceRules`. The two pairs make the same checks in the same
order and word their errors alike, up to one noun, so the checks are written
once with the noun as a parameter.

The CEL library itself is a parameter too. An environment either cannot be
created or parses and type-checks an expression to an `Ast`, which knows its
output type and yields a program or an error. A program takes the activation
and gives a value or a runtime error. Nothing else is assumed of it; in
particular a program checked to return a bool may still return something else,
and the evaluators test for that.

`programOf` is the reading all results are stated with: the program an
expression compiles to, if it does. It does not depend on the rule's name or
its position in the list, which only show in error texts.

## Main definitions

* `Cel.Ast`: A parsed and checked expression.
* `Cel.Env`: A CEL environment, over the type of its activations.
* `Cel.Env.constants`: An environment that knows only the two constants.
* `Cel.compileExpr`: The checks one rule's expression must pass.
* `Cel.compileRules`: Compiling a list of rules, up to the first failure.
* `Cel.evalExpr`: Running one program and insisting on a bool.
* `Cel.programOf`: The program an expression compiles to.
-/

namespace Kontxt

namespace Cel

open Go

/-- The types an expression can be checked to have. -/
inductive Ty where
  | bool
  | string
  | dyn
  | other (name : String)
  deriving Repr, DecidableEq

/-- The name a type prints as. -/
def Ty.name : Ty → String
  | .bool => "bool"
  | .string => "string"
  | .dyn => "dyn"
  | .other name => name

/-- The values a program can return: a bool, a string, or a value of some
    other type. Of the last only three things are ever looked at, its type's
    name, the string its Go value asserts to, if it does, and how it prints. -/
inductive Val where
  | bool (b : Bool)
  | string (s : String)
  | other (typeName : String) (asString : Option String) (shown : String)
  deriving Repr, DecidableEq

/-- The name of a value's type. -/
def Val.typeName : Val → String
  | .bool _ => "bool"
  | .string _ => "string"
  | .other name _ _ => name

/-- The assertion `v.Value().(string)`. -/
def Val.asString : Val → Option String
  | .bool _ => none
  | .string s => some s
  | .other _ s _ => s

/-- How a value prints under `%v`. -/
def Val.shown : Val → String
  | .bool b => toString b
  | .string s => s
  | .other _ _ shown => shown

/-- A program over activations `A`: a value, or a runtime error. -/
abbrev Program (A : Type) := A → Except String Val

/-- A parsed and checked expression, with the result of asking the environment
    for its program. -/
structure Ast (A : Type) where
  outputType : Ty
  program : Except String (Program A)

/-- A CEL environment, as the function that parses and checks an
    expression. -/
abbrev Env (A : Type) := String → Except String (Ast A)

/-- An environment with the two constants, to run the model with. -/
def Env.constants (A : Type) : Env A := fun cel =>
  if cel = "true" then .ok { outputType := .bool, program := .ok fun _ => .ok (.bool true) }
  else if cel = "false" then
    .ok { outputType := .bool, program := .ok fun _ => .ok (.bool false) }
  else .error "undeclared reference"

section Compile

variable {A : Type} (u : Unicode) (noun : String)

/-- The checks one rule's expression must pass, in order: it is not empty, it
    compiles, it returns a bool, and a program can be made of it. -/
def compileExpr (env : Env A) (i : Nat) (name cel : String) : Except String (Program A) :=
  if cel = "" then
    .error (noun ++ " rule " ++ toString i ++ " (" ++ quote u name ++ "): empty CEL expression")
  else
    match env cel with
    | .error e => .error ("compiling " ++ noun ++ " rule " ++ quote u name ++ ": " ++ e)
    | .ok ast =>
      -- A dynamic type is refused as well: it is not bool.
      if ast.outputType ≠ .bool then
        .error (noun ++ " rule " ++ quote u name ++ ": expression must return bool, got " ++
          ast.outputType.name)
      else
        match ast.program with
        | .error e =>
          .error ("creating program for " ++ noun ++ " rule " ++ quote u name ++ ": " ++ e)
        | .ok p => .ok p

variable {R P : Type} (name cel : R → String) (build : R → Program A → P)

/-- Compile rules numbered from `i`, stopping at the first that fails. -/
def compileFrom (env : Env A) : Nat → List R → Except String (List P)
  | _, [] => .ok []
  | i, r :: rs => do
    let p ← compileExpr u noun env i (name r) (cel r)
    let ps ← compileFrom env (i + 1) rs
    .ok (build r p :: ps)

/-- Compile a list of rules. An empty list needs no environment. -/
def compileRules (newEnv : Except String (Env A)) (rules : List R) : Except String (List P) :=
  if rules.length = 0 then .ok []
  else
    match newEnv with
    | .error e => .error ("creating CEL environment: " ++ e)
    | .ok env => compileFrom u noun name cel build env 0 rules

/-- Run one rule's program and insist on a bool. -/
def evalExpr (ruleName : String) (p : Program A) (activation : A) : Except String Bool :=
  match p activation with
  | .error e => .error ("evaluating " ++ noun ++ " rule " ++ quote u ruleName ++ ": " ++ e)
  | .ok (.bool b) => .ok b
  | .ok v =>
    .error (noun ++ " rule " ++ quote u ruleName ++ " returned " ++ v.typeName ++
      ", expected bool")

end Compile

/-- The program an expression compiles to, if it does. -/
def programOf {A : Type} (newEnv : Except String (Env A)) (cel : String) :
    Option (Program A) :=
  match newEnv with
  | .error _ => none
  | .ok env =>
    if cel = "" then none
    else
      match env cel with
      | .error _ => none
      | .ok ast => if ast.outputType = .bool then ast.program.toOption else none

end Cel

end Kontxt
