import Kontxt.Theory.Routing

/-!
# Subjects That Are Not Strings

The subject of a token is a claim or the value of a CEL expression over the
claims. A claim that is not a string is an error. The value of an expression is
asserted to be a string, and the assertion is not checked: if it fails the
service panics. When an authenticator is made the expression's type is checked,
but a dynamic type is let through, because every field of the claims has it.

So whether the service panics is up to the claims. `subject_returns_iff` says
when it does not: the mapping names a claim, or the expression's value on these
claims is a string. An expression of static type string is safe if the CEL
library keeps its types, and one of dynamic type is not: `subject_panics` is a
numeric user id.

## Main definitions

* `Authn.Returns`: A string or an error, not a panic.
* `Authn.SubjectIsString`: The mapping yields no value that is not a string.
* `Authn.KeepsStrings`: Expressions of static type string evaluate to strings.
* `Authn.claimFields`: A CEL environment that selects fields of the claims.

## Theorems

* `Authn.compileSubjectMapping_eq_ok`: What is let through.
* `Authn.newOIDCAuthenticator_subject`: The subject of an authenticator made.
* `Authn.evaluateSubjectMapping_panics_iff`: When the assertion fails.
* `Authn.authenticate_panics_iff`: When authenticating panics.
* `Authn.subject_returns_iff`: When the subject mapping does not panic.
* `Authn.subject_panics`: A numeric claim that does.
-/

namespace Kontxt

namespace Authn

open Go Lib

section Making

variable (u : Unicode) (env : Cel.Env Object)

/-- What is let through as a subject mapping. -/
theorem compileSubjectMapping_eq_ok (mapping : ClaimOrExpression)
    (program : Option (Cel.Program Object)) :
    compileSubjectMapping u env mapping = .ok program ↔
      (mapping.expression = "" ∧ program = none) ∨
      (mapping.expression ≠ "" ∧ ∃ ast prg, env mapping.expression = .ok ast ∧
        (ast.outputType = .string ∨ ast.outputType = .dyn) ∧ ast.program = .ok prg ∧
        program = some prg) := by
  unfold compileSubjectMapping
  by_cases hexpr : mapping.expression = ""
  · simp only [hexpr, if_true, Except.ok.injEq, true_and, ne_eq, not_true_eq_false, false_and,
      or_false]
    exact eq_comm
  · simp only [hexpr, if_false, false_and, ne_eq, not_false_eq_true, true_and, false_or]
    cases henv : env mapping.expression with
    | error e => simp only [reduceCtorEq, false_and, exists_false]
    | ok ast =>
        simp only [Except.ok.injEq, exists_and_left, exists_eq_left']
        -- The source asks for neither type, so the test is turned round.
        by_cases htype : ast.outputType = .string ∨ ast.outputType = .dyn
        · have hpass : ¬(¬ast.outputType = .string ∧ ¬ast.outputType = .dyn) := by
            rw [not_and_or, not_not, not_not]
            exact htype
          rw [if_neg hpass]
          cases hprg : ast.program with
          | error e => simp only [reduceCtorEq, false_and, exists_false, and_false]
          | ok prg =>
              simp only [Except.ok.injEq, htype, true_and, exists_eq_left']
              exact eq_comm
        · have hstop : ¬ast.outputType = .string ∧ ¬ast.outputType = .dyn := not_or.mp htype
          rw [if_pos hstop]
          simp only [reduceCtorEq, htype, false_and]

/-- An authenticator that is made maps subjects as configured, with the program the
    mapping was compiled to. -/
theorem newOIDCAuthenticator_subject (config : AuthenticatorConfig) (a : Authenticator)
    (hnew : newOIDCAuthenticator u (.ok env) config = .ok a) :
    a.subjectMapping = config.claimMappings.subject ∧
      compileSubjectMapping u env config.claimMappings.subject = .ok a.subjectProgram := by
  unfold newOIDCAuthenticator at hnew
  simp only [bind_eq_ok, mapError_eq_ok] at hnew
  rcases hnew with ⟨env', henv, _, _, program, hprogram, _, _, ha⟩
  cases henv
  cases ha
  exact ⟨rfl, hprogram⟩

end Making

/-- A string or an error, and not a panic. -/
def Returns (result : Except Fault String) : Prop :=
  (∃ s, result = .ok s) ∨ ∃ e, result = .error (.error e)

theorem returns_iff (result : Except Fault String) :
    Returns result ↔ result ≠ .error .panic := by
  unfold Returns
  cases result with
  | ok s => simp
  | error fault =>
      cases fault with
      | error e => simp
      | panic => simp

/-- The assertion fails just when the mapping is an expression whose value on the
    claims is not a string. -/
theorem evaluateSubjectMapping_panics_iff (u : Unicode) (mapping : ClaimOrExpression)
    (program : Option (Cel.Program Object)) (claims : Object) :
    evaluateSubjectMapping u mapping program claims = .error .panic ↔
      mapping.claim = "" ∧ ∃ prg v, program = some prg ∧ prg claims = .ok v ∧
        v.asString = none := by
  unfold evaluateSubjectMapping
  by_cases hclaim : mapping.claim = ""
  · simp only [hclaim, ne_eq, not_true_eq_false, if_false, true_and]
    cases program with
    | none => simp only [reduceCtorEq, Except.error.injEq, false_and, exists_false]
    | some prg =>
        simp only [Option.some.injEq, exists_and_left, exists_eq_left']
        cases hv : prg claims with
        | error e => simp only [reduceCtorEq, Except.error.injEq, false_and, exists_false]
        | ok v =>
            simp only [Except.ok.injEq, exists_eq_left']
            cases v.asString with
            | none => simp only
            | some s => simp only [reduceCtorEq]
  · simp only [hclaim, ne_eq, not_false_eq_true, if_true, false_and, iff_false]
    -- A claim is tested for being a string, and what fails the test is an error.
    cases claims.lookup mapping.claim with
    | none => simp only [Except.error.injEq, reduceCtorEq, not_false_eq_true]
    | some v =>
        cases v with
        | str s => simp only [reduceCtorEq, not_false_eq_true]
        | _ => simp only [Except.error.injEq, reduceCtorEq, not_false_eq_true]

section Subjects

variable (env : Cel.Env Object)

/-- The mapping names a claim, or its expression has no value on the claims that is
    not a string. -/
def SubjectIsString (mapping : ClaimOrExpression) (claims : Object) : Prop :=
  mapping.claim ≠ "" ∨ mapping.expression = "" ∨
    ∀ ast prg v, env mapping.expression = .ok ast → ast.program = .ok prg →
      prg claims = .ok v → v.asString.isSome = true

/-- Expressions of static type string evaluate to strings, whatever the claims. -/
def KeepsStrings : Prop :=
  ∀ expression ast prg claims v, env expression = .ok ast → ast.outputType = .string →
    ast.program = .ok prg → prg claims = .ok v → v.asString.isSome = true

theorem panics_iff_not_string (u u' : Unicode) (config : AuthenticatorConfig) (a : Authenticator)
    (hnew : newOIDCAuthenticator u (.ok env) config = .ok a) (claims : Object) :
    evaluateSubjectMapping u' a.subjectMapping a.subjectProgram claims = .error .panic ↔
      ¬SubjectIsString env config.claimMappings.subject claims := by
  rcases newOIDCAuthenticator_subject u env config a hnew with ⟨hmapping, hcompiled⟩
  rw [evaluateSubjectMapping_panics_iff, hmapping]
  unfold SubjectIsString
  rw [not_or, not_or, not_not]
  refine and_congr_right fun _ => ?_
  rcases (compileSubjectMapping_eq_ok u env _ _).mp hcompiled with
    ⟨hexpr, hnone⟩ | ⟨hexpr, ast, prg, hast, _, hprg, hsome⟩
  · simp only [hnone, hexpr, reduceCtorEq, false_and, exists_false, not_true_eq_false]
  · rw [hsome]
    constructor
    · intro h
      rcases h with ⟨prg', v, hprg', hv, hfails⟩
      cases hprg'
      -- The value at hand is not a string.
      refine ⟨hexpr, fun hall => ?_⟩
      have hsome := hall ast prg v hast hprg hv
      rw [hfails] at hsome
      cases hsome
    · intro h
      -- The program is the one the expression compiled to, so its value is the one
      -- that is not a string.
      by_contra hnone
      refine h.2 fun ast' prg' v hast' hprg' hv => ?_
      rw [hast] at hast'
      cases hast'
      rw [hprg] at hprg'
      cases hprg'
      rw [← Bool.not_eq_false, Option.isSome_eq_false_iff, Option.isNone_iff_eq_none]
      intro hfails
      exact hnone ⟨prg, v, rfl, hv, hfails⟩

/-- Authenticating panics just when a verified token passes the audience and the
    rules and its subject mapping panics. -/
theorem authenticate_panics_iff (authn : Env) (a : Authenticator) (tokenString : String) :
    a.authenticate authn tokenString = .error .panic ↔
      ∃ t, a.parse authn tokenString = .ok t ∧
        a.validateAudience authn.getAudience t.claims = .ok () ∧
        (∀ rule ∈ a.validationRules, rule.program t.claims = .ok (.bool true)) ∧
        evaluateSubjectMapping authn.unicode a.subjectMapping a.subjectProgram t.claims =
          .error .panic := by
  unfold Authenticator.authenticate
  cases hparse : a.parse authn tokenString with
  | error e => simp only [Except.error.injEq, reduceCtorEq, false_and, exists_false]
  | ok t =>
      simp only [Except.ok.injEq, exists_eq_left']
      have hrules : (∀ rule ∈ a.validationRules, rule.program t.claims = .ok (.bool true)) ↔
          a.validationRules.forM (evaluateValidationRule t.claims) = .ok () := by
        rw [forM_eq_ok]
        simp only [evaluateValidationRule_eq_ok]
      rw [hrules]
      unfold Authenticator.subjectInfo
      -- Only the subject mapping can fail with anything but an error.
      cases a.validateAudience authn.getAudience t.claims with
      | error e => simp [Except.mapError, bind, Except.bind]
      | ok _ =>
          cases a.validationRules.forM (evaluateValidationRule t.claims) with
          | error e => simp [Except.mapError, bind, Except.bind]
          | ok _ =>
              cases evaluateSubjectMapping authn.unicode a.subjectMapping a.subjectProgram
                  t.claims with
              | error fault =>
                  cases fault with
                  | error e => simp [Except.mapError, bind, Except.bind]
                  | panic => simp [Except.mapError, bind, Except.bind]
              | ok s =>
                  cases evaluateExtraMappings authn.unicode t.claims a.extraMappings with
                  | error e => simp [Except.mapError, bind, Except.bind]
                  | ok extra => simp [Except.mapError, bind, Except.bind]

end Subjects

/-- When the subject mapping of an authenticator does not panic. For every
    configuration that is accepted and all claims, it returns a string or an error
    just when the mapping names a claim or its expression has no value on the claims
    that is not a string. If the CEL library keeps strings, that is so for all claims
    and every expression of static type string. A panic of the mapping is a panic of
    the whole authentication. -/
theorem subject_returns_iff (u : Unicode) (env : Cel.Env Object) (config : AuthenticatorConfig)
    (a : Authenticator) (hnew : newOIDCAuthenticator u (.ok env) config = .ok a) :
    (∀ claims, Returns (evaluateSubjectMapping u a.subjectMapping a.subjectProgram claims) ↔
      SubjectIsString env config.claimMappings.subject claims) ∧
    (KeepsStrings env → ∀ ast, env config.claimMappings.subject.expression = .ok ast →
      ast.outputType = .string → ∀ claims,
        Returns (evaluateSubjectMapping u a.subjectMapping a.subjectProgram claims)) ∧
    ∀ authn tokenString, a.authenticate authn tokenString = .error .panic ↔
      ∃ t, a.parse authn tokenString = .ok t ∧
        a.validateAudience authn.getAudience t.claims = .ok () ∧
        (∀ rule ∈ a.validationRules, rule.program t.claims = .ok (.bool true)) ∧
        ¬SubjectIsString env config.claimMappings.subject t.claims := by
  have hreturns : ∀ claims,
      Returns (evaluateSubjectMapping u a.subjectMapping a.subjectProgram claims) ↔
        SubjectIsString env config.claimMappings.subject claims := by
    intro claims
    rw [returns_iff, Ne, panics_iff_not_string env u u config a hnew claims, not_not]
  refine ⟨hreturns, ?_, ?_⟩
  · intro hkeeps ast hast hstring claims
    refine (hreturns claims).mpr (.inr (.inr ?_))
    intro ast' prg v hast' hprg hv
    rw [hast] at hast'
    cases hast'
    exact hkeeps _ ast prg claims v hast hstring hprg hv
  · intro authn tokenString
    rw [authenticate_panics_iff]
    simp only [panics_iff_not_string env u authn.unicode config a hnew]

/-- The value a CEL program sees for a JSON value. How it prints plays no part
    here. -/
def claimVal : Json → Cel.Val
  | .null => .other "null_type" none ""
  | .bool b => .bool b
  | .num _ => .other "double" none ""
  | .str s => .string s
  | .arr _ => .other "list" none ""
  | .obj _ => .other "map" none ""

/-- An environment with the fields of the claims: `claims.x` is the claim `x`, of
    dynamic type. -/
def claimFields : Cel.Env Object := fun expression =>
  if hasPrefix expression "claims." then
    let name := trimPrefix expression "claims."
    .ok { outputType := .dyn
          program := .ok fun claims =>
            match claims.lookup name with
            | none => .error ("no such key: " ++ name)
            | some v => .ok (claimVal v) }
  else .error "undeclared reference"

/-- A configuration that maps subjects in one way. -/
def subjectConfig (mapping : ClaimOrExpression) : AuthenticatorConfig where
  issuer := { url := "idp", discoveryURL := "", audiences := ["tts"] }
  claimValidationRules := []
  claimMappings := { subject := mapping, extra := [] }

/-- The authenticator made for it. -/
def subjectAuthenticator (mapping : ClaimOrExpression) (program : Option (Cel.Program Object)) :
    Authenticator where
  issuerURL := "idp"
  discoveryURL := "idp/.well-known/openid-configuration"
  audiences := ["tts"]
  validationRules := []
  subjectMapping := mapping
  subjectProgram := program
  extraMappings := []
  jwksURL := ""
  keys := ∅

theorem new_subjectConfig (mapping : ClaimOrExpression) (program : Option (Cel.Program Object))
    (hprogram : compileSubjectMapping Unicode.ascii claimFields mapping = .ok program) :
    newOIDCAuthenticator Unicode.ascii (.ok claimFields) (subjectConfig mapping) =
      .ok (subjectAuthenticator mapping program) := by
  have hdiscovery : IssuerConfig.discovery
      { url := "idp", discoveryURL := "", audiences := ["tts"] } =
        "idp/.well-known/openid-configuration" := by decide
  unfold newOIDCAuthenticator
  simp only [bind_eq_ok, mapError_eq_ok]
  refine ⟨claimFields, rfl, [], rfl, program, hprogram, [], rfl, ?_⟩
  unfold subjectAuthenticator
  rw [← hdiscovery]
  rfl

/-- An expression for a claim that is a string returns, and so does a mapping to a claim
    that is a number. -/
theorem subject_returns_claim :
    (∃ a, newOIDCAuthenticator Unicode.ascii (.ok claimFields)
        (subjectConfig { claim := "", expression := "claims.uid" }) = .ok a ∧
      Returns (evaluateSubjectMapping Unicode.ascii a.subjectMapping a.subjectProgram
        [("uid", .str "alice")])) ∧
    Returns (evaluateSubjectMapping Unicode.ascii { claim := "uid", expression := "" } none
      [("uid", .num 1001)]) := by
  constructor
  · have hnew := new_subjectConfig { claim := "", expression := "claims.uid" } _ rfl
    have hreturns := (subject_returns_iff Unicode.ascii claimFields _ _ hnew).1
      [("uid", .str "alice")]
    refine ⟨_, hnew, hreturns.mpr (.inr (.inr ?_))⟩
    intro ast prg v hast hprg hv
    cases hast
    cases hprg
    cases hv
    rfl
  · have hnew := new_subjectConfig { claim := "uid", expression := "" } none rfl
    exact ((subject_returns_iff Unicode.ascii claimFields _ _ hnew).1 [("uid", .num 1001)]).mpr
      (.inl (by decide))

/-- An expression for the same claim is accepted, and the number makes the service
    panic. -/
theorem subject_panics :
    ∃ a, newOIDCAuthenticator Unicode.ascii (.ok claimFields)
        (subjectConfig { claim := "", expression := "claims.uid" }) = .ok a ∧
      evaluateSubjectMapping Unicode.ascii a.subjectMapping a.subjectProgram
        [("uid", .num 1001)] = .error .panic := by
  refine ⟨_, new_subjectConfig _ _ rfl, ?_⟩
  rfl

end Authn

end Kontxt
