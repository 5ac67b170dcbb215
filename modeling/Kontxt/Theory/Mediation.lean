import Kontxt.Theory.Cel

/-!
# Complete Mediation

What the verification adapter lets through. A request passes either because
some rule excludes its endpoint from verification, or because it carries a
token the verifier accepts that satisfies every rule. `check_isOK` is that
statement for the compiled rule set a server holds; the sort and the
compilation in `SetVerificationRules` are then shown not to matter, the first
because both conditions range over the whole set and the second because an
expression that does not compile takes only itself out.

Both conditions range over every rule the server holds, and nothing in a rule
or a request narrows that to the service the request is for. The second half
of the module works out what that does to a service that shares the adapter
with others. Foreign rules can only act in two ways, letting a request bypass
verification or blocking one the service would have admitted, and a service is
out of reach of both exactly when its own rules exclude the endpoint.

## Main definitions

* `Excludes`: A rule excludes the request's endpoint.
* `Satisfied`: A token and request satisfy a rule.
* `Admits`: A set of rules admits the request on its token.
* `decision`: The decision under a list of rules.
* `AppliesTo`: A rule is for a service.
* `SameRulesFor`: Two lists hold the same rules for a service.

## Theorems

* `check_isOK`: The decision in terms of the rule set a server holds.
* `decision_iff`: The decision in terms of the rules as given.
* `check_allows_iff`: Complete mediation.
* `decision_eq_iff`: When two lists with the same rules for a service agree.
* `decision_isolated_iff`: When other services' rules change a decision, and
  when they cannot.
-/

namespace Kontxt

namespace ExtAuth

open Go Lib

section Decision

variable (u : Unicode) (newEnv : Except String (Cel.Env Celverify.Context))

/-- A rule excludes the request's endpoint from verification. -/
def Excludes (req : HttpRequest) (r : VerificationRule) : Prop :=
  ∃ ep ∈ r.excludedEndpoints,
    equalFold u req.method ep.method = true ∧ matchPath req.path ep.path = true

/-- A token's claims and a request satisfy a rule. An expression that does not
    compile asks for nothing. -/
structure Satisfied (claims : Token.Claims) (req : HttpRequest) (r : VerificationRule) :
    Prop where
  scope : r.requiredScope = "" ∨ r.requiredScope ∈ fields claims.scope
  tctx : ∀ field ∈ r.requiredTctxFields, hasKey claims.transactionContext field = true
  cel : ∀ c ∈ r.celRules, ∀ p, Cel.programOf newEnv c.cel = some p →
    p (celContext u claims req) = .ok (.bool true)

/-- The request carries a token the verifier accepts and the rules in `P` are
    all satisfied. -/
def Admits (verifier : String → Except String Token.Claims) (req : HttpRequest)
    (P : VerificationRule → Prop) : Prop :=
  getHeader u req.headers Token.headerName ≠ "" ∧
    ∃ claims, verifier (getHeader u req.headers Token.headerName) = .ok claims ∧
      ∀ r, P r → Satisfied u newEnv claims req r

theorem checkTctxField_eq_ok (claims : Token.Claims) (ruleName field : String) :
    checkTctxField u claims ruleName field = .ok () ↔
      hasKey claims.transactionContext field = true := by
  unfold checkTctxField
  cases htctx : claims.transactionContext with
  | none =>
      have hkey : hasKey none field = false := rfl
      simp only [reduceCtorEq, hkey, Bool.false_eq_true]
  | some tctx =>
      by_cases hkey : hasKey (some tctx) field = true
      · simp only [hkey, if_true]
      · simp only [hkey, if_false, reduceCtorEq]

theorem scopeContains_iff (scopeString required : String) :
    scopeContains scopeString required = true ↔ required ∈ fields scopeString := by
  unfold scopeContains
  exact List.contains_iff_mem

/-- The scope test fails a rule exactly when it requires a scope the token does
    not have. -/
theorem scope_missing_iff (scopeString required : String) :
    ¬(required ≠ "" ∧ scopeContains scopeString required = false) ↔
      required = "" ∨ required ∈ fields scopeString := by
  rw [not_and_or, ne_eq, not_not, Bool.not_eq_false, scopeContains_iff]

/-- The compiled programs are those of the expressions that compile. -/
theorem forall_compileVerificationRuleCEL (r : VerificationRule)
    (P : (Celverify.Context → Except String Cel.Val) → Prop) :
    (∀ p ∈ compileVerificationRuleCEL u newEnv r, P p.program) ↔
      ∀ c ∈ r.celRules, ∀ p, Cel.programOf newEnv c.cel = some p → P p := by
  rw [compileVerificationRuleCEL_eq]
  constructor
  · intro h c hc p hp
    refine h { name := c.name, program := p, message := c.message } ?_
    rw [List.mem_filterMap]
    exact ⟨c, hc, by simp only [compiledCEL, hp, Option.map_some]⟩
  · intro h q hq
    obtain ⟨c, hc, hcq⟩ := List.mem_filterMap.mp hq
    obtain ⟨p, hp, rfl⟩ := Option.map_eq_some_iff.mp hcq
    exact h c hc p hp

/-- The test for an empty program list only saves building the activation. -/
theorem evaluate_nonempty_eq_ok (programs : List Celverify.Program) (ctx : Celverify.Context) :
    (if programs.length > 0 then Celverify.evaluate u programs ctx else .ok ()) = .ok () ↔
      ∀ p ∈ programs, p.program ctx = .ok (.bool true) := by
  rw [← evaluate_eq_ok]
  cases programs with
  | nil => exact ⟨fun _ => rfl, fun _ => rfl⟩
  | cons p ps =>
      have hlen : (p :: ps).length > 0 := by
        rw [List.length_cons]
        omega
      rw [if_pos hlen]

/-- The tests of one compiled rule pass exactly when the rule is satisfied. -/
theorem checkVerificationRule_eq_ok (claims : Token.Claims) (req : HttpRequest)
    (r : VerificationRule) :
    checkVerificationRule u claims req
        { rule := r, celPrograms := compileVerificationRuleCEL u newEnv r } = .ok () ↔
      Satisfied u newEnv claims req r := by
  have hcel := forall_compileVerificationRuleCEL u newEnv r fun p =>
    p (celContext u claims req) = .ok (.bool true)
  have hfields : r.requiredTctxFields.forM (checkTctxField u claims r.name) = .ok () ↔
      ∀ field ∈ r.requiredTctxFields, hasKey claims.transactionContext field = true := by
    rw [forM_eq_ok]
    simp only [checkTctxField_eq_ok]
  unfold checkVerificationRule
  simp only []
  rw [ite_error_eq_ok, bind_eq_ok]
  simp only [evaluate_nonempty_eq_ok, hcel, scope_missing_iff]
  constructor
  · intro hgiven
    rcases hgiven with ⟨hscope, _, htctx, hprog⟩
    exact ⟨hscope, hfields.mp htctx, hprog⟩
  · intro h
    exact ⟨h.scope, (), hfields.mpr h.tctx, h.cel⟩

theorem isExcluded_setVerificationRules (S : SortSlice) (s : Server)
    (rules : List VerificationRule) (req : HttpRequest) :
    (s.setVerificationRules u S newEnv rules).isExcluded u req.path req.method = true ↔
      ∃ r ∈ rules, Excludes u req r := by
  unfold Server.isExcluded Server.loadVerificationRules Server.setVerificationRules Excludes
  -- Sorting keeps membership, which is all the search for an exclusion sees.
  simp only [Option.getD_some, List.any_map, List.any_eq_true, Function.comp_apply,
    Bool.and_eq_true, (S.perm verificationLess rules).mem_iff]
  constructor
  · intro hgiven
    rcases hgiven with ⟨r, hr, ep, hep, hpath, hmethod⟩
    exact ⟨r, hr, ep, hep, hmethod, hpath⟩
  · intro hgiven
    rcases hgiven with ⟨r, hr, ep, hep, hmethod, hpath⟩
    exact ⟨r, hr, ep, hep, hpath, hmethod⟩

theorem checkVerificationRules_setVerificationRules (S : SortSlice) (s : Server)
    (rules : List VerificationRule) (claims : Token.Claims) (req : HttpRequest) :
    (s.setVerificationRules u S newEnv rules).checkVerificationRules u claims req = .ok () ↔
      ∀ r ∈ rules, Satisfied u newEnv claims req r := by
  unfold Server.checkVerificationRules Server.loadVerificationRules Server.setVerificationRules
  rw [forM_eq_ok, Option.getD_some, List.forall_mem_map]
  simp only [checkVerificationRule_eq_ok, (S.perm verificationLess rules).mem_iff]

theorem isOK_denied (code : Code) (message : String) (hcode : code ≠ .ok) :
    (denied code message).isOK = false := by
  unfold denied CheckResponse.isOK
  simp only [Option.map_some, Option.getD_some, beq_eq_false_iff_ne, ne_eq, hcode,
    not_false_eq_true]

/-- The decision in terms of the rule set a server holds: excluded, or a token
    that verifies and passes the checks. Narrowing the token changes the
    answer's headers and never the decision. -/
theorem check_isOK (s : Server) (req : HttpRequest) :
    (s.check u { http := some req }).isOK = true ↔
      s.isExcluded u req.path req.method = true ∨
        (getHeader u req.headers Token.headerName ≠ "" ∧
          ∃ claims, s.verifier (getHeader u req.headers Token.headerName) = .ok claims ∧
            s.checkVerificationRules u claims req = .ok ()) := by
  unfold Server.check
  simp only []
  cases hex : s.isExcluded u req.path req.method with
  | true =>
      simp only [if_true, true_or, iff_true]
      rfl
  | false =>
      simp only [Bool.false_eq_true, if_false, false_or]
      by_cases htok : getHeader u req.headers Token.headerName = ""
      · simp only [htok, if_true, ne_eq, not_true_eq_false, false_and, iff_false, Bool.not_eq_true]
        exact isOK_denied .unauthenticated _ Code.noConfusion
      · simp only [htok, if_false, ne_eq, not_false_eq_true, true_and]
        cases hver : s.verifier (getHeader u req.headers Token.headerName) with
        | error e =>
            simp only [reduceCtorEq, false_and, exists_false, iff_false, Bool.not_eq_true]
            exact isOK_denied .unauthenticated _ Code.noConfusion
        | ok claims =>
            simp only [Except.ok.injEq, exists_eq_left']
            cases hrules : s.checkVerificationRules u claims req with
            | error e =>
                simp only [reduceCtorEq, iff_false, Bool.not_eq_true]
                exact isOK_denied .permissionDenied _ Code.noConfusion
            | ok _ =>
                simp only [iff_true]
                -- Narrowed or not, the answer is OK.
                split
                · rfl
                · rfl

/-- The decision on a request after a list of rules is installed. -/
def decision (S : SortSlice) (s : Server) (rules : List VerificationRule) (req : HttpRequest) :
    Bool :=
  ((s.setVerificationRules u S newEnv rules).check u { http := some req }).isOK

/-- The decision in terms of the rules as given: neither their order nor what
    fails to compile enters. -/
theorem decision_iff (S : SortSlice) (s : Server) (rules : List VerificationRule)
    (req : HttpRequest) :
    decision u newEnv S s rules req = true ↔
      (∃ r ∈ rules, Excludes u req r) ∨ Admits u newEnv s.verifier req (· ∈ rules) := by
  unfold decision Admits
  rw [check_isOK, isExcluded_setVerificationRules]
  simp only [checkVerificationRules_setVerificationRules]
  rfl

/-- Complete mediation: a request with HTTP attributes is let through exactly
    when some rule excludes its endpoint, or it carries a token the verifier
    accepts and every rule is satisfied, where an expression that does not
    compile is the only thing its failure takes out. -/
theorem check_allows_iff (S : SortSlice) (s : Server) (rules : List VerificationRule)
    (req : HttpRequest) :
    ((s.setVerificationRules u S newEnv rules).check u { http := some req }).isOK = true ↔
      (∃ r ∈ rules, ∃ ep ∈ r.excludedEndpoints,
        equalFold u req.method ep.method = true ∧ matchPath req.path ep.path = true) ∨
      (getHeader u req.headers Token.headerName ≠ "" ∧
        ∃ claims, s.verifier (getHeader u req.headers Token.headerName) = .ok claims ∧
          ∀ r ∈ rules,
            (r.requiredScope = "" ∨ r.requiredScope ∈ fields claims.scope) ∧
            (∀ field ∈ r.requiredTctxFields, hasKey claims.transactionContext field = true) ∧
            ∀ c ∈ r.celRules, ∀ p, Cel.programOf newEnv c.cel = some p →
              p (celContext u claims req) = .ok (.bool true)) := by
  have hsat : ∀ claims r, Satisfied u newEnv claims req r ↔
      (r.requiredScope = "" ∨ r.requiredScope ∈ fields claims.scope) ∧
      (∀ field ∈ r.requiredTctxFields, hasKey claims.transactionContext field = true) ∧
      ∀ c ∈ r.celRules, ∀ p, Cel.programOf newEnv c.cel = some p →
        p (celContext u claims req) = .ok (.bool true) := by
    intro claims r
    exact ⟨fun h => ⟨h.scope, h.tctx, h.cel⟩, fun h => ⟨h.1, h.2.1, h.2.2⟩⟩
  have h := decision_iff u newEnv S s rules req
  unfold decision Admits Excludes at h
  rw [h]
  simp only [hsat]

end Decision

section Isolation

variable (u : Unicode) (newEnv : Except String (Cel.Env Celverify.Context)) (ns svc : String)

/-- A rule is for the service `svc` in namespace `ns`. -/
def AppliesTo (r : VerificationRule) : Prop :=
  r.nameSpace = ns ∧ r.serviceName = svc

instance (r : VerificationRule) : Decidable (AppliesTo ns svc r) :=
  inferInstanceAs (Decidable (r.nameSpace = ns ∧ r.serviceName = svc))

/-- Two lists hold the same rules for a service. -/
def SameRulesFor (R₁ R₂ : List VerificationRule) : Prop :=
  ∀ r, AppliesTo ns svc r → (r ∈ R₁ ↔ r ∈ R₂)

/-- The service's own rules exclude the request's endpoint. -/
def OwnExcludes (req : HttpRequest) (R : List VerificationRule) : Prop :=
  ∃ r ∈ R, AppliesTo ns svc r ∧ Excludes u req r

/-- A rule for another service excludes the request's endpoint. -/
def ForeignBypass (req : HttpRequest) (R : List VerificationRule) : Prop :=
  ∃ r ∈ R, ¬AppliesTo ns svc r ∧ Excludes u req r

/-- The service's own rules admit the request on its token. -/
def OwnAdmits (verifier : String → Except String Token.Claims) (req : HttpRequest)
    (R : List VerificationRule) : Prop :=
  Admits u newEnv verifier req (fun r => r ∈ R ∧ AppliesTo ns svc r)

/-- No rule for another service excludes the endpoint, and some rule for
    another service is not satisfied. -/
def ForeignBlock (verifier : String → Except String Token.Claims) (req : HttpRequest)
    (R : List VerificationRule) : Prop :=
  ¬ForeignBypass u ns svc req R ∧
    ¬Admits u newEnv verifier req (fun r => r ∈ R ∧ ¬AppliesTo ns svc r)

/-- One token is judged against all rules, so being admitted by two sets of
    rules is being admitted by each. -/
theorem admits_and (verifier : String → Except String Token.Claims) (req : HttpRequest)
    (P Q R : VerificationRule → Prop) (hsplit : ∀ r, R r ↔ P r ∨ Q r) :
    Admits u newEnv verifier req R ↔
      Admits u newEnv verifier req P ∧ Admits u newEnv verifier req Q := by
  constructor
  · intro hgiven
    rcases hgiven with ⟨htok, claims, hver, hsat⟩
    exact ⟨⟨htok, claims, hver, fun r hr => hsat r ((hsplit r).mpr (Or.inl hr))⟩,
      ⟨htok, claims, hver, fun r hr => hsat r ((hsplit r).mpr (Or.inr hr))⟩⟩
  · intro hgiven
    rcases hgiven with ⟨⟨htok, claims, hver, hP⟩, ⟨_, claims', hver', hQ⟩⟩
    -- Both halves speak of the claims of the one token in the header.
    have hsame : claims' = claims := by
      rw [hver] at hver'
      exact (Except.ok.inj hver').symm
    refine ⟨htok, claims, hver, fun r hr => ?_⟩
    rcases (hsplit r).mp hr with h | h
    · exact hP r h
    · exact hsame ▸ hQ r h

/-- The decision split into what the service's own rules say and what the
    other rules say. -/
theorem decision_iff_split (S : SortSlice) (s : Server) (R : List VerificationRule)
    (req : HttpRequest) :
    decision u newEnv S s R req = true ↔
      OwnExcludes u ns svc req R ∨ ForeignBypass u ns svc req R ∨
        (OwnAdmits u newEnv ns svc s.verifier req R ∧
          ¬ForeignBlock u newEnv ns svc s.verifier req R) := by
  have hexcl : (∃ r ∈ R, Excludes u req r) ↔
      OwnExcludes u ns svc req R ∨ ForeignBypass u ns svc req R := by
    constructor
    · intro hgiven
      rcases hgiven with ⟨r, hr, hex⟩
      by_cases hown : AppliesTo ns svc r
      · exact Or.inl ⟨r, hr, hown, hex⟩
      · exact Or.inr ⟨r, hr, hown, hex⟩
    · intro h
      rcases h with ⟨r, hr, _, hex⟩ | ⟨r, hr, _, hex⟩
      · exact ⟨r, hr, hex⟩
      · exact ⟨r, hr, hex⟩
  -- Every rule is the service's own or another's, and a request must satisfy
  -- both kinds.
  have hadmit := admits_and u newEnv s.verifier req (fun r => r ∈ R ∧ AppliesTo ns svc r)
    (fun r => r ∈ R ∧ ¬AppliesTo ns svc r) (· ∈ R) (by
      intro r
      by_cases hown : AppliesTo ns svc r
      · simp only [hown, and_true, not_true_eq_false, and_false, or_false]
      · simp only [hown, and_false, not_false_eq_true, and_true, false_or])
  rw [decision_iff, hexcl, hadmit]
  unfold OwnAdmits ForeignBlock
  by_cases hown : OwnExcludes u ns svc req R
  · simp only [hown, true_or]
  · by_cases hby : ForeignBypass u ns svc req R
    · simp only [hby, true_or, or_true]
    · simp only [hown, hby, false_or, not_false_eq_true, true_and, not_not]

theorem ownExcludes_congr (req : HttpRequest) (R₁ R₂ : List VerificationRule)
    (h : SameRulesFor ns svc R₁ R₂) :
    OwnExcludes u ns svc req R₁ ↔ OwnExcludes u ns svc req R₂ := by
  constructor
  · intro hgiven
    rcases hgiven with ⟨r, hr, hown, hex⟩
    exact ⟨r, (h r hown).mp hr, hown, hex⟩
  · intro hgiven
    rcases hgiven with ⟨r, hr, hown, hex⟩
    exact ⟨r, (h r hown).mpr hr, hown, hex⟩

theorem ownAdmits_congr (verifier : String → Except String Token.Claims) (req : HttpRequest)
    (R₁ R₂ : List VerificationRule) (h : SameRulesFor ns svc R₁ R₂) :
    OwnAdmits u newEnv ns svc verifier req R₁ ↔ OwnAdmits u newEnv ns svc verifier req R₂ := by
  have hmem : ∀ r, (r ∈ R₁ ∧ AppliesTo ns svc r) ↔ (r ∈ R₂ ∧ AppliesTo ns svc r) := by
    intro r
    exact and_congr_left (fun hown => h r hown)
  unfold OwnAdmits Admits
  simp only [hmem]

/-- The rules for other services act alike in two lists: if the service's own
    rules admit the request, the others block it under both lists or neither,
    and if they do not, the others let it bypass under both lists or neither. -/
def ForeignAgree (verifier : String → Except String Token.Claims) (req : HttpRequest)
    (R₁ R₂ : List VerificationRule) : Prop :=
  (OwnAdmits u newEnv ns svc verifier req R₁ ∧
    (ForeignBlock u newEnv ns svc verifier req R₁ ↔
      ForeignBlock u newEnv ns svc verifier req R₂)) ∨
  (¬OwnAdmits u newEnv ns svc verifier req R₁ ∧
    (ForeignBypass u ns svc req R₁ ↔ ForeignBypass u ns svc req R₂))

theorem decision_eq_iff (S : SortSlice) (s : Server) (R₁ R₂ : List VerificationRule)
    (req : HttpRequest) (h : SameRulesFor ns svc R₁ R₂) :
    decision u newEnv S s R₁ req = decision u newEnv S s R₂ req ↔
      OwnExcludes u ns svc req R₁ ∨ ForeignAgree u newEnv ns svc s.verifier req R₁ R₂ := by
  rw [Bool.eq_iff_iff, decision_iff_split u newEnv ns svc, decision_iff_split u newEnv ns svc,
    ← ownExcludes_congr u ns svc req R₁ R₂ h, ← ownAdmits_congr u newEnv ns svc _ req R₁ R₂ h]
  unfold ForeignAgree
  by_cases hown : OwnExcludes u ns svc req R₁
  · simp only [hown, true_or]
  · by_cases hadm : OwnAdmits u newEnv ns svc s.verifier req R₁
    · -- A bypass is not a block, so both lists let the request through unless blocked.
      have habsorb : ∀ R, (ForeignBypass u ns svc req R ∨
          ¬ForeignBlock u newEnv ns svc s.verifier req R) ↔
          ¬ForeignBlock u newEnv ns svc s.verifier req R := by
        intro R
        exact or_iff_right_of_imp (fun hby hblock => hblock.1 hby)
      simp only [hown, hadm, false_or, true_and, habsorb, not_true_eq_false, false_and, or_false]
      exact not_iff_not
    · simp only [hown, hadm, false_or, false_and, or_false, not_false_eq_true, true_and]

/-- A rule in the namespace next to `ns`. -/
def foreignRule (requiredScope : String) (excludedEndpoints : List V1alpha1.EndpointSpec) :
    VerificationRule where
  nameSpace := ns ++ "-other"
  name := "foreign"
  serviceName := svc
  requiredScope := requiredScope
  requiredTctxFields := []
  celRules := []
  excludedEndpoints := excludedEndpoints
  autoNarrow := false

theorem foreignRule_not_appliesTo (requiredScope : String)
    (excludedEndpoints : List V1alpha1.EndpointSpec) :
    ¬AppliesTo ns svc (foreignRule ns svc requiredScope excludedEndpoints) := by
  intro hgiven
  rcases hgiven with ⟨hns, _⟩
  -- A longer namespace is another namespace.
  have hlen := congrArg (fun t : String => t.toList.length) hns
  simp only [foreignRule, String.toList_append, List.length_append] at hlen
  have hpos : 0 < "-other".toList.length := by decide
  omega

theorem sameRulesFor_cons (r : VerificationRule) (hr : ¬AppliesTo ns svc r)
    (R : List VerificationRule) : SameRulesFor ns svc R (r :: R) := by
  intro r' hown
  rw [List.mem_cons]
  refine ⟨Or.inr, fun h => ?_⟩
  rcases h with rfl | h
  · exact absurd hown hr
  · exact h

/-- A foreign rule that excludes the request's endpoint lets it through. -/
theorem decision_bypass (S : SortSlice) (s : Server) (R : List VerificationRule)
    (req : HttpRequest) :
    decision u newEnv S s
      (foreignRule ns svc "" [{ path := cutQuery req.path, method := req.method }] :: R) req
      = true := by
  rw [decision_iff]
  refine Or.inl ⟨_, List.mem_cons_self, _, List.mem_singleton.mpr rfl, ?_, ?_⟩
  · exact equalFold_refl u req.method
  · simp only [matchPath, beq_self_eq_true, Bool.true_or]

/-- A foreign rule that requires a scope no token can have blocks whatever the
    service's own rules do not exclude. -/
theorem decision_block (S : SortSlice) (s : Server) (R : List VerificationRule)
    (req : HttpRequest) (hR : ¬∃ r ∈ R, Excludes u req r) :
    decision u newEnv S s (foreignRule ns svc " " [] :: R) req = false := by
  rw [← Bool.not_eq_true, decision_iff]
  intro h
  rcases h with ⟨r, hr, hex⟩ | ⟨_, claims, _, hsat⟩
  · rcases List.mem_cons.mp hr with rfl | hmem
    · obtain ⟨ep, hep, _⟩ := hex
      exact absurd hep List.not_mem_nil
    · exact hR ⟨r, hmem, hex⟩
  · have hscope := (hsat _ List.mem_cons_self).scope
    rcases hscope with hempty | hmem
    · have hne : " " ≠ "" := by decide
      exact hne hempty
    · have hspace := not_isSpace_of_mem_fields claims.scope " " hmem ' ' (by decide)
      -- A field of the scope contains no space, and the required one is a space.
      exact absurd hspace (by decide)

/-- When another service's rules change what happens to a request. Two lists
    with the same rules for the service decide alike exactly when the service
    excludes the endpoint or the other rules act alike in both; and no change
    to the other rules can change the decision exactly when the service
    excludes the endpoint. -/
theorem decision_isolated_iff (S : SortSlice) (s : Server) (R₁ : List VerificationRule)
    (req : HttpRequest) :
    (∀ R₂, SameRulesFor ns svc R₁ R₂ →
      (decision u newEnv S s R₁ req = decision u newEnv S s R₂ req ↔
        OwnExcludes u ns svc req R₁ ∨ ForeignAgree u newEnv ns svc s.verifier req R₁ R₂)) ∧
    ((∀ R₂, SameRulesFor ns svc R₁ R₂ →
      decision u newEnv S s R₁ req = decision u newEnv S s R₂ req) ↔
        OwnExcludes u ns svc req R₁) := by
  refine ⟨fun R₂ h => decision_eq_iff u newEnv ns svc S s R₁ R₂ req h, ?_, ?_⟩
  · intro hall
    by_contra hown
    cases hdec : decision u newEnv S s R₁ req with
    | false =>
        -- Denied as it is, the request is let through by a rule next door that
        -- excludes its endpoint.
        have hsame := sameRulesFor_cons ns svc _ (foreignRule_not_appliesTo ns svc ""
          [{ path := cutQuery req.path, method := req.method }]) R₁
        have h := hall _ hsame
        rw [hdec, decision_bypass u newEnv ns svc S s R₁ req] at h
        cases h
    | true =>
        -- Keep the service's own rules, drop the others, and add one that blocks.
        have hsame : SameRulesFor ns svc R₁ (foreignRule ns svc " " [] ::
            R₁.filter (fun r => AppliesTo ns svc r)) := by
          intro r hown
          rw [← sameRulesFor_cons ns svc _ (foreignRule_not_appliesTo ns svc " " []) _ r hown,
            List.mem_filter]
          exact ⟨fun hr => ⟨hr, decide_eq_true hown⟩, fun hr => hr.1⟩
        have hexcl : ¬∃ r ∈ R₁.filter (fun r => AppliesTo ns svc r),
            Excludes u req r := by
          intro hgiven
          rcases hgiven with ⟨r, hr, hex⟩
          rw [List.mem_filter] at hr
          exact hown ⟨r, hr.1, of_decide_eq_true hr.2, hex⟩
        have h := hall _ hsame
        rw [hdec, decision_block u newEnv ns svc S s _ req hexcl] at h
        cases h
  · intro hown R₂ h
    exact (decision_eq_iff u newEnv ns svc S s R₁ R₂ req h).mpr (Or.inl hown)

end Isolation

/-- A billing service whose callers need the scope `pay`. -/
def billingRule : VerificationRule where
  nameSpace := "shop"
  name := "billing"
  serviceName := "billing"
  requiredScope := "pay"
  requiredTctxFields := []
  celRules := []
  excludedEndpoints := []
  autoNarrow := false

/-- A catalog service in another namespace with a public endpoint. -/
def catalogRule : VerificationRule where
  nameSpace := "catalog"
  name := "catalog"
  serviceName := "catalog"
  requiredScope := ""
  requiredTctxFields := []
  celRules := []
  excludedEndpoints := [{ path := "/public", method := "get" }]
  autoNarrow := false

/-- A request without a token. -/
def tokenlessRequest : HttpRequest where
  path := "/public/report?all=1"
  method := "GET"
  headers := ∅

/-- A server that accepts no token. -/
def closedServer : Server where
  verifier := fun _ => .error "token is malformed"
  verificationRules := none
  ttsClient := none

/-- An environment in which nothing compiles, for rules without CEL. -/
def noCel : Except String (Cel.Env Celverify.Context) :=
  .ok (fun _ => .error "undeclared reference")

theorem sameRulesFor_billing : SameRulesFor "shop" "billing" [billingRule]
    [catalogRule, billingRule] :=
  sameRulesFor_cons "shop" "billing" catalogRule (by decide) [billingRule]

/-- The catalog's public endpoint lets a request to billing through without a
    token. -/
theorem foreign_exclusion_bypasses :
    ¬∀ (R₁ R₂ : List VerificationRule) (req : HttpRequest),
      SameRulesFor "shop" "billing" R₁ R₂ →
      decision Unicode.ascii noCel SortSlice.insertion closedServer R₁ req =
        decision Unicode.ascii noCel SortSlice.insertion closedServer R₂ req := by
  intro h
  have hsame := h [billingRule] [catalogRule, billingRule] tokenlessRequest sameRulesFor_billing
  exact absurd hsame (by decide)

theorem decision_isolated_iff_billing :
    (decision Unicode.ascii noCel SortSlice.insertion closedServer [billingRule] tokenlessRequest =
      decision Unicode.ascii noCel SortSlice.insertion closedServer [catalogRule, billingRule]
        tokenlessRequest ↔
      OwnExcludes Unicode.ascii "shop" "billing" tokenlessRequest [billingRule] ∨
        ForeignAgree Unicode.ascii noCel "shop" "billing" closedServer.verifier tokenlessRequest
          [billingRule] [catalogRule, billingRule]) :=
  (decision_isolated_iff Unicode.ascii noCel "shop" "billing" SortSlice.insertion closedServer
    [billingRule] tokenlessRequest).1 [catalogRule, billingRule] sameRulesFor_billing

end ExtAuth

end Kontxt
