import Kontxt.Core.Api
import Kontxt.Core.ExtAuth
import Kontxt.Core.Issuance
import Kontxt.Core.RuleServer

/-!
# The Reconcilers

What the controller publishes. A change to any resource makes its reconciler
list all resources of the kind, turn them into rules and replace the server's
list. Both reconcilers compile expressions first and hold back those that fail,
each in its own way: for requirements the failing rule itself is left out, for
policies every rule of the policy that has the failing rule's name.

Listing can fail, and a reconciler may have no publisher; the rebuild then
changes nothing on the server. For transaction types listing the policies can
fail as well, once for every type, and counts as having none.

Every condition is set with the time at which it is set, so a status with two
conditions has two times. A duration is parsed by `time.ParseDuration`, which is
a parameter.

## Main definitions

* `validateIssuanceCEL`: The compile errors of a policy's rules.
* `resolveTargetNamespaces`: The namespaces a policy applies to.
* `policyRules`: The issuance rules of one policy.
* `rebuildIssuanceRules`: Publishing all policies.
* `validateAndCompileCELRules`: Splitting a requirement's rules by whether they
  compile.
* `requirementRule`: The verification rule of one requirement.
* `rebuildVerificationRules`: Publishing all requirements.
* `setCondition`: Updating or adding a condition.
* `findApplicablePolicy`: The policy that applies to a namespace.
* `validateTransactionTypeAgainstPolicy`: The violations of a transaction type.
* `clampTokenLifetime`: A lifetime within the policy's ceiling.
* `generationRuleOf`, `publishedRule`: The generation rule of one transaction
  type.
* `rebuildGenerationRules`: Publishing all transaction types.
* `settleRequirement`, `settlePolicy`, `settleTransactionType`: The statuses the
  reconcilers write.
* `reconcileTransactionType`: One call of `Reconcile` for a transaction type.
-/

namespace Kontxt

namespace Controller

open Go

/-- `issuanceCELError` associates a rule name with its compile error. -/
structure IssuanceCELError where
  ruleName : String
  err : String
  deriving Repr, DecidableEq

section Issuance

variable (u : Unicode) (newEnv : Except String (Cel.Env Tts.Activation))

/-- The body of the loop of `validateIssuanceCEL`: the error of compiling one
    rule on its own. -/
def compileError (cfg : Tts.IssuanceRuleConfig) : Option IssuanceCELError :=
  match Tts.compileIssuanceRules u newEnv [cfg] with
  | .ok _ => none
  | .error e => some { ruleName := cfg.name, err := e }

/-- `validateIssuanceCEL`: all rules at once, and only if that fails each on its
    own. -/
def validateIssuanceCEL (rules : List V1alpha1.IssuanceRule) : List IssuanceCELError :=
  if rules.length = 0 then []
  else
    let configs : List Tts.IssuanceRuleConfig := rules.map fun r =>
      { name := r.name, cel := r.cel, message := r.message, targetNamespaces := [] }
    match Tts.compileIssuanceRules u newEnv configs with
    | .ok _ => []
    | .error _ => configs.filterMap (compileError u newEnv)

/-- `resolveTargetNamespaces`. Labels are not resolved. -/
def resolveTargetNamespaces : Option V1alpha1.NamespaceSelector → List String
  | none => []
  | some sel => sel.matchNames

/-- The issuance rule published for one rule of a policy. -/
def policyRule (policy : V1alpha1.TokenPolicy) (ir : V1alpha1.IssuanceRule) : IssuanceRule where
  policyNamespace := ""
  policyName := policy.name
  ruleName := ir.name
  cel := ir.cel
  message := ir.message
  targetNamespaces := resolveTargetNamespaces policy.spec.targetNamespaces

/-- The body of the loop of `rebuildIssuanceRules`. What is broken is looked up
    by rule name. -/
def policyRules (policy : V1alpha1.TokenPolicy) : List IssuanceRule :=
  -- The errors carry names only, and a name may belong to several rules.
  let compileErrs := validateIssuanceCEL u newEnv policy.spec.issuanceRules
  let broken := fun name => compileErrs.any fun e => e.ruleName == name
  (policy.spec.issuanceRules.filter fun ir => !broken ir.name).map (policyRule policy)

/-- `rebuildIssuanceRules`, on what listing the policies gave. -/
def rebuildIssuanceRules (listed : Except String (List V1alpha1.TokenPolicy))
    (publisher : Option RuleServer) : Except String (Option RuleServer) :=
  match listed with
  | .error e => .error ("listing TokenPolicies: " ++ e)
  | .ok policies =>
    .ok (publisher.map fun s => s.updateIssuanceRules (policies.flatMap (policyRules u newEnv)))

end Issuance

section Verification

variable (u : Unicode) (newEnv : Except String (Cel.Env Celverify.Context))

/-- `validateAndCompileCELRules`: the rules that compile, and the errors of the
    others. -/
def validateAndCompileCELRules :
    List V1alpha1.VerificationRule → List V1alpha1.VerificationRule × List String
  | [] => ([], [])
  | rule :: rules =>
    let (valid, errs) := validateAndCompileCELRules rules
    if rule.cel = "" then
      (valid, ("rule " ++ quote u rule.name ++ " has empty CEL expression") :: errs)
    else
      match Celverify.compile u newEnv
          [{ name := rule.name, cel := rule.cel, message := rule.message }] with
      | .error e => (valid, e :: errs)
      | .ok _ => (rule :: valid, errs)

/-- The body of the loop of `rebuildVerificationRules`. -/
def requirementRule (str : V1alpha1.ServiceTokenRequirement) : VerificationRule where
  nameSpace := str.nameSpace
  name := str.name
  serviceName := str.spec.serviceRefName
  requiredScope := str.spec.verification.requiredScope
  requiredTctxFields := str.spec.verification.requiredTctxFields
  celRules := (validateAndCompileCELRules u newEnv str.spec.verification.rules).1.map fun r =>
    { name := r.name, cel := r.cel, message := r.message }
  excludedEndpoints := str.spec.excludedEndpoints
  autoNarrow := str.spec.autoNarrow

/-- `rebuildVerificationRules`, on what listing the requirements gave. -/
def rebuildVerificationRules (listed : Except String (List V1alpha1.ServiceTokenRequirement))
    (publisher : Option RuleServer) : Except String (Option RuleServer) :=
  match listed with
  | .error e => .error ("listing ServiceTokenRequirements: " ++ e)
  | .ok strs =>
    .ok (publisher.map fun s => s.updateVerificationRules (strs.map (requirementRule u newEnv)))

end Verification

section Status

/-- `ConditionPolicyCompliant`. -/
def conditionPolicyCompliant : String := "PolicyCompliant"

/-- `ConditionReady`. -/
def conditionReady : String := "Ready"

/-- `setCondition`: the first condition of the type is overwritten, or one is
    added. -/
def setCondition (now : Int) (condType : String) (status : V1alpha1.ConditionStatus)
    (reason message : String) : List V1alpha1.Condition → List V1alpha1.Condition
  | [] =>
    [{ type := condType, status := status, reason := reason, message := message
       lastTransitionTime := now }]
  | c :: cs =>
    if c.type = condType then
      { c with status := status, reason := reason, message := message
               lastTransitionTime := now } :: cs
    else c :: setCondition now condType status reason message cs

/-- How `%v` prints a slice. -/
def formatSlice (l : List String) : String :=
  "[" ++ " ".intercalate l ++ "]"

/-- The status `Reconcile` writes for a requirement. -/
def settleRequirement (u : Unicode) (newEnv : Except String (Cel.Env Celverify.Context))
    (now : Int) (str : V1alpha1.ServiceTokenRequirement) : V1alpha1.ServiceTokenRequirement :=
  let celErrors := (validateAndCompileCELRules u newEnv str.spec.verification.rules).2
  { str with
    status :=
      { conditions :=
          if celErrors.length > 0 then
            setCondition now conditionReady .conditionFalse "CELCompilationError"
              ("CEL errors: " ++ formatSlice celErrors) str.status.conditions
          else
            setCondition now conditionReady .conditionTrue "Reconciled"
              "verification rules updated" str.status.conditions
        activeVerificationRules := str.spec.verification.rules.length
        excludedEndpointCount := str.spec.excludedEndpoints.length } }

/-- `issuanceCELError.String`. -/
def IssuanceCELError.string (e : IssuanceCELError) : String :=
  e.ruleName ++ ": " ++ e.err

/-- The status `Reconcile` writes for a policy, with the times at which it sets
    the two conditions. -/
def settlePolicy (u : Unicode) (newEnv : Except String (Cel.Env Tts.Activation))
    (compliantAt readyAt : Int) (policy : V1alpha1.TokenPolicy) : V1alpha1.TokenPolicy :=
  let compileErrs := validateIssuanceCEL u newEnv policy.spec.issuanceRules
  let printed := formatSlice (compileErrs.map IssuanceCELError.string)
  { policy with
    status :=
      { conditions :=
          if compileErrs.length > 0 then
            setCondition readyAt conditionReady .conditionFalse "CELCompilationError"
              ("one or more issuance rules failed to compile: " ++ printed)
              (setCondition compliantAt conditionPolicyCompliant .conditionFalse
                "CELCompilationError" ("CEL errors: " ++ printed) policy.status.conditions)
          else
            setCondition readyAt conditionReady .conditionTrue "Reconciled"
              "issuance rules updated"
              (setCondition compliantAt conditionPolicyCompliant .conditionTrue "Compliant"
                "all issuance rules compiled successfully" policy.status.conditions) } }

end Status

section Generation

variable (u : Unicode) (parseDuration : String → Except String Int)

/-- Whether a policy is applicable to a namespace: it has no selector, or the
    selector names the namespace. -/
def appliesTo (nameSpace : String) (policy : V1alpha1.TokenPolicy) : Bool :=
  match policy.spec.targetNamespaces with
  | none => true
  | some sel => sel.matchNames.contains nameSpace

/-- `findApplicablePolicy`, on what listing the policies gave. -/
def findApplicablePolicy (listed : Except String (List V1alpha1.TokenPolicy))
    (nameSpace : String) : Except String (Option V1alpha1.TokenPolicy) :=
  match listed with
  | .error e => .error e
  | .ok policies =>
    match policies.find? (appliesTo nameSpace) with
    | some policy => .ok (some policy)
    -- A second loop looks for a policy without a selector.
    | none => .ok (policies.find? fun policy => policy.spec.targetNamespaces.isNone)

/-- The check of the lifetime ceiling. -/
def lifetimeViolations (tt : V1alpha1.TransactionType) (policy : V1alpha1.TokenPolicy) :
    List String :=
  if policy.spec.constraints.maxTokenLifetime ≠ "" ∧ tt.spec.tokenLifetime ≠ "" then
    match parseDuration policy.spec.constraints.maxTokenLifetime,
        parseDuration tt.spec.tokenLifetime with
    | .ok maxDuration, .ok ttDuration =>
      if ttDuration > maxDuration then
        ["tokenLifetime " ++ tt.spec.tokenLifetime ++ " exceeds policy maximum " ++
          policy.spec.constraints.maxTokenLifetime]
      else []
    | _, _ => []
  else []

/-- Whether a transaction type maps or enriches a field. -/
def produces (tt : V1alpha1.TransactionType) (field : String) : Bool :=
  (tt.spec.tctxMapping.lookup field).isSome || tt.spec.tctxEnrichments.any (·.field == field)

/-- `ValidateTransactionTypeAgainstPolicy`. -/
def validateTransactionTypeAgainstPolicy (tt : V1alpha1.TransactionType) :
    Option V1alpha1.TokenPolicy → List String
  | none => []
  | some policy =>
    lifetimeViolations parseDuration tt policy ++
    (policy.spec.constraints.mandatoryTctxFields.filter fun required =>
      -- The purpose is always included.
      required != "purpose" && !produces tt required).map (fun required =>
        "mandatory tctx field " ++ quote u required ++ " not produced by this TransactionType") ++
    tt.spec.tctxEnrichments.flatMap fun enrichment =>
      (policy.spec.constraints.disallowedEnrichers.filter (enrichment.enricher == ·)).map fun _ =>
        "enricher " ++ quote u enrichment.enricher ++ " is disallowed by policy"

/-- `ComputeProducedTctxFields`, given the mapping's keys in the order the loop
    meets them. -/
def computeProducedTctxFields (tt : V1alpha1.TransactionType) (mapped : List String) :
    List String :=
  "purpose" :: mapped ++ tt.spec.tctxEnrichments.map (·.field)

/-- `ClampTokenLifetime`. -/
def clampTokenLifetime (requested maxLifetime defaultLifetime : String) : String :=
  let requested := if requested = "" then defaultLifetime else requested
  if maxLifetime = "" then requested
  else
    match parseDuration requested, parseDuration maxLifetime with
    | .ok reqDur, .ok maxDur => if reqDur > maxDur then maxLifetime else requested
    | _, _ => requested

/-- The effective lifetime of a transaction type under the policy found. -/
def effectiveLifetime (tt : V1alpha1.TransactionType) (policy : Option V1alpha1.TokenPolicy) :
    String :=
  match policy with
  | none => tt.spec.tokenLifetime
  | some policy =>
    clampTokenLifetime parseDuration tt.spec.tokenLifetime
      policy.spec.constraints.maxTokenLifetime "15s"

/-- The status `Reconcile` writes for a transaction type, given the times at
    which it sets the two conditions, the violations and the lifetime under the
    policy found, and the produced fields. -/
def settleTransactionType (compliantAt readyAt : Int) (violations : List String)
    (lifetime : String) (producedFields : List String) (tt : V1alpha1.TransactionType) :
    V1alpha1.TransactionType :=
  { tt with
    status :=
      { conditions :=
          setCondition readyAt conditionReady .conditionTrue "Reconciled"
            "generation rules updated"
            (if violations.length > 0 then
              setCondition compliantAt conditionPolicyCompliant .conditionFalse "PolicyViolation"
                ("violations: " ++ formatSlice violations) tt.status.conditions
            else
              setCondition compliantAt conditionPolicyCompliant .conditionTrue "Compliant"
                "all policy constraints satisfied" tt.status.conditions)
        producedTctxFields := producedFields
        effectiveTokenLifetime := lifetime } }

/-- The rule published for a transaction type with an effective lifetime. -/
def generationRuleOf (tt : V1alpha1.TransactionType) (lifetime : String) : GenerationRule where
  nameSpace := tt.nameSpace
  name := tt.name
  endpoint := tt.spec.endpoint
  purpose := tt.spec.purpose
  scope := tt.spec.scope
  tctxMapping := tt.spec.tctxMapping
  tctxEnrichments := tt.spec.tctxEnrichments
  rctxFields := tt.spec.rctxFields
  tokenLifetime := if lifetime = "" then "15s" else lifetime

/-- The policy a lookup counts as having found: none if listing failed. -/
def policyOrNil (found : Except String (Option V1alpha1.TokenPolicy)) :
    Option V1alpha1.TokenPolicy :=
  match found with
  | .error _ => none
  | .ok policy => policy

/-- The body of the loop of `rebuildGenerationRules`, on what listing the
    policies gave when the type's turn came. -/
def publishedRule (tt : V1alpha1.TransactionType)
    (listed : Except String (List V1alpha1.TokenPolicy)) : GenerationRule :=
  generationRuleOf tt (effectiveLifetime parseDuration tt
    (policyOrNil (findApplicablePolicy listed tt.nameSpace)))

/-- `rebuildGenerationRules`, on what listing the types gave, each with what
    listing the policies gave. -/
def rebuildGenerationRules
    (listed : Except String
      (List (V1alpha1.TransactionType × Except String (List V1alpha1.TokenPolicy))))
    (publisher : Option RuleServer) : Except String (Option RuleServer) :=
  match listed with
  | .error e => .error ("listing TransactionTypes: " ++ e)
  | .ok items =>
    .ok (publisher.map fun s =>
      s.updateGenerationRules (items.map fun item => publishedRule parseDuration item.1 item.2))

/-- Why getting an object failed: `errors.IsNotFound`, or anything else. -/
inductive GetError where
  | notFound
  | other (err : String)
  deriving Repr, DecidableEq

/-- What one call of `Reconcile` for a transaction type meets on its way: what
    getting the object gave, what listing the policies gave, the times at which
    the conditions are set, the mapping's keys in the order the loop meets them,
    whether the update went through, and what listing the types gave, each with
    what listing the policies gave when its turn came. -/
structure Encounter where
  get : Except GetError V1alpha1.TransactionType
  policies : Except String (List V1alpha1.TokenPolicy)
  compliantAt : Int
  readyAt : Int
  mapped : List String
  update : Except String Unit
  list : Except String
    (List (V1alpha1.TransactionType × Except String (List V1alpha1.TokenPolicy)))

/-- What one call of `Reconcile` leaves behind: the object as written, the
    publisher, and the error returned. -/
structure Pass where
  written : Option V1alpha1.TransactionType
  publisher : Option RuleServer
  err : Option String

/-- The end of `Reconcile`: the rules are rebuilt, and a failure is returned. -/
def rebuildAfter (met : Encounter) (publisher : Option RuleServer)
    (written : Option V1alpha1.TransactionType) : Pass :=
  match rebuildGenerationRules parseDuration met.list publisher with
  | .error e => { written := written, publisher := publisher, err := some e }
  | .ok publisher' => { written := written, publisher := publisher', err := none }

/-- The object `Reconcile` updates. -/
def settledObject (met : Encounter) (tt : V1alpha1.TransactionType) : V1alpha1.TransactionType :=
  let policy := policyOrNil (findApplicablePolicy met.policies tt.nameSpace)
  settleTransactionType met.compliantAt met.readyAt
    (validateTransactionTypeAgainstPolicy u parseDuration tt policy)
    (effectiveLifetime parseDuration tt policy) (computeProducedTctxFields tt met.mapped) tt

/-- `TransactionTypeReconciler.Reconcile`, from start to end. -/
def reconcileTransactionType (met : Encounter) (publisher : Option RuleServer) : Pass :=
  match met.get with
  | .error .notFound => rebuildAfter parseDuration met publisher none
  | .error (.other e) => { written := none, publisher := publisher, err := some e }
  | .ok tt =>
    match met.update with
    | .error e => { written := none, publisher := publisher, err := some e }
    | .ok () =>
      rebuildAfter parseDuration met publisher (some (settledObject u parseDuration met tt))

end Generation

end Controller

end Kontxt
