import Kontxt.Go.Map

/-!
# Custom Resources

The parts of the `v1alpha1` API the controller reads and writes: what a
transaction owner wants tokens to carry, what a service owner requires of
incoming tokens, and what a security admin requires before a token is issued.
Slices are lists, so a nil slice and an empty one are the same. Statuses and
constraints are optional in a manifest, and empty when left out.

## Main definitions

* `EndpointSpec`: A path and a method.
* `TctxFieldMapping`: Where one transaction context field comes from.
* `TctxEnrichment`: A transaction context field computed by an enricher.
* `Condition`: A condition in a resource's status.
* `TransactionType`: What token to generate for an endpoint.
* `ServiceTokenRequirement`: A service owner's verification requirements.
* `TokenPolicy`: A security admin's guardrails.
-/

namespace Kontxt

namespace V1alpha1

open Go

/-- `EndpointSpec` identifies an API endpoint. -/
structure EndpointSpec where
  path : String
  method : String
  deriving Repr, DecidableEq

/-- `TctxFieldMapping` says how one field is extracted from the request. -/
structure TctxFieldMapping where
  source : String
  field : String
  required : Bool
  deriving Repr, DecidableEq

/-- `TctxEnrichment` names a field computed by an enricher. -/
structure TctxEnrichment where
  field : String
  enricher : String
  deriving Repr, DecidableEq

/-- `metav1.ConditionStatus`, of which the controller sets two. -/
inductive ConditionStatus where
  | conditionTrue
  | conditionFalse
  deriving Repr, DecidableEq

/-- `metav1.Condition`, with its transition time in seconds. -/
structure Condition where
  type : String
  status : ConditionStatus
  reason : String
  message : String
  lastTransitionTime : Int
  deriving Repr, DecidableEq

/-- `TransactionTypeSpec`. -/
structure TransactionTypeSpec where
  endpoint : EndpointSpec
  purpose : String
  scope : String
  tctxMapping : GoMap String TctxFieldMapping
  tctxEnrichments : List TctxEnrichment
  rctxFields : List String
  tokenLifetime : String
  deriving DecidableEq

/-- `TransactionTypeStatus`. -/
structure TransactionTypeStatus where
  conditions : List Condition := []
  producedTctxFields : List String := []
  effectiveTokenLifetime : String := ""
  deriving Repr, DecidableEq

/-- `TransactionType`, namespace-scoped. -/
structure TransactionType where
  nameSpace : String
  name : String
  spec : TransactionTypeSpec
  status : TransactionTypeStatus := {}
  deriving DecidableEq

/-- `VerificationRule` is a CEL expression evaluated against a token. -/
structure VerificationRule where
  name : String
  cel : String
  message : String
  deriving Repr, DecidableEq

/-- `VerificationSpec` is what to verify in an incoming token. -/
structure VerificationSpec where
  requiredScope : String
  requiredTctxFields : List String
  rules : List VerificationRule
  deriving Repr, DecidableEq

/-- `ServiceTokenRequirementSpec`, with the referenced service's name in place
    of the one-field reference. -/
structure ServiceTokenRequirementSpec where
  serviceRefName : String
  verification : VerificationSpec
  excludedEndpoints : List EndpointSpec
  autoNarrow : Bool
  deriving Repr, DecidableEq

/-- `ServiceTokenRequirementStatus`. -/
structure ServiceTokenRequirementStatus where
  conditions : List Condition := []
  activeVerificationRules : Nat := 0
  excludedEndpointCount : Nat := 0
  deriving Repr, DecidableEq

/-- `ServiceTokenRequirement`, namespace-scoped. -/
structure ServiceTokenRequirement where
  nameSpace : String
  name : String
  spec : ServiceTokenRequirementSpec
  status : ServiceTokenRequirementStatus := {}
  deriving Repr, DecidableEq

/-- `NamespaceSelector` selects namespaces by name or by label. -/
structure NamespaceSelector where
  matchNames : List String
  matchLabels : List (String × String)
  deriving Repr, DecidableEq

/-- `IssuanceRule` is a CEL expression evaluated before a token is issued. -/
structure IssuanceRule where
  name : String
  cel : String
  message : String
  deriving Repr, DecidableEq

/-- `PolicyConstraints`: the ceilings the controller checks. -/
structure PolicyConstraints where
  maxTokenLifetime : String := ""
  mandatoryTctxFields : List String := []
  disallowedEnrichers : List String := []
  deriving Repr, DecidableEq

/-- `TokenPolicySpec`: the pointer to a selector is nil or a selector. -/
structure TokenPolicySpec where
  targetNamespaces : Option NamespaceSelector
  constraints : PolicyConstraints := {}
  issuanceRules : List IssuanceRule
  deriving Repr, DecidableEq

/-- `TokenPolicyStatus`. -/
structure TokenPolicyStatus where
  conditions : List Condition := []
  deriving Repr, DecidableEq

/-- `TokenPolicy`, cluster-scoped, so it has a name and no namespace. -/
structure TokenPolicy where
  name : String
  spec : TokenPolicySpec
  status : TokenPolicyStatus := {}
  deriving Repr, DecidableEq

end V1alpha1

end Kontxt
