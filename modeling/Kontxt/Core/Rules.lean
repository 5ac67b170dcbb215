import Kontxt.Core.Api
import Kontxt.Go.Map

/-!
# Rules and Their Wire Form

The three kinds of rule the controller distributes, the protobuf messages that
carry them, and the converters on either end: `*ToProto` in the rule server and
`protoTo*` in the rule clients.

A protobuf message field is a pointer, so an absent endpoint is `none` and a
getter on it returns zero values. The converters skip empty slices and maps,
which protobuf cannot tell from absent ones; with slices as lists both sides
of that test build the same value, and the tests are kept where the source
has them.

## Main definitions

* `GenerationRule`, `VerificationRule`, `IssuanceRule`: Rules as the controller
  and the adapters hold them.
* `Proto.GenerationRule`, `Proto.VerificationRule`, `Proto.IssuanceRule`: Rules
  on the wire.
* `generationRuleToProto`, `protoToGenerationRule`: Converters for generation
  rules.
* `verificationRuleToProto`, `protoToVerificationRule`: Converters for
  verification rules.
* `issuanceRuleToProto`, `protoToIssuanceRule`: Converters for issuance rules.
-/

namespace Kontxt

open Go
open V1alpha1 (EndpointSpec TctxFieldMapping TctxEnrichment)

/-- A generation rule, from a TransactionType. -/
structure GenerationRule where
  nameSpace : String
  name : String
  endpoint : EndpointSpec
  purpose : String
  scope : String
  tctxMapping : GoMap String TctxFieldMapping
  tctxEnrichments : List TctxEnrichment
  rctxFields : List String
  tokenLifetime : String
  deriving DecidableEq

/-- A named CEL expression for verification. -/
structure CELRule where
  name : String
  cel : String
  message : String
  deriving Repr, DecidableEq

/-- A verification rule, from a ServiceTokenRequirement. -/
structure VerificationRule where
  nameSpace : String
  name : String
  serviceName : String
  requiredScope : String
  requiredTctxFields : List String
  celRules : List CELRule
  excludedEndpoints : List EndpointSpec
  autoNarrow : Bool
  deriving Repr, DecidableEq

/-- An issuance rule, from a TokenPolicy, with the namespaces it applies to
    already resolved. No namespaces means cluster-wide. -/
structure IssuanceRule where
  policyNamespace : String
  policyName : String
  ruleName : String
  cel : String
  message : String
  targetNamespaces : List String
  deriving Repr, DecidableEq

namespace Proto

structure EndpointSpec where
  path : String
  method : String
  deriving Repr, DecidableEq

structure TctxFieldMapping where
  source : String
  field : String
  required : Bool
  deriving Repr, DecidableEq

structure TctxEnrichment where
  field : String
  enricher : String
  deriving Repr, DecidableEq

structure GenerationRule where
  nameSpace : String
  name : String
  endpoint : Option EndpointSpec
  purpose : String
  scope : String
  tctxMapping : GoMap String TctxFieldMapping
  tctxEnrichments : List TctxEnrichment
  rctxFields : List String
  tokenLifetime : String
  deriving DecidableEq

structure CELRule where
  name : String
  cel : String
  message : String
  deriving Repr, DecidableEq

structure VerificationRule where
  nameSpace : String
  name : String
  serviceName : String
  requiredScope : String
  requiredTctxFields : List String
  celRules : List CELRule
  excludedEndpoints : List EndpointSpec
  autoNarrow : Bool
  deriving Repr, DecidableEq

structure IssuanceRule where
  policyNamespace : String
  policyName : String
  ruleName : String
  cel : String
  message : String
  targetNamespaces : List String
  deriving Repr, DecidableEq

/-- `RuleRef` identifies what a removal delta removes. -/
structure RuleRef where
  nameSpace : String
  name : String
  deriving Repr, DecidableEq

end Proto

/-- `endpointToProto`. -/
def endpointToProto (e : EndpointSpec) : Proto.EndpointSpec :=
  { path := e.path, method := e.method }

/-- `generationRuleToProto`. An endpoint with neither path nor method is left
    out of the message. -/
def generationRuleToProto (r : GenerationRule) : Proto.GenerationRule where
  nameSpace := r.nameSpace
  name := r.name
  endpoint :=
    if r.endpoint.path ≠ "" ∨ r.endpoint.method ≠ "" then some (endpointToProto r.endpoint)
    else none
  purpose := r.purpose
  scope := r.scope
  tctxMapping :=
    if r.tctxMapping.entries.card > 0 then
      mapVal (fun v => { source := v.source, field := v.field, required := v.required })
        r.tctxMapping
    else ∅
  tctxEnrichments :=
    if r.tctxEnrichments.length > 0 then
      r.tctxEnrichments.map (fun e => { field := e.field, enricher := e.enricher })
    else []
  rctxFields := r.rctxFields
  tokenLifetime := r.tokenLifetime

/-- `protoToGenerationRule`. -/
def protoToGenerationRule (pr : Proto.GenerationRule) : GenerationRule where
  nameSpace := pr.nameSpace
  name := pr.name
  endpoint :=
    match pr.endpoint with
    | some ep => { path := ep.path, method := ep.method }
    | none => { path := "", method := "" }
  purpose := pr.purpose
  scope := pr.scope
  tctxMapping :=
    if pr.tctxMapping.entries.card > 0 then
      mapVal (fun v => { source := v.source, field := v.field, required := v.required })
        pr.tctxMapping
    else ∅
  tctxEnrichments :=
    if pr.tctxEnrichments.length > 0 then
      pr.tctxEnrichments.map (fun e => { field := e.field, enricher := e.enricher })
    else []
  rctxFields := pr.rctxFields
  tokenLifetime := pr.tokenLifetime

/-- `verificationRuleToProto`. -/
def verificationRuleToProto (r : VerificationRule) : Proto.VerificationRule where
  nameSpace := r.nameSpace
  name := r.name
  serviceName := r.serviceName
  requiredScope := r.requiredScope
  requiredTctxFields := r.requiredTctxFields
  celRules :=
    if r.celRules.length > 0 then
      r.celRules.map (fun c => { name := c.name, cel := c.cel, message := c.message })
    else []
  excludedEndpoints :=
    if r.excludedEndpoints.length > 0 then r.excludedEndpoints.map endpointToProto else []
  autoNarrow := r.autoNarrow

/-- `protoToVerificationRule`. -/
def protoToVerificationRule (pr : Proto.VerificationRule) : VerificationRule where
  nameSpace := pr.nameSpace
  name := pr.name
  serviceName := pr.serviceName
  requiredScope := pr.requiredScope
  requiredTctxFields := pr.requiredTctxFields
  celRules :=
    if pr.celRules.length > 0 then
      pr.celRules.map (fun c => { name := c.name, cel := c.cel, message := c.message })
    else []
  excludedEndpoints :=
    if pr.excludedEndpoints.length > 0 then
      pr.excludedEndpoints.map (fun e => { path := e.path, method := e.method })
    else []
  autoNarrow := pr.autoNarrow

/-- `issuanceRuleToProto`. -/
def issuanceRuleToProto (r : IssuanceRule) : Proto.IssuanceRule where
  policyNamespace := r.policyNamespace
  policyName := r.policyName
  ruleName := r.ruleName
  cel := r.cel
  message := r.message
  targetNamespaces := r.targetNamespaces

/-- `protoToIssuanceRule`. -/
def protoToIssuanceRule (pr : Proto.IssuanceRule) : IssuanceRule where
  policyNamespace := pr.policyNamespace
  policyName := pr.policyName
  ruleName := pr.ruleName
  cel := pr.cel
  message := pr.message
  targetNamespaces := pr.targetNamespaces

end Kontxt
