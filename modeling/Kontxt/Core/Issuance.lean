import Kontxt.Core.Cel
import Kontxt.Go.Json

/-!
# Issuance Rules

The policy engine of the token service: rules from TokenPolicies, compiled and
evaluated against the values a token is about to be issued with. A rule with
target namespaces only applies to requests whose workload namespace is among
them.

The evaluator means to replace nil contexts by empty maps. Its test compares an
interface holding a nil map with nil, which is never true, but CEL reads a nil
map as an empty one, so the activation holds an empty map either way.

## Main definitions

* `Tts.IssuanceRule`: A compiled issuance rule.
* `Tts.compileIssuanceRules`: Compiling issuance rules.
* `Tts.IssuanceContext`: What a rule is evaluated against.
* `Tts.ruleAppliesToNamespace`: Namespace targeting.
* `Tts.evaluateIssuanceRules`: Evaluating rules up to the first failure.
-/

namespace Kontxt

namespace Tts

open Go

/-- `IssuanceContext`. -/
structure IssuanceContext where
  subject : String
  scope : String
  tctx : Option Object
  rctx : Option Object
  workload : String
  workloadNS : String
  deriving Repr, DecidableEq

/-- The activation an issuance expression sees. -/
structure Activation where
  subject : String
  scope : String
  tctx : Object
  rctx : Object
  workload : String
  workloadNS : String
  deriving Repr, DecidableEq

/-- The activation of a context. -/
def IssuanceContext.activation (ictx : IssuanceContext) : Activation where
  subject := ictx.subject
  scope := ictx.scope
  tctx := ictx.tctx.getD []
  rctx := ictx.rctx.getD []
  workload := ictx.workload
  workloadNS := ictx.workloadNS

/-- `IssuanceRule`, compiled. No target namespaces means cluster-wide. -/
structure IssuanceRule where
  name : String
  program : Cel.Program Activation
  message : String
  targetNamespaces : List String

/-- `IssuanceRuleConfig`. -/
structure IssuanceRuleConfig where
  name : String
  cel : String
  message : String
  targetNamespaces : List String
  deriving Repr, DecidableEq

/-- The compiled form of a configured rule. -/
def IssuanceRuleConfig.build (cfg : IssuanceRuleConfig) (p : Cel.Program Activation) :
    IssuanceRule where
  name := cfg.name
  program := p
  message := cfg.message
  targetNamespaces := cfg.targetNamespaces

/-- `CompileIssuanceRules`. -/
def compileIssuanceRules (u : Unicode) (newEnv : Except String (Cel.Env Activation))
    (configs : List IssuanceRuleConfig) : Except String (List IssuanceRule) :=
  Cel.compileRules u "issuance" IssuanceRuleConfig.name IssuanceRuleConfig.cel
    IssuanceRuleConfig.build newEnv configs

/-- `ruleAppliesToNamespace`. -/
def ruleAppliesToNamespace (targets : List String) (workloadNS : String) : Bool :=
  if targets.length = 0 then true
  else if workloadNS = "" then false
  else targets.contains workloadNS

/-- One iteration of `EvaluateIssuanceRules`. -/
def evaluateIssuanceRule (u : Unicode) (ictx : IssuanceContext) (rule : IssuanceRule) :
    Except String Unit :=
  if ruleAppliesToNamespace rule.targetNamespaces ictx.workloadNS = false then .ok ()
  else
    match Cel.evalExpr u "issuance" rule.name rule.program ictx.activation with
    | .error e => .error e
    | .ok true => .ok ()
    | .ok false =>
      .error ("issuance denied by rule " ++ quote u rule.name ++ ": " ++ rule.message)

/-- `EvaluateIssuanceRules`. -/
def evaluateIssuanceRules (u : Unicode) (rules : List IssuanceRule) (ictx : IssuanceContext) :
    Except String Unit :=
  rules.forM (evaluateIssuanceRule u ictx)

end Tts

end Kontxt
