import Kontxt.Core.ExtAuth
import Kontxt.Core.RuleServer
import Kontxt.Core.Tts
import Kontxt.Lib.System

/-!
# The Rule Clients

What the clients of the rule streams do with their maps. After every message a
client collects the map into a slice, in whatever order the map is iterated,
and hands the slice to its setter. The adapter's server sorts and compiles it;
the token service's client sorts it first, and its setter compiles all of it or
none: on an error the handler keeps the rules it had.

`Handles` relates a client before a message to every client that can be there
after it, one for each order of iteration.

The token service's client connects again whenever its stream ends. The map is
a local variable of `streamIssuance`, so each session starts from an empty one,
while the setter and the flag outlive the session. `TtsRun` follows the client
through its sessions and keeps beside it what the code does not: the map after
each message, with the list that was handed to the setter.

## Main definitions

* `issuanceLess`: The order issuance rules are sorted by.
* `qualifiedName`: The name a rule has in error messages.
* `HandlerSetter.setIssuanceRules`: Compiling and installing issuance rules.
* `TtsClient.Handles`: A message on the issuance stream.
* `ttsRuns`: The client over any number of sessions.
* `ExtAuthClient.Handles`: A message on the verification stream.
-/

namespace Kontxt

open Go Lib

/-- The comparison `streamIssuance` sorts by. -/
def issuanceLess (a b : IssuanceRule) : Bool :=
  if a.policyNamespace ≠ b.policyNamespace then decide (a.policyNamespace < b.policyNamespace)
  else if a.policyName ≠ b.policyName then decide (a.policyName < b.policyName)
  else decide (a.ruleName < b.ruleName)

/-- `qualifiedName`. -/
def qualifiedName (r : IssuanceRule) : String :=
  let name := if r.policyName ≠ "" then r.policyName ++ "/" ++ r.ruleName else r.ruleName
  if r.policyNamespace ≠ "" then r.policyNamespace ++ "/" ++ name else name

/-- The configuration compiled for a rule. -/
def issuanceConfig (r : IssuanceRule) : Tts.IssuanceRuleConfig where
  name := qualifiedName r
  cel := r.cel
  message := r.message
  targetNamespaces := r.targetNamespaces

/-- `HandlerSetter`. -/
structure HandlerSetter where
  handler : Option Tts.Handler

/-- `HandlerSetter.SetIssuanceRules`. -/
def HandlerSetter.setIssuanceRules (u : Unicode) (newEnv : Except String (Cel.Env Tts.Activation))
    (s : HandlerSetter) (rules : List IssuanceRule) : Except String HandlerSetter :=
  match s.handler with
  | none => .error "handler is nil"
  | some h =>
    match Tts.compileIssuanceRules u newEnv (rules.map issuanceConfig) with
    | .error e => .error ("compiling issuance rules: " ++ e)
    | .ok compiled => .ok { handler := some (h.setIssuanceRules compiled) }

/-- The token service's client: its map, its setter, and whether a rule set has
    been applied. -/
structure TtsClient where
  rules : GoMap (String × String × String) IssuanceRule
  setter : HandlerSetter
  synced : Bool

/-- What the client does with its map, collected into the slice `flat`. A
    compile error is logged and leaves the setter alone. -/
def TtsClient.install (u : Unicode) (S : SortSlice)
    (newEnv : Except String (Cel.Env Tts.Activation)) (c : TtsClient) (flat : List IssuanceRule) :
    TtsClient :=
  -- The map has already changed when the setter fails.
  match c.setter.setIssuanceRules u newEnv (S.sort issuanceLess flat) with
  | .error _ => c
  | .ok setter => { c with setter := setter, synced := true }

/-- The body of the loop of `streamIssuance`. -/
def TtsClient.Handles (u : Unicode) (S : SortSlice)
    (newEnv : Except String (Cel.Env Tts.Activation)) (c : TtsClient)
    (resp : Response Proto.IssuanceRule) (c' : TtsClient) : Prop :=
  ∃ flat, Ranges (issuanceStream.receive c.rules resp) flat ∧
    c' = { c with rules := issuanceStream.receive c.rules resp }.install u S newEnv flat

/-- `Ready`. -/
def TtsClient.ready (c : TtsClient) : Bool :=
  c.synced

/-- What happens to the token service's client: a session begins or ends, a
    message arrives in it, or the handler behind the setter serves a request. -/
inductive TtsEvent where
  | connect
  | disconnect
  | message (resp : Response Proto.IssuanceRule)
  | serve (env : Tts.Env) (r : Tts.Request)

/-- The client, whether a session is open, and for every message so far, newest
    first, the map after it and the list handed to the setter. -/
structure TtsRun where
  client : TtsClient
  connected : Bool
  log : List (GoMap (String × String × String) IssuanceRule × List IssuanceRule)

namespace TtsRun

variable (u : Unicode) (S : SortSlice) (newEnv : Except String (Cel.Env Tts.Activation))

/-- The run after a message, for the map collected into the slice `flat`. -/
def message (s : TtsRun) (resp : Response Proto.IssuanceRule) (flat : List IssuanceRule) :
    TtsRun :=
  let rules := issuanceStream.receive s.client.rules resp
  { s with
    client := { s.client with rules := rules }.install u S newEnv flat
    log := (rules, S.sort issuanceLess flat) :: s.log }

/-- One event. `connect` makes a new map; it does not touch the setter. -/
def Step (s : TtsRun) : TtsEvent → TtsRun → Prop
  | .connect, s' =>
    s.connected = false ∧
      s' = { s with client := { s.client with rules := ∅ }, connected := true }
  | .disconnect, s' => s.connected = true ∧ s' = { s with connected := false }
  | .message resp, s' =>
    s.connected = true ∧ ∃ flat, Ranges (issuanceStream.receive s.client.rules resp) flat ∧
      s' = s.message u S newEnv resp flat
  | .serve env r, s' =>
    ∃ h, s.client.setter.handler = some h ∧
      s' = { s with
        client := { s.client with setter := { handler := some (h.serveHTTP env r).2 } } }

end TtsRun

/-- The token service's client from `NewRuleClient` on, with the setter
    `NewHandlerSetter` makes for a handler that has no rules yet. -/
def ttsRuns (u : Unicode) (S : SortSlice) (newEnv : Except String (Cel.Env Tts.Activation)) :
    System TtsRun TtsEvent where
  init := fun s =>
    s.connected = false ∧ s.log = [] ∧ s.client.synced = false ∧ s.client.rules = ∅ ∧
      ∃ h, s.client.setter.handler = some h ∧ h.loadIssuanceRules = []
  step := TtsRun.Step u S newEnv

/-- The adapter's client of the verification stream. -/
structure ExtAuthClient where
  verRules : GoMap (String × String) VerificationRule
  verSet : ExtAuth.Server
  verSynced : Bool

/-- The body of the loop of `streamVerification`. -/
def ExtAuthClient.Handles (u : Unicode) (S : SortSlice)
    (newEnv : Except String (Cel.Env Celverify.Context)) (c : ExtAuthClient)
    (resp : Response Proto.VerificationRule) (c' : ExtAuthClient) : Prop :=
  ∃ rules, Ranges (verificationStream.receive c.verRules resp) rules ∧
    c' = { verRules := verificationStream.receive c.verRules resp
           verSet := c.verSet.setVerificationRules u S newEnv rules
           verSynced := true }

end Kontxt
