import Kontxt.Core.Rules
import Kontxt.Lib.Keyed

/-!
# Rule Distribution

The controller's rule server and the clients' side of its streams. There are
three streams, for generation, verification and issuance rules, and the code
for each is the same up to the rule type, the key and what a removal removes.
A `RuleStream` holds those differences; the operations are written once over
it, and each of the server's nine methods is one of them at its own stream.

A call that changes rules takes the lock, edits the list, counts the version
up and sends one message to every subscriber. A client starts from an empty
map; a snapshot replaces the map, a delta stores what it upserts and then
deletes what it removes.

## Main definitions

* `Response`: A message on a rule stream.
* `RuleStream`: What the three streams differ in.
* `generationStream`, `verificationStream`, `issuanceStream`: The streams.
* `Feed`: The server's state for one stream.
* `RuleStream.call`: An Update, Upsert or Remove call.
* `RuleStream.messages`: What a sequence of calls broadcasts.
* `RuleStream.buildSnapshot`: The first message to a subscriber.
* `RuleStream.receive`: A client's handling of one message.
* `RuleServer`: The rule server, with a feed for each stream.
-/

namespace Kontxt

open Go Lib

/-- The update a message carries. -/
inductive Update (π : Type) where
  | snapshot (rules : List π)
  | delta (upserted : List π) (removed : List Proto.RuleRef)

/-- `Stream*RulesResponse`: a message on a rule stream. -/
structure Response (π : Type) where
  update : Option (Update π)
  versionInfo : String

/-- What the rule streams differ in: the key a rule is stored under, the
    converters, and what a removal does to the server's list and to a client's
    map. -/
structure RuleStream (α π κ : Type) where
  key : α → κ
  toProto : α → π
  protoTo : π → α
  remove : Proto.RuleRef → List α → List α
  delete : Proto.RuleRef → GoMap κ α → GoMap κ α

/-- Generation rules, keyed by namespace and name. A removal drops the first
    rule with the key. -/
def generationStream : RuleStream GenerationRule Proto.GenerationRule (String × String) where
  key := fun r => (r.nameSpace, r.name)
  toProto := generationRuleToProto
  protoTo := protoToGenerationRule
  remove := fun ref rules =>
    rules.eraseP (fun r => (r.nameSpace, r.name) = (ref.nameSpace, ref.name))
  delete := fun ref m => m.erase (ref.nameSpace, ref.name)

/-- Verification rules, keyed and removed like generation rules. -/
def verificationStream :
    RuleStream VerificationRule Proto.VerificationRule (String × String) where
  key := fun r => (r.nameSpace, r.name)
  toProto := verificationRuleToProto
  protoTo := protoToVerificationRule
  remove := fun ref rules =>
    rules.eraseP (fun r => (r.nameSpace, r.name) = (ref.nameSpace, ref.name))
  delete := fun ref m => m.erase (ref.nameSpace, ref.name)

/-- `keyFor`. -/
def keyFor (r : IssuanceRule) : String × String × String :=
  (r.policyNamespace, r.policyName, r.ruleName)

/-- Issuance rules, keyed by policy and rule name. A removal names a policy and
    drops all of its rules, on either side. -/
def issuanceStream :
    RuleStream IssuanceRule Proto.IssuanceRule (String × String × String) where
  key := keyFor
  toProto := issuanceRuleToProto
  protoTo := protoToIssuanceRule
  remove := fun ref rules =>
    rules.filter (fun r =>
      !(r.policyNamespace == ref.nameSpace && r.policyName == ref.name))
  delete := fun ref m =>
    deleteKeys (fun k => k.1 == ref.nameSpace && k.2.1 == ref.name) m

/-- The server's state for one stream. -/
structure Feed (α : Type) where
  rules : List α
  version : UInt64

/-- A call that changes rules. -/
inductive Call (α : Type) where
  | update (rules : List α)
  | upsert (rule : α)
  | remove (nameSpace name : String)

namespace RuleStream

variable {α π κ : Type} [DecidableEq κ] (T : RuleStream α π κ)

/-- `Update*Rules`: replace all rules and send a full snapshot. -/
def updateRules (f : Feed α) (rules : List α) : Feed α × Response π :=
  let version := f.version + 1
  ({ rules := rules, version := version },
    { update := some (.snapshot (rules.map T.toProto)), versionInfo := toString version })

/-- `Upsert*Rule`: replace the first rule with the key or append, and send the
    rule. -/
def upsertRule (f : Feed α) (rule : α) : Feed α × Response π :=
  let version := f.version + 1
  ({ rules := upsertFirst T.key rule f.rules, version := version },
    { update := some (.delta [T.toProto rule] []), versionInfo := toString version })

/-- `Remove*Rule`: remove what the reference names and send the reference,
    whether or not anything was removed. -/
def removeRule (f : Feed α) (nameSpace name : String) : Feed α × Response π :=
  let version := f.version + 1
  ({ rules := T.remove { nameSpace := nameSpace, name := name } f.rules, version := version },
    { update := some (.delta [] [{ nameSpace := nameSpace, name := name }])
      versionInfo := toString version })

/-- The effect of a call: the feed after it and the message it broadcasts. -/
def call (f : Feed α) : Call α → Feed α × Response π
  | .update rules => T.updateRules f rules
  | .upsert rule => T.upsertRule f rule
  | .remove nameSpace name => T.removeRule f nameSpace name

/-- The messages a sequence of calls broadcasts. -/
def messages (f : Feed α) : List (Call α) → List (Response π)
  | [] => []
  | c :: cs => (T.call f c).2 :: messages (T.call f c).1 cs

/-- `build*Snapshot`: the first message to a subscriber. -/
def buildSnapshot (f : Feed α) : Response π :=
  { update := some (.snapshot (f.rules.map T.toProto)), versionInfo := toString f.version }

/-- The body of a client's receive loop: its map after a message. -/
def receive (m : GoMap κ α) (resp : Response π) : GoMap κ α :=
  match resp.update with
  | none => m
  | some (.snapshot rules) => insertAll T.key ∅ (rules.map T.protoTo)
  | some (.delta upserted removed) =>
    removed.foldl (fun m ref => T.delete ref m) (insertAll T.key m (upserted.map T.protoTo))

end RuleStream

/-- `RuleServer`, less its subscribers. -/
structure RuleServer where
  generation : Feed GenerationRule
  verification : Feed VerificationRule
  issuance : Feed IssuanceRule

namespace RuleServer

/-- `NewRuleServer`. -/
def new : RuleServer where
  generation := { rules := [], version := 0 }
  verification := { rules := [], version := 0 }
  issuance := { rules := [], version := 0 }

/-- `UpdateGenerationRules`. -/
def updateGenerationRules (s : RuleServer) (rules : List GenerationRule) : RuleServer :=
  { s with generation := (generationStream.updateRules s.generation rules).1 }

/-- `UpsertGenerationRule`. -/
def upsertGenerationRule (s : RuleServer) (rule : GenerationRule) : RuleServer :=
  { s with generation := (generationStream.upsertRule s.generation rule).1 }

/-- `RemoveGenerationRule`. -/
def removeGenerationRule (s : RuleServer) (nameSpace name : String) : RuleServer :=
  { s with generation := (generationStream.removeRule s.generation nameSpace name).1 }

/-- `UpdateVerificationRules`. -/
def updateVerificationRules (s : RuleServer) (rules : List VerificationRule) : RuleServer :=
  { s with verification := (verificationStream.updateRules s.verification rules).1 }

/-- `UpsertVerificationRule`. -/
def upsertVerificationRule (s : RuleServer) (rule : VerificationRule) : RuleServer :=
  { s with verification := (verificationStream.upsertRule s.verification rule).1 }

/-- `RemoveVerificationRule`. -/
def removeVerificationRule (s : RuleServer) (nameSpace name : String) : RuleServer :=
  { s with verification := (verificationStream.removeRule s.verification nameSpace name).1 }

/-- `UpdateIssuanceRules`. -/
def updateIssuanceRules (s : RuleServer) (rules : List IssuanceRule) : RuleServer :=
  { s with issuance := (issuanceStream.updateRules s.issuance rules).1 }

/-- `UpsertIssuanceRule`. -/
def upsertIssuanceRule (s : RuleServer) (rule : IssuanceRule) : RuleServer :=
  { s with issuance := (issuanceStream.upsertRule s.issuance rule).1 }

/-- `RemoveIssuanceRule`. -/
def removeIssuanceRule (s : RuleServer) (policyNamespace policyName : String) : RuleServer :=
  { s with issuance := (issuanceStream.removeRule s.issuance policyNamespace policyName).1 }

/-- A call of one of the nine methods. -/
inductive Method where
  | generation (c : Call GenerationRule)
  | verification (c : Call VerificationRule)
  | issuance (c : Call IssuanceRule)

/-- The server after a call. -/
def exec (s : RuleServer) : Method → RuleServer
  | .generation (.update rules) => s.updateGenerationRules rules
  | .generation (.upsert rule) => s.upsertGenerationRule rule
  | .generation (.remove nameSpace name) => s.removeGenerationRule nameSpace name
  | .verification (.update rules) => s.updateVerificationRules rules
  | .verification (.upsert rule) => s.upsertVerificationRule rule
  | .verification (.remove nameSpace name) => s.removeVerificationRule nameSpace name
  | .issuance (.update rules) => s.updateIssuanceRules rules
  | .issuance (.upsert rule) => s.upsertIssuanceRule rule
  | .issuance (.remove nameSpace name) => s.removeIssuanceRule nameSpace name

/-- The call a method makes on the generation stream, if that is its stream. -/
def Method.generation? : Method → Option (Call GenerationRule)
  | .generation c => some c
  | _ => none

/-- The call a method makes on the verification stream. -/
def Method.verification? : Method → Option (Call VerificationRule)
  | .verification c => some c
  | _ => none

/-- The call a method makes on the issuance stream. -/
def Method.issuance? : Method → Option (Call IssuanceRule)
  | .issuance c => some c
  | _ => none

end RuleServer

end Kontxt
