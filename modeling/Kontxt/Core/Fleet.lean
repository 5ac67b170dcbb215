import Kontxt.Core.Broadcast
import Kontxt.Core.Generate
import Kontxt.Core.RuleClient

/-!
# Restarts and Reconnects

One rule stream over a long time: the controller may restart, each time with a
fresh rule server that serves streams at once, and clients connect, lose their
connection and connect again, any number of times. A client that reconnects
starts from an empty map but keeps what it installed, until the first message
of the new stream.

A stream that lost its server, or whose handler returned, still delivers what
was already in flight, so an old stream of a client may be read beside its new
one. Server instances are numbered. What the code does not record is kept
beside the state for results to speak of: the feeds each instance's calls
produced, and for every list a client hands to its setter the stream it came
from.

## Main definitions

* `Link`: One stream between a client and a server instance.
* `Handed`: A list of rules handed to a setter.
* `Consumer`: What a client keeps from one stream to the next.
* `Consumer.handle`: Handing a list to the setter.
* `Fleet`: The server instance, its history, the streams and the clients.
* `Fleet.Step`: What can happen next.
* `generationSetter`, `verificationSetter`, `issuanceSetter`: The setters.
-/

namespace Kontxt

open Go Lib

/-- One stream between a client and the server instance it was opened on.
    `live` says whether its handler is still running, `early` whether it was
    opened before any call on the instance, and `received` counts the messages
    the client has handled. -/
structure Link (α π κ : Type) extends Session α π κ where
  client : Nat
  inst : Nat
  live : Bool
  early : Bool
  received : Nat

/-- A list of rules handed to a setter, after message number `nth` of a stream
    of instance `inst`. -/
structure Handed (α : Type) where
  inst : Nat
  early : Bool
  nth : Nat
  rules : List α

/-- What a client keeps from one stream to the next: its setter, whether a list
    has been applied, which is what `Ready` reports, the lists handed over,
    latest first, and the one in force. -/
structure Consumer (α χ : Type) where
  setter : χ
  synced : Bool
  handed : List (Handed α)
  active : Option (Handed α)

/-- Handing a list to the setter. One that fails leaves everything in force as
    it was. -/
def Consumer.handle {α χ : Type} (set : χ → List α → Except String χ) (c : Consumer α χ)
    (h : Handed α) : Consumer α χ :=
  match set c.setter h.rules with
  | .error _ => { c with handed := h :: c.handed }
  | .ok setter => { setter := setter, synced := true, handed := h :: c.handed, active := some h }

/-- The running server instance with its feed, what the calls on each instance
    produced, the streams by number and the clients by number. -/
structure Fleet (α π κ χ : Type) where
  inst : Nat
  feed : Feed α
  produced : Nat → List (Feed α)
  links : Nat → Option (Link α π κ)
  clients : Nat → Consumer α χ

/-- What can happen. A received message comes with the order its client's map
    is collected in. -/
inductive FleetEvent (α : Type) where
  | restart
  | subscribe (id client : Nat)
  | call (c : Call α)
  | take (id : Nat)
  | send (id : Nat)
  | receive (id : Nat) (rules : List α)
  | drop (id : Nat)
  | close (id : Nat)

/-- A stream whose handler is gone: what it had not sent is lost. -/
def Link.orphaned {α π κ : Type} (l : Link α π κ) : Link α π κ :=
  { l with chan := [], held := none, live := false }

/-- A broadcast reaches the channels of running handlers. -/
def Link.offered {α π κ : Type} (l : Link α π κ) (resp : Response π) : Link α π κ :=
  if l.live = true then { l with toSession := l.toSession.offer resp } else l

namespace Fleet

variable {α π κ χ : Type} [DecidableEq κ] (T : RuleStream α π κ)
  (set : χ → List α → Except String χ)

/-- A fresh server, and clients that have applied nothing. -/
def new (setters : Nat → χ) : Fleet α π κ χ where
  inst := 0
  feed := { rules := [], version := 0 }
  produced := fun _ => []
  links := fun _ => none
  clients := fun id => { setter := setters id, synced := false, handed := [], active := none }

/-- Replace one stream. -/
def setLink (s : Fleet α π κ χ) (id : Nat) (l : Option (Link α π κ)) : Fleet α π κ χ :=
  { s with links := Function.update s.links id l }

/-- The controller restarts: `NewRuleServer`, and every handler is gone. -/
def restarted (s : Fleet α π κ χ) : Fleet α π κ χ :=
  { s with
    inst := s.inst + 1
    feed := { rules := [], version := 0 }
    links := fun id => (s.links id).map Link.orphaned }

/-- Registering a subscriber and building its snapshot under the lock. -/
def opened (s : Fleet α π κ χ) (client : Nat) : Link α π κ where
  chan := []
  held := some (T.buildSnapshot s.feed)
  wire := []
  rules := ∅
  client := client
  inst := s.inst
  live := true
  early := (s.produced s.inst).isEmpty
  received := 0

/-- A call and its broadcast under the lock. -/
def publish (s : Fleet α π κ χ) (c : Call α) : Fleet α π κ χ :=
  { s with
    feed := (T.call s.feed c).1
    produced := Function.update s.produced s.inst
      ((T.call s.feed c).1 :: s.produced s.inst)
    links := fun id => (s.links id).map (fun l => l.offered (T.call s.feed c).2) }

/-- A client handles a message: its map changes, and the list collected from it
    goes to the setter. -/
def received (s : Fleet α π κ χ) (id : Nat) (l : Link α π κ) (resp : Response π)
    (rest : List (Response π)) (rules : List α) : Fleet α π κ χ :=
  { s.setLink id (some { l with
      wire := rest, rules := T.receive l.rules resp, received := l.received + 1 }) with
    clients := Function.update s.clients l.client ((s.clients l.client).handle set
      { inst := l.inst, early := l.early, nth := l.received, rules := rules }) }

/-- One step of the controller, a handler or a client. -/
inductive Step : Fleet α π κ χ → FleetEvent α → Fleet α π κ χ → Prop
  | restart (s : Fleet α π κ χ) : Step s .restart s.restarted
  | subscribe (s : Fleet α π κ χ) (id client : Nat) (hfree : s.links id = none) :
      Step s (.subscribe id client) (s.setLink id (some (s.opened T client)))
  | call (s : Fleet α π κ χ) (c : Call α) : Step s (.call c) (s.publish T c)
  | take (s : Fleet α π κ χ) (id : Nat) (l : Link α π κ) (resp : Response π)
      (rest : List (Response π)) (hl : s.links id = some l) (hheld : l.held = none)
      (hchan : l.chan = resp :: rest) :
      Step s (.take id) (s.setLink id (some { l with chan := rest, held := some resp }))
  | send (s : Fleet α π κ χ) (id : Nat) (l : Link α π κ) (resp : Response π)
      (hl : s.links id = some l) (hheld : l.held = some resp) :
      Step s (.send id) (s.setLink id (some { l with held := none, wire := l.wire ++ [resp] }))
  | receive (s : Fleet α π κ χ) (id : Nat) (l : Link α π κ) (resp : Response π)
      (rest : List (Response π)) (rules : List α) (hl : s.links id = some l)
      (hwire : l.wire = resp :: rest) (hrules : Ranges (T.receive l.rules resp) rules) :
      Step s (.receive id rules) (s.received T set id l resp rest rules)
  | drop (s : Fleet α π κ χ) (id : Nat) (l : Link α π κ) (hl : s.links id = some l) :
      Step s (.drop id) (s.setLink id (some l.orphaned))
  | close (s : Fleet α π κ χ) (id : Nat) : Step s (.close id) (s.setLink id none)

end Fleet

/-- The generation adapter's setter assigns a field. -/
def generationSetter (s : Swap) (rules : List GenerationRule) : Except String Swap :=
  .ok (s.setGenerationRules rules)

/-- The verification adapter's setter sorts and compiles what compiles. -/
def verificationSetter (u : Unicode) (S : SortSlice)
    (newEnv : Except String (Cel.Env Celverify.Context)) (s : ExtAuth.Server)
    (rules : List VerificationRule) : Except String ExtAuth.Server :=
  .ok (s.setVerificationRules u S newEnv rules)

/-- The token service's setter compiles all rules or fails. -/
def issuanceSetter (u : Unicode) (newEnv : Except String (Cel.Env Tts.Activation))
    (s : HandlerSetter) (rules : List IssuanceRule) : Except String HandlerSetter :=
  s.setIssuanceRules u newEnv rules

end Kontxt
