import Kontxt.Core.GenerationServer
import Kontxt.Core.RuleServer
import Kontxt.Lib.System

/-!
# The Adapter's Client and Its Sessions

The adapter's rule client has two streams, one for each kind of rule, and a
goroutine for each. `connect` starts both over one connection and returns when
the first of them fails, which closes the connection; `Run` then connects again.
Nothing waits for the other goroutine. Closing the connection makes its next
receive fail, but if it has received a message already it goes on to hand its
rules to the setter, which it shares with the goroutines of later sessions.

A goroutine is a loop with two points where it can be overtaken: before it
receives, and after it has received a message and collected its map into a list,
before it hands the list over. What one stream does over all sessions is a
`Lane`, which also keeps which session each list came from.

## Main definitions

* `LoopPoint`: Where the goroutine of a stream is.
* `Lane`: One stream of the client, over all sessions.
* `Lane.Step`: What its goroutines do.
* `RuleClient`: The client with both streams.
* `ruleClients`: The client over any number of sessions.
-/

namespace Kontxt

open Go Lib

/-- Where the goroutine of a stream is: about to receive, with its map; holding
    the list it collected after a message; or returned with an error. -/
inductive LoopPoint (α κ : Type) where
  | receiving (rules : GoMap κ α)
  | holding (rules : GoMap κ α) (list : List α)
  | returned

/-- One stream of the client: its goroutines by session, the setter they share,
    and, newest first, every list that was handed to the setter with its
    session. -/
structure Lane (α κ χ : Type) where
  loops : Nat → Option (LoopPoint α κ)
  setter : χ
  synced : Bool
  applied : List (Nat × List α)

/-- What the goroutine of a session does next. -/
inductive LaneEvent (π : Type) where
  | receive (session : Nat) (resp : Response π)
  | apply (session : Nat)
  | fail (session : Nat)

namespace Lane

variable {α π κ χ : Type}

/-- A stream that has not been opened. -/
def new (setter : χ) : Lane α κ χ where
  loops := fun _ => none
  setter := setter
  synced := false
  applied := []

/-- Move one goroutine. -/
def setLoop (l : Lane α κ χ) (session : Nat) (p : LoopPoint α κ) : Lane α κ χ :=
  { l with loops := Function.update l.loops session (some p) }

/-- The goroutine of a new session, with an empty map. -/
def opened (l : Lane α κ χ) (session : Nat) : Lane α κ χ :=
  l.setLoop session (.receiving ∅)

/-- The setter is handed a list. -/
def handed (set : χ → List α → χ) (l : Lane α κ χ) (session : Nat) (rules : GoMap κ α)
    (list : List α) : Lane α κ χ :=
  { l.setLoop session (.receiving rules) with
    setter := set l.setter list
    synced := true
    applied := (session, list) :: l.applied }

/-- One step of a goroutine. Receiving needs an open connection. -/
inductive Step [DecidableEq κ] (T : RuleStream α π κ) (set : χ → List α → χ)
    (isOpen : Nat → Prop) : Lane α κ χ → LaneEvent π → Lane α κ χ → Prop
  | receive (l : Lane α κ χ) (i : Nat) (resp : Response π) (rules : GoMap κ α) (list : List α)
      (hopen : isOpen i) (hloop : l.loops i = some (.receiving rules))
      (hlist : Ranges (T.receive rules resp) list) :
      Step T set isOpen l (.receive i resp) (l.setLoop i (.holding (T.receive rules resp) list))
  | apply (l : Lane α κ χ) (i : Nat) (rules : GoMap κ α) (list : List α)
      (hloop : l.loops i = some (.holding rules list)) :
      Step T set isOpen l (.apply i) (l.handed set i rules list)
  | fail (l : Lane α κ χ) (i : Nat) (rules : GoMap κ α)
      (hloop : l.loops i = some (.receiving rules)) :
      Step T set isOpen l (.fail i) (l.setLoop i .returned)

end Lane

/-- `RuleClient`, with both setters configured: how many sessions there have
    been, whether `connect` is running in the last one, and the two streams. -/
structure RuleClient where
  sessions : Nat
  connected : Bool
  gen : Lane GenerationRule (String × String) ExtAuth.GenerationServer
  ver : Lane VerificationRule (String × String) ExtAuth.Server

/-- What happens to the client: a session begins, a goroutine of a stream takes a
    step, or `connect` returns. -/
inductive ClientEvent where
  | connect
  | gen (e : LaneEvent Proto.GenerationRule)
  | ver (e : LaneEvent Proto.VerificationRule)
  | disconnect

namespace RuleClient

/-- A session's connection is open: `connect` is running in it. -/
def isOpen (c : RuleClient) (i : Nat) : Prop :=
  c.connected = true ∧ i + 1 = c.sessions

/-- A goroutine of a session has failed. -/
def failed (c : RuleClient) (i : Nat) : Prop :=
  c.gen.loops i = some .returned ∨ c.ver.loops i = some .returned

variable (u : Unicode) (S : SortSlice) (newEnv : Except String (Cel.Env Celverify.Context))

/-- One step of the client. -/
inductive Step : RuleClient → ClientEvent → RuleClient → Prop
  | connect (c : RuleClient) (hdone : c.connected = false) :
      Step c .connect
        { sessions := c.sessions + 1
          connected := true
          gen := c.gen.opened c.sessions
          ver := c.ver.opened c.sessions }
  | gen (c : RuleClient) (e : LaneEvent Proto.GenerationRule)
      (l : Lane GenerationRule (String × String) ExtAuth.GenerationServer)
      (hstep : Lane.Step generationStream ExtAuth.GenerationServer.setGenerationRules c.isOpen
        c.gen e l) :
      Step c (.gen e) { c with gen := l }
  | ver (c : RuleClient) (e : LaneEvent Proto.VerificationRule)
      (l : Lane VerificationRule (String × String) ExtAuth.Server)
      (hstep : Lane.Step verificationStream (ExtAuth.Server.setVerificationRules u S newEnv)
        c.isOpen c.ver e l) :
      Step c (.ver e) { c with ver := l }
  | disconnect (c : RuleClient) (i : Nat) (hopen : c.isOpen i) (hfailed : c.failed i) :
      Step c .disconnect { c with connected := false }

end RuleClient

/-- The client from `NewRuleClient` on, with any two setters. -/
def ruleClients (u : Unicode) (S : SortSlice)
    (newEnv : Except String (Cel.Env Celverify.Context)) : System RuleClient ClientEvent where
  init := fun c => ∃ genSet verSet,
    c = { sessions := 0, connected := false, gen := Lane.new genSet, ver := Lane.new verSet }
  step := RuleClient.Step u S newEnv

end Kontxt
