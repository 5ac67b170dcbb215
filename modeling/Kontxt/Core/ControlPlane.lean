import Kontxt.Core.Fleet
import Kontxt.Core.GenerationServer
import Kontxt.Core.Reconcile

/-!
# The Control Plane

One kind of rule on its whole way: the objects of a kind in the cluster, the
reconciler that makes rules of them, the rule server it publishes to, the streams,
and the servers at their ends that enforce what they are handed. The parts are those
of `Reconcile` and `Fleet`. They meet in two places. A pass of the reconciler ends
with a call on the rule server, always one that replaces all rules. And the
controller restarts as a whole: a fresh rule server, and a worker that has every
stored key to do.

A process enforces one kind of rule and reads one stream of it: `Run` connects again
only after the stream function has returned. So a client opens a stream when it is
done with the last one, which may have been dead for a while.

What enforces rules also serves requests, and is changed by that: caches of keys and
pods come and go, the rules stay. `Enforcer` holds what the three kinds differ in.

Whether the last broadcast found a channel full is not in the code. It is kept beside
the state, for results to speak of.

## Main definitions

* `Enforcer`: What rules are handed to.
* `Plane`: The surroundings, the reconciler and the streams.
* `FleetEvent.Reads`: What happens on the streams of clients with one stream.
* `Control.restarted`: The worker of a controller that was started again.
* `Plane.announced`: The rules of a pass are published.
* `Plane.Step`: What can happen next.
* `verificationEnforcer`, `issuanceEnforcer`, `generationEnforcer`: The enforcers.
-/

namespace Kontxt

open Go Lib

/-- A server that enforces rules: the states it starts in, its setter, and what it
    may be after serving a request. -/
structure Enforcer (α ξ : Type) where
  New : ξ → Prop
  set : ξ → List α → Except String ξ
  Serves : ξ → ξ → Prop

/-- The surroundings lookups depend on, the reconciler, the rule server with its
    streams, and the streams whose channel was full at the last broadcast. -/
structure Plane (κ ω χ α π ι ξ : Type) [DecidableEq κ] where
  env : χ
  control : Control κ ω α
  fleet : Fleet α π ι ξ
  refused : Nat → Bool

/-- What can happen: the surroundings change, the worker or a user takes a step, a
    handler or a client does, the controller restarts, or a request is served. -/
inductive PlaneEvent (κ ω χ ν α : Type) where
  | surroundings (env : χ)
  | work (e : ControlEvent κ ω ν)
  | stream (e : FleetEvent α)
  | restart
  | serve (client : Nat)

/-- What happens on the streams by themselves, where a client opens a stream only
    when it has no other. -/
def FleetEvent.Reads {α π ι ξ : Type} (s : Fleet α π ι ξ) : FleetEvent α → Prop
  | .restart => False
  | .call _ => False
  | .subscribe _ client => ∀ id l, s.links id = some l → l.client ≠ client
  | _ => True

/-- A broadcast finds no room in the channel of a stream. -/
def Link.full {α π ι : Type} : Option (Link α π ι) → Bool
  | none => false
  | some l => l.live && decide (channelCapacity ≤ l.chan.length)

/-- The worker of a controller that was started again. Nothing is published, and
    every stored key is queued, in the order they were listed. -/
def Control.restarted {κ ω ρ : Type} [DecidableEq κ] (s : Control κ ω ρ) (keys : List κ) :
    Control κ ω ρ where
  store := s.store
  version := s.version
  queue := WorkQueue.ofKeys keys
  phase := .idle
  published := []
  working := WorkQueue.processing_ofKeys keys

namespace Plane

variable {κ ω χ ν α π ι ξ : Type} [DecidableEq κ]

/-- A step on the streams. Nothing is kept for a stream that is new. -/
def streamed (s : Plane κ ω χ α π ι ξ) (e : FleetEvent α) (fleet : Fleet α π ι ξ) :
    Plane κ ω χ α π ι ξ :=
  { s with
    fleet := fleet
    refused :=
      match e with
      | .subscribe id _ => Function.update s.refused id false
      | _ => s.refused }

/-- What a client hands rules to is as it is after a request. -/
def served (s : Plane κ ω χ α π ι ξ) (client : Nat) (x : ξ) : Plane κ ω χ α π ι ξ :=
  { s with
    fleet := { s.fleet with
      clients := Function.update s.fleet.clients client
        { s.fleet.clients client with setter := x } } }

/-- The controller is started again. -/
def restarted (s : Plane κ ω χ α π ι ξ) (keys : List κ) : Plane κ ω χ α π ι ξ :=
  { s with control := s.control.restarted keys, fleet := s.fleet.restarted }

variable [DecidableEq ι]

/-- A pass is over, and its rules are handed to the rule server. -/
def announced (T : RuleStream α π ι) (s : Plane κ ω χ α π ι ξ) (control : Control κ ω α) :
    Plane κ ω χ α π ι ξ where
  env := s.env
  control := control
  fleet := s.fleet.publish T (.update control.published)
  refused := fun id => Link.full (s.fleet.links id)

/-- One step of the control plane. -/
inductive Step (R : Reconciler κ ω χ ν α) (T : RuleStream α π ι) (E : Enforcer α ξ) :
    Plane κ ω χ α π ι ξ → PlaneEvent κ ω χ ν α → Plane κ ω χ α π ι ξ → Prop
  | surroundings (s : Plane κ ω χ α π ι ξ) (env : χ) :
      Step R T E s (.surroundings env) { s with env := env }
  | work (s : Plane κ ω χ α π ι ξ) (e : ControlEvent κ ω ν) (control : Control κ ω α)
      (hpass : e ≠ .publish) (hstep : Control.Step R s.env s.control e control) :
      Step R T E s (.work e) { s with control := control }
  | publish (s : Plane κ ω χ α π ι ξ) (control : Control κ ω α)
      (hstep : Control.Step R s.env s.control .publish control) :
      Step R T E s (.work .publish) (s.announced T control)
  | stream (s : Plane κ ω χ α π ι ξ) (e : FleetEvent α) (fleet : Fleet α π ι ξ)
      (hreads : e.Reads s.fleet) (hstep : Fleet.Step T E.set s.fleet e fleet) :
      Step R T E s (.stream e) (s.streamed e fleet)
  | restart (s : Plane κ ω χ α π ι ξ) (keys : List κ) (hkeys : RangesKeys s.control.store keys) :
      Step R T E s .restart (s.restarted keys)
  | serve (s : Plane κ ω χ α π ι ξ) (client : Nat) (x : ξ)
      (hserves : E.Serves (s.fleet.clients client).setter x) :
      Step R T E s (.serve client) (s.served client x)

end Plane

/-- The adapter in verification mode. Its verifier fetches keys as it goes, so it may
    answer otherwise the next time. -/
def verificationEnforcer (u : Unicode) (S : SortSlice)
    (newEnv : Except String (Cel.Env Celverify.Context)) :
    Enforcer VerificationRule ExtAuth.Server where
  New := fun s => s.verificationRules = none
  set := verificationSetter u S newEnv
  Serves := fun s s' => s'.verificationRules = s.verificationRules

/-- The token service, whose client sorts the rules before it hands them over. -/
def issuanceEnforcer (u : Unicode) (S : SortSlice)
    (newEnv : Except String (Cel.Env Tts.Activation)) : Enforcer IssuanceRule HandlerSetter where
  New := fun x => ∃ h, x.handler = some h ∧ h.loadIssuanceRules = []
  set := fun x rules => x.setIssuanceRules u newEnv (S.sort issuanceLess rules)
  Serves := fun x x' => ∃ h env r, x.handler = some h ∧
    x' = { handler := some (h.serveHTTP env r).2 }

/-- The adapter in generation mode. Pods come and go meanwhile. -/
def generationEnforcer : Enforcer GenerationRule ExtAuth.GenerationServer where
  New := fun s => s.generationRules = []
  set := fun s rules => .ok (s.setGenerationRules rules)
  Serves := fun s s' => s'.generationRules = s.generationRules

end Kontxt
