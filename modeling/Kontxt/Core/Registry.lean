import Kontxt.Core.Broadcast
import Kontxt.Lib.System

/-!
# The Subscriber Registry

The rule server with the maps its stream handlers register in. A handler draws
an id from a counter that the three streams share, stores its channel under the
id, and deletes whatever is stored there when it returns. `Core.Broadcast` has
one session for each subscriber; here two handlers that drew the same id would
share one place in the map, the later one replacing the earlier.

A handler is a goroutine, so anything may happen between drawing the id and
taking the lock, and between leaving the loop and running the deferred function.
It sends the snapshot it built when it registered, then what it takes from its
channel. A failed send ends it, and the message may or may not have gone out.
Channels are never closed, so the branch of the loop for a closed channel is not
taken.

Some fields record what happened and are read by no step: the calls made on a
stream, how often the counter was counted up, and for a handler which number it
drew, how many calls had been made when it registered, what it sent, and whether
a broadcast found its channel full.

## Main definitions

* `Subscriber`: A stream handler with its channel.
* `Hub`: One stream with its map of subscribers.
* `SubIDCounter`: The counter ids are drawn from.
* `Hub.Step`: What can happen on a stream.
* `StreamServer`: The server with its three streams.
* `streamServers`: The server from its start on.
-/

namespace Kontxt

open Go Lib

/-- Where a stream handler is: it has drawn its id, it sends a message, it waits
    in the `select`, it has left the loop, or it has deleted its id and
    returned. -/
inductive StreamPoint (π : Type) where
  | drawn
  | sending (resp : Response π)
  | waiting
  | leaving
  | returned

/-- A stream handler with its channel. -/
structure Subscriber (π : Type) where
  id : String
  chan : List (Response π)
  point : StreamPoint π
  sent : List (Response π)
  serial : Nat
  start : Nat
  dropped : Bool

/-- `subIDCounter`, and how often it was counted up. -/
structure SubIDCounter where
  value : UInt64
  count : Nat

/-- `Add(1)`. -/
def SubIDCounter.add (c : SubIDCounter) : SubIDCounter where
  value := c.value + 1
  count := c.count + 1

/-- One stream of the server: its rules, its map of subscribers, which stores
    for an id the handler whose channel it is, the handlers, and the calls made
    so far. -/
structure Hub (α π : Type) where
  feed : Feed α
  subscribers : GoMap String Nat
  handlers : Nat → Option (Subscriber π)
  calls : List (Call α)

/-- What can happen on a stream. -/
inductive HubEvent (α : Type) where
  | draw (g : Nat)
  | register (g : Nat)
  | call (c : Call α)
  | take (g : Nat)
  | send (g : Nat)
  | fail (g : Nat) (out : Bool)
  | stop (g : Nat)
  | unregister (g : Nat)

namespace Subscriber

variable {π : Type}

/-- A handler that has drawn its id and made its channel. -/
def new (id : String) (serial : Nat) : Subscriber π where
  id := id
  chan := []
  point := .drawn
  sent := []
  serial := serial
  start := 0
  dropped := false

/-- The non-blocking send of a broadcast. -/
def offer (h : Subscriber π) (resp : Response π) : Subscriber π :=
  if h.chan.length < channelCapacity then { h with chan := h.chan ++ [resp] }
  else { h with dropped := true }

end Subscriber

namespace Hub

variable {α π κ : Type} [DecidableEq κ] (T : RuleStream α π κ)

/-- A stream without rules or subscribers. -/
def new : Hub α π where
  feed := { rules := [], version := 0 }
  subscribers := ∅
  handlers := fun _ => none
  calls := []

/-- Move one handler. -/
def setHandler (hub : Hub α π) (g : Nat) (h : Subscriber π) : Hub α π :=
  { hub with handlers := Function.update hub.handlers g (some h) }

/-- The channel of a handler is in the map. A handler stores its channel under
    its own id only. -/
def Registered (hub : Hub α π) (g : Nat) (h : Subscriber π) : Prop :=
  hub.subscribers.lookup h.id = some g

instance (hub : Hub α π) (g : Nat) (h : Subscriber π) : Decidable (hub.Registered g h) :=
  inferInstanceAs (Decidable (_ = _))

/-- Storing the channel and building the snapshot, one step under the lock. -/
def register (hub : Hub α π) (g : Nat) (h : Subscriber π) : Hub α π :=
  { hub.setHandler g { h with
      point := .sending (T.buildSnapshot hub.feed), start := hub.calls.length } with
    subscribers := hub.subscribers.insert h.id g }

/-- A call and its broadcast to the channels in the map, one step under the
    lock. -/
def publish (hub : Hub α π) (c : Call α) : Hub α π where
  feed := (T.call hub.feed c).1
  subscribers := hub.subscribers
  handlers := fun g => (hub.handlers g).map fun h =>
    if hub.Registered g h then h.offer (T.call hub.feed c).2 else h
  calls := hub.calls ++ [c]

/-- The deferred function: deleting the id, one step under the lock. -/
def unregister (hub : Hub α π) (g : Nat) (h : Subscriber π) : Hub α π :=
  { hub.setHandler g { h with point := .returned } with
    subscribers := hub.subscribers.erase h.id }

/-- One step on a stream whose ids begin with `tag`. -/
inductive Step (tag : String) :
    SubIDCounter → Hub α π → HubEvent α → SubIDCounter → Hub α π → Prop
  | draw (c : SubIDCounter) (hub : Hub α π) (g : Nat) (hfree : hub.handlers g = none) :
      Step tag c hub (.draw g) c.add
        (hub.setHandler g (.new (tag ++ toString c.add.value) c.add.count))
  | register (c : SubIDCounter) (hub : Hub α π) (g : Nat) (h : Subscriber π)
      (hg : hub.handlers g = some h) (hpoint : h.point = .drawn) :
      Step tag c hub (.register g) c (hub.register T g h)
  | call (c : SubIDCounter) (hub : Hub α π) (call : Call α) :
      Step tag c hub (.call call) c (hub.publish T call)
  | take (c : SubIDCounter) (hub : Hub α π) (g : Nat) (h : Subscriber π) (resp : Response π)
      (rest : List (Response π)) (hg : hub.handlers g = some h) (hpoint : h.point = .waiting)
      (hchan : h.chan = resp :: rest) :
      Step tag c hub (.take g) c
        (hub.setHandler g { h with point := .sending resp, chan := rest })
  | send (c : SubIDCounter) (hub : Hub α π) (g : Nat) (h : Subscriber π) (resp : Response π)
      (hg : hub.handlers g = some h) (hpoint : h.point = .sending resp) :
      Step tag c hub (.send g) c
        (hub.setHandler g { h with point := .waiting, sent := h.sent ++ [resp] })
  | fail (c : SubIDCounter) (hub : Hub α π) (g : Nat) (h : Subscriber π) (resp : Response π)
      (out : Bool) (hg : hub.handlers g = some h) (hpoint : h.point = .sending resp) :
      Step tag c hub (.fail g out) c
        (hub.setHandler g { h with
          point := .leaving, sent := if out then h.sent ++ [resp] else h.sent })
  | stop (c : SubIDCounter) (hub : Hub α π) (g : Nat) (h : Subscriber π)
      (hg : hub.handlers g = some h) (hpoint : h.point = .waiting) :
      Step tag c hub (.stop g) c (hub.setHandler g { h with point := .leaving })
  | unregister (c : SubIDCounter) (hub : Hub α π) (g : Nat) (h : Subscriber π)
      (hg : hub.handlers g = some h) (hpoint : h.point = .leaving) :
      Step tag c hub (.unregister g) c (hub.unregister g h)

end Hub

/-- `RuleServer`, with its subscribers. -/
structure StreamServer where
  subIDCounter : SubIDCounter
  generation : Hub GenerationRule Proto.GenerationRule
  verification : Hub VerificationRule Proto.VerificationRule
  issuance : Hub IssuanceRule Proto.IssuanceRule

/-- A step of one of the streams. -/
inductive StreamEvent where
  | generation (e : HubEvent GenerationRule)
  | verification (e : HubEvent VerificationRule)
  | issuance (e : HubEvent IssuanceRule)

namespace StreamServer

/-- `NewRuleServer`. -/
def new : StreamServer where
  subIDCounter := { value := 0, count := 0 }
  generation := Hub.new
  verification := Hub.new
  issuance := Hub.new

/-- One step of the server: `StreamGenerationRules`, `StreamVerificationRules`
    and `StreamIssuanceRules` with the calls on their rules. -/
inductive Step : StreamServer → StreamEvent → StreamServer → Prop
  | generation (s : StreamServer) (e : HubEvent GenerationRule) (c : SubIDCounter)
      (hub : Hub GenerationRule Proto.GenerationRule)
      (h : Hub.Step generationStream "gen-" s.subIDCounter s.generation e c hub) :
      Step s (.generation e) { s with subIDCounter := c, generation := hub }
  | verification (s : StreamServer) (e : HubEvent VerificationRule) (c : SubIDCounter)
      (hub : Hub VerificationRule Proto.VerificationRule)
      (h : Hub.Step verificationStream "ver-" s.subIDCounter s.verification e c hub) :
      Step s (.verification e) { s with subIDCounter := c, verification := hub }
  | issuance (s : StreamServer) (e : HubEvent IssuanceRule) (c : SubIDCounter)
      (hub : Hub IssuanceRule Proto.IssuanceRule)
      (h : Hub.Step issuanceStream "iss-" s.subIDCounter s.issuance e c hub) :
      Step s (.issuance e) { s with subIDCounter := c, issuance := hub }

end StreamServer

/-- The server with its subscribers, from its start on. -/
def streamServers : System StreamServer StreamEvent where
  init := fun s => s = StreamServer.new
  step := StreamServer.Step

end Kontxt
