import Kontxt.Core.RuleServer
import Mathlib.Logic.Function.Basic

/-!
# Subscribers

The rule server with its subscribers on one stream, and the clients at the
other end. Each connected client has a stream handler with a buffered channel.
A call that changes rules runs under the lock and offers its message to every
channel without waiting: a channel that is full misses it. The handler sends
the snapshot it built when it registered, then takes messages from its channel
one at a time and sends them. Sending may take any time, during which the
handler holds the message and takes no other. What was sent is in flight until
the client receives it.

## Main definitions

* `channelCapacity`: How many messages a channel buffers.
* `Session`: One client's handler, connection and map.
* `Net`: The feed and the sessions of a stream.
* `Net.publish`: A call and its broadcast.
* `Net.Step`: What can happen next.
-/

namespace Kontxt

open Go Lib

/-- The capacity each handler makes its channel with. -/
def channelCapacity : Nat := 64

/-- One client's stream: the handler's channel, the message the handler is
    about to send, the messages in flight, and the client's map. -/
structure Session (α π κ : Type) where
  chan : List (Response π)
  held : Option (Response π)
  wire : List (Response π)
  rules : GoMap κ α

/-- A feed and its sessions, by subscriber number. -/
structure Net (α π κ : Type) where
  feed : Feed α
  sessions : Nat → Option (Session α π κ)

/-- What can happen on a stream. -/
inductive NetEvent (α : Type) where
  | subscribe (id : Nat)
  | call (c : Call α)
  | take (id : Nat)
  | send (id : Nat)
  | receive (id : Nat)
  | close (id : Nat)

/-- The non-blocking send of a broadcast: a full channel misses the message. -/
def Session.offer {α π κ : Type} (σ : Session α π κ) (resp : Response π) : Session α π κ :=
  if σ.chan.length < channelCapacity then { σ with chan := σ.chan ++ [resp] } else σ

namespace Net

variable {α π κ : Type} [DecidableEq κ] (T : RuleStream α π κ)

/-- A server without rules or subscribers. -/
def new : Net α π κ where
  feed := { rules := [], version := 0 }
  sessions := fun _ => none

/-- Replace one session. -/
def setSession (n : Net α π κ) (id : Nat) (σ : Option (Session α π κ)) : Net α π κ :=
  { n with sessions := Function.update n.sessions id σ }

/-- A call and its broadcast, one step under the lock. -/
def publish (n : Net α π κ) (c : Call α) : Net α π κ where
  feed := (T.call n.feed c).1
  sessions := fun id => (n.sessions id).map (fun σ => σ.offer (T.call n.feed c).2)

/-- Registering a subscriber and building its snapshot, one step under the
    lock. The handler is about to send the snapshot. -/
def opened (n : Net α π κ) : Session α π κ where
  chan := []
  held := some (T.buildSnapshot n.feed)
  wire := []
  rules := ∅

/-- One step of the server, a handler or a client. -/
inductive Step : Net α π κ → NetEvent α → Net α π κ → Prop
  | subscribe (n : Net α π κ) (id : Nat) (hfree : n.sessions id = none) :
      Step n (.subscribe id) (n.setSession id (some (n.opened T)))
  | call (n : Net α π κ) (c : Call α) : Step n (.call c) (n.publish T c)
  | take (n : Net α π κ) (id : Nat) (σ : Session α π κ) (resp : Response π)
      (rest : List (Response π)) (hσ : n.sessions id = some σ) (hheld : σ.held = none)
      (hchan : σ.chan = resp :: rest) :
      Step n (.take id) (n.setSession id (some { σ with chan := rest, held := some resp }))
  | send (n : Net α π κ) (id : Nat) (σ : Session α π κ) (resp : Response π)
      (hσ : n.sessions id = some σ) (hheld : σ.held = some resp) :
      Step n (.send id) (n.setSession id (some { σ with held := none, wire := σ.wire ++ [resp] }))
  | receive (n : Net α π κ) (id : Nat) (σ : Session α π κ) (resp : Response π)
      (rest : List (Response π)) (hσ : n.sessions id = some σ) (hwire : σ.wire = resp :: rest) :
      Step n (.receive id)
        (n.setSession id (some { σ with wire := rest, rules := T.receive σ.rules resp }))
  | close (n : Net α π κ) (id : Nat) : Step n (.close id) (n.setSession id none)

end Net

end Kontxt
