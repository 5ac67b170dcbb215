import Mathlib.Logic.Basic

/-!
# Replication by Snapshot and Deltas

A primary executes operations and emits one message for each. A replica that
joins late is handed a snapshot and then every message emitted afterwards. The
pattern is correct when applying a message to a replica that agrees with the
primary gives a replica that agrees with the primary after the operation.

`Replica` packages the two parties with exactly those obligations as fields,
so that an instance cannot be built without discharging them. What follows is
stated for a replica with a queue of messages still to apply, since in a
running system there always is one: `CaughtUp` says the replica would agree
with the primary once it has worked through the queue. Emitting appends to the
queue, receiving takes from its front, and neither disturbs `CaughtUp`; with
nothing queued it is plain agreement.

A replica that is behind still shows something the primary once was.
`Follows` says that of every message in the queue: applying it gives a replica
that agrees with some state, out of those allowed for a message with its
number. The allowed states are a parameter, so a user may ask for states that
were published, or treat the first message apart.

The primary carries an invariant of its own, because a delta may only be
faithful to states the operations actually produce.

## Main definitions

* `Replica`: A primary, a replica, and the agreement between them.
* `Replica.run`: Executing a list of operations.
* `Replica.log`: The messages a list of operations emits.
* `Replica.CaughtUp`: Agreement once the queue is applied.
* `Replica.Follows`: Agreement with past states while the queue is applied.

## Theorems

* `Replica.inv_run`: Good operations preserve the primary's invariant.
* `Replica.caughtUp_snap`: A queued snapshot catches any replica up.
* `Replica.caughtUp_exec`: Executing and queueing the message stays caught up.
* `Replica.caughtUp_log`: The same for a list of operations.
* `Replica.caughtUp_replay`: A snapshot and the log after it catch up.
* `Replica.follows_append`: A message at the back of the queue.
* `Replica.follows_of_append`: The front of a queue is followed.
* `Replica.follows_mono`: More past states to agree with.
-/

namespace Kontxt

namespace Lib

/-- A primary with states `σ` and operations `ω`, and replicas with states `ρ`
    kept in agreement by messages `μ`. -/
structure Replica (σ ω μ ρ : Type) where
  exec : σ → ω → σ
  emit : σ → ω → μ
  snap : σ → μ
  apply : ρ → μ → ρ
  Inv : σ → Prop
  Good : ω → Prop
  Agrees : σ → ρ → Prop
  inv_exec : ∀ s o, Good o → Inv s → Inv (exec s o)
  agrees_snap : ∀ s r, Inv s → Agrees s (apply r (snap s))
  agrees_exec : ∀ s o r, Good o → Inv s → Agrees s r → Agrees (exec s o) (apply r (emit s o))

namespace Replica

variable {σ ω μ ρ : Type} (R : Replica σ ω μ ρ)

/-- Execute a list of operations in order. -/
def run (s : σ) (ops : List ω) : σ :=
  ops.foldl R.exec s

/-- The messages a list of operations emits, in order. -/
def log : σ → List ω → List μ
  | _, [] => []
  | s, o :: ops => R.emit s o :: log (R.exec s o) ops

/-- The replica agrees with the primary once the queue is applied. -/
def CaughtUp (s : σ) (r : ρ) (queue : List μ) : Prop :=
  R.Agrees s (queue.foldl R.apply r)

/-- Working through the queue, the replica agrees after each message with a
    state `H` allows for the message's number, counted from `n`. -/
def Follows (H : Nat → σ → Prop) : Nat → ρ → List μ → Prop
  | _, _, [] => True
  | n, r, m :: queue =>
    (∃ s, H n s ∧ R.Agrees s (R.apply r m)) ∧ Follows H (n + 1) (R.apply r m) queue

theorem inv_run (ops : List ω) (hgood : ∀ o ∈ ops, R.Good o) (s : σ) (hs : R.Inv s) :
    R.Inv (R.run s ops) := by
  induction ops generalizing s with
  | nil => exact hs
  | cons o ops ih =>
      have ho : R.Good o := hgood o List.mem_cons_self
      exact ih (fun o' ho' => hgood o' (List.mem_cons_of_mem o ho')) (R.exec s o)
        (R.inv_exec s o ho hs)

theorem caughtUp_snap (s : σ) (hs : R.Inv s) (r : ρ) : R.CaughtUp s r [R.snap s] :=
  R.agrees_snap s r hs

/-- Executing an operation keeps a replica caught up when its message joins
    the back of the queue. -/
theorem caughtUp_exec (s : σ) (o : ω) (r : ρ) (queue : List μ) (ho : R.Good o) (hs : R.Inv s)
    (h : R.CaughtUp s r queue) : R.CaughtUp (R.exec s o) r (queue ++ [R.emit s o]) := by
  unfold CaughtUp at h ⊢
  rw [List.foldl_append]
  exact R.agrees_exec s o _ ho hs h

/-- Executing operations keeps a replica caught up when what they emit joins
    the back of the queue. -/
theorem caughtUp_log (ops : List ω) (hgood : ∀ o ∈ ops, R.Good o) (s : σ) (hs : R.Inv s) (r : ρ)
    (queue : List μ) (h : R.CaughtUp s r queue) :
    R.CaughtUp (R.run s ops) r (queue ++ R.log s ops) := by
  -- The queue grows at the back while the operations are taken from the front.
  induction ops generalizing s queue with
  | nil =>
      rw [log, List.append_nil]
      exact h
  | cons o ops ih =>
      have ho : R.Good o := hgood o List.mem_cons_self
      have hnext := ih (fun o' ho' => hgood o' (List.mem_cons_of_mem o ho')) (R.exec s o)
        (R.inv_exec s o ho hs) (queue ++ [R.emit s o]) (R.caughtUp_exec s o r queue ho hs h)
      rw [log, List.append_cons]
      exact hnext

/-- A snapshot followed by everything emitted after it catches a replica up,
    whatever it held before. -/
theorem caughtUp_replay (ops : List ω) (hgood : ∀ o ∈ ops, R.Good o) (s : σ) (hs : R.Inv s)
    (r : ρ) : R.CaughtUp (R.run s ops) r (R.snap s :: R.log s ops) :=
  R.caughtUp_log ops hgood s hs r [R.snap s] (R.caughtUp_snap s hs r)

/-- A message joins the back of a queue that is followed. -/
theorem follows_append (H : Nat → σ → Prop) (m : μ) (queue : List μ) (n : Nat) (r : ρ)
    (h : R.Follows H n r queue)
    (hm : ∃ s, H (n + queue.length) s ∧ R.Agrees s (R.apply (queue.foldl R.apply r) m)) :
    R.Follows H n r (queue ++ [m]) := by
  -- The message's number is counted up while the queue is taken apart.
  induction queue generalizing n r with
  | nil => exact ⟨hm, trivial⟩
  | cons m' queue ih =>
      refine ⟨h.1, ih (n + 1) (R.apply r m') h.2 ?_⟩
      rw [List.length_cons, List.foldl_cons] at hm
      have hnum : n + 1 + queue.length = n + (queue.length + 1) := by omega
      rw [hnum]
      exact hm

/-- The front of a queue that is followed is followed. -/
theorem follows_of_append (H : Nat → σ → Prop) (front back : List μ) (n : Nat) (r : ρ)
    (h : R.Follows H n r (front ++ back)) : R.Follows H n r front := by
  induction front generalizing n r with
  | nil => trivial
  | cons m front ih => exact ⟨h.1, ih (n + 1) (R.apply r m) h.2⟩

/-- Allowing more states keeps a queue followed. -/
theorem follows_mono (H H' : Nat → σ → Prop) (hle : ∀ n s, H n s → H' n s) (queue : List μ)
    (n : Nat) (r : ρ) (h : R.Follows H n r queue) : R.Follows H' n r queue := by
  induction queue generalizing n r with
  | nil => trivial
  | cons m queue ih =>
      rcases h with ⟨⟨s, hs, hagree⟩, hrest⟩
      exact ⟨⟨s, hle n s hs, hagree⟩, ih (n + 1) (R.apply r m) hrest⟩

end Replica

end Lib

end Kontxt
