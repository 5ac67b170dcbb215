import Kontxt.Core.Broadcast
import Kontxt.Lib.System
import Kontxt.Theory.Distribution

/-!
# Losing Updates

Whether a connected client that has received everything sent to it holds the
server's rules. Everything on its way to a client is a queue, in three parts:
what is in flight, the message its handler holds, and what its channel buffers.
`Replica.CaughtUp` for that queue survives every step but one. Subscribing
queues a snapshot, a broadcast queues a message at the back, and taking,
sending and receiving only move messages toward the client. The exception is a
broadcast to a full channel, which changes the server and queues nothing.

So a client is never out of date as long as no broadcast finds its channel
full, whatever happens to other clients. Once one does, nothing repairs it: no
later message says that one is missing. `drained_of_burst` shows what a burst
of calls leads to while a handler is busy, and the dropped call is then missing
from the client for good.

## Main definitions

* `broadcast`: A stream with its subscribers as a transition system.
* `RoomFor`: A broadcast finds room in one subscriber's channel.
* `Session.Quiet`: Nothing is on its way to a client.
* `Session.queue`: Everything on its way to a client.

## Theorems

* `queued_step`: A step with room keeps a client caught up with its queue.
* `quiet_synchronized`: With room for every broadcast a quiet client is current.
* `no_lost_update`: The same for the three streams.
* `drained_of_burst`: A burst beyond the capacity is lost.
-/

namespace Kontxt

open Go Lib

section Broadcast

variable {α π κ : Type} [DecidableEq κ]

omit [DecidableEq κ] in
theorem sessions_setSession (n : Net α π κ) (id : Nat) (σ : Option (Session α π κ)) :
    (n.setSession id σ).sessions id = σ := by
  simp only [Net.setSession, Function.update_self]

/-- Nothing is on its way to the client. -/
structure Session.Quiet (σ : Session α π κ) : Prop where
  chan : σ.chan = []
  held : σ.held = none
  wire : σ.wire = []

/-- Everything on its way to the client, oldest first. -/
def Session.queue (σ : Session α π κ) : List (Response π) :=
  σ.wire ++ (σ.held.toList ++ σ.chan)

/-- Update arguments have distinct keys; other events are free. -/
def NetEvent.Good (T : RuleStream α π κ) : NetEvent α → Prop
  | .call c => c.Good T
  | _ => True

/-- A stream with its subscribers, from a fresh server on. -/
def broadcast (T : RuleStream α π κ) : System (Net α π κ) (NetEvent α) where
  init := fun n => n = Net.new
  step := fun n e n' => e.Good T ∧ Net.Step T n e n'

theorem broadcast_step (T : RuleStream α π κ) (n : Net α π κ) (e : NetEvent α) (n' : Net α π κ)
    (hr : (broadcast T).Reachable n) (hgood : e.Good T) (hstep : Net.Step T n e n') :
    (broadcast T).Reachable n' :=
  hr.next e n' ⟨hgood, hstep⟩

/-- A broadcast finds room in the channel of subscriber `id`. -/
def RoomFor (id : Nat) (n : Net α π κ) : NetEvent α → Prop
  | .call _ => ∀ σ, n.sessions id = some σ → σ.chan.length < channelCapacity
  | _ => True

variable {T : RuleStream α π κ} {hits : Proto.RuleRef → κ → Bool}

/-- The server's keys are distinct, and subscriber `id` is caught up with the
    server once it has handled its queue. -/
def Queued (hT : Lawful T hits) (id : Nat) (n : Net α π κ) : Prop :=
  DistinctKeys T.key n.feed.rules ∧
    ∀ σ, n.sessions id = some σ → (RuleStream.replica hT).CaughtUp n.feed σ.rules σ.queue

/-- Replacing a session matters to subscriber `id` only if it is its own. -/
theorem queued_setSession (hT : Lawful T hits) (id id' : Nat) (n : Net α π κ)
    (hn : Queued hT id n) (σ' : Option (Session α π κ))
    (hown : id' = id → ∀ σ, σ' = some σ →
      (RuleStream.replica hT).CaughtUp n.feed σ.rules σ.queue) :
    Queued hT id (n.setSession id' σ') := by
  refine ⟨hn.1, fun σ hσ => ?_⟩
  -- Other sessions are not touched, so only the replaced one has to be checked.
  rcases of_update_eq_some n.sessions id' id σ' σ hσ with ⟨hid, hnew⟩ | hold
  · exact hown hid.symm σ hnew
  · exact hn.2 σ hold

/-- A session whose messages only move along stays caught up. -/
theorem queued_moved (hT : Lawful T hits) (id id' : Nat) (n : Net α π κ) (hn : Queued hT id n)
    (σ σ' : Session α π κ) (hσ : n.sessions id' = some σ)
    (hmoved : σ'.queue.foldl T.receive σ'.rules = σ.queue.foldl T.receive σ.rules) :
    Queued hT id (n.setSession id' (some σ')) := by
  refine queued_setSession hT id id' n hn _ (fun hid τ hτ => ?_)
  have hold : (RuleStream.replica hT).Agrees n.feed (σ.queue.foldl T.receive σ.rules) :=
    hn.2 σ (hid ▸ hσ)
  rw [← Option.some.inj hτ]
  rw [← hmoved] at hold
  exact hold

/-- A step that finds room keeps a client caught up with its queue. -/
theorem queued_step (hT : Lawful T hits) (id : Nat) (n n' : Net α π κ) (e : NetEvent α)
    (hn : Queued hT id n) (hroom : RoomFor id n e) (hgood : e.Good T)
    (hstep : Net.Step T n e n') : Queued hT id n' := by
  cases hstep with
  | subscribe id' hfree =>
      -- The handler holds the snapshot taken under the same lock.
      refine queued_setSession hT id id' n hn _ (fun _ σ hσ => ?_)
      rw [← Option.some.inj hσ]
      exact (RuleStream.replica hT).caughtUp_snap n.feed hn.1 ∅
  | call c =>
      refine ⟨distinctKeys_call hT n.feed c hgood hn.1, fun σ' hσ' => ?_⟩
      rcases Option.map_eq_some_iff.mp hσ' with ⟨σ, hσ, rfl⟩
      have hroom' : σ.chan.length < channelCapacity := hroom σ hσ
      -- With room the message joins the back of the queue.
      have hqueue : (σ.offer (T.call n.feed c).2).queue = σ.queue ++ [(T.call n.feed c).2] := by
        unfold Session.offer Session.queue
        rw [if_pos hroom']
        simp only [List.append_assoc]
      have hrules : (σ.offer (T.call n.feed c).2).rules = σ.rules := by
        unfold Session.offer
        rw [if_pos hroom']
      rw [hqueue, hrules]
      exact (RuleStream.replica hT).caughtUp_exec n.feed c σ.rules σ.queue hgood hn.1 (hn.2 σ hσ)
  | take id' σ resp rest hσ hheld hchan =>
      refine queued_moved hT id id' n hn σ _ hσ ?_
      unfold Session.queue
      rw [hheld, hchan]
      rfl
  | send id' σ resp hσ hheld =>
      refine queued_moved hT id id' n hn σ _ hσ ?_
      unfold Session.queue
      rw [hheld]
      simp only [Option.toList_none, Option.toList_some, List.nil_append, List.append_assoc]
  | receive id' σ resp rest hσ hwire =>
      refine queued_moved hT id id' n hn σ _ hσ ?_
      unfold Session.queue
      rw [hwire]
      rfl
  | close id' =>
      -- A closed session has no client left to be out of date.
      refine queued_setSession hT id id' n hn none (fun _ σ hσ => ?_)
      cases hσ

/-- In every run in which each broadcast finds room in a subscriber's channel,
    the subscriber is caught up with its queue in every state. -/
theorem queued_reachable (hT : Lawful T hits) (id : Nat) (n : Net α π κ)
    (hr : ((broadcast T).restrict (RoomFor id)).Reachable n) : Queued hT id n := by
  refine System.invariant (Queued hT id) ?_ ?_ n hr
  · intro n hn
    have hnew : n = Net.new := hn
    rw [hnew]
    refine ⟨List.nodup_nil, fun σ hσ => ?_⟩
    cases hσ
  · intro n e n' hq hstep
    exact queued_step hT id n n' e hq hstep.1 hstep.2.1 hstep.2.2

/-- With room for every broadcast, a client to which nothing is on its way holds
    exactly the server's rules. -/
theorem quiet_synchronized (hT : Lawful T hits) (id : Nat) (n : Net α π κ)
    (hr : ((broadcast T).restrict (RoomFor id)).Reachable n) (σ : Session α π κ)
    (hσ : n.sessions id = some σ) (hquiet : σ.Quiet) :
    Synchronized T n.feed.rules σ.rules := by
  rcases queued_reachable hT id n hr with ⟨hd, hcaught⟩
  have hagree := hcaught σ hσ
  have hempty : σ.queue = [] := by
    unfold Session.queue
    rw [hquiet.wire, hquiet.held, hquiet.chan]
    rfl
  rw [hempty] at hagree
  exact synchronized_of_agrees T n.feed σ.rules hd hagree

end Broadcast

/-- On each of the three streams, in every run in which each broadcast finds room
    in a subscriber's channel, the subscriber holds exactly the server's rules
    in every state in which its channel is empty and nothing is in flight. -/
theorem no_lost_update (id : Nat) :
    (∀ n σ, ((broadcast generationStream).restrict (RoomFor id)).Reachable n →
      n.sessions id = some σ → σ.Quiet →
      Synchronized generationStream n.feed.rules σ.rules) ∧
    (∀ n σ, ((broadcast verificationStream).restrict (RoomFor id)).Reachable n →
      n.sessions id = some σ → σ.Quiet →
      Synchronized verificationStream n.feed.rules σ.rules) ∧
    (∀ n σ, ((broadcast issuanceStream).restrict (RoomFor id)).Reachable n →
      n.sessions id = some σ → σ.Quiet →
      Synchronized issuanceStream n.feed.rules σ.rules) :=
  ⟨fun n σ hr hσ hq => quiet_synchronized lawful_generation id n hr σ hσ hq,
    fun n σ hr hσ hq => quiet_synchronized lawful_verification id n hr σ hσ hq,
    fun n σ hr hσ hq => quiet_synchronized lawful_issuance id n hr σ hσ hq⟩

section Burst

variable {α π κ : Type} [DecidableEq κ] {T : RuleStream α π κ}

theorem length_messages (calls : List (Call α)) (f : Feed α) :
    (T.messages f calls).length = calls.length := by
  induction calls generalizing f with
  | nil => rfl
  | cons c cs ih => rw [RuleStream.messages, List.length_cons, List.length_cons, ih]

/-- The feed after a list of calls. -/
def callAll (T : RuleStream α π κ) (f : Feed α) (calls : List (Call α)) : Feed α :=
  calls.foldl (fun f c => (T.call f c).1) f

/-- While a handler takes nothing, calls fill its channel, as long as it has
    room. -/
theorem publish_all (calls : List (Call α)) (hgood : ∀ c ∈ calls, c.Good T) (n : Net α π κ)
    (hr : (broadcast T).Reachable n) (id : Nat) (σ : Session α π κ) (hσ : n.sessions id = some σ)
    (hroom : σ.chan.length + calls.length ≤ channelCapacity) :
    ∃ n', (broadcast T).Reachable n' ∧ n'.feed = callAll T n.feed calls ∧
      n'.sessions id = some { σ with chan := σ.chan ++ T.messages n.feed calls } := by
  induction calls generalizing n σ with
  | nil =>
      refine ⟨n, hr, rfl, ?_⟩
      rw [RuleStream.messages, List.append_nil]
      exact hσ
  | cons c cs ih =>
      rw [List.length_cons] at hroom
      -- The channel has room for this call, and one place less for the rest.
      have hlt : σ.chan.length < channelCapacity := by omega
      have hstep : (broadcast T).Reachable (n.publish T c) :=
        broadcast_step T n (.call c) _ hr (hgood c List.mem_cons_self) (Net.Step.call n c)
      have hnext : (n.publish T c).sessions id
          = some { σ with chan := σ.chan ++ [(T.call n.feed c).2] } := by
        unfold Net.publish Session.offer
        simp only [hσ, Option.map_some, hlt, if_true]
      have hroom' : (σ.chan ++ [(T.call n.feed c).2]).length + cs.length ≤ channelCapacity := by
        rw [List.length_append, List.length_singleton]
        omega
      rcases ih (fun c' hc' => hgood c' (List.mem_cons_of_mem c hc')) _ hstep _ hnext hroom' with
        ⟨n', hr', hfeed, hσ'⟩
      refine ⟨n', hr', hfeed, ?_⟩
      rw [hσ', RuleStream.messages]
      simp only [List.append_assoc, List.singleton_append]
      rfl

/-- A handler with nothing to send and nothing in flight can work off its
    channel. -/
theorem drain (T : RuleStream α π κ) (ms : List (Response π)) (n : Net α π κ)
    (hr : (broadcast T).Reachable n) (id : Nat) (m : GoMap κ α)
    (hσ : n.sessions id = some { chan := ms, held := none, wire := [], rules := m }) :
    ∃ n', (broadcast T).Reachable n' ∧ n'.feed = n.feed ∧
      n'.sessions id
        = some { chan := [], held := none, wire := [], rules := ms.foldl T.receive m } := by
  induction ms generalizing n m with
  | nil => exact ⟨n, hr, rfl, hσ⟩
  | cons resp rest ih =>
      -- One message from the channel to the handler, over the wire, into the map.
      have htake := broadcast_step T n (.take id) _ hr trivial
        (Net.Step.take n id _ resp rest hσ rfl rfl)
      have hsend := broadcast_step T _ (.send id) _ htake trivial
        (Net.Step.send _ id _ resp (sessions_setSession ..) rfl)
      have hreceive := broadcast_step T _ (.receive id) _ hsend trivial
        (Net.Step.receive _ id _ resp [] (sessions_setSession ..) rfl)
      exact ih _ hreceive (T.receive m resp) (sessions_setSession ..)

/-- What a burst of calls leads to. When as many calls as the channel holds,
    and one more, come while the handler of a quiet and current session takes
    nothing, the session can become quiet again with the server past the last
    call and the client where the server was before it. -/
theorem drained_of_burst {hits : Proto.RuleRef → κ → Bool} (hT : Lawful T hits) (n : Net α π κ)
    (hr : (broadcast T).Reachable n) (hd : DistinctKeys T.key n.feed.rules) (id : Nat)
    (m : GoMap κ α)
    (hσ : n.sessions id = some { chan := [], held := none, wire := [], rules := m })
    (hagree : Agrees T n.feed m) (calls : List (Call α))
    (hlen : calls.length = channelCapacity) (hgood : ∀ c ∈ calls, c.Good T) (c : Call α)
    (hc : c.Good T) :
    ∃ n' σ', (broadcast T).Reachable n' ∧ n'.feed = (T.call (callAll T n.feed calls) c).1 ∧
      n'.sessions id = some σ' ∧ σ'.Quiet ∧ Agrees T (callAll T n.feed calls) σ'.rules := by
  have hroom : ([] : List (Response π)).length + calls.length ≤ channelCapacity := by
    rw [List.length_nil, hlen]
    omega
  rcases publish_all calls hgood n hr id _ hσ hroom with ⟨n₁, hr₁, hfeed₁, hσ₁⟩
  have hfull : ¬(T.messages n.feed calls).length < channelCapacity := by
    rw [length_messages, hlen]
    omega
  -- The channel is full, so the last call changes the server and nothing else.
  have hσ₂ : (n₁.publish T c).sessions id
      = some { chan := T.messages n.feed calls, held := none, wire := [], rules := m } := by
    unfold Net.publish Session.offer
    simp only [hσ₁, Option.map_some, List.nil_append, hfull, if_false]
  have hr₂ : (broadcast T).Reachable (n₁.publish T c) :=
    broadcast_step T n₁ (.call c) _ hr₁ hc (Net.Step.call n₁ c)
  rcases drain T _ _ hr₂ id m hσ₂ with ⟨n₃, hr₃, hfeed₃, hσ₃⟩
  -- What was buffered is the log of the first calls, and it ends there.
  have hclient := (RuleStream.replica hT).caughtUp_log calls hgood n.feed hd m [] hagree
  rw [log_replica, List.nil_append] at hclient
  refine ⟨n₃, _, hr₃, ?_, hσ₃, ⟨rfl, rfl, rfl⟩, hclient⟩
  rw [hfeed₃, ← hfeed₁]
  rfl

theorem roomy_step (T : RuleStream α π κ) (id : Nat) (n : Net α π κ) (e : NetEvent α)
    (n' : Net α π κ) (hr : ((broadcast T).restrict (RoomFor id)).Reachable n)
    (hroom : RoomFor id n e) (hgood : e.Good T) (hstep : Net.Step T n e n') :
    ((broadcast T).restrict (RoomFor id)).Reachable n' :=
  hr.next_restrict e n' hroom ⟨hgood, hstep⟩

/-- A client can join a server without rules and receive its snapshot. -/
theorem exists_joined (T : RuleStream α π κ) :
    ∃ n : Net α π κ, ((broadcast T).restrict (RoomFor 0)).Reachable n ∧
      n.feed = { rules := [], version := 0 } ∧
      n.sessions 0 = some { chan := [], held := none, wire := [], rules := ∅ } := by
  have hnew : ((broadcast T).restrict (RoomFor 0)).Reachable Net.new :=
    System.Reachable.init Net.new rfl
  have hsubscribe := roomy_step T 0 Net.new (.subscribe 0) _ hnew trivial trivial
    (Net.Step.subscribe Net.new 0 rfl)
  have hsend := roomy_step T 0 _ (.send 0) _ hsubscribe trivial trivial
    (Net.Step.send _ 0 (Net.new.opened T) _ (sessions_setSession ..) rfl)
  have hreceive := roomy_step T 0 _ (.receive 0) _ hsend trivial trivial
    (Net.Step.receive _ 0 _ _ [] (sessions_setSession ..) rfl)
  exact ⟨_, hreceive, rfl, sessions_setSession ..⟩

end Burst

/-- A verification rule for a service. -/
def sampleRule : VerificationRule where
  nameSpace := "shop"
  name := "billing"
  serviceName := "billing"
  requiredScope := "pay"
  requiredTctxFields := []
  celRules := []
  excludedEndpoints := []
  autoNarrow := false

theorem callAll_remove (k : Nat) (f : Feed VerificationRule) (hf : f.rules = []) :
    (callAll verificationStream f (List.replicate k (.remove "shop" "gone"))).rules = [] := by
  induction k generalizing f with
  | zero => exact hf
  | succ k ih =>
      refine ih (verificationStream.call f (.remove "shop" "gone")).1 ?_
      simp only [RuleStream.call, RuleStream.removeRule, hf]
      rfl

/-- The rule that came when the channel was full is on the server, and the
    client, to which nothing is on its way, does not have it. -/
theorem update_lost :
    ¬∀ (id : Nat) (n : Net VerificationRule Proto.VerificationRule (String × String))
      (σ : Session VerificationRule Proto.VerificationRule (String × String)),
      (broadcast verificationStream).Reachable n → n.sessions id = some σ → σ.Quiet →
      Synchronized verificationStream n.feed.rules σ.rules := by
  intro h
  rcases exists_joined verificationStream with ⟨n, hr, hfeed, hσ⟩
  have hr := System.reachable_of_restrict (RoomFor 0) n hr
  have hgood : ∀ c ∈ List.replicate channelCapacity (Call.remove "shop" "gone"),
      c.Good verificationStream := by
    intro c hc
    rw [(List.mem_replicate.mp hc).2]
    trivial
  have hempty : Agrees verificationStream n.feed ∅ := by
    intro k
    rw [hfeed]
    rfl
  have hdistinct : DistinctKeys verificationStream.key n.feed.rules := by
    rw [hfeed]
    exact List.nodup_nil
  rcases drained_of_burst lawful_verification n hr hdistinct 0 ∅ hσ hempty _
    List.length_replicate hgood (.upsert sampleRule) trivial with
    ⟨n', σ', hr', hfeed', hσ', hquiet', hclient⟩
  have hbefore := callAll_remove channelCapacity n.feed (by rw [hfeed])
  have hserver : sampleRule ∈ n'.feed.rules := by
    rw [hfeed']
    simp only [RuleStream.call, RuleStream.upsertRule, hbefore]
    exact List.mem_singleton.mpr rfl
  -- The client holds what the server held before the last call, which is
  -- nothing.
  have hfound := (h 0 n' σ' hr' hσ' hquiet').values sampleRule hserver
  rw [hclient, hbefore] at hfound
  cases hfound

/-- With room in its channel the same client is given the rule. -/
theorem no_lost_update_sample :
    ∃ (n : Net VerificationRule Proto.VerificationRule (String × String))
      (σ : Session VerificationRule Proto.VerificationRule (String × String)),
      n.sessions 0 = some σ ∧ n.feed.rules = [sampleRule] ∧
        Synchronized verificationStream n.feed.rules σ.rules := by
  rcases exists_joined verificationStream with ⟨n, hr, hfeed, hσ⟩
  have hroom : RoomFor 0 n (.call (.upsert sampleRule)) := by
    intro σ hσ'
    rw [hσ] at hσ'
    rw [← Option.some.inj hσ']
    decide
  have hcall := roomy_step _ 0 n (.call (.upsert sampleRule)) _ hr hroom trivial
    (Net.Step.call n (.upsert sampleRule))
  have hoffer : (n.publish verificationStream (.upsert sampleRule)).sessions 0 = some
      { chan := [(verificationStream.call n.feed (.upsert sampleRule)).2], held := none
        wire := [], rules := ∅ } := by
    simp only [Net.publish, hσ]
    rfl
  have htake := roomy_step _ 0 _ (.take 0) _ hcall trivial trivial
    (Net.Step.take _ 0 _ _ [] hoffer rfl rfl)
  have hsend := roomy_step _ 0 _ (.send 0) _ htake trivial trivial
    (Net.Step.send _ 0 _ _ (sessions_setSession ..) rfl)
  have hreceive := roomy_step _ 0 _ (.receive 0) _ hsend trivial trivial
    (Net.Step.receive _ 0 _ _ [] (sessions_setSession ..) rfl)
  refine ⟨_, _, sessions_setSession .., ?_, (no_lost_update 0).2.1 _ _ hreceive
    (sessions_setSession ..) ⟨rfl, rfl, rfl⟩⟩
  have hserver : (verificationStream.call n.feed (.upsert sampleRule)).1.rules = [sampleRule] := by
    rw [hfeed]
    rfl
  exact hserver

end Kontxt
