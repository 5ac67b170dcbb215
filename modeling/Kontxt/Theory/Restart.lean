import Kontxt.Core.Fleet
import Kontxt.Theory.Broadcast
import Kontxt.Theory.Mediation

/-!
# Rules Nobody Published

Which rules a client can be found enforcing when the controller restarts and
connections come and go. Each list a client hands to its setter comes after
some message of some stream. Deltas and full updates come from calls, so after
them the list stands for a rule set a call produced. The first message of a
stream is a snapshot of whatever the server holds, and a server that has just
started holds nothing: a client that connects before the first call is given
an empty rule set that no call produced, and is ready with it.

That first message is the only exception. The invariant is `Replica.Follows`
for the queue of every stream: working through it, the client agrees after each
message with a feed some call on the stream's instance produced, or after the
first message of an early stream with the initial feed. Losing the server or
the handler cuts the queue off at the back, which leaves its front as it was.
As before, a broadcast to a full channel breaks the chain, so runs are those in
which every broadcast finds room.

For generation and verification rules, whose keys are distinct, a list stands
for a rule set when it is the rule set in some order. Issuance rules may share
a key, and a client keeps the last of them. The weaker correspondence for them
needs nothing of the calls: the client's rules are among the server's, and
cover all of its keys.

## Main definitions

* `fleet`: One stream with restarts and reconnects as a transition system.
* `Fleet.RoomFor`: A broadcast finds room in a client's channels.
* `Serves`: A replica is the one of a stream.
* `Allowed`: The feeds a list may stand for.
* `FleetInv`: What holds of the streams and the lists of one client.
* `Represents`: A map keeps one rule for each key of a list.
* `issuanceReplica`: Issuance rules with keys that need not be distinct.

## Theorems

* `handles_issuance`, `handles_verification`: The clients of the streams do what
  the system's clients do.
* `fleetInv_reachable`: Every list a client hands over stands for a feed.
* `perm_of_agrees`: A list collected from a map that agrees with a feed.
* `represents_receive_call`: Maps keep representing through calls.
* `enforced_published`: What clients hand over and enforce.
-/

namespace Kontxt

open Go Lib

section Clients

/-- The token service's client hands its sorted rules to the setter. -/
theorem handles_issuance (u : Unicode) (S : SortSlice)
    (newEnv : Except String (Cel.Env Tts.Activation)) (c c' : TtsClient)
    (resp : Response Proto.IssuanceRule) (hhandles : c.Handles u S newEnv resp c')
    (k : Consumer IssuanceRule HandlerSetter) (hsetter : k.setter = c.setter)
    (hsynced : k.synced = c.synced) (inst : Nat) (early : Bool) (nth : Nat) :
    ∃ rules, Ranges (issuanceStream.receive c.rules resp) rules ∧
      c'.rules = issuanceStream.receive c.rules resp ∧
      c'.setter = (k.handle (issuanceSetter u newEnv) ⟨inst, early, nth, rules⟩).setter ∧
      c'.synced = (k.handle (issuanceSetter u newEnv) ⟨inst, early, nth, rules⟩).synced := by
  rcases hhandles with ⟨flat, hranges, rfl⟩
  -- Sorting changes the order, which a collected list leaves open.
  have hsorted : Ranges (issuanceStream.receive c.rules resp) (S.sort issuanceLess flat) := by
    unfold Ranges at hranges ⊢
    rw [← hranges, Multiset.coe_eq_coe]
    exact S.perm issuanceLess flat
  refine ⟨_, hsorted, ?_⟩
  unfold TtsClient.install Consumer.handle issuanceSetter
  simp only [hsetter]
  cases c.setter.setIssuanceRules u newEnv (S.sort issuanceLess flat) with
  | error e => exact ⟨rfl, rfl, hsynced.symm⟩
  | ok setter => exact ⟨rfl, rfl, rfl⟩

/-- The adapter's client hands its rules to the setter as they come. -/
theorem handles_verification (u : Unicode) (S : SortSlice)
    (newEnv : Except String (Cel.Env Celverify.Context)) (c c' : ExtAuthClient)
    (resp : Response Proto.VerificationRule) (hhandles : c.Handles u S newEnv resp c')
    (k : Consumer VerificationRule ExtAuth.Server) (hsetter : k.setter = c.verSet)
    (inst : Nat) (early : Bool) (nth : Nat) :
    ∃ rules, Ranges (verificationStream.receive c.verRules resp) rules ∧
      c'.verRules = verificationStream.receive c.verRules resp ∧
      c'.verSet = (k.handle (verificationSetter u S newEnv) ⟨inst, early, nth, rules⟩).setter ∧
      c'.verSynced = (k.handle (verificationSetter u S newEnv) ⟨inst, early, nth, rules⟩).synced
      := by
  rcases hhandles with ⟨rules, hranges, rfl⟩
  refine ⟨rules, hranges, rfl, ?_, rfl⟩
  unfold Consumer.handle verificationSetter
  rw [hsetter]

end Clients

section Fleet

variable {α π κ χ : Type} [DecidableEq κ]

/-- One stream with restarts and reconnects, from any setters on. -/
def fleet (T : RuleStream α π κ) (set : χ → List α → Except String χ) :
    System (Fleet α π κ χ) (FleetEvent α) where
  init := fun s => ∃ setters, s = Fleet.new setters
  step := Fleet.Step T set

/-- A broadcast finds room in the channels of every running stream of the
    client. -/
def Fleet.RoomFor (client : Nat) (s : Fleet α π κ χ) : FleetEvent α → Prop
  | .call _ => ∀ id l, s.links id = some l → l.client = client → l.live = true →
      l.chan.length < channelCapacity
  | _ => True

/-- Update arguments have distinct keys; other events are free. -/
def FleetEvent.Good (T : RuleStream α π κ) : FleetEvent α → Prop
  | .call c => c.Good T
  | _ => True

/-- What a server holds before any call. -/
def Feed.fresh : Feed α where
  rules := []
  version := 0

/-- The replica `R` is one of the stream `T`, and a fresh server meets its
    invariant. -/
structure Serves (R : Replica (Feed α) (Call α) (Response π) (GoMap κ α))
    (T : RuleStream α π κ) : Prop where
  exec : ∀ f c, R.exec f c = (T.call f c).1
  emit : ∀ f c, R.emit f c = (T.call f c).2
  snap : ∀ f, R.snap f = T.buildSnapshot f
  apply : ∀ m resp, R.apply m resp = T.receive m resp
  inv_fresh : R.Inv Feed.fresh

/-- The feeds a list handed over after message number `n` of a stream may stand
    for: one that a call on the stream's instance produced, or the initial one
    after the first message of a stream opened before any call. -/
def Allowed (produced : Nat → List (Feed α)) (inst : Nat) (early : Bool) (n : Nat)
    (f : Feed α) : Prop :=
  f ∈ produced inst ∨ (n = 0 ∧ early = true ∧ f = Feed.fresh)

variable {T : RuleStream α π κ} (R : Replica (Feed α) (Call α) (Response π) (GoMap κ α))
  (set : χ → List α → Except String χ)

/-- A stream's queue leads from allowed feed to allowed feed, and to the present
    one if its handler is running. -/
structure LinkInv (s : Fleet α π κ χ) (l : Link α π κ) : Prop where
  follows : R.Follows (Allowed s.produced l.inst l.early) l.received l.rules l.queue
  caughtUp : l.live = true → l.inst = s.inst ∧ R.CaughtUp s.feed l.rules l.queue

/-- A list handed over was collected from a map that agrees with an allowed
    feed. -/
def StandsFor (s : Fleet α π κ χ) (e : Handed α) : Prop :=
  ∃ f m, Allowed s.produced e.inst e.early e.nth f ∧ R.Inv f ∧ R.Agrees f m ∧ Ranges m e.rules

/-- The list in force, if any, was handed over and accepted. -/
def InForce (k : Consumer α χ) : Prop :=
  k.synced = true → ∃ e, k.active = some e ∧ e ∈ k.handed ∧ ∃ x, set x e.rules = .ok k.setter

/-- The server's history is consistent, and the streams and lists of one client
    are as they should be. -/
structure FleetInv (client : Nat) (s : Fleet α π κ χ) : Prop where
  history : ∀ i, ∀ f ∈ s.produced i, R.Inv f
  current : s.feed ∈ s.produced s.inst ∨ (s.produced s.inst = [] ∧ s.feed = Feed.fresh)
  future : ∀ i, s.inst < i → s.produced i = []
  links : ∀ id l, s.links id = some l → l.client = client → LinkInv R s l
  handed : ∀ e ∈ (s.clients client).handed, StandsFor R s e
  inForce : InForce set (s.clients client)

variable {R}

theorem produced_publish (s : Fleet α π κ χ) (c : Call α) :
    (s.publish T c).produced
      = Function.update s.produced s.inst ((T.call s.feed c).1 :: s.produced s.inst) :=
  rfl

theorem clients_received (s : Fleet α π κ χ) (id : Nat) (l : Link α π κ) (resp : Response π)
    (rest : List (Response π)) (rules : List α) :
    (s.received T set id l resp rest rules).clients
      = Function.update s.clients l.client ((s.clients l.client).handle set
          { inst := l.inst, early := l.early, nth := l.received, rules := rules }) :=
  rfl

theorem allowed_cons (produced : Nat → List (Feed α)) (i : Nat) (g : Feed α) (inst : Nat)
    (early : Bool) (n : Nat) (f : Feed α) (h : Allowed produced inst early n f) :
    Allowed (Function.update produced i (g :: produced i)) inst early n f := by
  rcases h with hmem | hfirst
  · refine Or.inl ?_
    by_cases hi : inst = i
    · rw [hi, Function.update_self]
      rw [hi] at hmem
      exact List.mem_cons_of_mem g hmem
    · rw [Function.update_of_ne hi]
      exact hmem
  · exact Or.inr hfirst

theorem mem_handed_handle (k : Consumer α χ) (h e : Handed α) :
    e ∈ (k.handle set h).handed ↔ e = h ∨ e ∈ k.handed := by
  unfold Consumer.handle
  cases set k.setter h.rules with
  | error err => exact List.mem_cons
  | ok x => exact List.mem_cons

/-- Handing over a list leaves a list in force that was handed over. -/
theorem inForce_handle (k : Consumer α χ) (hk : InForce set k) (h : Handed α) :
    InForce set (k.handle set h) := by
  unfold Consumer.handle
  cases hset : set k.setter h.rules with
  | error err =>
      -- A setter that fails keeps the list in force.
      intro hsynced
      rcases hk hsynced with ⟨e, hactive, hmem, x, hx⟩
      exact ⟨e, hactive, List.mem_cons_of_mem h hmem, x, hx⟩
  | ok x =>
      intro _
      exact ⟨h, rfl, List.mem_cons_self, k.setter, hset⟩

/-- The present feed meets the invariant. -/
theorem FleetInv.feed (hR : Serves R T) {client : Nat} {s : Fleet α π κ χ}
    (h : FleetInv R set client s) : R.Inv s.feed := by
  rcases h.current with hmem | ⟨_, hfresh⟩
  · exact h.history s.inst s.feed hmem
  · rw [hfresh]
    exact hR.inv_fresh

omit [DecidableEq κ] in
/-- A stream that loses its handler keeps the front of its queue. -/
theorem linkInv_orphaned (s s' : Fleet α π κ χ) (l : Link α π κ)
    (hproduced : s'.produced = s.produced) (h : LinkInv R s l) : LinkInv R s' l.orphaned where
  follows := by
    have hqueue : l.orphaned.queue = l.wire := by
      unfold Link.orphaned Session.queue
      simp only [Option.toList_none, List.append_nil]
    have hfront := R.follows_of_append _ l.wire (l.held.toList ++ l.chan) l.received l.rules
      h.follows
    rw [hproduced, hqueue]
    exact hfront
  caughtUp := fun hlive => by cases hlive

omit [DecidableEq κ] in
/-- A step that replaces one stream and nothing else. -/
theorem fleetInv_setLink (client : Nat) (s : Fleet α π κ χ) (h : FleetInv R set client s)
    (id : Nat) (l' : Option (Link α π κ))
    (hown : ∀ l, l' = some l → l.client = client → LinkInv R s l) :
    FleetInv R set client (s.setLink id l') where
  history := h.history
  current := h.current
  future := h.future
  links := by
    intro j l hl hc
    have hl' : LinkInv R s l := by
      rcases of_update_eq_some s.links id j l' l hl with ⟨_, hnew⟩ | hold
      · exact hown l hnew hc
      · exact h.links j l hold hc
    exact ⟨hl'.follows, hl'.caughtUp⟩
  handed := h.handed
  inForce := h.inForce

omit [DecidableEq κ] in
theorem fleetInv_restart (client : Nat) (s : Fleet α π κ χ)
    (h : FleetInv R set client s) : FleetInv R set client s.restarted where
  history := h.history
  current := Or.inr ⟨h.future (s.inst + 1) (Nat.lt_succ_self _), rfl⟩
  future := fun i hi => h.future i (Nat.lt_of_succ_lt hi)
  links := by
    intro id l hl hc
    rcases Option.map_eq_some_iff.mp hl with ⟨l₀, hl₀, rfl⟩
    exact linkInv_orphaned s _ l₀ rfl (h.links id l₀ hl₀ hc)
  handed := h.handed
  inForce := h.inForce

/-- A new stream is about to be sent a snapshot of the present feed. -/
theorem linkInv_opened (hR : Serves R T) (client : Nat) (s : Fleet α π κ χ)
    (h : FleetInv R set client s) (c : Nat) : LinkInv R s (s.opened T c) := by
  have hqueue : (s.opened T c).queue = [R.snap s.feed] := by
    rw [hR.snap]
    rfl
  have hsnap := R.caughtUp_snap s.feed (h.feed set hR) ∅
  refine ⟨?_, fun _ => ⟨rfl, ?_⟩⟩
  · rw [hqueue]
    refine ⟨⟨s.feed, ?_, hsnap⟩, trivial⟩
    -- Either some call was made on the instance, or the stream is an early one.
    rcases h.current with hmem | ⟨hnone, hfresh⟩
    · exact Or.inl hmem
    · refine Or.inr ⟨rfl, ?_, hfresh⟩
      unfold Fleet.opened
      simp only [hnone, List.isEmpty_nil]
  · rw [hqueue]
    exact hsnap

/-- A call's message joins the queue of every running stream with room, and
    leads it to the feed the call produced. -/
theorem linkInv_offered (hR : Serves R T) (s : Fleet α π κ χ) (hinv : R.Inv s.feed)
    (c : Call α) (hgood : R.Good c) (l : Link α π κ) (h : LinkInv R s l)
    (hroom : l.live = true → l.chan.length < channelCapacity) :
    LinkInv R (s.publish T c) (l.offered (T.call s.feed c).2) := by
  -- What was allowed stays allowed, with one feed more in the history.
  have hmore := R.follows_mono _
    (Allowed (Function.update s.produced s.inst ((T.call s.feed c).1 :: s.produced s.inst))
      l.inst l.early)
    (fun n f hf => allowed_cons s.produced s.inst _ l.inst l.early n f hf) _ _ _ h.follows
  by_cases hlive : l.live = true
  · have hroom' := hroom hlive
    have hoffer : (l.offered (T.call s.feed c).2)
        = { l with chan := l.chan ++ [(T.call s.feed c).2] } := by
      unfold Link.offered Session.offer
      rw [if_pos hlive, if_pos hroom']
    have hqueue : ({ l with chan := l.chan ++ [(T.call s.feed c).2] } : Link α π κ).queue
        = l.queue ++ [R.emit s.feed c] := by
      unfold Session.queue
      rw [hR.emit]
      simp only [List.append_assoc]
    rcases h.caughtUp hlive with ⟨hinst, hcaught⟩
    have hnext := R.caughtUp_exec s.feed c l.rules l.queue hgood hinv hcaught
    rw [hR.exec] at hnext
    rw [hoffer]
    refine ⟨?_, fun _ => ⟨hinst, ?_⟩⟩
    · rw [hqueue]
      refine R.follows_append _ _ l.queue l.received l.rules hmore
        ⟨(T.call s.feed c).1, Or.inl ?_, ?_⟩
      · rw [hinst, produced_publish, Function.update_self]
        exact List.mem_cons_self
      · unfold Replica.CaughtUp at hnext
        rw [List.foldl_append] at hnext
        exact hnext
    · rw [hqueue]
      exact hnext
  · -- The handler is gone, and the message with it.
    have hoffer : l.offered (T.call s.feed c).2 = l := by
      unfold Link.offered
      rw [if_neg hlive]
    rw [hoffer]
    exact ⟨hmore, fun hc => absurd hc hlive⟩

theorem fleetInv_call (hR : Serves R T) (client : Nat) (s : Fleet α π κ χ)
    (h : FleetInv R set client s) (c : Call α) (hgood : R.Good c)
    (hroom : Fleet.RoomFor client s (.call c)) : FleetInv R set client (s.publish T c) where
  history := by
    intro i f hf
    have hfeed := R.inv_exec s.feed c hgood (h.feed set hR)
    rw [hR.exec] at hfeed
    by_cases hi : i = s.inst
    · rw [hi] at hf
      rw [produced_publish, Function.update_self] at hf
      rcases List.mem_cons.mp hf with rfl | hold
      · exact hfeed
      · exact h.history s.inst f hold
    · rw [produced_publish, Function.update_of_ne hi] at hf
      exact h.history i f hf
  current := by
    have hinst : (s.publish T c).inst = s.inst := rfl
    rw [hinst, produced_publish, Function.update_self]
    exact Or.inl List.mem_cons_self
  future := by
    intro i hi
    have hne : i ≠ s.inst := Nat.ne_of_gt hi
    rw [produced_publish, Function.update_of_ne hne]
    exact h.future i hi
  links := by
    intro id l hl hc
    rcases Option.map_eq_some_iff.mp hl with ⟨l₀, hl₀, rfl⟩
    have hc₀ : l₀.client = client := by
      rw [← hc]
      unfold Link.offered
      by_cases hlive : l₀.live = true
      · rw [if_pos hlive]
      · rw [if_neg hlive]
    exact linkInv_offered hR s (h.feed set hR) c hgood l₀ (h.links id l₀ hl₀ hc₀)
      (hroom id l₀ hl₀ hc₀)
  handed := by
    intro e he
    rcases h.handed e he with ⟨f, m, hf, hm⟩
    exact ⟨f, m, allowed_cons s.produced s.inst _ _ _ _ f hf, hm⟩
  inForce := h.inForce

/-- Handling the message at the front of the queue. -/
theorem linkInv_received (hR : Serves R T) (s : Fleet α π κ χ) (l : Link α π κ)
    (h : LinkInv R s l) (resp : Response π) (rest : List (Response π))
    (hwire : l.wire = resp :: rest) :
    (∃ f, Allowed s.produced l.inst l.early l.received f ∧ R.Agrees f (T.receive l.rules resp)) ∧
      LinkInv R s { l with
        wire := rest, rules := T.receive l.rules resp, received := l.received + 1 } := by
  have hqueue : l.queue = resp :: (rest ++ (l.held.toList ++ l.chan)) := by
    unfold Session.queue
    rw [hwire]
    rfl
  have hfollows := h.follows
  rw [hqueue] at hfollows
  rcases hfollows with ⟨⟨f, hf, hagree⟩, hrest⟩
  rw [hR.apply] at hagree hrest
  refine ⟨⟨f, hf, hagree⟩, hrest, fun hlive => ?_⟩
  rcases h.caughtUp hlive with ⟨hinst, hcaught⟩
  unfold Replica.CaughtUp at hcaught
  rw [hqueue, List.foldl_cons, hR.apply] at hcaught
  exact ⟨hinst, hcaught⟩

/-- Handing over a list that stands for an allowed feed. -/
theorem fleetInv_receive (hR : Serves R T) (client : Nat) (s : Fleet α π κ χ)
    (h : FleetInv R set client s) (id : Nat) (l : Link α π κ) (resp : Response π)
    (rest : List (Response π)) (rules : List α) (hl : s.links id = some l)
    (hwire : l.wire = resp :: rest) (hrules : Ranges (T.receive l.rules resp) rules) :
    FleetInv R set client (s.received T set id l resp rest rules) := by
  have hfront := fun hc : l.client = client =>
    linkInv_received hR s l (h.links id l hl hc) resp rest hwire
  have hlinks := fleetInv_setLink set client s h id
    (some { l with wire := rest, rules := T.receive l.rules resp, received := l.received + 1 })
    (fun l' hl' hc => by
      rw [← Option.some.inj hl'] at hc ⊢
      exact (hfront hc).2)
  refine ⟨hlinks.history, hlinks.current, hlinks.future, fun j l' hl' hc' =>
    ⟨(hlinks.links j l' hl' hc').follows, (hlinks.links j l' hl' hc').caughtUp⟩, ?_, ?_⟩
  · intro e he
    by_cases hc : l.client = client
    · rw [clients_received, hc, Function.update_self, mem_handed_handle] at he
      rcases he with rfl | hold
      · rcases (hfront hc).1 with ⟨f, hf, hagree⟩
        -- The feed it stands for is in the history or that of a fresh server.
        have hinv : R.Inv f := by
          rcases hf with hmem | ⟨_, _, hfresh⟩
          · exact h.history l.inst f hmem
          · rw [hfresh]
            exact hR.inv_fresh
        exact ⟨f, _, hf, hinv, hagree, hrules⟩
      · exact h.handed e hold
    · rw [clients_received, Function.update_of_ne (Ne.symm hc)] at he
      exact h.handed e he
  · by_cases hc : l.client = client
    · rw [clients_received, hc, Function.update_self]
      exact inForce_handle set _ h.inForce _
    · rw [clients_received, Function.update_of_ne (Ne.symm hc)]
      exact h.inForce

/-- A step that finds room preserves what holds of one client. -/
theorem fleetInv_step (hR : Serves R T) (client : Nat) (s s' : Fleet α π κ χ)
    (e : FleetEvent α) (h : FleetInv R set client s) (hroom : Fleet.RoomFor client s e)
    (hgood : ∀ c, e = .call c → R.Good c) (hstep : Fleet.Step T set s e s') :
    FleetInv R set client s' := by
  cases hstep with
  | restart => exact fleetInv_restart set client s h
  | subscribe id c hfree =>
      refine fleetInv_setLink set client s h id _ (fun l hl _ => ?_)
      rw [← Option.some.inj hl]
      exact linkInv_opened set hR client s h c
  | call c => exact fleetInv_call set hR client s h c (hgood c rfl) hroom
  | take id l resp rest hl hheld hchan =>
      refine fleetInv_setLink set client s h id _ (fun l' hl' hc => ?_)
      rw [← Option.some.inj hl'] at hc ⊢
      have hlink := h.links id l hl hc
      have hqueue : ({ l with chan := rest, held := some resp } : Link α π κ).queue = l.queue := by
        unfold Session.queue
        rw [hheld, hchan]
        rfl
      exact ⟨hqueue ▸ hlink.follows, hqueue ▸ hlink.caughtUp⟩
  | send id l resp hl hheld =>
      refine fleetInv_setLink set client s h id _ (fun l' hl' hc => ?_)
      rw [← Option.some.inj hl'] at hc ⊢
      have hlink := h.links id l hl hc
      have hqueue : ({ l with held := none, wire := l.wire ++ [resp] } : Link α π κ).queue
          = l.queue := by
        unfold Session.queue
        rw [hheld]
        simp only [Option.toList_none, List.nil_append, List.append_assoc, Option.toList_some]
      exact ⟨hqueue ▸ hlink.follows, hqueue ▸ hlink.caughtUp⟩
  | receive id l resp rest rules hl hwire hrules =>
      exact fleetInv_receive set hR client s h id l resp rest rules hl hwire hrules
  | drop id l hl =>
      refine fleetInv_setLink set client s h id _ (fun l' hl' hc => ?_)
      rw [← Option.some.inj hl'] at hc ⊢
      exact linkInv_orphaned s s l rfl (h.links id l hl hc)
  | close id =>
      refine fleetInv_setLink set client s h id none (fun l hl _ => ?_)
      cases hl

/-- In every run whose broadcasts find room in the client's channels, each list
    the client hands over stands for an allowed feed. -/
theorem fleetInv_reachable (hR : Serves R T) (client : Nat)
    (ok : Fleet α π κ χ → FleetEvent α → Prop)
    (hok : ∀ s e, ok s e → Fleet.RoomFor client s e ∧ ∀ c, e = .call c → R.Good c)
    (s : Fleet α π κ χ) (hr : ((fleet T set).restrict ok).Reachable s) :
    FleetInv R set client s := by
  refine System.invariant (FleetInv R set client) ?_ ?_ s hr
  · intro s hs
    rcases hs with ⟨setters, rfl⟩
    refine ⟨fun i f hf => absurd hf List.not_mem_nil, Or.inr ⟨rfl, rfl⟩, fun _ _ => rfl, ?_, ?_, ?_⟩
    · intro id l hl
      cases hl
    · intro e he
      exact absurd he List.not_mem_nil
    · intro hsynced
      cases hsynced
  · intro s e s' h hstep
    exact fleetInv_step set hR client s s' e h (hok s e hstep.1).1 (hok s e hstep.1).2 hstep.2

end Fleet

section Distinct

variable {α π κ : Type} [DecidableEq κ] {T : RuleStream α π κ} {hits : Proto.RuleRef → κ → Bool}

theorem serves_replica (hT : Lawful T hits) : Serves (RuleStream.replica hT) T where
  exec := fun _ _ => rfl
  emit := fun _ _ => rfl
  snap := fun _ => rfl
  apply := fun _ _ => rfl
  inv_fresh := List.nodup_nil

/-- Collecting a map that agrees with a feed gives the feed's rules, in some
    order. -/
theorem perm_of_agrees (f : Feed α) (hd : DistinctKeys T.key f.rules) (m : GoMap κ α)
    (h : Agrees T f m) (l : List α) (hl : Ranges m l) : l.Perm f.rules := by
  have hm : m = insertAll T.key ∅ f.rules := by
    refine Finmap.ext_lookup fun k => ?_
    rw [h k, lookup_insertAll_empty T.key f.rules hd k]
  rw [hm] at hl
  exact perm_of_ranges_insertAll T.key f.rules hd l hl

end Distinct

section Shared

variable {α π κ : Type} [DecidableEq κ]

/-- A map keeps one rule for each key of a list. -/
structure Represents (T : RuleStream α π κ) (rules : List α) (m : GoMap κ α) : Prop where
  found : ∀ k r, m.lookup k = some r → r ∈ rules ∧ T.key r = k
  keys : ∀ r ∈ rules, ∃ r', m.lookup (T.key r) = some r'

/-- A list picks one rule for each key of another. -/
structure Covers (T : RuleStream α π κ) (rules l : List α) : Prop where
  among : ∀ r ∈ l, r ∈ rules
  keys : ∀ r ∈ rules, ∃ r' ∈ l, T.key r' = T.key r
  distinct : DistinctKeys T.key l

theorem covers_of_represents (T : RuleStream α π κ) (rules : List α) (m : GoMap κ α)
    (h : Represents T rules m) (l : List α) (hl : Ranges m l) : Covers T rules l where
  among := by
    intro r hr
    rcases (mem_of_ranges hl r).mp hr with ⟨k, hk⟩
    exact (h.found k r hk).1
  keys := by
    intro r hr
    rcases h.keys r hr with ⟨r', hr'⟩
    exact ⟨r', (mem_of_ranges hl r').mpr ⟨_, hr'⟩, (h.found _ r' hr').2⟩
  distinct := by
    -- Each rule is stored under its own key, so the list's keys are the map's.
    have hkeys : ((l.map T.key : List κ) : Multiset κ) = m.entries.map Sigma.fst := by
      rw [← Multiset.map_coe, hl, Multiset.map_map]
      refine Multiset.map_congr rfl fun e he => ?_
      exact (h.found e.1 e.2 (Finmap.lookup_eq_some_iff.mpr he)).2
    unfold DistinctKeys
    rw [← Multiset.coe_nodup, hkeys]
    exact Multiset.nodup_keys.mpr m.nodupKeys

/-- Storing any list in an empty map represents it: of rules that share a key
    the last is kept. -/
theorem represents_insertAll (T : RuleStream α π κ) (rules : List α) :
    Represents T rules (insertAll T.key ∅ rules) := by
  have hlookup : ∀ k, (insertAll T.key ∅ rules).lookup k = view T.key rules.reverse k := by
    intro k
    rw [lookup_insertAll, Finmap.lookup_empty, Option.or_none]
  refine ⟨fun k r hk => ?_, fun r hr => ?_⟩
  · rw [hlookup] at hk
    rcases mem_of_view T.key _ k r hk with ⟨hmem, hkey⟩
    exact ⟨List.mem_reverse.mp hmem, hkey⟩
  · rw [hlookup]
    unfold view
    rw [← Option.isSome_iff_exists, List.find?_isSome]
    exact ⟨r, List.mem_reverse.mpr hr, decide_eq_true rfl⟩

/-- Storing a rule represents the list in which the first rule with its key is
    replaced. -/
theorem represents_insert (T : RuleStream α π κ) (rules : List α) (m : GoMap κ α)
    (h : Represents T rules m) (rule : α) :
    Represents T (upsertFirst T.key rule rules) (m.insert (T.key rule) rule) := by
  refine ⟨fun k r hk => ?_, fun r hr => ?_⟩
  · by_cases hkey : k = T.key rule
    · rw [hkey, Finmap.lookup_insert] at hk
      rw [← Option.some.inj hk]
      exact ⟨mem_upsertFirst_self T.key rule rules, hkey.symm⟩
    · rw [Finmap.lookup_insert_of_ne m hkey] at hk
      rcases h.found k r hk with ⟨hmem, hk'⟩
      -- Only a rule with the new rule's key is replaced.
      refine ⟨mem_upsertFirst_of_ne T.key rule rules r hmem ?_, hk'⟩
      rw [hk']
      exact hkey
  · by_cases hkey : T.key r = T.key rule
    · rw [hkey]
      exact ⟨rule, Finmap.lookup_insert m⟩
    · rw [Finmap.lookup_insert_of_ne m hkey]
      rcases eq_or_mem_of_mem_upsertFirst T.key rule rules r hr with rfl | hold
      · exact absurd rfl hkey
      · exact h.keys r hold

/-- Deleting the keys that are hit represents the list without the rules that
    are. -/
theorem represents_filter (T : RuleStream α π κ) (rules : List α) (m m' : GoMap κ α)
    (h : Represents T rules m) (hit : κ → Bool)
    (hdelete : ∀ k, m'.lookup k = if hit k = true then none else m.lookup k) :
    Represents T (rules.filter fun r => !hit (T.key r)) m' := by
  refine ⟨fun k r hk => ?_, fun r hr => ?_⟩
  · rw [hdelete] at hk
    by_cases hhit : hit k = true
    · rw [if_pos hhit] at hk
      cases hk
    · rw [if_neg hhit] at hk
      rcases h.found k r hk with ⟨hold, hkey⟩
      refine ⟨List.mem_filter.mpr ⟨hold, ?_⟩, hkey⟩
      rw [hkey, Bool.not_eq_true', ← Bool.not_eq_true]
      exact hhit
  · rcases List.mem_filter.mp hr with ⟨hold, hmiss⟩
    rw [Bool.not_eq_true'] at hmiss
    rw [hdelete, hmiss, if_neg Bool.false_ne_true]
    exact h.keys r hold

theorem represents_receive_snapshot (f : Feed IssuanceRule)
    (resp : Response Proto.IssuanceRule)
    (hresp : resp.update = some (.snapshot (f.rules.map issuanceStream.toProto)))
    (m : GoMap (String × String × String) IssuanceRule) :
    Represents issuanceStream f.rules (issuanceStream.receive m resp) := by
  rw [receive_snapshot lawful_issuance f.rules resp hresp]
  exact represents_insertAll issuanceStream f.rules

/-- A map that represents the issuance rules before a call represents them after
    the call and its message, also where rules share a key. -/
theorem represents_receive_call (f : Feed IssuanceRule) (c : Call IssuanceRule)
    (m : GoMap (String × String × String) IssuanceRule)
    (h : Represents issuanceStream f.rules m) :
    Represents issuanceStream (issuanceStream.call f c).1.rules
      (issuanceStream.receive m (issuanceStream.call f c).2) := by
  cases c with
  | update rules => exact represents_receive_snapshot { f with rules := rules } _ rfl m
  | upsert rule => exact represents_insert issuanceStream f.rules m h rule
  | remove nameSpace name =>
      exact represents_filter issuanceStream f.rules m _ h
        (hitsPolicy { nameSpace := nameSpace, name := name })
        (lawful_issuance.lookup_delete { nameSpace := nameSpace, name := name } m)

/-- Issuance rules as a primary with replicas that keep one rule for each
    key. -/
def issuanceReplica : Replica (Feed IssuanceRule) (Call IssuanceRule)
    (Response Proto.IssuanceRule) (GoMap (String × String × String) IssuanceRule) where
  exec := fun f c => (issuanceStream.call f c).1
  emit := fun f c => (issuanceStream.call f c).2
  snap := issuanceStream.buildSnapshot
  apply := issuanceStream.receive
  Inv := fun _ => True
  Good := fun _ => True
  Agrees := fun f m => Represents issuanceStream f.rules m
  inv_exec := fun _ _ _ _ => trivial
  agrees_snap := fun f m _ => represents_receive_snapshot f _ rfl m
  agrees_exec := fun f c m _ _ h => represents_receive_call f c m h

theorem serves_issuanceReplica : Serves issuanceReplica issuanceStream where
  exec := fun _ _ => rfl
  emit := fun _ _ => rfl
  snap := fun _ => rfl
  apply := fun _ _ => rfl
  inv_fresh := trivial

end Shared

section Results

variable {α π κ χ : Type} [DecidableEq κ]

/-- The list is the first of a stream opened before any call on its instance,
    and empty. -/
def Initial (e : Handed α) : Prop :=
  e.nth = 0 ∧ e.early = true ∧ e.rules = []

/-- A list handed over stands, by `stands`, for rules some call on the stream's
    instance produced, or is initial; and if the client is ready, such a list is
    in force. -/
def Published (set : χ → List α → Except String χ) (stands : List α → List α → Prop)
    (client : Nat) (s : Fleet α π κ χ) : Prop :=
  (∀ e ∈ (s.clients client).handed,
    (∃ f ∈ s.produced e.inst, stands f.rules e.rules) ∨ Initial e) ∧
  ((s.clients client).synced = true → ∃ e ∈ (s.clients client).handed,
    (s.clients client).active = some e ∧ ∃ x, set x e.rules = .ok (s.clients client).setter)

omit [DecidableEq κ] in
/-- From the invariant, for replicas whose agreement makes a collected list
    stand for the feed's rules. -/
theorem published_of_fleetInv {R : Replica (Feed α) (Call α) (Response π) (GoMap κ α)}
    (set : χ → List α → Except String χ) (stands : List α → List α → Prop)
    (hstands : ∀ f m l, R.Inv f → R.Agrees f m → Ranges m l → stands f.rules l)
    (hnil : ∀ l, stands [] l → l = []) (client : Nat) (s : Fleet α π κ χ)
    (h : FleetInv R set client s) : Published set stands client s := by
  refine ⟨fun e he => ?_, fun hsynced => ?_⟩
  · rcases h.handed e he with ⟨f, m, hallowed, hinv, hagree, hranges⟩
    have hrules := hstands f m e.rules hinv hagree hranges
    rcases hallowed with hmem | ⟨hfirst, hearly, hfresh⟩
    · exact Or.inl ⟨f, hmem, hrules⟩
    · rw [hfresh] at hrules
      exact Or.inr ⟨hfirst, hearly, hnil e.rules hrules⟩
  · rcases h.inForce hsynced with ⟨e, hactive, hmem, hset⟩
    exact ⟨e, hmem, hactive, hset⟩

/-- A stream with distinct keys. -/
theorem published_distinct {T : RuleStream α π κ} {hits : Proto.RuleRef → κ → Bool}
    (hT : Lawful T hits) (set : χ → List α → Except String χ) (client : Nat)
    (s : Fleet α π κ χ) (hr : ((fleet T set).restrict fun s e =>
      Fleet.RoomFor client s e ∧ e.Good T).Reachable s) :
    Published set (fun rules l => l.Perm rules) client s := by
  have hinv := fleetInv_reachable set (serves_replica hT) client _ (fun s e hok =>
    ⟨hok.1, fun c hc => by
      rw [hc] at hok
      exact hok.2⟩) s hr
  refine published_of_fleetInv set _ ?_ ?_ client s hinv
  · intro f m l hd hagree hl
    exact perm_of_agrees f hd m hagree l hl
  · intro l hl
    exact List.perm_nil.mp hl

end Results

/-- What clients hand over and enforce. With any number of restarts and
    reconnects, in every run in which each broadcast finds room in the channels
    of a client, every list the client hands to its setter stands for a rule set
    that some call on that server instance produced, unless it is the first list
    of a stream opened before any call on the instance, which is empty; and
    whenever the client is ready such a list is in force. Generation and
    verification lists are the rule set in some order, given Update arguments
    with distinct keys; issuance lists keep one of the rules that share a key. -/
theorem enforced_published (client : Nat) :
    (∀ s, ((fleet generationStream generationSetter).restrict fun s e =>
        Fleet.RoomFor client s e ∧ e.Good generationStream).Reachable s →
      Published generationSetter (fun rules l => l.Perm rules) client s) ∧
    (∀ u S newEnv s, ((fleet verificationStream (verificationSetter u S newEnv)).restrict
        fun s e => Fleet.RoomFor client s e ∧ e.Good verificationStream).Reachable s →
      Published (verificationSetter u S newEnv) (fun rules l => l.Perm rules) client s) ∧
    (∀ u newEnv s, ((fleet issuanceStream (issuanceSetter u newEnv)).restrict
        (Fleet.RoomFor client)).Reachable s →
      Published (issuanceSetter u newEnv) (Covers issuanceStream) client s) := by
  refine ⟨fun s hr => ?_, fun u S newEnv s hr => ?_, fun u newEnv s hr => ?_⟩
  · exact published_distinct lawful_generation generationSetter client s hr
  · exact published_distinct lawful_verification (verificationSetter u S newEnv) client s hr
  · have hinv := fleetInv_reachable (issuanceSetter u newEnv) serves_issuanceReplica client _
      (fun s e hok => ⟨hok, fun _ _ => trivial⟩) s hr
    refine published_of_fleetInv _ _ ?_ ?_ client s hinv
    · intro f m l _ hrep hl
      exact covers_of_represents issuanceStream f.rules m hrep l hl
    · intro l hl
      exact List.eq_nil_iff_forall_not_mem.mpr fun r hr =>
        absurd (hl.among r hr) List.not_mem_nil

section Join

variable {α π κ χ : Type} [DecidableEq κ] {T : RuleStream α π κ}
  {set : χ → List α → Except String χ} {ok : Fleet α π κ χ → FleetEvent α → Prop}

/-- A client can open a stream and handle its first message. -/
theorem exists_first (s : Fleet α π κ χ) (hr : ((fleet T set).restrict ok).Reachable s)
    (id client : Nat) (hfree : s.links id = none) (rules : List α)
    (hrules : Ranges (T.receive ∅ (T.buildSnapshot s.feed)) rules)
    (hok : ∀ s e, (∀ c, e ≠ FleetEvent.call c) → ok s e) :
    ∃ s', ((fleet T set).restrict ok).Reachable s' ∧ s'.inst = s.inst ∧
      s'.produced = s.produced ∧ (∀ j, j ≠ id → s'.links j = s.links j) ∧
      s'.clients client = (s.clients client).handle set
        { inst := s.inst, early := (s.produced s.inst).isEmpty, nth := 0, rules := rules } := by
  have hsubscribe := hr.next_restrict (.subscribe id client) _
    (hok _ _ (fun c hc => by cases hc)) (Fleet.Step.subscribe s id client hfree)
  have hsend := hsubscribe.next_restrict (.send id) _ (hok _ _ (fun c hc => by cases hc))
    (Fleet.Step.send _ id (s.opened T client) _ (Function.update_self ..) rfl)
  have hreceive := hsend.next_restrict (.receive id rules) _
    (hok _ _ (fun c hc => by cases hc))
    (Fleet.Step.receive _ id _ _ [] rules (Function.update_self ..) rfl hrules)
  refine ⟨_, hreceive, rfl, rfl, fun j hj => ?_, Function.update_self ..⟩
  simp only [Fleet.received, Fleet.setLink, Function.update_of_ne hj]

end Join

/-- Without expressions to compile. -/
def plainSetter : ExtAuth.Server → List VerificationRule → Except String ExtAuth.Server :=
  verificationSetter Unicode.ascii SortSlice.insertion ExtAuth.noCel

/-- The runs in which broadcasts find room at client zero and keys are
    distinct. -/
def orderly : System (Fleet VerificationRule Proto.VerificationRule (String × String)
    ExtAuth.Server) (FleetEvent VerificationRule) :=
  (fleet verificationStream plainSetter).restrict fun s e =>
    Fleet.RoomFor 0 s e ∧ e.Good verificationStream

theorem orderly_of_ne_call (s : Fleet VerificationRule Proto.VerificationRule (String × String)
    ExtAuth.Server) (e : FleetEvent VerificationRule) (he : ∀ c, e ≠ .call c) :
    Fleet.RoomFor 0 s e ∧ e.Good verificationStream := by
  cases e with
  | call c => exact absurd rfl (he c)
  | restart => exact ⟨trivial, trivial⟩
  | subscribe id client => exact ⟨trivial, trivial⟩
  | take id => exact ⟨trivial, trivial⟩
  | send id => exact ⟨trivial, trivial⟩
  | receive id rules => exact ⟨trivial, trivial⟩
  | drop id => exact ⟨trivial, trivial⟩
  | close id => exact ⟨trivial, trivial⟩

/-- A map with one rule can be collected. -/
theorem ranges_sampleRule :
    Ranges (insertAll verificationStream.key ∅ [sampleRule]) [sampleRule] :=
  ranges_insertAll verificationStream.key _ (List.nodup_singleton _)

/-- A rule is published, and client zero applies it. -/
theorem exists_applied :
    ∃ s, orderly.Reachable s ∧ s.inst = 0 ∧ s.produced 1 = [] ∧ s.links 1 = none ∧
      (s.clients 0).handed.map (fun e => (e.inst, e.rules)) = [(0, [sampleRule])] := by
  have hnew : orderly.Reachable (Fleet.new fun _ => ExtAuth.closedServer) :=
    System.Reachable.init _ ⟨_, rfl⟩
  have hdistinct : FleetEvent.Good verificationStream (.call (.update [sampleRule])) :=
    List.nodup_singleton _
  have hroom : Fleet.RoomFor 0 (Fleet.new fun _ => ExtAuth.closedServer :
      Fleet VerificationRule Proto.VerificationRule (String × String) ExtAuth.Server)
      (.call (.update [sampleRule])) := by
    intro id l hl
    cases hl
  have hcall := hnew.next_restrict (.call (.update [sampleRule])) _ ⟨hroom, hdistinct⟩
    (Fleet.Step.call _ _)
  rcases exists_first _ hcall 0 0 rfl [sampleRule] ranges_sampleRule orderly_of_ne_call with
    ⟨s, hr, hinst, hproduced, hlinks, hclient⟩
  refine ⟨s, hr, hinst, ?_, hlinks 1 (by decide), ?_⟩
  · rw [hproduced]
    rfl
  · rw [hclient]
    rfl

/-- Client zero has applied a rule. The controller restarts, the client
    reconnects before anything is published, and has the empty rule set in
    force that no call on the new server produced. -/
theorem restart_empties :
    ¬∀ s, orderly.Reachable s → ∀ e, (s.clients 0).active = some e →
      ∃ f ∈ s.produced e.inst, e.rules.Perm f.rules := by
  intro h
  rcases exists_applied with ⟨s, hr, hinst, hproduced, hfree, _⟩
  have hrestart := hr.next_restrict .restart _ (orderly_of_ne_call s _ (fun c hc => by cases hc))
    (Fleet.Step.restart s)
  have hfree' : s.restarted.links 1 = none := by
    simp only [Fleet.restarted, hfree, Option.map_none]
  rcases exists_first _ hrestart 1 0 hfree' [] rfl orderly_of_ne_call with
    ⟨s', hr', _, hproduced', _, hclient⟩
  have hactive : (s'.clients 0).active
      = some { inst := s.restarted.inst, early := (s.restarted.produced s.restarted.inst).isEmpty
               nth := 0, rules := [] } := by
    rw [hclient]
    rfl
  rcases h s' hr' _ hactive with ⟨f, hf, _⟩
  have hnone : s'.produced s.restarted.inst = [] := by
    have hnext : s.restarted.inst = 1 := by
      simp only [Fleet.restarted, hinst]
    rw [hproduced', hnext]
    exact hproduced
  rw [hnone] at hf
  exact absurd hf List.not_mem_nil

/-- Client zero has applied a rule. The controller restarts and publishes the rule again
    before the client reconnects, and what the client applied was published both times. -/
theorem enforced_published_sample :
    ∃ s : Fleet VerificationRule Proto.VerificationRule (String × String) ExtAuth.Server,
      (s.clients 0).handed.map (fun e => (e.inst, e.rules)) =
        [(1, [sampleRule]), (0, [sampleRule])] ∧
      (s.clients 0).synced = true ∧
      Published plainSetter (fun rules l => l.Perm rules) 0 s := by
  rcases exists_applied with ⟨s, hr, hinst, _, hfree, hhanded⟩
  have hrestart := hr.next_restrict .restart _ (orderly_of_ne_call s _ (fun c hc => by cases hc))
    (Fleet.Step.restart s)
  -- The old streams are gone, so there is room.
  have hroom : Fleet.RoomFor 0 s.restarted (.call (.update [sampleRule])) := by
    intro id l hl _ hlive
    rcases Option.map_eq_some_iff.mp hl with ⟨l₀, _, rfl⟩
    cases hlive
  have hcall := hrestart.next_restrict (.call (.update [sampleRule])) _
    ⟨hroom, List.nodup_singleton _⟩ (Fleet.Step.call s.restarted _)
  have hfree' : (s.restarted.publish verificationStream (.update [sampleRule])).links 1 = none := by
    simp only [Fleet.publish, Fleet.restarted, hfree, Option.map_none]
  rcases exists_first _ hcall 1 0 hfree' [sampleRule] ranges_sampleRule orderly_of_ne_call with
    ⟨s', hr', _, _, _, hclient⟩
  refine ⟨s', ?_, ?_, (enforced_published 0).2.1 Unicode.ascii SortSlice.insertion ExtAuth.noCel s'
    hr'⟩
  · have hnext : (s.restarted.publish verificationStream (.update [sampleRule])).inst = 1 := by
      simp only [Fleet.publish, Fleet.restarted, hinst]
    rw [hclient, hnext]
    exact congrArg ((1, [sampleRule]) :: ·) hhanded
  · rw [hclient]
    rfl

end Kontxt
