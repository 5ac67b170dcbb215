import Kontxt.Core.Sessions
import Kontxt.Theory.Distribution

/-!
# Rules of an Abandoned Session

A client that reconnects ought to be done with the session before. It is not
quite: `connect` returns when the first of the two streams fails, and the
goroutine of the other may still hold a list it collected. If a goroutine of the
next session hands over its list first, the old list then replaces the newer one
and stays until the next message.

What has to be excluded is exactly that. As long as no list is handed over while
a goroutine of an earlier session still holds one for the same setter, the lists
come in the order of their sessions, because a goroutine whose connection is
closed cannot receive another. And wherever two goroutines hold lists at once,
the wrong order is two steps away. Both halves are `newest_session_iff`.

## Main definitions

* `Settles`: A list is handed over while no earlier session holds one.
* `LaneInv`: The invariant of one stream.

## Theorems

* `laneInv_opened`: A new session keeps the invariant.
* `laneInv_step`: So does a step of a goroutine that settles.
* `sessionsInv_reachable`: And every run of such steps.
* `exists_overtaken`: Two goroutines that hold lists can overtake each other.
* `newest_session_iff`: When the rules are those of the newest session.
-/

namespace Kontxt

open Go Lib

section Lanes

variable {α π κ χ : Type}

/-- A list is handed over while no goroutine of an earlier session holds one. -/
def Settles (l : Lane α κ χ) : LaneEvent π → Prop
  | .apply j => ∀ i rules list, i < j → l.loops i ≠ some (.holding rules list)
  | _ => True

/-- The invariant of a stream after `n` sessions: lists were handed over in the
    order of their sessions, the last of them is the setter's, and a goroutine that
    holds a list is not behind any that handed one over. -/
structure LaneInv (set : χ → List α → χ) (n : Nat) (l : Lane α κ χ) : Prop where
  begun : ∀ i, n ≤ i → l.loops i = none
  bound : ∀ e ∈ l.applied, e.1 < n
  ordered : l.applied.Pairwise fun a b => b.1 ≤ a.1
  held : ∀ i rules list, l.loops i = some (.holding rules list) → ∀ e ∈ l.applied, e.1 ≤ i
  active : ∀ i list rest, l.applied = (i, list) :: rest → ∃ s, l.setter = set s list

variable {set : χ → List α → χ} {n : Nat} {l l' : Lane α κ χ}

theorem setLoop_loops (l : Lane α κ χ) (i : Nat) (p : LoopPoint α κ) :
    (l.setLoop i p).loops i = some p :=
  Function.update_self _ _ _

/-- Moving a goroutine of a session that has begun keeps the invariant, unless it
    comes to hold a list. -/
theorem laneInv_setLoop (hl : LaneInv set n l) (i : Nat) (hi : i < n) (p : LoopPoint α κ)
    (hheld : ∀ rules list, p = .holding rules list → ∀ e ∈ l.applied, e.1 ≤ i) :
    LaneInv set n (l.setLoop i p) where
  begun := by
    intro j hj
    have hne : j ≠ i := by omega
    exact (Function.update_of_ne hne _ _).trans (hl.begun j hj)
  bound := hl.bound
  ordered := hl.ordered
  held := by
    intro j rules list hloop
    rcases of_update_eq_some l.loops i j _ _ hloop with ⟨hji, hp⟩ | hold
    · rw [hji]
      exact hheld rules list (Option.some.inj hp)
    · exact hl.held j rules list hold
  active := hl.active

/-- A new session keeps the invariant. -/
theorem laneInv_opened (hl : LaneInv set n l) : LaneInv set (n + 1) (l.opened n) := by
  have hwider : LaneInv set (n + 1) l :=
    ⟨fun i hi => hl.begun i (by omega), fun e he => Nat.lt_succ_of_lt (hl.bound e he), hl.ordered,
      hl.held, hl.active⟩
  refine laneInv_setLoop hwider n (Nat.lt_succ_self n) _ ?_
  intro rules list hp
  cases hp

/-- A goroutine that has begun is of a session that has. -/
theorem lt_of_loops (hl : LaneInv set n l) (i : Nat) (p : LoopPoint α κ)
    (hloop : l.loops i = some p) : i < n := by
  by_contra hge
  rw [hl.begun i (by omega)] at hloop
  cases hloop

/-- A step of a goroutine keeps the invariant, if no list overtakes another. -/
theorem laneInv_step [DecidableEq κ] (T : RuleStream α π κ) (isOpen : Nat → Prop)
    (hopen : ∀ i, isOpen i → i + 1 = n) (hl : LaneInv set n l) (e : LaneEvent π)
    (hsettles : Settles l e) (hstep : Lane.Step T set isOpen l e l') : LaneInv set n l' := by
  cases hstep with
  | receive i resp rules list hi hloop hlist =>
      -- Only the newest session receives, and no session is behind it.
      refine laneInv_setLoop hl i (lt_of_loops hl i _ hloop) _ ?_
      intro _ _ _ e he
      have hbound := hl.bound e he
      have hnewest := hopen i hi
      omega
  | fail i rules hloop =>
      refine laneInv_setLoop hl i (lt_of_loops hl i _ hloop) _ ?_
      intro _ _ hp
      cases hp
  | apply i rules list hloop =>
      have hmoved : LaneInv set n (l.setLoop i (.receiving rules)) := by
        refine laneInv_setLoop hl i (lt_of_loops hl i _ hloop) _ ?_
        intro _ _ hp
        cases hp
      refine ⟨hmoved.begun, ?_, ?_, ?_, ?_⟩
      · exact List.forall_mem_cons.mpr ⟨lt_of_loops hl i _ hloop, hl.bound⟩
      · exact List.pairwise_cons.mpr ⟨hl.held i rules list hloop, hl.ordered⟩
      · intro j rules' list' hloop'
        refine List.forall_mem_cons.mpr ⟨?_, hmoved.held j rules' list' hloop'⟩
        -- Whoever still holds a list is not of an earlier session.
        rcases of_update_eq_some l.loops i j _ _ hloop' with ⟨_, hp⟩ | hold
        · cases hp
        · by_contra hlt
          exact hsettles j rules' list' (Nat.lt_of_not_le hlt) hold
      · intro j list' rest happlied
        cases happlied
        exact ⟨l.setter, rfl⟩

/-- Where goroutines of two sessions hold lists, the later can hand over its list
    first. -/
theorem exists_overtaken [DecidableEq κ] (T : RuleStream α π κ) (isOpen : Nat → Prop) (i j : Nat)
    (hij : i < j) (rules rules' : GoMap κ α) (list list' : List α)
    (hi : l.loops i = some (.holding rules list))
    (hj : l.loops j = some (.holding rules' list')) :
    Lane.Step T set isOpen l (.apply j) (l.handed set j rules' list') ∧
      Lane.Step T set isOpen (l.handed set j rules' list') (.apply i)
        ((l.handed set j rules' list').handed set i rules list) := by
  have hne : i ≠ j := by omega
  have hstill : (l.handed set j rules' list').loops i = some (.holding rules list) :=
    (Function.update_of_ne hne _ _).trans hi
  exact ⟨Lane.Step.apply l j rules' list' hj, Lane.Step.apply _ i rules list hstill⟩

end Lanes

section Clients

variable (u : Unicode) (S : SortSlice) (newEnv : Except String (Cel.Env Celverify.Context))

/-- On either stream, a list is handed over while no earlier session holds
    one. -/
def SettlesClient (c : RuleClient) : ClientEvent → Prop
  | .gen e => Settles c.gen e
  | .ver e => Settles c.ver e
  | _ => True

/-- Both streams keep the invariant. -/
structure SessionsInv (c : RuleClient) : Prop where
  gen : LaneInv ExtAuth.GenerationServer.setGenerationRules c.sessions c.gen
  ver : LaneInv (ExtAuth.Server.setVerificationRules u S newEnv) c.sessions c.ver

theorem laneInv_new {α κ χ : Type} (set : χ → List α → χ) (setter : χ) :
    LaneInv set 0 (Lane.new setter : Lane α κ χ) where
  begun := fun _ _ => rfl
  bound := fun _ he => absurd he List.not_mem_nil
  ordered := List.Pairwise.nil
  held := fun _ _ _ hloop => by cases hloop
  active := fun _ _ _ happlied => by cases happlied

/-- Every run in which no list overtakes another keeps the invariant. -/
theorem sessionsInv_reachable (c : RuleClient)
    (hr : ((ruleClients u S newEnv).restrict SettlesClient).Reachable c) :
    SessionsInv u S newEnv c := by
  refine System.invariant _ ?_ ?_ c hr
  · intro c hinit
    rcases hinit with ⟨genSet, verSet, rfl⟩
    exact ⟨laneInv_new _ genSet, laneInv_new _ verSet⟩
  · intro c e c' hc hgiven
    rcases hgiven with ⟨hsettles, hstep⟩
    cases hstep with
    | connect hdone => exact ⟨laneInv_opened hc.gen, laneInv_opened hc.ver⟩
    | gen e l hlane =>
        exact ⟨laneInv_step _ c.isOpen (fun _ hi => hi.2) hc.gen e hsettles hlane, hc.ver⟩
    | ver e l hlane =>
        exact ⟨hc.gen, laneInv_step _ c.isOpen (fun _ hi => hi.2) hc.ver e hsettles hlane⟩
    | disconnect i hopen hfailed => exact ⟨hc.gen, hc.ver⟩

/-- When the rules are those of the newest session. In every run in which a list
    is only handed over while no goroutine of an earlier session holds one for the
    same setter, lists are handed to each setter in the order of their sessions,
    and the active rules are those of the last one. And the condition is needed:
    wherever goroutines of two sessions hold lists for one setter, some run hands
    over the later session's list and then the earlier one's, which stays. -/
theorem newest_session_iff :
    (∀ c, ((ruleClients u S newEnv).restrict SettlesClient).Reachable c →
      (c.gen.applied.Pairwise fun a b => b.1 ≤ a.1) ∧
      (c.ver.applied.Pairwise fun a b => b.1 ≤ a.1) ∧
      (∀ i list rest, c.gen.applied = (i, list) :: rest →
        c.gen.setter.generationRules = list) ∧
      ∀ i list rest, c.ver.applied = (i, list) :: rest →
        c.ver.setter.loadVerificationRules
          = (c.ver.setter.setVerificationRules u S newEnv list).loadVerificationRules) ∧
    (∀ c, (ruleClients u S newEnv).Reachable c → ∀ i j rules rules' list list', i < j →
      c.gen.loops i = some (.holding rules list) →
      c.gen.loops j = some (.holding rules' list') →
      ∃ c', (ruleClients u S newEnv).Reachable c' ∧
        c'.gen.applied = (i, list) :: (j, list') :: c.gen.applied ∧
        c'.gen.setter.generationRules = list) ∧
    ∀ c, (ruleClients u S newEnv).Reachable c → ∀ i j rules rules' list list', i < j →
      c.ver.loops i = some (.holding rules list) →
      c.ver.loops j = some (.holding rules' list') →
      ∃ c', (ruleClients u S newEnv).Reachable c' ∧
        c'.ver.applied = (i, list) :: (j, list') :: c.ver.applied ∧
        c'.ver.setter.loadVerificationRules
          = (c'.ver.setter.setVerificationRules u S newEnv list).loadVerificationRules := by
  refine ⟨?_, ?_, ?_⟩
  · intro c hr
    have hinv := sessionsInv_reachable u S newEnv c hr
    refine ⟨hinv.gen.ordered, hinv.ver.ordered, fun i list rest happlied => ?_,
      fun i list rest happlied => ?_⟩
    · rcases hinv.gen.active i list rest happlied with ⟨s, hs⟩
      rw [hs]
      rfl
    · rcases hinv.ver.active i list rest happlied with ⟨s, hs⟩
      rw [hs]
      rfl
  · intro c hr i j rules rules' list list' hij hi hj
    rcases exists_overtaken generationStream c.isOpen i j hij rules rules' list list' hi hj with
      ⟨hlater, hearlier⟩
    -- Nothing orders the two goroutines, so the later session's may go first.
    have hr' := hr.next (.gen (.apply j)) _ (RuleClient.Step.gen c _ _ hlater)
    exact ⟨_, hr'.next (.gen (.apply i)) _ (RuleClient.Step.gen _ _ _ hearlier), rfl, rfl⟩
  · intro c hr i j rules rules' list list' hij hi hj
    rcases exists_overtaken verificationStream c.isOpen i j hij rules rules' list list' hi hj with
      ⟨hlater, hearlier⟩
    have hr' := hr.next (.ver (.apply j)) _ (RuleClient.Step.ver c _ _ hlater)
    exact ⟨_, hr'.next (.ver (.apply i)) _ (RuleClient.Step.ver _ _ _ hearlier), rfl, rfl⟩

end Clients

/-- A rule that is published at first and then taken back. -/
def withdrawnRule : GenerationRule where
  nameSpace := "shop"
  name := "refund"
  endpoint := { path := "/refunds", method := "POST" }
  purpose := "refund"
  scope := "refund"
  tctxMapping := ∅
  tctxEnrichments := []
  rctxFields := []
  tokenLifetime := ""

/-- A snapshot of generation rules. -/
def generationSnapshot (rules : List GenerationRule) : Response Proto.GenerationRule where
  update := some (.snapshot (rules.map generationRuleToProto))
  versionInfo := "1"

/-- A snapshot with distinct keys can be collected as it came. -/
theorem ranges_generationSnapshot (rules : List GenerationRule)
    (hd : DistinctKeys generationStream.key rules) :
    Ranges (generationStream.receive ∅ (generationSnapshot rules)) rules := by
  rw [receive_snapshot lawful_generation rules _ rfl]
  exact ranges_insertAll generationStream.key rules hd

/-- A session that has handed over the rules of a snapshot and failed. -/
theorem reachable_finished (genSet : ExtAuth.GenerationServer) (verSet : ExtAuth.Server)
    (rules : List GenerationRule) (hd : DistinctKeys generationStream.key rules) :
    ∃ c, ((ruleClients Unicode.ascii SortSlice.insertion (.error "no environment")).restrict
        SettlesClient).Reachable c ∧
      c.sessions = 1 ∧ c.connected = false ∧ c.gen.applied = [(0, rules)] ∧
      c.gen.loops 0 = some .returned := by
  have hstart : ((ruleClients Unicode.ascii SortSlice.insertion (.error "no environment")).restrict
      SettlesClient).Reachable
        { sessions := 0, connected := false, gen := Lane.new genSet, ver := Lane.new verSet } :=
    System.Reachable.init _ ⟨genSet, verSet, rfl⟩
  have hconnect := hstart.next_restrict .connect _ trivial (RuleClient.Step.connect _ rfl)
  have hreceive := hconnect.next_restrict (.gen (.receive 0 (generationSnapshot rules))) _ trivial
    (RuleClient.Step.gen _ _ _ (Lane.Step.receive _ 0 _ ∅ rules ⟨rfl, rfl⟩ rfl
      (ranges_generationSnapshot rules hd)))
  have happly := hreceive.next_restrict (.gen (.apply 0)) _
    (fun i _ _ hi => absurd hi (Nat.not_lt_zero i))
    (RuleClient.Step.gen _ _ _ (Lane.Step.apply _ 0 _ rules rfl))
  have hfail := happly.next_restrict (.gen (.fail 0)) _ trivial
    (RuleClient.Step.gen _ _ _ (Lane.Step.fail _ 0 _ rfl))
  have hdone := hfail.next_restrict .disconnect _ trivial
    (RuleClient.Step.disconnect _ 0 ⟨rfl, rfl⟩ (Or.inl rfl))
  exact ⟨_, hdone, rfl, rfl, rfl, rfl⟩

/-- The first session hands over a rule and fails. The second receives that there are no
    rules and hands that over while the first holds nothing, and no rule is active. -/
theorem newest_session_iff_sample :
    ∃ c, ((ruleClients Unicode.ascii SortSlice.insertion (.error "no environment")).restrict
        SettlesClient).Reachable c ∧ c.gen.applied = [(1, []), (0, [withdrawnRule])] ∧
      c.gen.setter.generationRules = [] := by
  have hkeys : DistinctKeys generationStream.key [withdrawnRule] := List.nodup_singleton _
  rcases reachable_finished
    { ttsClient := fun _ => .error "connection refused"
      identityResolver := { pods := ∅ }
      generationRules := [] }
    { verifier := fun _ => .error "token is malformed"
      verificationRules := none
      ttsClient := none }
    [withdrawnRule] hkeys with ⟨c, hr, hsessions, hdone, happlied, hreturned⟩
  have hconnect := hr.next_restrict .connect _ trivial (RuleClient.Step.connect c hdone)
  have hnew : (c.gen.opened c.sessions).loops 1 = some (.receiving ∅) := by
    rw [hsessions]
    exact setLoop_loops c.gen 1 _
  have hreceive := hconnect.next_restrict (.gen (.receive 1 (generationSnapshot []))) _ trivial
    (RuleClient.Step.gen _ _ _ (Lane.Step.receive _ 1 _ ∅ []
      ⟨rfl, congrArg Nat.succ hsessions.symm⟩ hnew
      (ranges_generationSnapshot [] List.nodup_nil)))
  have hsettles : Settles ((c.gen.opened c.sessions).setLoop 1 (.holding (generationStream.receive ∅
      (generationSnapshot [])) [])) (.apply 1 : LaneEvent Proto.GenerationRule) := by
    intro i rules list hi hholds
    -- The only earlier goroutine has returned.
    have hzero : i = 0 := by omega
    rw [hzero, hsessions] at hholds
    cases hreturned.symm.trans hholds
  have happly := hreceive.next_restrict (.gen (.apply 1)) _ hsettles
    (RuleClient.Step.gen _ _ _ (Lane.Step.apply _ 1 _ [] (setLoop_loops _ 1 _)))
  refine ⟨_, happly, congrArg (List.cons (1, [])) happlied, ?_⟩
  exact ((newest_session_iff _ _ _).1 _ happly).2.2.1 1 [] _ rfl

/-- A session whose generation stream holds the rules of a snapshot when its
    verification stream fails. -/
theorem reachable_abandoned (genSet : ExtAuth.GenerationServer) (verSet : ExtAuth.Server)
    (rules : List GenerationRule) (hd : DistinctKeys generationStream.key rules) :
    ∃ c, (ruleClients Unicode.ascii SortSlice.insertion (.error "no environment")).Reachable c ∧
      c.sessions = 1 ∧ c.connected = false ∧ c.gen.applied = [] ∧
      c.gen.loops 0 = some (.holding (generationStream.receive ∅ (generationSnapshot rules))
        rules) := by
  have hstart : (ruleClients Unicode.ascii SortSlice.insertion (.error "no environment")).Reachable
      { sessions := 0, connected := false, gen := Lane.new genSet, ver := Lane.new verSet } :=
    System.Reachable.init _ ⟨genSet, verSet, rfl⟩
  have hconnect := hstart.next .connect _ (RuleClient.Step.connect _ rfl)
  have hreceive := hconnect.next (.gen (.receive 0 (generationSnapshot rules))) _
    (RuleClient.Step.gen _ _ _ (Lane.Step.receive _ 0 _ ∅ rules ⟨rfl, rfl⟩ rfl
      (ranges_generationSnapshot rules hd)))
  have hfail := hreceive.next (.ver (.fail 0)) _
    (RuleClient.Step.ver _ _ _ (Lane.Step.fail _ 0 ∅ rfl))
  exact ⟨_, hfail.next .disconnect _ (RuleClient.Step.disconnect _ 0 ⟨rfl, rfl⟩ (Or.inr rfl)),
    rfl, rfl, rfl, rfl⟩

/-- The first session receives a rule and its verification stream fails. The
    second receives that there are no rules and hands that over; then the first
    hands over what it holds, and the rule is active again. -/
theorem withdrawn_rule_returns :
    ∃ c, (ruleClients Unicode.ascii SortSlice.insertion (.error "no environment")).Reachable c ∧
      c.gen.applied = [(0, [withdrawnRule]), (1, [])] ∧
      c.gen.setter.generationRules = [withdrawnRule] := by
  have hkeys : DistinctKeys generationStream.key [withdrawnRule] := List.nodup_singleton _
  rcases reachable_abandoned
    { ttsClient := fun _ => .error "connection refused"
      identityResolver := { pods := ∅ }
      generationRules := [] }
    { verifier := fun _ => .error "token is malformed"
      verificationRules := none
      ttsClient := none }
    [withdrawnRule] hkeys with ⟨c, hr, hsessions, hdone, happlied, hheld⟩
  have hconnect := hr.next .connect _ (RuleClient.Step.connect c hdone)
  have hnew : (c.gen.opened c.sessions).loops 1 = some (.receiving ∅) := by
    rw [hsessions]
    exact setLoop_loops c.gen 1 _
  have hreceive := hconnect.next (.gen (.receive 1 (generationSnapshot []))) _
    (RuleClient.Step.gen _ _ _ (Lane.Step.receive _ 1 _ ∅ []
      ⟨rfl, congrArg Nat.succ hsessions.symm⟩ hnew
      (ranges_generationSnapshot [] List.nodup_nil)))
  -- The goroutine of the first session has not moved.
  have hstill : ((c.gen.opened c.sessions).setLoop 1 (.holding (generationStream.receive ∅
      (generationSnapshot [])) [])).loops 0
        = some (.holding (generationStream.receive ∅ (generationSnapshot [withdrawnRule]))
          [withdrawnRule]) := by
    rw [hsessions]
    exact hheld
  rcases exists_overtaken generationStream _ 0 1 Nat.zero_lt_one _ _ _ _ hstill
    (setLoop_loops _ 1 _) with ⟨hlater, hearlier⟩
  have hhanded := hreceive.next (.gen (.apply 1)) _ (RuleClient.Step.gen _ _ _ hlater)
  refine ⟨_, hhanded.next (.gen (.apply 0)) _ (RuleClient.Step.gen _ _ _ hearlier), ?_, rfl⟩
  exact congrArg (fun rest => (0, [withdrawnRule]) :: (1, []) :: rest) happlied

end Kontxt
