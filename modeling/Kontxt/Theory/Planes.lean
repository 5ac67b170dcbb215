import Kontxt.Core.ControlPlane
import Kontxt.Theory.Broadcast
import Kontxt.Theory.Reconciling

/-!
# What the Control Plane Preserves

Whether what was handed over at the end of a stream was made from what is stored in
the cluster, once nothing is left to do in between.

Every part of the way has its own reason. The reconciler is up to date or has a key to
do, which `Reconciling` says. The server has what was published last. And because a
pass publishes all rules, a message makes the map of a client what the server has,
whatever it was before: a stream leads there as long as its channel had room for the
last broadcast, and no earlier one that was lost matters. At the end of it the list
that was handed over last is the one of the client's only stream.

The reconciler alone depends on what lookups find, and a change of what they find makes no
key pending. So its part holds of heeded runs. What remains of it in any run is what a
reconciler has that knows nothing of its surroundings: `Reconciler.unaware` may find what
could be found anywhere, or nothing, so every run of the one is a heeded run of the other.

## Main definitions

* `planes`: The control plane of one kind of rule.
* `Plane.Heeds`: Lookups are not changed behind the reconciler's back.
* `Plane.Settled`: Nothing is left to do for a client.
* `ControlInv`: What the reconciler keeps.
* `HandedLast`: What a setter was handed last.
* `PlaneStream`: What holds of one stream.
* `PlaneInv`: What holds of the control plane.
* `Reconciler.unaware`: The reconciler with lookups that may find anything.
* `Control.Stores`: An object is stored.
* `verificationPlanes`, `issuancePlanes`, `generationPlanes`: The three kinds.
* `heededGenerationPlanes`: The third with lookups that are not changed or lost unnoticed.

## Theorems

* `controlInv_step`, `controlInv_restarted`: Steps and restarts of the controller.
* `planeStream_offered`: A broadcast with room leads to what it carries.
* `planeInv_step`, `planeInv_reachable`: Every heeded run keeps the invariant.
* `planeInv_unaware`: What every run keeps of it.
* `handed_of_settled`: What a client was handed that nothing is left to do for.
* `setters_reachable`: What holds of what rules are handed to.
-/

namespace Kontxt

open Go Lib

section Generic

variable {κ ω χ ν α π ι ξ : Type} [DecidableEq κ] [DecidableEq ι]

/-- The control plane of one kind of rule: a controller that has just started on any
    objects, a fresh rule server, and servers without rules. -/
def planes (R : Reconciler κ ω χ ν α) (T : RuleStream α π ι) (E : Enforcer α ξ) :
    System (Plane κ ω χ α π ι ξ) (PlaneEvent κ ω χ ν α) where
  init := fun s => s.control.Initial R ∧
    (∀ k st, s.control.store.lookup k = some st → R.key st.obj = k) ∧
    ∃ setters, s.fleet = Fleet.new setters ∧ ∀ client, E.New (setters client)
  step := Plane.Step R T E

/-- The surroundings change for pending keys only, and lookups fail safely. -/
def Plane.Heeds (R : Reconciler κ ω χ ν α) (s : Plane κ ω χ α π ι ξ) :
    PlaneEvent κ ω χ ν α → Prop
  | .surroundings env => SameLookups R s.env env s.control
  | .work e => FailsSafely R s.env s.control e
  | _ => True

/-- Nothing is left to do for a client: no key is queued and the worker is idle, and
    the client has a stream that is alive, has delivered everything and had room for
    the last broadcast. -/
structure Plane.Settled (s : Plane κ ω χ α π ι ξ) (client : Nat) : Prop where
  quiet : s.control.Quiet
  current : ∃ id l, s.fleet.links id = some l ∧ l.client = client ∧ l.live = true ∧
    l.queue = [] ∧ s.refused id = false

section Reconciler

variable {R : Reconciler κ ω χ ν α} {env : χ}

/-- What the worker holds is the object of its key. -/
def HeldKey (R : Reconciler κ ω χ ν α) : Phase κ ω α → Prop
  | .busy k (.find read) => R.key read.obj = k
  | .busy k (.update _ obj) => R.key obj = k
  | _ => True

/-- Objects are stored under their keys, and the worker is up to date or has a key to
    do. -/
structure ControlInv (R : Reconciler κ ω χ ν α) (env : χ) (c : Control κ ω α) : Prop where
  versions : ∀ k st, c.store.lookup k = some st → st.version < c.version
  keyed : ∀ k st, c.store.lookup k = some st → R.key st.obj = k
  held : HeldKey R c.phase
  publish : PublishInv R env c

theorem keyed_changed (c : Control κ ω α) (k : κ) (o : Option ω)
    (hkeyed : ∀ j st, c.store.lookup j = some st → R.key st.obj = j)
    (hkey : ∀ obj, o = some obj → R.key obj = k) (j : κ) (st : Stored ω)
    (hj : (c.changed k o).store.lookup j = some st) : R.key st.obj = j := by
  cases o with
  | some obj =>
      by_cases hjk : j = k
      · rw [hjk] at hj ⊢
        rw [← Option.some.inj ((Finmap.lookup_insert c.store).symm.trans hj)]
        exact hkey obj rfl
      · exact hkeyed j st ((Finmap.lookup_insert_of_ne c.store hjk).symm.trans hj)
  | none =>
      by_cases hjk : j = k
      · rw [hjk] at hj
        cases (Finmap.lookup_erase k c.store).symm.trans hj
      · exact hkeyed j st ((Finmap.lookup_erase_ne hjk).symm.trans hj)

/-- A step of a user or the worker, if a failed lookup is safe. -/
theorem controlInv_step (hkey : ∀ v o o', R.Settles v o o' → R.key o' = R.key o)
    (c c' : Control κ ω α) (e : ControlEvent κ ω ν) (hc : ControlInv R env c)
    (hsafe : FailsSafely R env c e) (hstep : Control.Step R env c e c') :
    ControlInv R env c' := by
  have hpublish := publishInv_step c e c' hc.publish hsafe hstep
  have hheld := hc.held
  cases hstep with
  | change k o hown hdelete =>
      exact ⟨versions_changed c k o hc.versions, keyed_changed c k o hc.keyed hown, hheld, hpublish⟩
  | start hidle k rest hqueue => exact ⟨hc.versions, hc.keyed, trivial, hpublish⟩
  | getFound k hphase read hread =>
      exact ⟨hc.versions, hc.keyed, hc.keyed k read hread, hpublish⟩
  | getNotFound k hphase hread => exact ⟨hc.versions, hc.keyed, trivial, hpublish⟩
  | getFailed k hphase => exact ⟨hc.versions, hc.keyed, trivial, hpublish⟩
  | find k read hphase v hfinds obj hsettles =>
      rw [hphase] at hheld
      exact ⟨hc.versions, hc.keyed, (hkey v _ _ hsettles).trans hheld, hpublish⟩
  | findFailed k read hphase obj hsettles =>
      rw [hphase] at hheld
      exact ⟨hc.versions, hc.keyed, (hkey _ _ _ hsettles).trans hheld, hpublish⟩
  | updateSame k version obj hphase current hcurrent hversion hsame =>
      exact ⟨hc.versions, hc.keyed, trivial, hpublish⟩
  | updateChanged k version obj hphase current hcurrent hversion hchanged =>
      rw [hphase] at hheld
      refine ⟨versions_changed c k (some obj) hc.versions, ?_, trivial, hpublish⟩
      refine keyed_changed c k (some obj) hc.keyed fun o ho => ?_
      rw [← Option.some.inj ho]
      exact hheld
  | updateFailed k version obj hphase => exact ⟨hc.versions, hc.keyed, trivial, hpublish⟩
  | list k hphase items hitems => exact ⟨hc.versions, hc.keyed, trivial, hpublish⟩
  | listFailed k hphase => exact ⟨hc.versions, hc.keyed, trivial, hpublish⟩
  | build k o todo rules hphase v hfinds => exact ⟨hc.versions, hc.keyed, trivial, hpublish⟩
  | buildFailed k o todo rules hphase => exact ⟨hc.versions, hc.keyed, trivial, hpublish⟩
  | publish k rules hphase => exact ⟨hc.versions, hc.keyed, trivial, hpublish⟩

/-- A controller that is started again has every stored key to do. -/
theorem controlInv_restarted (c : Control κ ω α) (keys : List κ)
    (hkeys : RangesKeys c.store keys) (hc : ControlInv R env c) :
    ControlInv R env (c.restarted keys) := by
  have hinitial : (c.restarted keys).Initial R := by
    refine ⟨rfl, rfl, fun k st hk => ?_, hc.versions⟩
    refine (WorkQueue.mem_dirty_ofKeys keys k).mpr ((mem_of_rangesKeys hkeys k).mpr ?_)
    rw [show c.store.lookup k = some st from hk]
    rfl
  exact ⟨hc.versions, hc.keyed, trivial, publishInv_init _ hinitial⟩

/-- Only the end of a pass publishes. -/
theorem published_step (c c' : Control κ ω α) (e : ControlEvent κ ω ν) (hpass : e ≠ .publish)
    (hstep : Control.Step R env c e c') : c'.published = c.published := by
  cases hstep with
  | publish k rules hphase => exact absurd rfl hpass
  | change k o hown hdelete => rfl
  | start hidle k rest hqueue => rfl
  | getFound k hphase read hread => rfl
  | getNotFound k hphase hread => rfl
  | getFailed k hphase => rfl
  | find k read hphase v hfinds obj hsettles => rfl
  | findFailed k read hphase obj hsettles => rfl
  | updateSame k version obj hphase current hcurrent hversion hsame => rfl
  | updateChanged k version obj hphase current hcurrent hversion hchanged => rfl
  | updateFailed k version obj hphase => rfl
  | list k hphase items hitems => rfl
  | listFailed k hphase => rfl
  | build k o todo rules hphase v hfinds => rfl
  | buildFailed k o todo rules hphase => rfl

/-- A listing has every key once. -/
theorem nodup_keys_listed (c : Control κ ω α) (hc : ControlInv R env c) (objs : List ω)
    (hlisted : Listed c objs) : (objs.map R.key).Nodup := by
  rcases hlisted with ⟨items, hitems, rfl⟩
  have hkeys : (((items.map Stored.obj).map R.key : List κ) : Multiset κ) =
      c.store.entries.map Sigma.fst := by
    rw [List.map_map, ← Multiset.map_coe, hitems, Multiset.map_map]
    refine Multiset.map_congr rfl fun e he => ?_
    exact hc.keyed e.1 e.2 (Finmap.lookup_eq_some_iff.mpr he)
  rw [← Multiset.coe_nodup, hkeys]
  exact Multiset.nodup_keys.mpr c.store.nodupKeys

end Reconciler

section Streams

variable {T : RuleStream α π ι} {hits : Proto.RuleRef → ι → Bool} {E : Enforcer α ξ}

/-- The setter was last handed what is in the map, and has served requests since. -/
def HandedLast (E : Enforcer α ξ) (m : GoMap ι α) (x : ξ) : Prop :=
  ∃ (k : Consumer α ξ) (h : Handed α), Ranges m h.rules ∧
    Relation.ReflTransGen E.Serves (k.handle E.set h).setter x

/-- What holds of a stream, for the rules of the server, whether its channel was full
    at the last broadcast, and what its client hands rules to. -/
structure PlaneStream (T : RuleStream α π ι) (E : Enforcer α ξ) (rules : List α) (refused : Bool)
    (x : ξ) (l : Link α π ι) : Prop where
  leads : l.live = true → refused = false →
    l.queue.foldl T.receive l.rules = insertAll T.key ∅ rules
  first : l.live = true → l.received = 0 → l.queue ≠ []
  handed : 0 < l.received → HandedLast E l.rules x

variable {rules : List α} {refused : Bool} {x : ξ}

/-- Messages that move along change nothing. -/
theorem planeStream_moved (l l' : Link α π ι) (hqueue : l'.queue = l.queue)
    (hlive : l'.live = l.live) (hrules : l'.rules = l.rules) (hreceived : l'.received = l.received)
    (hl : PlaneStream T E rules refused x l) : PlaneStream T E rules refused x l' := by
  refine ⟨?_, ?_, ?_⟩
  · rw [hlive, hqueue, hrules]
    exact hl.leads
  · rw [hlive, hqueue, hreceived]
    exact hl.first
  · rw [hreceived, hrules]
    exact hl.handed

omit [DecidableEq ι] in
theorem queue_taken (l : Link α π ι) (resp : Response π) (rest : List (Response π))
    (hheld : l.held = none) (hchan : l.chan = resp :: rest) :
    ({ l with chan := rest, held := some resp } : Link α π ι).queue = l.queue := by
  unfold Session.queue
  rw [hheld, hchan]
  rfl

omit [DecidableEq ι] in
theorem queue_sent (l : Link α π ι) (resp : Response π) (hheld : l.held = some resp) :
    ({ l with held := none, wire := l.wire ++ [resp] } : Link α π ι).queue = l.queue := by
  unfold Session.queue
  rw [hheld]
  simp only [Option.toList_none, List.nil_append, List.append_assoc, Option.toList_some]

/-- A stream whose handler is gone leads nowhere. -/
theorem planeStream_orphaned (l : Link α π ι) (rules' : List α) (refused' : Bool)
    (hl : PlaneStream T E rules refused x l) : PlaneStream T E rules' refused' x l.orphaned where
  leads := fun hlive => by cases hlive
  first := fun hlive => by cases hlive
  handed := hl.handed

/-- A new stream is about to be sent the rules of the server. -/
theorem planeStream_opened (hT : Lawful T hits) (s : Fleet α π ι ξ) (client : Nat) :
    PlaneStream T E s.feed.rules refused x (s.opened T client) where
  leads := fun _ _ => receive_snapshot hT s.feed.rules (T.buildSnapshot s.feed) rfl ∅
  first := fun _ _ => List.cons_ne_nil _ _
  handed := fun hpos => absurd hpos (Nat.lt_irrefl 0)

/-- A client that handles the first message of its queue. -/
theorem planeStream_received (l : Link α π ι) (resp : Response π) (rest : List (Response π))
    (hwire : l.wire = resp :: rest) (k : Consumer α ξ) (h : Handed α)
    (hrules : Ranges (T.receive l.rules resp) h.rules) (hl : PlaneStream T E rules refused x l) :
    PlaneStream T E rules refused (k.handle E.set h).setter
      { l with wire := rest, rules := T.receive l.rules resp, received := l.received + 1 } where
  leads := by
    intro hlive hroom
    have hleads := hl.leads hlive hroom
    have hqueue : l.queue = resp :: (rest ++ (l.held.toList ++ l.chan)) := by
      unfold Session.queue
      rw [hwire]
      rfl
    rw [hqueue] at hleads
    exact hleads
  first := fun _ hzero => absurd hzero (Nat.succ_ne_zero _)
  handed := fun _ => ⟨k, h, hrules, Relation.ReflTransGen.refl⟩

/-- A broadcast of all rules. If there is room, it leads the stream to them wherever it
    led before. -/
theorem planeStream_offered (hT : Lawful T hits) (f : Feed α) (rules' : List α) (l : Link α π ι)
    (hl : PlaneStream T E rules refused x l) :
    PlaneStream T E rules' (Link.full (some l)) x (l.offered (T.call f (.update rules')).2) := by
  cases hlive : l.live with
  | false =>
      have hsame : l.offered (T.call f (.update rules')).2 = l := by
        unfold Link.offered
        rw [hlive, if_neg Bool.false_ne_true]
      rw [hsame]
      refine ⟨fun h => ?_, fun h => ?_, hl.handed⟩
      · rw [hlive] at h
        cases h
      · rw [hlive] at h
        cases h
  | true =>
      by_cases hroom : l.chan.length < channelCapacity
      · have hoffer : l.offered (T.call f (.update rules')).2
            = { l with chan := l.chan ++ [(T.call f (.update rules')).2] } := by
          unfold Link.offered Session.offer
          rw [if_pos hlive, if_pos hroom]
        have hqueue : (l.offered (T.call f (.update rules')).2).queue
            = l.queue ++ [(T.call f (.update rules')).2] := by
          rw [hoffer]
          unfold Session.queue
          simp only [List.append_assoc]
        refine ⟨fun _ _ => ?_, fun _ _ => ?_, ?_⟩
        · rw [hqueue, List.foldl_append]
          exact receive_snapshot hT rules' (T.call f (.update rules')).2 rfl
            (l.queue.foldl T.receive (l.offered (T.call f (.update rules')).2).rules)
        · rw [hqueue]
          exact List.append_ne_nil_of_right_ne_nil _ (List.cons_ne_nil _ _)
        · rw [hoffer]
          exact hl.handed
      · have hsame : l.offered (T.call f (.update rules')).2 = l := by
          unfold Link.offered Session.offer
          rw [if_pos hlive, if_neg hroom]
        have hfull : Link.full (some l) = true := by
          simp only [Link.full, hlive, Bool.true_and, decide_eq_true_eq]
          exact Nat.not_lt.mp hroom
        rw [hsame, hfull]
        exact ⟨fun _ h => Bool.noConfusion h, hl.first, hl.handed⟩

/-- Serving a request does not undo what was handed over. -/
theorem planeStream_served (l : Link α π ι) (x' : ξ) (hserves : E.Serves x x')
    (hl : PlaneStream T E rules refused x l) : PlaneStream T E rules refused x' l where
  leads := hl.leads
  first := hl.first
  handed := by
    intro hpos
    rcases hl.handed hpos with ⟨k, h, hrules, hruns⟩
    exact ⟨k, h, hrules, hruns.tail hserves⟩

end Streams

section Invariant

variable {R : Reconciler κ ω χ ν α} {T : RuleStream α π ι} {hits : Proto.RuleRef → ι → Bool}
  {E : Enforcer α ξ}

/-- What every heeded step preserves. The server has what was published last, a client
    has one stream, and there are finitely many. -/
structure PlaneInv (R : Reconciler κ ω χ ν α) (T : RuleStream α π ι) (E : Enforcer α ξ)
    (s : Plane κ ω χ α π ι ξ) : Prop where
  control : ControlInv R s.env s.control
  feed : s.fleet.feed.rules = s.control.published
  streams : ∀ id l, s.fleet.links id = some l →
    PlaneStream T E s.fleet.feed.rules (s.refused id) (s.fleet.clients l.client).setter l
  alone : ∀ i j l l', s.fleet.links i = some l → s.fleet.links j = some l' →
    l.client = l'.client → i = j
  bounded : ∃ n, ∀ id, n ≤ id → s.fleet.links id = none

theorem planeInv_init (s : Plane κ ω χ α π ι ξ) (hinit : (planes R T E).init s) :
    PlaneInv R T E s := by
  rcases hinit with ⟨hinitial, hkeyed, setters, hfleet, _⟩
  refine ⟨⟨hinitial.versions, hkeyed, ?_, publishInv_init _ hinitial⟩, ?_, ?_, ?_, 0, ?_⟩
  · rw [hinitial.idle]
    trivial
  · rw [hfleet, hinitial.published]
    rfl
  · rw [hfleet]
    intro id l hl
    cases hl
  · rw [hfleet]
    intro i j l l' hl
    cases hl
  · rw [hfleet]
    exact fun id _ => rfl

/-- A step that replaces one stream, and leaves the other streams and their clients
    alone. -/
theorem planeInv_replaced (s s' : Plane κ ω χ α π ι ξ) (hs : PlaneInv R T E s)
    (hcontrol : s'.env = s.env ∧ s'.control = s.control ∧ s'.fleet.feed = s.fleet.feed) (id : Nat)
    (l' : Option (Link α π ι)) (hlinks : s'.fleet.links = Function.update s.fleet.links id l')
    (hothers : ∀ j l, j ≠ id → s.fleet.links j = some l →
      s'.refused j = s.refused j ∧ s'.fleet.clients l.client = s.fleet.clients l.client)
    (hstream : ∀ l, l' = some l → PlaneStream T E s.fleet.feed.rules (s'.refused id)
      (s'.fleet.clients l.client).setter l)
    (hclient : ∀ l, l' = some l → ∀ j l₀, j ≠ id → s.fleet.links j = some l₀ →
      l₀.client ≠ l.client) : PlaneInv R T E s' := by
  rcases hcontrol with ⟨henv, hcontrol, hfeed⟩
  have hcases : ∀ j l, s'.fleet.links j = some l →
      (j = id ∧ l' = some l) ∨ (j ≠ id ∧ s.fleet.links j = some l) := by
    intro j l hl
    rw [hlinks] at hl
    exact (update_eq_some_iff _ _ _ _ _).mp hl
  refine ⟨?_, ?_, fun j l hl => ?_, fun i j l₁ l₂ hl₁ hl₂ hsame => ?_, ?_⟩
  · rw [henv, hcontrol]
    exact hs.control
  · rw [hfeed, hcontrol]
    exact hs.feed
  · rw [hfeed]
    rcases hcases j l hl with ⟨rfl, hnew⟩ | ⟨hj, hold⟩
    · exact hstream l hnew
    · rw [(hothers j l hj hold).1, (hothers j l hj hold).2]
      exact hs.streams j l hold
  · rcases hcases i l₁ hl₁ with ⟨hi, hnew₁⟩ | ⟨hi, hold₁⟩
    · rcases hcases j l₂ hl₂ with ⟨hj, _⟩ | ⟨hj, hold₂⟩
      · exact hi.trans hj.symm
      · exact absurd hsame.symm (hclient l₁ hnew₁ j l₂ hj hold₂)
    · rcases hcases j l₂ hl₂ with ⟨hj, hnew₂⟩ | ⟨hj, hold₂⟩
      · exact absurd hsame (hclient l₂ hnew₂ i l₁ hi hold₁)
      · exact hs.alone i j l₁ l₂ hold₁ hold₂ hsame
  · rcases hs.bounded with ⟨n, hn⟩
    refine ⟨max n (id + 1), fun j hj => ?_⟩
    have hne : j ≠ id := by omega
    rw [hlinks, Function.update_of_ne hne]
    exact hn j (by omega)

/-- A step of a stream that goes on. Its client has no other. -/
theorem planeInv_moved (s s' : Plane κ ω χ α π ι ξ) (hs : PlaneInv R T E s)
    (hcontrol : s'.env = s.env ∧ s'.control = s.control ∧ s'.fleet.feed = s.fleet.feed) (id : Nat)
    (l l' : Link α π ι) (hl : s.fleet.links id = some l)
    (hlinks : s'.fleet.links = Function.update s.fleet.links id (some l'))
    (hclient : l'.client = l.client) (hrefused : s'.refused = s.refused)
    (hclients : ∀ client, client ≠ l.client → s'.fleet.clients client = s.fleet.clients client)
    (hstream : PlaneStream T E s.fleet.feed.rules (s.refused id)
      (s'.fleet.clients l.client).setter l') : PlaneInv R T E s' := by
  have hother : ∀ j l₁, j ≠ id → s.fleet.links j = some l₁ → l₁.client ≠ l.client :=
    fun j l₁ hj hl₁ hsame => hj (hs.alone j id l₁ l hl₁ hl hsame)
  refine planeInv_replaced s s' hs hcontrol id (some l') hlinks ?_ ?_ ?_
  · intro j l₁ hj hl₁
    exact ⟨congrFun hrefused j, hclients _ (hother j l₁ hj hl₁)⟩
  · intro l₁ hl₁
    rw [← Option.some.inj hl₁, hclient, hrefused]
    exact hstream
  · intro l₁ hl₁ j l₀ hj hl₀
    rw [← Option.some.inj hl₁, hclient]
    exact hother j l₀ hj hl₀

/-- A step on the streams. -/
theorem planeInv_streamed (hT : Lawful T hits) (s : Plane κ ω χ α π ι ξ) (hs : PlaneInv R T E s)
    (e : FleetEvent α) (fleet : Fleet α π ι ξ) (hreads : e.Reads s.fleet)
    (hstep : Fleet.Step T E.set s.fleet e fleet) : PlaneInv R T E (s.streamed e fleet) := by
  cases hstep with
  | restart => exact hreads.elim
  | call c => exact hreads.elim
  | subscribe id client hfree =>
      refine planeInv_replaced s _ hs ⟨rfl, rfl, rfl⟩ id _ rfl ?_ ?_ ?_
      · intro j l hj _
        exact ⟨Function.update_of_ne hj .., rfl⟩
      · intro l hl
        rw [← Option.some.inj hl]
        exact planeStream_opened hT s.fleet client
      · intro l hl j l₀ _ hl₀
        rw [← Option.some.inj hl]
        exact hreads j l₀ hl₀
  | take id l resp rest hl hheld hchan =>
      refine planeInv_moved s _ hs ⟨rfl, rfl, rfl⟩ id l _ hl rfl rfl rfl (fun _ _ => rfl) ?_
      exact planeStream_moved l _ (queue_taken l resp rest hheld hchan) rfl rfl rfl
        (hs.streams id l hl)
  | send id l resp hl hheld =>
      refine planeInv_moved s _ hs ⟨rfl, rfl, rfl⟩ id l _ hl rfl rfl rfl (fun _ _ => rfl) ?_
      exact planeStream_moved l _ (queue_sent l resp hheld) rfl rfl rfl (hs.streams id l hl)
  | receive id l resp rest rules hl hwire hrules =>
      refine planeInv_moved s _ hs ⟨rfl, rfl, rfl⟩ id l _ hl rfl rfl rfl ?_ ?_
      · intro client hne
        exact Function.update_of_ne hne ..
      · have hclient : (s.fleet.received T E.set id l resp rest rules).clients l.client
            = (s.fleet.clients l.client).handle E.set
                { inst := l.inst, early := l.early, nth := l.received, rules := rules } :=
          Function.update_self ..
        rw [show ((s.streamed _ (s.fleet.received T E.set id l resp rest rules)).fleet.clients
          l.client) = _ from hclient]
        exact planeStream_received l resp rest hwire _ _ hrules (hs.streams id l hl)
  | drop id l hl =>
      refine planeInv_moved s _ hs ⟨rfl, rfl, rfl⟩ id l _ hl rfl rfl rfl (fun _ _ => rfl) ?_
      exact planeStream_orphaned l _ _ (hs.streams id l hl)
  | close id =>
      refine planeInv_replaced s _ hs ⟨rfl, rfl, rfl⟩ id none rfl (fun _ _ _ _ => ⟨rfl, rfl⟩) ?_ ?_
      · intro l hl
        cases hl
      · intro l hl
        cases hl

/-- A step that changes every stream alike, and may hand over something else to lead
    to. -/
theorem planeInv_mapped (s s' : Plane κ ω χ α π ι ξ) (hs : PlaneInv R T E s)
    (hcontrol : ControlInv R s'.env s'.control)
    (hfeed : s'.fleet.feed.rules = s'.control.published) (f : Link α π ι → Link α π ι)
    (hlinks : ∀ id, s'.fleet.links id = (s.fleet.links id).map f)
    (hclient : ∀ l, (f l).client = l.client)
    (hstream : ∀ id l, s.fleet.links id = some l →
      PlaneStream T E s'.fleet.feed.rules (s'.refused id) (s'.fleet.clients l.client).setter
        (f l)) :
    PlaneInv R T E s' := by
  refine ⟨hcontrol, hfeed, fun id l hl => ?_, fun i j l₁ l₂ hl₁ hl₂ hsame => ?_, ?_⟩
  · rw [hlinks] at hl
    rcases Option.map_eq_some_iff.mp hl with ⟨l₀, hl₀, rfl⟩
    rw [hclient]
    exact hstream id l₀ hl₀
  · rw [hlinks] at hl₁ hl₂
    rcases Option.map_eq_some_iff.mp hl₁ with ⟨l₁', hl₁', rfl⟩
    rcases Option.map_eq_some_iff.mp hl₂ with ⟨l₂', hl₂', rfl⟩
    rw [hclient, hclient] at hsame
    exact hs.alone i j l₁' l₂' hl₁' hl₂' hsame
  · rcases hs.bounded with ⟨n, hn⟩
    refine ⟨n, fun id hid => ?_⟩
    rw [hlinks, hn id hid]
    rfl

/-- Every heeded step keeps the invariant. -/
theorem planeInv_step (hT : Lawful T hits)
    (hkey : ∀ v o o', R.Settles v o o' → R.key o' = R.key o) (s s' : Plane κ ω χ α π ι ξ)
    (e : PlaneEvent κ ω χ ν α) (hs : PlaneInv R T E s) (hheeds : s.Heeds R e)
    (hstep : Plane.Step R T E s e s') : PlaneInv R T E s' := by
  cases hstep with
  | surroundings env =>
      refine ⟨⟨hs.control.versions, hs.control.keyed, hs.control.held, ?_⟩, hs.feed, hs.streams,
        hs.alone, hs.bounded⟩
      exact publishInv_env env s.control hheeds hs.control.publish
  | work e control hpass hstep =>
      refine ⟨controlInv_step hkey s.control control e hs.control hheeds hstep, ?_, hs.streams,
        hs.alone, hs.bounded⟩
      rw [published_step s.control control e hpass hstep]
      exact hs.feed
  | publish control hstep =>
      refine planeInv_mapped s _ hs
        (controlInv_step hkey s.control control .publish hs.control hheeds hstep) rfl
        (fun l => l.offered (T.call s.fleet.feed (.update control.published)).2) (fun _ => rfl)
        ?_ ?_
      · intro l
        unfold Link.offered
        split
        · rfl
        · rfl
      · intro id l hl
        have hfull : (s.announced T control).refused id = Link.full (some l) := by
          rw [← hl]
          rfl
        rw [hfull]
        exact planeStream_offered hT s.fleet.feed control.published l (hs.streams id l hl)
  | stream e fleet hreads hstep => exact planeInv_streamed hT s hs e fleet hreads hstep
  | restart keys hkeys =>
      refine planeInv_mapped s _ hs (controlInv_restarted s.control keys hkeys hs.control) rfl
        Link.orphaned (fun _ => rfl) (fun _ => rfl) ?_
      exact fun id l hl => planeStream_orphaned l _ _ (hs.streams id l hl)
  | serve client x hserves =>
      refine planeInv_mapped s _ hs hs.control hs.feed id (fun _ => Option.map_id'.symm)
        (fun _ => rfl) ?_
      intro j l hl
      have hold := hs.streams j l hl
      by_cases hc : l.client = client
      · have hclient : ((s.served client x).fleet.clients l.client).setter = x := by
          simp only [Plane.served, hc, Function.update_self]
        rw [hclient]
        rw [← hc] at hserves
        exact planeStream_served l x hserves hold
      · have hclient : (s.served client x).fleet.clients l.client = s.fleet.clients l.client :=
          Function.update_of_ne hc ..
        rw [hclient]
        exact hold

theorem planeInv_reachable (hT : Lawful T hits)
    (hkey : ∀ v o o', R.Settles v o o' → R.key o' = R.key o) (s : Plane κ ω χ α π ι ξ)
    (hr : ((planes R T E).restrict (Plane.Heeds R)).Reachable s) : PlaneInv R T E s := by
  refine System.invariant (PlaneInv R T E) ?_ ?_ s hr
  · exact fun s hinit => planeInv_init s hinit
  · exact fun s e s' hs hstep => planeInv_step hT hkey s s' e hs hstep.1 hstep.2

/-- The reconciler in surroundings it does not know: a lookup may find what it could find
    anywhere, or what a failed one counts as. -/
def Reconciler.unaware (R : Reconciler κ ω χ ν α) : Reconciler κ ω χ ν α :=
  { R with Finds := fun _ o v => (∃ env, R.Finds env o v) ∨ v = R.missed o }

omit [DecidableEq ι] in
/-- For it there is nothing to heed. -/
theorem heeds_unaware (s : Plane κ ω χ α π ι ξ) (e : PlaneEvent κ ω χ ν α) :
    s.Heeds R.unaware e := by
  cases e with
  | surroundings env => exact fun _ _ _ _ _ => Iff.rfl
  | work e =>
      have hmissed : ∀ o, R.unaware.Finds s.env o (R.unaware.missed o) := fun _ => Or.inr rfl
      exact failsSafely_of_finds hmissed s.control e
  | stream e => trivial
  | restart => trivial
  | serve client => trivial

/-- It can do what the reconciler does. -/
theorem controlStep_unaware (env : χ) (c c' : Control κ ω α) (e : ControlEvent κ ω ν)
    (hstep : Control.Step R env c e c') : Control.Step R.unaware env c e c' := by
  cases hstep with
  | change k o hkey hdelete => exact .change c k o hkey hdelete
  | start hidle k rest hqueue => exact .start c hidle k rest hqueue
  | getFound k hphase read hread => exact .getFound c k hphase read hread
  | getNotFound k hphase hread => exact .getNotFound c k hphase hread
  | getFailed k hphase => exact .getFailed c k hphase
  | find k read hphase v hfinds obj hsettles =>
      exact .find c k read hphase v (Or.inl ⟨env, hfinds⟩) obj hsettles
  | findFailed k read hphase obj hsettles => exact .findFailed c k read hphase obj hsettles
  | updateSame k version obj hphase current hcurrent hversion hsame =>
      exact .updateSame c k version obj hphase current hcurrent hversion hsame
  | updateChanged k version obj hphase current hcurrent hversion hchanged =>
      exact .updateChanged c k version obj hphase current hcurrent hversion hchanged
  | updateFailed k version obj hphase => exact .updateFailed c k version obj hphase
  | list k hphase items hitems => exact .list c k hphase items hitems
  | listFailed k hphase => exact .listFailed c k hphase
  | build k o todo rules hphase v hfinds =>
      exact .build c k o todo rules hphase v (Or.inl ⟨env, hfinds⟩)
  | buildFailed k o todo rules hphase => exact .buildFailed c k o todo rules hphase
  | publish k rules hphase => exact .publish c k rules hphase

theorem planeStep_unaware (s s' : Plane κ ω χ α π ι ξ) (e : PlaneEvent κ ω χ ν α)
    (hstep : Plane.Step R T E s e s') : Plane.Step R.unaware T E s e s' := by
  cases hstep with
  | surroundings env => exact .surroundings s env
  | work e control hpass hstep =>
      exact .work s e control hpass (controlStep_unaware s.env s.control control e hstep)
  | publish control hstep =>
      exact .publish s control (controlStep_unaware s.env s.control control .publish hstep)
  | stream e fleet hreads hstep => exact .stream s e fleet hreads hstep
  | restart keys hkeys => exact .restart s keys hkeys
  | serve client x hserves => exact .serve s client x hserves

/-- What every run keeps, whatever lookups find on the way and however they fail. -/
theorem planeInv_unaware (hT : Lawful T hits)
    (hkey : ∀ v o o', R.Settles v o o' → R.key o' = R.key o) (s : Plane κ ω χ α π ι ξ)
    (hr : (planes R T E).Reachable s) : PlaneInv R.unaware T E s := by
  have hkey' : ∀ v o o', R.unaware.Settles v o o' → R.unaware.key o' = R.unaware.key o := hkey
  refine System.invariant (PlaneInv R.unaware T E) ?_ ?_ s hr
  · rintro s ⟨hinitial, hrest⟩
    exact planeInv_init s ⟨⟨hinitial.idle, hinitial.published, hinitial.queued,
      hinitial.versions⟩, hrest⟩
  · intro s e s' hs hstep
    exact planeInv_step hT hkey' s s' e hs (heeds_unaware s e) (planeStep_unaware s s' e hstep)

/-- What a client that nothing is left to do for was handed last: the rules made from
    the objects stored. -/
theorem handed_of_settled (s : Plane κ ω χ α π ι ξ) (hs : PlaneInv R T E s) (client : Nat)
    (hsettled : s.Settled client) :
    ∃ objs rules, Listed s.control objs ∧ Rebuilds R s.env objs rules ∧
      HandedLast E (insertAll T.key ∅ rules) (s.fleet.clients client).setter := by
  rcases hsettled.current with ⟨id, l, hl, hclient, hlive, hqueue, hroom⟩
  have hstream := hs.streams id l hl
  have hpos : 0 < l.received := by
    refine Nat.pos_of_ne_zero fun hzero => ?_
    exact hstream.first hlive hzero hqueue
  have hrules : l.rules = insertAll T.key ∅ s.control.published := by
    have hleads := hstream.leads hlive hroom
    rw [hqueue, hs.feed] at hleads
    exact hleads
  rcases published_of_quiet s.control hs.control.publish hsettled.quiet with
    ⟨objs, hlisted, hbuilt⟩
  refine ⟨objs, s.control.published, hlisted, hbuilt, ?_⟩
  rw [← hrules, ← hclient]
  exact hstream.handed hpos

/-- What holds of what rules are handed to, whatever happens. -/
theorem setters_reachable (P : ξ → Prop) (hnew : ∀ x, E.New x → P x)
    (hset : ∀ x rules y, P x → E.set x rules = .ok y → P y)
    (hserves : ∀ x y, P x → E.Serves x y → P y) (s : Plane κ ω χ α π ι ξ)
    (hr : (planes R T E).Reachable s) (client : Nat) : P (s.fleet.clients client).setter := by
  have hupdate : ∀ (clients : Nat → Consumer α ξ) (c : Nat) (k : Consumer α ξ),
      (∀ i, P (clients i).setter) → P k.setter → ∀ i, P (Function.update clients c k i).setter := by
    intro clients c k hclients hk i
    by_cases hi : i = c
    · rw [hi, Function.update_self]
      exact hk
    · rw [Function.update_of_ne hi]
      exact hclients i
  refine System.invariant (fun s => ∀ i, P (s.fleet.clients i).setter) ?_ ?_ s hr client
  · intro s hinit
    rcases hinit with ⟨_, _, setters, hfleet, hsetters⟩
    rw [hfleet]
    exact fun i => hnew _ (hsetters i)
  · intro s e s' hs hstep
    cases hstep with
    | surroundings env => exact hs
    | work e control hpass hstep => exact hs
    | publish control hstep => exact hs
    | restart keys hkeys => exact hs
    | serve client x hx => exact hupdate _ client _ hs (hserves _ x (hs client) hx)
    | stream e fleet hreads hstep =>
        cases hstep with
        | restart => exact hs
        | call c => exact hs
        | subscribe id client hfree => exact hs
        | take id l resp rest hl hheld hchan => exact hs
        | send id l resp hl hheld => exact hs
        | drop id l hl => exact hs
        | close id => exact hs
        | receive id l resp rest rules hl hwire hrules =>
            refine hupdate _ l.client _ hs ?_
            unfold Consumer.handle
            cases hx : E.set (s.fleet.clients l.client).setter rules with
            | error e => exact hs l.client
            | ok x => exact hset _ rules x (hs l.client) hx

end Invariant

/-- An object is stored. -/
def Control.Stores (c : Control κ ω α) (o : ω) : Prop :=
  ∃ k st, c.store.lookup k = some st ∧ st.obj = o

theorem mem_listed (c : Control κ ω α) (objs : List ω) (hlisted : Listed c objs) (o : ω) :
    o ∈ objs ↔ c.Stores o := by
  rcases hlisted with ⟨items, hitems, rfl⟩
  rw [List.mem_map]
  constructor
  · rintro ⟨st, hst, rfl⟩
    rcases (mem_of_ranges hitems st).mp hst with ⟨k, hk⟩
    exact ⟨k, st, hk, rfl⟩
  · rintro ⟨k, st, hk, rfl⟩
    exact ⟨st, (mem_of_ranges hitems st).mpr ⟨k, hk⟩, rfl⟩

omit [DecidableEq κ] in
/-- Rules are made of the objects and what was found for each of them. -/
theorem exists_found (R : Reconciler κ ω χ ν α) (env : χ) (objs : List ω) (rules : List α)
    (hbuilt : Rebuilds R env objs rules) :
    ∃ found : List (ω × ν), objs = found.map Prod.fst ∧
      (∀ p ∈ found, R.Finds env p.1 p.2) ∧ rules = found.flatMap fun p => R.rules p.1 p.2 := by
  rcases hbuilt with ⟨chunks, hchunks, rfl⟩
  induction hchunks with
  | nil => exact ⟨[], rfl, fun p hp => absurd hp List.not_mem_nil, rfl⟩
  | @cons o _ _ _ hchunk _ ih =>
      rcases hchunk with ⟨v, hv, rfl⟩
      rcases ih with ⟨found, rfl, hfinds, hrules⟩
      refine ⟨(o, v) :: found, rfl, List.forall_mem_cons.mpr ⟨hv, hfinds⟩, ?_⟩
      rw [List.flatten_cons, hrules]
      rfl

omit [DecidableEq ι] in
/-- Where lookups find nothing but what a failed one counts as, every step is
    heeded. -/
theorem heeds_of_finds (R : Reconciler κ ω Unit ν α) (hfinds : ∀ o, R.Finds () o (R.missed o))
    (s : Plane κ ω Unit α π ι ξ) (e : PlaneEvent κ ω Unit ν α) : s.Heeds R e := by
  cases e with
  | surroundings env => exact fun _ _ _ _ _ => Iff.rfl
  | work e => exact failsSafely_of_finds hfinds s.control e
  | stream e => trivial
  | restart => trivial
  | serve client => trivial

end Generic

section Kinds

variable (u : Unicode)

/-- Requirements, and the adapters that verify tokens. -/
def verificationPlanes (S : SortSlice) (newEnv : Except String (Cel.Env Celverify.Context)) :
    System (Plane (String × String) V1alpha1.ServiceTokenRequirement Unit VerificationRule
        Proto.VerificationRule (String × String) ExtAuth.Server)
      (PlaneEvent (String × String) V1alpha1.ServiceTokenRequirement Unit Unit
        VerificationRule) :=
  planes (Controller.requirementReconciler u newEnv) verificationStream
    (verificationEnforcer u S newEnv)

/-- Policies, and token services. -/
def issuancePlanes (S : SortSlice) (newEnv : Except String (Cel.Env Tts.Activation)) :
    System (Plane String V1alpha1.TokenPolicy Unit IssuanceRule Proto.IssuanceRule
        (String × String × String) HandlerSetter)
      (PlaneEvent String V1alpha1.TokenPolicy Unit Unit IssuanceRule) :=
  planes (Controller.policyReconciler u newEnv) issuanceStream (issuanceEnforcer u S newEnv)

/-- Transaction types, and the adapters that obtain tokens, with policies around that
    change at any time. -/
def generationPlanes (parseDuration : String → Except String Int) :
    System (Plane (String × String) V1alpha1.TransactionType
        (GoMap String (Stored V1alpha1.TokenPolicy)) GenerationRule Proto.GenerationRule
        (String × String) ExtAuth.GenerationServer)
      (PlaneEvent (String × String) V1alpha1.TransactionType
        (GoMap String (Stored V1alpha1.TokenPolicy)) Controller.Verdict GenerationRule) :=
  planes (Controller.transactionTypeReconciler u parseDuration) generationStream
    generationEnforcer

/-- The runs of it in which policies change only while the types they concern are pending,
    and listings of policies fail only where that makes no difference or a later pass is
    due. -/
def heededGenerationPlanes (parseDuration : String → Except String Int) :
    System (Plane (String × String) V1alpha1.TransactionType
        (GoMap String (Stored V1alpha1.TokenPolicy)) GenerationRule Proto.GenerationRule
        (String × String) ExtAuth.GenerationServer)
      (PlaneEvent (String × String) V1alpha1.TransactionType
        (GoMap String (Stored V1alpha1.TokenPolicy)) Controller.Verdict GenerationRule) :=
  (generationPlanes u parseDuration).restrict
    (Plane.Heeds (Controller.transactionTypeReconciler u parseDuration))

end Kinds

end Kontxt
