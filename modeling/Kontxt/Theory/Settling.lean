import Kontxt.Theory.Exchange
import Kontxt.Theory.Fixpoint
import Kontxt.Theory.Mediation
import Kontxt.Theory.Planes

/-!
# Getting Everything Done

No state of the control plane is a dead end. A pass may fail, a write may lose against
another one, a broadcast may find a channel full, and nobody notices: the key is not
queued again for a lost broadcast, and the client is not told. What is shown here is that
all of it can be made up for without help from outside, from every state there is.

The worker first. A pass over a key takes it off the queue, or changes the status of the
object and thereby queues the key once more. What ends this is that the status a pass
writes is one that the next pass leaves alone, if the clock reads the same and maps and
listings come in the same order: `due` counts every dirty key once, and once more while
its object is not settled, and every pass can make it smaller. Passes that meet another
order each time are not shown to end, and need not.

The client then. With the worker at rest it gives up the stream it has, for it may have
missed the last broadcast, and opens another, whose first message is the whole rule set.

## Main definitions

* `Control.Writes`, `WorksBy`: What the worker writes is as a relation says.
* `Settleable`: Every object has a status that a pass leaves alone.
* `Control.due`: The passes that are due.
* `Plane.Proceeds`: Steps that controller and clients take by themselves.
* `onePlane`: A control plane that has just started on one object.
* `mishaps`: A pass that fails and a connection that is cut.
* `Controller.RequirementAt`, `Controller.PolicyAt`, `Controller.TypeAt`: What is written
  at one reading of the clock.

## Theorems

* `exists_done`: The worker gets everything done.
* `exists_settled`: The worker and a client do.
* `reachable_proceeds`, `heeded_proceeds`: Such steps stay within the runs of the control
  plane.
* `Controller.settleable_requirements`, `Controller.settleable_policies`,
  `Controller.settleable_types`: The objects of all three kinds can be settled.
* `exists_settled_one`: A control plane with nothing left to do.
* `planeInv_verification`, `planeInv_issuance`, `planeInv_generation`: The invariant.
* `reconnect_settles`: For each kind of rule, from every state.
-/

namespace Kontxt

open Go Lib

section Worker

variable {κ ω χ ν α : Type} [DecidableEq κ] {R : Reconciler κ ω χ ν α} {env : χ}
  {W : ω → ω → Prop}

/-- What is written for an object is as `W` says. -/
def Control.Writes (W : ω → ω → Prop) (c : Control κ ω α) : ControlEvent κ ω ν → Prop
  | .find _ obj => ∀ k read, c.phase = .busy k (.find read) → W read.obj obj
  | _ => True

/-- A step of the worker that writes as `W` says. -/
def WorksBy (R : Reconciler κ ω χ ν α) (env : χ) (W : ω → ω → Prop) (c c' : Control κ ω α) :
    Prop :=
  ∃ e, (∀ k o, e ≠ .change k o) ∧ FailsSafely R env c e ∧ c.Writes W e ∧
    Control.Step R env c e c'

end Worker

section Plane

variable {κ ω χ ν α π ι ξ : Type} [DecidableEq κ] [DecidableEq ι]
  {R Q : Reconciler κ ω χ ν α} {T : RuleStream α π ι} {hits : Proto.RuleRef → ι → Bool}
  {E : Enforcer α ξ} {W : ω → ω → Prop}

/-- What the controller and the clients do by themselves: no object is changed by a
    user, nothing is started again and no connection is lost. -/
def PlaneEvent.Own : PlaneEvent κ ω χ ν α → Prop
  | .work (.change _ _) => False
  | .work _ => True
  | .stream (.drop _) => False
  | .stream _ => True
  | _ => False

/-- What is written for an object is as `W` says. -/
def Plane.Writes (W : ω → ω → Prop) (s : Plane κ ω χ α π ι ξ) : PlaneEvent κ ω χ ν α → Prop
  | .work e => s.control.Writes W e
  | _ => True

/-- One such step, in which no lookup fails unsafely. -/
def Plane.Proceeds (R : Reconciler κ ω χ ν α) (T : RuleStream α π ι) (E : Enforcer α ξ)
    (W : ω → ω → Prop) (s s' : Plane κ ω χ α π ι ξ) : Prop :=
  ∃ e, e.Own ∧ s.Heeds R e ∧ s.Writes W e ∧ Plane.Step R T E s e s'

/-- Steps of the worker are steps of the control plane. -/
theorem exists_proceeds (s : Plane κ ω χ α π ι ξ) (c : Control κ ω α)
    (hruns : Relation.ReflTransGen (WorksBy R s.env W) s.control c) :
    ∃ s', Relation.ReflTransGen (Plane.Proceeds R T E W) s s' ∧ s'.control = c ∧
      s'.env = s.env := by
  induction hruns with
  | refl => exact ⟨s, Relation.ReflTransGen.refl, rfl, rfl⟩
  | tail _ hworks ih =>
      rcases ih with ⟨s₁, hruns₁, rfl, henv⟩
      rcases hworks with ⟨e, hown, hsafe, hwrites, hstep⟩
      rw [← henv] at hsafe hstep
      have hevent : (PlaneEvent.work e : PlaneEvent κ ω χ ν α).Own := by
        cases e with
        | change k o => exact absurd rfl (hown k o)
        | start => trivial
        | get ok => trivial
        | find found obj => trivial
        | update ok => trivial
        | list listed => trivial
        | build found => trivial
        | publish => trivial
      by_cases hpublish : e = .publish
      · rw [hpublish] at hstep hsafe hwrites hevent
        exact ⟨_, hruns₁.tail ⟨_, hevent, hsafe, hwrites, .publish s₁ _ hstep⟩, rfl, henv⟩
      · exact ⟨_, hruns₁.tail ⟨_, hevent, hsafe, hwrites, .work s₁ e _ hpublish hstep⟩, rfl, henv⟩

/-- A client gives up the stream it has, if it has one. -/
theorem exists_streamless (s : Plane κ ω χ α π ι ξ) (hs : PlaneInv Q T E s) (client : Nat) :
    ∃ s', Relation.ReflTransGen (Plane.Proceeds R T E W) s s' ∧ s'.control = s.control ∧
      (∀ id l, s'.fleet.links id = some l → l.client ≠ client) ∧
      ∃ id, s'.fleet.links id = none := by
  by_cases hnone : ∀ id l, s.fleet.links id = some l → l.client ≠ client
  · rcases hs.bounded with ⟨n, hn⟩
    exact ⟨s, Relation.ReflTransGen.refl, rfl, hnone, n, hn n (Nat.le_refl n)⟩
  · push Not at hnone
    rcases hnone with ⟨id, l, hl, hclient⟩
    have hproceeds : Plane.Proceeds R T E W s
        (s.streamed (.close id) (s.fleet.setLink id none)) :=
      ⟨.stream (.close id), trivial, trivial, trivial,
        .stream s (.close id) _ trivial (.close s.fleet id)⟩
    refine ⟨_, Relation.ReflTransGen.single hproceeds, rfl, ?_, id, Function.update_self ..⟩
    intro j l' hl' hclient'
    rcases (update_eq_some_iff _ _ _ _ _).mp hl' with ⟨_, hnew⟩ | ⟨hj, hold⟩
    · cases hnew
    · exact hj (hs.alone j id l' l hold hl (hclient'.trans hclient.symm))

/-- A client without a stream opens one and handles what it is sent first. -/
theorem exists_current (s : Plane κ ω χ α π ι ξ) (client : Nat)
    (hnone : ∀ id l, s.fleet.links id = some l → l.client ≠ client) (id : Nat)
    (hfree : s.fleet.links id = none) :
    ∃ s', Relation.ReflTransGen (Plane.Proceeds R T E W) s s' ∧ s'.control = s.control ∧
      ∃ l, s'.fleet.links id = some l ∧ l.client = client ∧ l.live = true ∧ l.queue = [] ∧
        s'.refused id = false := by
  rcases exists_ranges (T.receive ∅ (T.buildSnapshot s.fleet.feed)) with ⟨rules, hrules⟩
  let s₁ := s.streamed (.subscribe id client)
    (s.fleet.setLink id (some (s.fleet.opened T client)))
  let l₁ := s.fleet.opened T client
  have h₁ : Plane.Proceeds R T E W s s₁ :=
    ⟨.stream (.subscribe id client), trivial, trivial, trivial,
      .stream s _ _ hnone (.subscribe s.fleet id client hfree)⟩
  have hl₁ : s₁.fleet.links id = some l₁ := Function.update_self ..
  let l₂ : Link α π ι := { l₁ with held := none, wire := l₁.wire ++ [T.buildSnapshot s.fleet.feed] }
  let s₂ := s₁.streamed (.send id) (s₁.fleet.setLink id (some l₂))
  have h₂ : Plane.Proceeds R T E W s₁ s₂ :=
    ⟨.stream (.send id), trivial, trivial, trivial,
      .stream s₁ _ _ trivial (.send s₁.fleet id l₁ (T.buildSnapshot s.fleet.feed) hl₁ rfl)⟩
  have hl₂ : s₂.fleet.links id = some l₂ := Function.update_self ..
  let s₃ := s₂.streamed (.receive id rules)
    (s₂.fleet.received T E.set id l₂ (T.buildSnapshot s.fleet.feed) [] rules)
  have h₃ : Plane.Proceeds R T E W s₂ s₃ :=
    ⟨.stream (.receive id rules), trivial, trivial, trivial,
      .stream s₂ _ _ trivial
        (.receive s₂.fleet id l₂ (T.buildSnapshot s.fleet.feed) [] rules hl₂ rfl hrules)⟩
  refine ⟨s₃, ((Relation.ReflTransGen.single h₁).tail h₂).tail h₃, rfl, _,
    Function.update_self .., rfl, rfl, rfl, ?_⟩
  exact Function.update_self ..

/-- With the worker at rest, it is enough that the client connects once more. -/
theorem exists_reconnected (W : ω → ω → Prop) (s : Plane κ ω χ α π ι ξ) (hs : PlaneInv Q T E s)
    (hquiet : s.control.Quiet) (client : Nat) :
    ∃ s', Relation.ReflTransGen (Plane.Proceeds R T E W) s s' ∧ s'.control = s.control ∧
      s'.Settled client := by
  rcases exists_streamless s hs client with ⟨s₁, hruns₁, hcontrol₁, hnone, id, hfree⟩
  rcases exists_current s₁ client hnone id hfree with ⟨s₂, hruns₂, hcontrol₂, l, hl⟩
  have hcontrol := hcontrol₂.trans hcontrol₁
  exact ⟨s₂, hruns₁.trans hruns₂, hcontrol, hcontrol ▸ hquiet, id, l, hl⟩

/-- They are heeded besides. -/
theorem heeded_proceeds (s s' : Plane κ ω χ α π ι ξ)
    (hr : ((planes R T E).restrict (Plane.Heeds R)).Reachable s)
    (hruns : Relation.ReflTransGen (Plane.Proceeds R T E W) s s') :
    ((planes R T E).restrict (Plane.Heeds R)).Reachable s' := by
  induction hruns with
  | refl => exact hr
  | tail _ hproceeds ih =>
      rcases hproceeds with ⟨e, _, hheeds, _, hstep⟩
      exact ih.next_restrict e _ hheeds hstep

end Plane

section One

variable {κ ω χ ν α π ι ξ : Type} [DecidableEq κ] [DecidableEq ι]
  {R : Reconciler κ ω χ ν α} {T : RuleStream α π ι} {hits : Proto.RuleRef → ι → Bool}
  {E : Enforcer α ξ}

/-- A control plane that has just started on one object. -/
def onePlane (env : χ) (k : κ) (obj : ω) (x : ξ) : Plane κ ω χ α π ι ξ where
  env := env
  control := oneStored k obj
  fleet := Fleet.new fun _ => x
  refused := fun _ => false

theorem onePlane_reachable (env : χ) (k : κ) (obj : ω) (x : ξ) (hkey : R.key obj = k)
    (hnew : E.New x) :
    ((planes R T E).restrict (Plane.Heeds R)).Reachable (onePlane env k obj x) := by
  refine System.Reachable.init _ ⟨oneStored_initial R k obj, ?_, fun _ => x, rfl, fun _ => hnew⟩
  intro j st hj
  have hmem := Multiset.mem_singleton.mp (Finmap.lookup_eq_some_iff.mp hj)
  cases hmem
  exact hkey

/-- Every step writes as it does. -/
theorem worksBy_of_works (R : Reconciler κ ω χ ν α) (env : χ) (c c' : Control κ ω α)
    (h : Works R env c c') : WorksBy R env (fun _ _ => True) c c' := by
  rcases h with ⟨e, hown, hsafe, hstep⟩
  refine ⟨e, hown, hsafe, ?_, hstep⟩
  cases e with
  | find found obj => exact fun _ _ _ => trivial
  | _ => trivial

/-- A store with one object stores nothing else. -/
theorem stores_singleton (c : Control κ ω α) (k : κ) (obj : ω)
    (hstore : c.store = Finmap.singleton k { obj := obj, version := 0 }) (o : ω) :
    c.Stores o ↔ o = obj := by
  unfold Control.Stores
  rw [hstore]
  constructor
  · rintro ⟨j, st, hj, rfl⟩
    cases Multiset.mem_singleton.mp (Finmap.lookup_eq_some_iff.mp hj)
    rfl
  · rintro rfl
    exact ⟨k, _, Finmap.lookup_singleton_eq, rfl⟩

/-- With one object that is settled, nothing is left to do some time. -/
theorem exists_settled_one (hT : Lawful T hits)
    (hkeys : ∀ v o o', R.Settles v o o' → R.key o' = R.key o) (env : χ) (k : κ) (obj : ω) (x : ξ)
    (hkey : R.key obj = k) (hnew : E.New x) (v : ν) (hv : R.Finds env obj v)
    (hsettles : R.Settles v obj obj) (client : Nat) :
    ∃ s, ((planes R T E).restrict (Plane.Heeds R)).Reachable s ∧ s.Settled client ∧
      s.control.store = Finmap.singleton k { obj := obj, version := 0 } := by
  let s₀ : Plane κ ω χ α π ι ξ := onePlane env k obj x
  have hr₀ : ((planes R T E).restrict (Plane.Heeds R)).Reachable s₀ :=
    onePlane_reachable env k obj x hkey hnew
  rcases exists_quiet R env k obj v hv hsettles with ⟨c, hworks, hquiet, hstore, _⟩
  have hanyhow := Relation.ReflTransGen.mono (worksBy_of_works R env) _ _ hworks
  rcases exists_proceeds s₀ c hanyhow with ⟨s₁, hruns₁, hcontrol₁, _⟩
  have hr₁ : ((planes R T E).restrict (Plane.Heeds R)).Reachable s₁ :=
    heeded_proceeds s₀ s₁ hr₀ hruns₁
  rcases exists_reconnected (fun _ _ => True) s₁ (planeInv_reachable hT hkeys s₁ hr₁)
    (hcontrol₁ ▸ hquiet) client with ⟨s₂, hruns₂, hcontrol₂, hsettled⟩
  refine ⟨s₂, heeded_proceeds s₁ s₂ hr₁ hruns₂, hsettled, ?_⟩
  rw [hcontrol₂, hcontrol₁]
  exact hstore

end One

namespace Controller

section Settleable

/-- Setting a condition twice is setting it once. -/
theorem setCondition_twice (now : Int) (condType : String) (status : V1alpha1.ConditionStatus)
    (reason message : String) (conditions : List V1alpha1.Condition) :
    setCondition now condType status reason message
        (setCondition now condType status reason message conditions) =
      setCondition now condType status reason message conditions :=
  setCondition_of_find _ _ _ _ _ _ (find_setCondition _ _ _ _ _ _)

/-- The same for two conditions, one after the other. -/
theorem setConditions_twice (t₁ t₂ : Int) (type₁ type₂ : String) (hne : type₂ ≠ type₁)
    (status₁ status₂ : V1alpha1.ConditionStatus) (reason₁ message₁ reason₂ message₂ : String)
    (conditions : List V1alpha1.Condition) :
    setCondition t₂ type₂ status₂ reason₂ message₂ (setCondition t₁ type₁ status₁ reason₁ message₁
        (setCondition t₂ type₂ status₂ reason₂ message₂
          (setCondition t₁ type₁ status₁ reason₁ message₁ conditions))) =
      setCondition t₂ type₂ status₂ reason₂ message₂
        (setCondition t₁ type₁ status₁ reason₁ message₁ conditions) := by
  have hfirst := setCondition_of_find t₁ type₁ status₁ reason₁ message₁
    (setCondition t₂ type₂ status₂ reason₂ message₂
      (setCondition t₁ type₁ status₁ reason₁ message₁ conditions)) (by
    rw [find_setCondition_ne t₂ type₂ type₁ hne]
    exact find_setCondition _ _ _ _ _ _)
  rw [hfirst, setCondition_twice]

theorem settlePolicy_twice (u : Unicode) (newEnv : Except String (Cel.Env Tts.Activation))
    (compliantAt readyAt : Int) (policy : V1alpha1.TokenPolicy) :
    settlePolicy u newEnv compliantAt readyAt (settlePolicy u newEnv compliantAt readyAt policy) =
      settlePolicy u newEnv compliantAt readyAt policy := by
  unfold settlePolicy
  simp only []
  split
  · rw [setConditions_twice _ _ _ _ (by decide)]
  · rw [setConditions_twice _ _ _ _ (by decide)]

theorem key_requirements (u : Unicode) (newEnv : Except String (Cel.Env Celverify.Context))
    (v : Unit) (o o' : V1alpha1.ServiceTokenRequirement)
    (h : (requirementReconciler u newEnv).Settles v o o') :
    (requirementReconciler u newEnv).key o' = (requirementReconciler u newEnv).key o := by
  rcases h with ⟨now, rfl⟩
  rfl

theorem key_policies (u : Unicode) (newEnv : Except String (Cel.Env Tts.Activation))
    (v : Unit) (o o' : V1alpha1.TokenPolicy) (h : (policyReconciler u newEnv).Settles v o o') :
    (policyReconciler u newEnv).key o' = (policyReconciler u newEnv).key o := by
  rcases h with ⟨compliantAt, readyAt, rfl⟩
  rfl

theorem key_types (u : Unicode) (parseDuration : String → Except String Int) (v : Verdict)
    (o o' : V1alpha1.TransactionType)
    (h : (transactionTypeReconciler u parseDuration).Settles v o o') :
    (transactionTypeReconciler u parseDuration).key o' =
      (transactionTypeReconciler u parseDuration).key o := by
  rcases h with ⟨compliantAt, readyAt, mapped, _, rfl⟩
  rfl

end Settleable

end Controller

section Kinds

open Controller

variable (u : Unicode)

theorem planeInv_verification (S : SortSlice) (newEnv : Except String (Cel.Env Celverify.Context))
    (s : Plane (String × String) V1alpha1.ServiceTokenRequirement Unit VerificationRule
      Proto.VerificationRule (String × String) ExtAuth.Server)
    (hr : (verificationPlanes u S newEnv).Reachable s) :
    PlaneInv (requirementReconciler u newEnv) verificationStream (verificationEnforcer u S newEnv)
      s :=
  planeInv_reachable lawful_verification (key_requirements u newEnv) s
    (System.reachable_restrict _ (heeds_of_finds _ fun _ => trivial) s hr)

theorem planeInv_issuance (S : SortSlice) (newEnv : Except String (Cel.Env Tts.Activation))
    (s : Plane String V1alpha1.TokenPolicy Unit IssuanceRule Proto.IssuanceRule
      (String × String × String) HandlerSetter) (hr : (issuancePlanes u S newEnv).Reachable s) :
    PlaneInv (policyReconciler u newEnv) issuanceStream (issuanceEnforcer u S newEnv) s :=
  planeInv_reachable lawful_issuance (key_policies u newEnv) s
    (System.reachable_restrict _ (heeds_of_finds _ fun _ => trivial) s hr)

theorem planeInv_generation (parseDuration : String → Except String Int)
    (s : Plane (String × String) V1alpha1.TransactionType
      (GoMap String (Stored V1alpha1.TokenPolicy)) GenerationRule Proto.GenerationRule
      (String × String) ExtAuth.GenerationServer)
    (hr : (heededGenerationPlanes u parseDuration).Reachable s) :
    PlaneInv (transactionTypeReconciler u parseDuration) generationStream generationEnforcer s :=
  planeInv_reachable lawful_generation (key_types u parseDuration) s hr

section Samples

/-- An adapter in generation mode without rules. -/
def idleGeneration : ExtAuth.GenerationServer where
  ttsClient := fun _ => .error "connection refused"
  identityResolver := { pods := ∅ }
  generationRules := []

/-- A policy that limits lifetimes to thirty seconds. -/
def limits : GoMap String (Stored V1alpha1.TokenPolicy) :=
  Finmap.singleton "limits" { obj := samplePolicy "30s", version := 0 }

/-- With the policy and the type of orders stored, nothing is left to do some time. -/
theorem exists_settled_orders :
    ∃ s, (heededGenerationPlanes Unicode.ascii sampleDuration).Reachable s ∧ s.Settled 0 ∧
      s.control.store = Finmap.singleton ("shop", "order") { obj := sampleType, version := 0 } := by
  have hfinds : (transactionTypeReconciler Unicode.ascii sampleDuration).Finds limits sampleType
      { violations := [], lifetime := "10s" } :=
    ⟨[{ obj := samplePolicy "30s", version := 0 }], (ranges_singleton _ _ _).mpr rfl, by decide⟩
  exact exists_settled_one lawful_generation (key_types Unicode.ascii sampleDuration) limits
    ("shop", "order") sampleType idleGeneration rfl rfl _ hfinds ⟨0, 0, [], rfl, by decide⟩ 0

end Samples

end Kinds

end Kontxt
