import Kontxt.Theory.Reconciling

/-!
# Convergence to the Cluster

Whether the rules the controller published, once its queues are empty and its
workers idle, are those of the objects in the cluster.

Requirements and policies are looked at alone. No lookup of theirs can miss
anything, so the rules made from them converge in every run, whatever is
changed, deleted or fails on the way.

Transaction types depend on policies: the policy found decides the lifetime in
the rule and the condition `PolicyCompliant`. But their reconciler is registered
for transaction types only, and a change of a policy enqueues no transaction
type. Rules and conditions converge in runs in which a policy change alters the
verdict only on transaction types that are pending anyway, and a listing of
policies fails only where that makes no difference. In other runs they stay as
they are: `edited_policy_unnoticed` has a policy whose ceiling is lowered, and a
rule that keeps the old lifetime.

A status the policy worker writes is a change of a policy too, but not one that
alters a verdict. That is what versions are for: a status goes through only if
it was made from the policy as stored, so the policy's spec stays what it is.

## Main definitions

* `Controller.ShowsCompliance`: What the condition says of the violations.
* `Controller.cluster`: Transaction types and policies as one system.
* `Controller.Heeded`: A policy change finds the types it concerns pending.
* `Controller.ClusterInv`: What every heeded step preserves.
* `Controller.Converged`: Rules and conditions are those of the cluster.

## Theorems

* `Controller.rules_converge`: Verification and issuance rules converge.
* `Controller.find_setCondition`, `Controller.find_setCondition_ne`: The
  condition after one is set.
* `Controller.verdict_specs`: A verdict depends on specs only.
* `Controller.specs_step`: Only users change specs.
* `Controller.clusterInv_reachable`: Heeded runs keep everything seen to.
* `Controller.generation_converges`: Generation rules and conditions converge.
* `Controller.edited_policy_unnoticed`: An edited policy that is not noticed.
-/

namespace Kontxt

namespace Controller

open Go Lib

section Alone

variable {κ ω ρ : Type} [DecidableEq κ]

/-- Where lookups always find the same, published rules are those of the objects
    stored once it is quiet. -/
theorem published_eq_flatMap (R : Reconciler κ ω Unit Unit ρ)
    (hfinds : ∀ o, R.Finds () o ()) (s : Control κ ω ρ) (hr : (reconciling R ()).Reachable s)
    (hquiet : s.Quiet) :
    ∃ objs, Listed s objs ∧ s.published = objs.flatMap fun o => R.rules o () := by
  have hinv : PublishInv R () s := by
    refine System.invariant (PublishInv R ()) ?_ ?_ s hr
    · intro s hinit
      exact publishInv_init s hinit
    · intro s e s' hs hstep
      exact publishInv_step s e s' hs (failsSafely_of_finds hfinds s e) hstep
  rcases published_of_quiet s hinv hquiet with ⟨objs, hlisted, chunks, hchunks, hpublished⟩
  refine ⟨objs, hlisted, ?_⟩
  rw [hpublished, List.flatMap]
  congr 1
  clear hlisted hpublished
  induction hchunks with
  | nil => rfl
  | cons hchunk _ ih =>
      rcases hchunk with ⟨v, _, rfl⟩
      rw [List.map_cons, ← ih]

end Alone

/-- Verification and issuance rules converge to the cluster: whenever nothing is
    queued and the worker is idle, the rules last published are those a rebuild
    makes of the objects stored, whatever was changed, deleted or failed on the
    way. -/
theorem rules_converge (u : Unicode) (verifyEnv : Except String (Cel.Env Celverify.Context))
    (issueEnv : Except String (Cel.Env Tts.Activation)) :
    (∀ s, (reconciling (requirementReconciler u verifyEnv) ()).Reachable s → s.Quiet →
      ∃ strs, Listed s strs ∧ ∀ server, ∃ server',
        rebuildVerificationRules u verifyEnv (.ok strs) (some server) = .ok (some server') ∧
          server'.verification.rules = s.published) ∧
    (∀ s, (reconciling (policyReconciler u issueEnv) ()).Reachable s → s.Quiet →
      ∃ policies, Listed s policies ∧ ∀ server, ∃ server',
        rebuildIssuanceRules u issueEnv (.ok policies) (some server) = .ok (some server') ∧
          server'.issuance.rules = s.published) := by
  constructor
  · intro s hr hquiet
    rcases published_eq_flatMap _ (fun _ => trivial) s hr hquiet with ⟨strs, hlisted, hrules⟩
    refine ⟨strs, hlisted, fun server => ⟨_, rfl, ?_⟩⟩
    rw [hrules]
    exact List.map_eq_flatMap
  · intro s hr hquiet
    rcases published_eq_flatMap _ (fun _ => trivial) s hr hquiet with
      ⟨policies, hlisted, hrules⟩
    exact ⟨policies, hlisted, fun server => ⟨_, rfl, hrules.symm⟩⟩

/-- No environment, so no rule compiles. -/
def noEnv {A : Type} : Except String (Cel.Env A) :=
  .error "no environment"

/-- A requirement, with its status settled. -/
def sampleRequirement : V1alpha1.ServiceTokenRequirement :=
  settleRequirement Unicode.ascii noEnv 0
    { nameSpace := "shop", name := "orders"
      spec := { serviceRefName := "orders"
                verification := { requiredScope := "orders", requiredTctxFields := [], rules := [] }
                excludedEndpoints := [], autoNarrow := false } }

/-- A policy for all namespaces with a ceiling, with its status settled. -/
def samplePolicy (maxTokenLifetime : String) : V1alpha1.TokenPolicy :=
  settlePolicy Unicode.ascii noEnv 0 0
    { name := "limits"
      spec := { targetNamespaces := none
                constraints := { maxTokenLifetime := maxTokenLifetime }
                issuanceRules := [{ name := "never", cel := "false", message := "never" }] } }

/-- Another requirement, with its status settled. -/
def otherRequirement : V1alpha1.ServiceTokenRequirement :=
  { sampleRequirement with name := "carts" }

/-- A policy with a rule that is always false, with its status settled. -/
def constantPolicy (name : String) : V1alpha1.TokenPolicy :=
  settlePolicy Unicode.ascii (.ok (Cel.Env.constants _)) 0 0
    { name := name
      spec := { targetNamespaces := none, constraints := { maxTokenLifetime := "" }
                issuanceRules := [{ name := "never", cel := "false", message := "never" }] } }

/-- Both reconcilers, each started on one object and done with it when a second one is
    added, become quiet with the rules of both published. -/
theorem rules_converge_sample :
    (∃ s, (reconciling (requirementReconciler Unicode.ascii noEnv) ()).Reachable s ∧ s.Quiet ∧
      s.published.map (·.name) = ["carts", "orders"] ∧
      ∃ strs, Listed s strs ∧ ∀ server, ∃ server',
        rebuildVerificationRules Unicode.ascii noEnv (.ok strs) (some server) =
            .ok (some server') ∧
          server'.verification.rules = s.published) ∧
    (∃ s, (reconciling (policyReconciler Unicode.ascii (.ok (Cel.Env.constants _))) ()).Reachable
        s ∧ s.Quiet ∧
      s.published.map (fun r => (r.policyName, r.ruleName)) =
        [("freeze", "never"), ("limits", "never")] ∧
      ∃ policies, Listed s policies ∧ ∀ server, ∃ server',
        rebuildIssuanceRules Unicode.ascii (.ok (Cel.Env.constants _)) (.ok policies)
            (some server) = .ok (some server') ∧
          server'.issuance.rules = s.published) := by
  have hconverge := rules_converge Unicode.ascii noEnv (.ok (Cel.Env.constants _))
  constructor
  · rcases exists_quiet_two (requirementReconciler Unicode.ascii noEnv) () (fun _ => ())
      sampleRequirement otherRequirement (by decide) (fun _ _ => trivial) (by
        intro o ho
        exact ⟨0, by revert o; decide⟩) with ⟨s, hr, hquiet, hrules⟩
    refine ⟨s, hr, hquiet, ?_, hconverge.1 s hr hquiet⟩
    rw [hrules]
    rfl
  · rcases exists_quiet_two (policyReconciler Unicode.ascii (.ok (Cel.Env.constants _))) ()
      (fun _ => ()) (constantPolicy "limits") (constantPolicy "freeze") (by decide)
      (fun _ _ => trivial) (by
        intro o ho
        exact ⟨0, 0, by revert o; decide⟩) with ⟨s, hr, hquiet, hrules⟩
    refine ⟨s, hr, hquiet, ?_, hconverge.2 s hr hquiet⟩
    rw [hrules]
    decide

section Conditions

/-- The condition that was set is the one found. -/
theorem find_setCondition (now : Int) (condType : String) (status : V1alpha1.ConditionStatus)
    (reason message : String) (conditions : List V1alpha1.Condition) :
    (setCondition now condType status reason message conditions).find? (·.type == condType) =
      some { type := condType, status := status, reason := reason, message := message
             lastTransitionTime := now } := by
  induction conditions with
  | nil => simp [setCondition]
  | cons c cs ih =>
      unfold setCondition
      by_cases hc : c.type = condType
      · rw [if_pos hc]
        simp [hc]
      · rw [if_neg hc, List.find?_cons, beq_eq_false_iff_ne.mpr hc]
        exact ih

/-- Setting one condition leaves the others. -/
theorem find_setCondition_ne (now : Int) (condType other : String) (hne : condType ≠ other)
    (status : V1alpha1.ConditionStatus) (reason message : String)
    (conditions : List V1alpha1.Condition) :
    (setCondition now condType status reason message conditions).find? (·.type == other) =
      conditions.find? (·.type == other) := by
  induction conditions with
  | nil => simp only [setCondition, List.find?_cons, beq_eq_false_iff_ne.mpr hne]
  | cons c cs ih =>
      unfold setCondition
      by_cases hc : c.type = condType
      · have hother : (c.type == other) = false := beq_eq_false_iff_ne.mpr (hc ▸ hne)
        rw [if_pos hc]
        simp only [List.find?_cons, hother]
      · rw [if_neg hc, List.find?_cons, List.find?_cons, ih]

/-- The condition `PolicyCompliant` says what the violations are. -/
def ShowsCompliance (violations : List String) (tt : V1alpha1.TransactionType) : Prop :=
  ∃ c, tt.status.conditions.find? (·.type == conditionPolicyCompliant) = some c ∧
    if violations.length > 0 then
      c.status = .conditionFalse ∧ c.reason = "PolicyViolation" ∧
        c.message = "violations: " ++ formatSlice violations
    else
      c.status = .conditionTrue ∧ c.reason = "Compliant" ∧
        c.message = "all policy constraints satisfied"

/-- The status that is written says what the violations are. -/
theorem showsCompliance_settled (compliantAt readyAt : Int) (violations : List String)
    (lifetime : String) (producedFields : List String) (tt : V1alpha1.TransactionType) :
    ShowsCompliance violations
      (settleTransactionType compliantAt readyAt violations lifetime producedFields tt) := by
  unfold ShowsCompliance settleTransactionType
  -- Setting `Ready` afterwards does not touch it.
  rw [find_setCondition_ne readyAt conditionReady conditionPolicyCompliant (by decide)]
  by_cases hv : violations.length > 0
  · rw [if_pos hv]
    simp only [if_pos hv]
    exact ⟨_, find_setCondition compliantAt conditionPolicyCompliant _ _ _ _, rfl, rfl, rfl⟩
  · rw [if_neg hv]
    simp only [if_neg hv]
    exact ⟨_, find_setCondition compliantAt conditionPolicyCompliant _ _ _ _, rfl, rfl, rfl⟩

end Conditions

section Lookups

variable (u : Unicode) (parseDuration : String → Except String Int)

theorem policyOrNil_find (policies : List V1alpha1.TokenPolicy) (nameSpace : String) :
    policyOrNil (findApplicablePolicy (.ok policies) nameSpace) =
      (policies.find? (appliesTo nameSpace)).or
        (policies.find? fun policy => policy.spec.targetNamespaces.isNone) := by
  unfold findApplicablePolicy
  simp only []
  cases policies.find? (appliesTo nameSpace) with
  | none => rfl
  | some policy => rfl

/-- Whether a policy applies is a matter of its spec. -/
def specApplies (nameSpace : String) (spec : V1alpha1.TokenPolicySpec) : Bool :=
  match spec.targetNamespaces with
  | none => true
  | some sel => sel.matchNames.contains nameSpace

/-- The spec of the policy found is found among the specs. -/
theorem spec_policyOrNil (policies : List V1alpha1.TokenPolicy) (nameSpace : String) :
    (policyOrNil (findApplicablePolicy (.ok policies) nameSpace)).map (·.spec) =
      ((policies.map (·.spec)).find? (specApplies nameSpace)).or
        ((policies.map (·.spec)).find? fun spec => spec.targetNamespaces.isNone) := by
  rw [policyOrNil_find, Option.map_or, List.find?_map, List.find?_map]
  rfl

/-- A verdict depends on the spec of the policy only. -/
theorem verdict_spec (tt : V1alpha1.TransactionType) (p q : Option V1alpha1.TokenPolicy)
    (h : p.map (·.spec) = q.map (·.spec)) :
    verdict u parseDuration tt p = verdict u parseDuration tt q := by
  cases p with
  | none =>
      cases q with
      | none => rfl
      | some q => cases h
  | some p =>
      cases q with
      | none => cases h
      | some q =>
          have hspec : p.spec = q.spec := Option.some.inj h
          simp only [verdict, validateTransactionTypeAgainstPolicy, lifetimeViolations,
            effectiveLifetime, hspec]

/-- Listings of the same specs give the same verdict. -/
theorem verdict_specs (tt : V1alpha1.TransactionType) (ps qs : List V1alpha1.TokenPolicy)
    (h : ps.map (·.spec) = qs.map (·.spec)) (nameSpace : String) :
    verdict u parseDuration tt (policyOrNil (findApplicablePolicy (.ok ps) nameSpace)) =
      verdict u parseDuration tt (policyOrNil (findApplicablePolicy (.ok qs) nameSpace)) := by
  refine verdict_spec u parseDuration tt _ _ ?_
  rw [spec_policyOrNil, spec_policyOrNil, h]

/-- The spec under which a policy is stored. -/
def specOf (st : Stored V1alpha1.TokenPolicy) : V1alpha1.TokenPolicySpec :=
  st.obj.spec

/-- Stores with the same specs give the same verdicts. -/
theorem finds_of_specs (policies policies' : GoMap String (Stored V1alpha1.TokenPolicy))
    (h : mapVal specOf policies = mapVal specOf policies') (tt : V1alpha1.TransactionType)
    (v : Verdict) (hv : (transactionTypeReconciler u parseDuration).Finds policies tt v) :
    (transactionTypeReconciler u parseDuration).Finds policies' tt v := by
  rcases hv with ⟨items, hitems, rfl⟩
  rcases exists_ranges_of_mapVal_eq specOf policies policies' h items hitems with
    ⟨items', hitems', hsame⟩
  refine ⟨items', hitems', verdict_specs u parseDuration tt _ _ ?_ tt.nameSpace⟩
  rw [List.map_map, List.map_map]
  exact hsame.symm

variable (newEnv : Except String (Cel.Env Tts.Activation))

/-- Only a user's change alters the specs of the policies. -/
theorem specs_step (Shows : V1alpha1.TokenPolicy → Unit → Prop)
    (s : Control String V1alpha1.TokenPolicy IssuanceRule)
    (e : ControlEvent String V1alpha1.TokenPolicy Unit)
    (s' : Control String V1alpha1.TokenPolicy IssuanceRule)
    (hs : StatusInv (policyReconciler u newEnv) () Shows s)
    (hstep : Control.Step (policyReconciler u newEnv) () s e s') :
    (∃ k o, e = .change k o ∧ s' = s.changed k o) ∨
      mapVal specOf s.store = mapVal specOf s'.store := by
  cases hstep with
  | change k o hkey hdelete => exact Or.inl ⟨k, o, rfl, rfl⟩
  | updateChanged k version obj hphase current hcurrent hversion hchanged =>
      refine Or.inr (Finmap.ext_lookup fun j => ?_)
      have hheld := hs.held
      rw [hphase] at hheld
      rcases hheld.2 current hcurrent hversion with
        ⟨v, ⟨compliantAt, readyAt, rfl⟩, _⟩
      -- The status was made from the policy as stored.
      rw [lookup_mapVal, lookup_mapVal]
      have hstore :
          ((s.changed k (some (settlePolicy u newEnv compliantAt readyAt current.obj))).proceed k
            (.update version _) hphase .list).store =
          s.store.insert k
            ⟨settlePolicy u newEnv compliantAt readyAt current.obj, s.version⟩ := rfl
      rw [hstore]
      by_cases hj : j = k
      · rw [hj, Finmap.lookup_insert, hcurrent]
        rfl
      · rw [Finmap.lookup_insert_of_ne _ hj]
  | start hidle k rest hqueue => exact Or.inr rfl
  | getFound k hphase read hread => exact Or.inr rfl
  | getNotFound k hphase hread => exact Or.inr rfl
  | getFailed k hphase => exact Or.inr rfl
  | find k read hphase v hfinds obj hsettles => exact Or.inr rfl
  | findFailed k read hphase obj hsettles => exact Or.inr rfl
  | updateSame k version obj hphase current hcurrent hversion hsame => exact Or.inr rfl
  | updateFailed k version obj hphase => exact Or.inr rfl
  | list k hphase items hitems => exact Or.inr rfl
  | listFailed k hphase => exact Or.inr rfl
  | build k o todo rules hphase v hfinds => exact Or.inr rfl
  | buildFailed k o todo rules hphase => exact Or.inr rfl
  | publish k rules hphase => exact Or.inr rfl

end Lookups

section Together

variable (u : Unicode) (parseDuration : String → Except String Int)
  (newEnv : Except String (Cel.Env Tts.Activation))

/-- Transaction types and policies, each with their reconciler. -/
def cluster : System Cluster ClusterEvent where
  init := fun s => s.types.Initial (transactionTypeReconciler u parseDuration) ∧
    s.policies.Initial (policyReconciler u newEnv)
  step := Cluster.Step u parseDuration newEnv

/-- A policy change alters the verdict only on transaction types whose lookup is
    still to come, and a lookup that fails makes no difference. -/
def Heeded (s : Cluster) : ClusterEvent → Prop
  | .policies (.change k o) =>
    SameLookups (transactionTypeReconciler u parseDuration) s.policies.store
      (s.policies.changed k o).store s.types
  | .policies _ => True
  | .types e =>
    FailsSafely (transactionTypeReconciler u parseDuration) s.policies.store s.types e

/-- What every heeded step preserves. -/
structure ClusterInv (s : Cluster) : Prop where
  rules : PublishInv (transactionTypeReconciler u parseDuration) s.policies.store s.types
  types : StatusInv (transactionTypeReconciler u parseDuration) s.policies.store
    (fun tt v => ShowsCompliance v.violations tt) s.types
  policies : StatusInv (policyReconciler u newEnv) () (fun _ _ => True) s.policies

/-- Every heeded step keeps everything seen to. -/
theorem clusterInv_step (s : Cluster) (e : ClusterEvent) (s' : Cluster)
    (hs : ClusterInv u parseDuration newEnv s) (hheeded : Heeded u parseDuration s e)
    (hstep : Cluster.Step u parseDuration newEnv s e s') :
    ClusterInv u parseDuration newEnv s' := by
  cases hstep with
  | types e types' hstep =>
      refine ⟨publishInv_step s.types e types' hs.rules hheeded hstep, ?_, hs.policies⟩
      refine statusInv_step ?_ s.types e types' hs.types hheeded hstep
      intro v tt tt' hsettles
      rcases hsettles with ⟨compliantAt, readyAt, mapped, _, rfl⟩
      exact showsCompliance_settled compliantAt readyAt v.violations v.lifetime _ tt
  | policies e policies' hstep =>
      have hsame : SameLookups (transactionTypeReconciler u parseDuration) s.policies.store
          policies'.store s.types := by
        rcases specs_step u newEnv _ s.policies e policies' hs.policies hstep with
          ⟨k, o, rfl, rfl⟩ | hspecs
        · exact hheeded
        · intro k st _ _ v
          exact ⟨finds_of_specs u parseDuration _ _ hspecs st.obj v,
            finds_of_specs u parseDuration _ _ hspecs.symm st.obj v⟩
      refine ⟨publishInv_env _ s.types hsame hs.rules, statusInv_env _ s.types hsame hs.types, ?_⟩
      exact statusInv_step (fun _ _ _ _ => trivial) s.policies e policies' hs.policies
        (failsSafely_of_finds (fun _ => trivial) s.policies e) hstep

theorem clusterInv_reachable (s : Cluster)
    (hr : ((cluster u parseDuration newEnv).restrict (Heeded u parseDuration)).Reachable s) :
    ClusterInv u parseDuration newEnv s := by
  refine System.invariant (ClusterInv u parseDuration newEnv) ?_ ?_ s hr
  · intro s hinit
    exact ⟨publishInv_init s.types hinit.1, statusInv_init s.types hinit.1,
      statusInv_init s.policies hinit.2⟩
  · intro s e s' hs hstep
    exact clusterInv_step u parseDuration newEnv s e s' hs hstep.1 hstep.2

/-- Rules and conditions are those of the cluster: a rebuild on some listing of
    the transaction types, with some listing of the policies for each, publishes
    the rules last published, and every transaction type's condition says what
    its violations are under the policy applicable in some listing. -/
def Converged (s : Cluster) : Prop :=
  (∃ items : List (V1alpha1.TransactionType × Except String (List V1alpha1.TokenPolicy)),
    Listed s.types (items.map Prod.fst) ∧
    (∀ item ∈ items, ∃ policies, item.2 = .ok policies ∧ Listed s.policies policies) ∧
    ∀ server, ∃ server',
      rebuildGenerationRules parseDuration (.ok items) (some server) = .ok (some server') ∧
        server'.generation.rules = s.types.published) ∧
  ∀ key st, s.types.store.lookup key = some st → ∃ policies, Listed s.policies policies ∧
    ShowsCompliance (validateTransactionTypeAgainstPolicy u parseDuration st.obj
      (policyOrNil (findApplicablePolicy (.ok policies) st.obj.nameSpace))) st.obj

/-- Rules made from transaction types under what lookups found are those of a
    rebuild. -/
theorem exists_items (s : Cluster) (tts : List V1alpha1.TransactionType)
    (rules : List GenerationRule)
    (h : Rebuilds (transactionTypeReconciler u parseDuration) s.policies.store tts rules) :
    ∃ items : List (V1alpha1.TransactionType × Except String (List V1alpha1.TokenPolicy)),
      items.map Prod.fst = tts ∧
      (∀ item ∈ items, ∃ policies, item.2 = .ok policies ∧ Listed s.policies policies) ∧
      (items.map fun item => publishedRule parseDuration item.1 item.2) = rules := by
  rcases h with ⟨chunks, hchunks, rfl⟩
  induction hchunks with
  | nil => exact ⟨[], rfl, fun item hitem => absurd hitem List.not_mem_nil, rfl⟩
  | @cons tt chunk tts chunks hchunk _ ih =>
      rcases ih with ⟨items, htypes, hpolicies, hrules⟩
      rcases hchunk with ⟨v, ⟨listed, hlisted, rfl⟩, rfl⟩
      refine ⟨(tt, .ok (listed.map Stored.obj)) :: items, ?_, ?_, ?_⟩
      · rw [List.map_cons, htypes]
      · intro item hitem
        rcases List.mem_cons.mp hitem with rfl | hitem
        · exact ⟨_, rfl, listed, hlisted, rfl⟩
        · exact hpolicies item hitem
      · rw [List.map_cons, hrules]
        rfl

/-- Generation rules and conditions converge to the cluster in every run in
    which every policy change is heeded. -/
theorem generation_converges (s : Cluster)
    (hr : ((cluster u parseDuration newEnv).restrict (Heeded u parseDuration)).Reachable s)
    (hquiet : s.types.Quiet) : Converged u parseDuration s := by
  have hinv := clusterInv_reachable u parseDuration newEnv s hr
  constructor
  · rcases published_of_quiet s.types hinv.rules hquiet with ⟨tts, hlisted, hbuilt⟩
    rcases exists_items u parseDuration s tts _ hbuilt with ⟨items, rfl, hitems, hrules⟩
    exact ⟨items, hlisted, hitems, fun server => ⟨_, rfl, hrules⟩⟩
  · intro key st hst
    rcases shown_of_quiet s.types hinv.types hquiet key st hst with
      ⟨v, ⟨items, hitems, rfl⟩, hshows⟩
    exact ⟨_, ⟨items, hitems, rfl⟩, hshows⟩

/-- The worker for transaction types goes on while nothing else happens. -/
theorem reachable_types {ok : Cluster → ClusterEvent → Prop}
    (hok : ∀ s e, Heeded u parseDuration s e → ok s e) (s : Cluster)
    (hr : ((cluster u parseDuration newEnv).restrict ok).Reachable s)
    (types' : Control (String × String) V1alpha1.TransactionType GenerationRule)
    (hruns : Relation.ReflTransGen
      (Works (transactionTypeReconciler u parseDuration) s.policies.store) s.types types') :
    ((cluster u parseDuration newEnv).restrict ok).Reachable { s with types := types' } := by
  induction hruns with
  | refl => exact hr
  | tail _ hworks ih =>
      rcases hworks with ⟨e, _, hsafe, hstep⟩
      exact ih.next_restrict (.types e) _ (hok _ _ hsafe) (.types _ e _ hstep)

/-- The worker for policies goes on while nothing else happens. -/
theorem reachable_policies {ok : Cluster → ClusterEvent → Prop}
    (hok : ∀ s e, Heeded u parseDuration s e → ok s e) (s : Cluster)
    (hr : ((cluster u parseDuration newEnv).restrict ok).Reachable s)
    (policies' : Control String V1alpha1.TokenPolicy IssuanceRule)
    (hruns : Relation.ReflTransGen (Works (policyReconciler u newEnv) ()) s.policies policies') :
    ((cluster u parseDuration newEnv).restrict ok).Reachable
      { s with policies := policies' } := by
  induction hruns with
  | refl => exact hr
  | tail _ hworks ih =>
      rcases hworks with ⟨e, hchange, _, hstep⟩
      refine ih.next_restrict (.policies e) _ (hok _ _ ?_) (.policies _ e _ hstep)
      cases e with
      | change k o => exact absurd rfl (hchange k o)
      | start => trivial
      | get result => trivial
      | find found obj => trivial
      | update result => trivial
      | list listed => trivial
      | build found => trivial
      | publish => trivial

end Together

/-- A transaction type that asks for ten seconds, with its status settled. -/
def sampleType : V1alpha1.TransactionType :=
  settleTransactionType 0 0 [] "10s" ["purpose"]
    { nameSpace := "shop", name := "order"
      spec := { endpoint := { path := "/orders", method := "POST" }, purpose := "order"
                scope := "orders", tctxMapping := ∅, tctxEnrichments := [], rctxFields := []
                tokenLifetime := "10s" } }

/-- The durations the samples use. -/
def sampleDuration (s : String) : Except String Int :=
  if s = "5s" then .ok 5000000000
  else if s = "10s" then .ok 10000000000
  else if s = "30s" then .ok 30000000000
  else .error "unknown"

/-- A controller is started on a transaction type and a policy with too low a ceiling. The
    ceiling is raised while the type is pending, and then everything becomes quiet. -/
theorem exists_quiet_cluster (ok : Cluster → ClusterEvent → Prop)
    (hok : ∀ s e, Heeded Unicode.ascii sampleDuration s e → ok s e) :
    ∃ s, ((cluster Unicode.ascii sampleDuration noEnv).restrict ok).Reachable s ∧
      s.types.Quiet ∧ s.policies.Quiet ∧
      s.types.store = Finmap.singleton ("shop", "order") { obj := sampleType, version := 0 } ∧
      s.policies.store =
        Finmap.singleton "limits" { obj := samplePolicy "30s", version := 1 } ∧
      s.types.published = [generationRuleOf sampleType "10s"] := by
  let s0 : Cluster :=
    { types := oneStored ("shop", "order") sampleType
      policies := oneStored "limits" (samplePolicy "5s") }
  have hroot : ((cluster Unicode.ascii sampleDuration noEnv).restrict ok).Reachable s0 :=
    System.Reachable.init _ ⟨oneStored_initial _ _ _, oneStored_initial _ _ _⟩
  -- The type is queued, so the change is heeded.
  let raised := s0.policies.changed "limits" (some (samplePolicy "30s"))
  have hchange : Control.Step (policyReconciler Unicode.ascii noEnv) () s0.policies
      (.change "limits" (some (samplePolicy "30s"))) raised :=
    .change s0.policies "limits" _ (fun obj h => Option.some.inj h ▸ rfl) nofun
  have hheeded : Heeded Unicode.ascii sampleDuration s0
      (.policies (.change "limits" (some (samplePolicy "30s")))) := by
    intro k st hst hclean
    refine absurd (Or.inl ?_) hclean
    exact (oneStored_initial (transactionTypeReconciler Unicode.ascii sampleDuration) _ _).queued k
      st hst
  have hraised := hroot.next_restrict _ _ (hok _ _ hheeded)
    (Cluster.Step.policies s0 _ raised hchange)
  have hstore : raised.store =
      Finmap.singleton "limits" { obj := samplePolicy "30s", version := 1 } :=
    Finmap.insert_singleton_eq
  have hfinds : (transactionTypeReconciler Unicode.ascii sampleDuration).Finds raised.store
      sampleType { violations := [], lifetime := "10s" } := by
    rw [hstore]
    exact ⟨[{ obj := samplePolicy "30s", version := 1 }], (ranges_singleton _ _ _).mpr rfl,
      by decide⟩
  have hsettles : (transactionTypeReconciler Unicode.ascii sampleDuration).Settles
      { violations := [], lifetime := "10s" } sampleType sampleType :=
    ⟨0, 0, [], rfl, by decide⟩
  rcases exists_quiet (transactionTypeReconciler Unicode.ascii sampleDuration) raised.store
    ("shop", "order") sampleType _ hfinds hsettles with ⟨types, hruns, htypes, htstore, hrules⟩
  have hr := reachable_types Unicode.ascii sampleDuration noEnv hok _ hraised types hruns
  rcases exists_pass (policyReconciler Unicode.ascii noEnv) () (fun _ => ()) raised "limits"
    { obj := samplePolicy "30s", version := 1 } _ rfl rfl
    (by rw [hstore]; exact Finmap.lookup_singleton_eq)
    (by rw [hstore]; exact (ranges_singleton _ _ _).mpr rfl) (fun _ _ => trivial)
    ⟨0, 0, by decide⟩ with ⟨policies, hruns, hpolicies, hpstore, _⟩
  have hr := reachable_policies Unicode.ascii sampleDuration noEnv hok _ hr policies hruns
  exact ⟨_, hr, htypes, hpolicies, htstore, hpstore.trans hstore, hrules⟩

/-- Once quiet, that controller has converged: it has the policy as it was edited, and the
    lifetime the raised ceiling allows. -/
theorem generation_converges_sample :
    ∃ s, ((cluster Unicode.ascii sampleDuration noEnv).restrict
        (Heeded Unicode.ascii sampleDuration)).Reachable s ∧
      s.types.Quiet ∧ s.policies.Quiet ∧
      s.policies.store = Finmap.singleton "limits" { obj := samplePolicy "30s", version := 1 } ∧
      s.types.published = [generationRuleOf sampleType "10s"] ∧
      Converged Unicode.ascii sampleDuration s := by
  rcases exists_quiet_cluster (Heeded Unicode.ascii sampleDuration) (fun _ _ h => h) with
    ⟨s, hr, htypes, hpolicies, _, hpstore, hrules⟩
  exact ⟨s, hr, htypes, hpolicies, hpstore, hrules,
    generation_converges Unicode.ascii sampleDuration noEnv s hr htypes⟩

/-- The ceiling of the policy is lowered to five seconds. Everything becomes
    quiet again, and the rule published still says ten. -/
theorem edited_policy_unnoticed :
    ∃ s, (cluster Unicode.ascii sampleDuration noEnv).Reachable s ∧ s.types.Quiet ∧
      s.policies.Quiet ∧ ¬Converged Unicode.ascii sampleDuration s := by
  rcases exists_quiet_cluster (fun _ _ => True) (fun _ _ _ => trivial) with
    ⟨s, hr, htypes, hpolicies, htstore, hpstore, hrules⟩
  -- The user edits the policy, and the policy worker makes a pass.
  let edited : Stored V1alpha1.TokenPolicy :=
    { obj := samplePolicy "5s", version := s.policies.version }
  let changed := s.policies.changed "limits" (some (samplePolicy "5s"))
  have hchange : Control.Step (policyReconciler Unicode.ascii noEnv) () s.policies
      (.change "limits" (some (samplePolicy "5s"))) changed :=
    .change s.policies "limits" _ (fun obj h => Option.some.inj h ▸ rfl) nofun
  have hr := hr.next_restrict _ _ trivial (Cluster.Step.policies s _ changed hchange)
  have hstore : changed.store = Finmap.singleton "limits" edited := by
    have hinsert : changed.store = s.policies.store.insert "limits" edited := rfl
    rw [hinsert, hpstore, Finmap.insert_singleton_eq]
  have hsettled : samplePolicy "5s" = settlePolicy Unicode.ascii noEnv 0 0 (samplePolicy "5s") := by
    decide
  rcases exists_pass (policyReconciler Unicode.ascii noEnv) () (fun _ => ()) changed "limits"
    edited [edited] hpolicies.idle (queue_changed s.policies hpolicies _ _)
    (by rw [hstore]; exact Finmap.lookup_singleton_eq)
    (by rw [hstore]; exact (ranges_singleton _ _ _).mpr rfl) (fun _ _ => trivial)
    ⟨0, 0, hsettled⟩ with ⟨policies, hruns, hpolicies', hpstore', _⟩
  have hr := reachable_policies Unicode.ascii sampleDuration noEnv (fun _ _ _ => trivial) _ hr
    policies hruns
  refine ⟨_, System.reachable_of_restrict _ _ hr, htypes, hpolicies', fun hconverged => ?_⟩
  -- Only the edited policy can be listed, and it clamps the lifetime.
  rcases hconverged.1 with ⟨items, ⟨tts, htts, hfst⟩, hlisted, hrebuilt⟩
  rw [htstore, ranges_singleton] at htts
  rw [htts] at hfst
  rcases List.map_eq_singleton_iff.mp hfst with ⟨⟨tt, listed⟩, rfl, htt⟩
  rcases hlisted _ (List.mem_singleton_self _) with ⟨ps, hps, ⟨sts, hsts, hobjs⟩⟩
  rw [hpstore', hstore, ranges_singleton] at hsts
  rw [hsts] at hobjs
  rcases hrebuilt RuleServer.new with ⟨server, hserver, hsame⟩
  rw [hrules] at hsame
  have htt' : tt = sampleType := htt
  have hps' : listed = .ok [samplePolicy "5s"] := hps.trans (congrArg Except.ok hobjs)
  rw [htt', hps'] at hserver
  have hnew : server.generation.rules = [generationRuleOf sampleType "5s"] := by
    rw [← Option.some.inj (Except.ok.inj hserver)]
    rfl
  rw [hnew] at hsame
  exact absurd hsame (by decide)

end Controller

end Kontxt
