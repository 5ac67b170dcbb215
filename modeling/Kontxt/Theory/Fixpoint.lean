import Kontxt.Theory.Selection

/-!
# Reconciling Twice

Whether a second pass over a transaction type writes what the first one wrote.
The status is made of a verdict on the spec, which stays the same as long as the
same policy is found, but also of the times at which conditions are set, whether
or not they change, and of the mapping's keys in the order a loop meets them. So
`second_pass_iff`: the second pass writes the same status exactly when, besides
the verdict, its clock reads the same seconds and its loop meets the keys in the
same order. Otherwise the status that is written is a change, the controller
watches for changes, and the object is pending again.

The conditions are a list that is updated in place. What a pass leaves of them is
read off with `find?`: setting a condition is undone by nothing but setting it
again, and setting it to what it is already does nothing.

## Main definitions

* `Controller.complianceShown`: Status, reason and message for the violations.

## Theorems

* `Controller.settled_twice_iff`: When settling a type again does nothing.
* `Controller.settles_settledObject`: A pass in one go is a pass in steps.
* `Controller.mem_dirty_update_iff`: A status that is written is a change unless
  it is there already.
* `Controller.second_pass_iff`: When a second pass writes the same status.
* `Controller.later_pass_differs`: A pass a second later, and one with the keys
  in another order.
-/

namespace Kontxt

namespace Controller

open Go Lib

section Conditions

theorem setCondition_of_find (now : Int) (condType : String) (status : V1alpha1.ConditionStatus)
    (reason message : String) (conditions : List V1alpha1.Condition)
    (h : conditions.find? (·.type == condType) =
      some { type := condType, status := status, reason := reason, message := message
             lastTransitionTime := now }) :
    setCondition now condType status reason message conditions = conditions := by
  induction conditions with
  | nil => cases h
  | cons c cs ih =>
      unfold setCondition
      by_cases hc : c.type = condType
      · rw [List.find?_cons, beq_iff_eq.mpr hc] at h
        rw [if_pos hc, Option.some.inj h]
      · rw [List.find?_cons, beq_eq_false_iff_ne.mpr hc] at h
        rw [if_neg hc, ih h]

/-- Status, reason and message of the condition `PolicyCompliant`. -/
def complianceShown (violations : List String) :
    V1alpha1.ConditionStatus × String × String :=
  if violations.length > 0 then
    (.conditionFalse, "PolicyViolation", "violations: " ++ formatSlice violations)
  else (.conditionTrue, "Compliant", "all policy constraints satisfied")

/-- The conditions a pass writes. -/
def settledConditions (compliantAt readyAt : Int)
    (shown : V1alpha1.ConditionStatus × String × String)
    (conditions : List V1alpha1.Condition) : List V1alpha1.Condition :=
  setCondition readyAt conditionReady .conditionTrue "Reconciled" "generation rules updated"
    (setCondition compliantAt conditionPolicyCompliant shown.1 shown.2.1 shown.2.2 conditions)

theorem conditions_settled (compliantAt readyAt : Int) (violations : List String)
    (lifetime : String) (producedFields : List String) (tt : V1alpha1.TransactionType) :
    (settleTransactionType compliantAt readyAt violations lifetime producedFields
        tt).status.conditions =
      settledConditions compliantAt readyAt (complianceShown violations) tt.status.conditions := by
  unfold settleTransactionType settledConditions complianceShown
  by_cases hv : violations.length > 0
  · simp only [if_pos hv]
  · simp only [if_neg hv]

theorem find_settled_compliant (compliantAt readyAt : Int)
    (shown : V1alpha1.ConditionStatus × String × String)
    (conditions : List V1alpha1.Condition) :
    (settledConditions compliantAt readyAt shown conditions).find?
        (·.type == conditionPolicyCompliant) =
      some { type := conditionPolicyCompliant, status := shown.1, reason := shown.2.1
             message := shown.2.2, lastTransitionTime := compliantAt } := by
  unfold settledConditions
  rw [find_setCondition_ne readyAt conditionReady conditionPolicyCompliant (by decide)]
  exact find_setCondition _ _ _ _ _ _

theorem find_settled_ready (compliantAt readyAt : Int)
    (shown : V1alpha1.ConditionStatus × String × String)
    (conditions : List V1alpha1.Condition) :
    (settledConditions compliantAt readyAt shown conditions).find? (·.type == conditionReady) =
      some { type := conditionReady, status := .conditionTrue, reason := "Reconciled"
             message := "generation rules updated", lastTransitionTime := readyAt } :=
  find_setCondition _ _ _ _ _ _

/-- Setting both conditions again does nothing exactly when times and compliance
    are the same. -/
theorem settledConditions_twice_iff (c₁ r₁ c₂ r₂ : Int)
    (shown₁ shown₂ : V1alpha1.ConditionStatus × String × String)
    (conditions : List V1alpha1.Condition) :
    settledConditions c₂ r₂ shown₂ (settledConditions c₁ r₁ shown₁ conditions) =
        settledConditions c₁ r₁ shown₁ conditions ↔
      c₁ = c₂ ∧ r₁ = r₂ ∧ shown₁ = shown₂ := by
  constructor
  · intro h
    -- Each condition is found with what was set last.
    have hcompliant := find_settled_compliant c₂ r₂ shown₂
      (settledConditions c₁ r₁ shown₁ conditions)
    rw [h, find_settled_compliant, Option.some.injEq, V1alpha1.Condition.mk.injEq] at hcompliant
    have hready := find_settled_ready c₂ r₂ shown₂ (settledConditions c₁ r₁ shown₁ conditions)
    rw [h, find_settled_ready, Option.some.injEq, V1alpha1.Condition.mk.injEq] at hready
    rcases hcompliant with ⟨_, hstatus, hreason, hmessage, hc⟩
    rcases hready with ⟨_, _, _, _, hr⟩
    exact ⟨hc, hr, Prod.ext hstatus (Prod.ext hreason hmessage)⟩
  · intro h
    rcases h with ⟨rfl, rfl, rfl⟩
    have hcompliant := setCondition_of_find c₁ conditionPolicyCompliant shown₁.1 shown₁.2.1
      shown₁.2.2 _ (find_settled_compliant c₁ r₁ shown₁ conditions)
    have hready := setCondition_of_find r₁ conditionReady .conditionTrue "Reconciled"
      "generation rules updated" _ (find_settled_ready c₁ r₁ shown₁ conditions)
    rw [settledConditions, hcompliant, hready]

end Conditions

section Twice

variable (u : Unicode) (parseDuration : String → Except String Int)

/-- Settling a type that is settled does nothing exactly when times, compliance,
    lifetime and produced fields are the same. -/
theorem settled_twice_iff (c₁ r₁ c₂ r₂ : Int) (violations₁ violations₂ : List String)
    (lifetime₁ lifetime₂ : String) (fields₁ fields₂ : List String)
    (tt : V1alpha1.TransactionType) :
    (settleTransactionType c₂ r₂ violations₂ lifetime₂ fields₂
        (settleTransactionType c₁ r₁ violations₁ lifetime₁ fields₁ tt)).status =
      (settleTransactionType c₁ r₁ violations₁ lifetime₁ fields₁ tt).status ↔
    (c₁ = c₂ ∧ r₁ = r₂ ∧ complianceShown violations₁ = complianceShown violations₂) ∧
      fields₁ = fields₂ ∧ lifetime₁ = lifetime₂ := by
  -- A status has three parts, and each is compared by itself.
  have hstatus : ∀ s s' : V1alpha1.TransactionTypeStatus, s = s' ↔ s.conditions = s'.conditions ∧
      s.producedTctxFields = s'.producedTctxFields ∧
      s.effectiveTokenLifetime = s'.effectiveTokenLifetime := by
    intro s s'
    cases s
    cases s'
    simp
  rw [hstatus, conditions_settled, conditions_settled, settledConditions_twice_iff]
  simp only [settleTransactionType, eq_comm]

theorem computeProducedTctxFields_inj (tt : V1alpha1.TransactionType)
    (mapped₁ mapped₂ : List String) :
    computeProducedTctxFields tt mapped₁ = computeProducedTctxFields tt mapped₂ ↔
      mapped₁ = mapped₂ := by
  unfold computeProducedTctxFields
  simp

/-- The policy a pass finds for an object. -/
def Encounter.policyFor (met : Encounter) (tt : V1alpha1.TransactionType) :
    Option V1alpha1.TokenPolicy :=
  policyOrNil (findApplicablePolicy met.policies tt.nameSpace)

/-- What a pass writes in one go is what the worker may write in steps. -/
theorem settles_settledObject (met : Encounter) (tt : V1alpha1.TransactionType)
    (hmapped : RangesKeys tt.spec.tctxMapping met.mapped) :
    (transactionTypeReconciler u parseDuration).Settles
      (verdict u parseDuration tt (met.policyFor tt)) tt
      (settledObject u parseDuration met tt) :=
  ⟨met.compliantAt, met.readyAt, met.mapped, hmapped, rfl⟩

variable {κ ω χ ν ρ : Type} [DecidableEq κ]

/-- A status that goes through makes its object pending, unless it was there
    already. -/
theorem mem_dirty_update_iff (R : Reconciler κ ω χ ν ρ) (env : χ) (s s' : Control κ ω ρ)
    (k : κ) (current : Stored ω) (obj : ω)
    (hphase : s.phase = .busy k (.update current.version obj))
    (hcurrent : s.store.lookup k = some current)
    (hstep : Control.Step R env s (.update true) s') :
    k ∈ s'.queue.dirty ↔ k ∈ s.queue.dirty ∨ obj ≠ current.obj := by
  cases hstep with
  | updateSame k' version obj' hphase' current' hcurrent' hversion hsame =>
      rw [hphase] at hphase'
      cases hphase'
      have hstored : current = current' := Option.some.inj (hcurrent.symm.trans hcurrent')
      have hidle : obj = current.obj := hstored ▸ hsame
      simp [hidle, Control.proceed]
  | updateChanged k' version obj' hphase' current' hcurrent' hversion hchanged =>
      rw [hphase] at hphase'
      cases hphase'
      have hstored : current = current' := Option.some.inj (hcurrent.symm.trans hcurrent')
      have hnew : obj ≠ current.obj := hstored ▸ hchanged
      exact iff_of_true ((mem_dirty_changed s k (some obj) k).mpr (Or.inl rfl)) (Or.inr hnew)

end Twice

/-- A pass changes nothing but the status. -/
theorem settledObject_eq_iff (u : Unicode) (parseDuration : String → Except String Int)
    (met : Encounter) (tt : V1alpha1.TransactionType) :
    settledObject u parseDuration met tt = tt ↔
      (settledObject u parseDuration met tt).status = tt.status := by
  constructor
  · intro h
    rw [h]
  · intro h
    calc settledObject u parseDuration met tt
        = { tt with status := (settledObject u parseDuration met tt).status } := rfl
      _ = tt := by rw [h]

/-- When a second pass writes the same status. Let one pass write an object and a
    second pass get what the first one wrote. Then the second writes the same
    status exactly when its clock reads the same seconds for both conditions, its
    loop meets the mapping's keys in the same order, and the policies the two
    found show the same compliance and give the same lifetime; for policies with
    the same spec the last two always hold. A worker that writes the second
    status makes the object pending again exactly when the status is not the
    same. -/
theorem second_pass_iff (u : Unicode) (parseDuration : String → Except String Int)
    (first second : Encounter) (publisher publisher' : Option RuleServer)
    (tt tt₁ tt₂ : V1alpha1.TransactionType) (hget : first.get = .ok tt)
    (hfirst : (reconcileTransactionType u parseDuration first publisher).written = some tt₁)
    (hagain : second.get = .ok tt₁)
    (hsecond : (reconcileTransactionType u parseDuration second publisher').written =
      some tt₂) :
    (tt₂.status = tt₁.status ↔
      (first.compliantAt = second.compliantAt ∧ first.readyAt = second.readyAt ∧
        complianceShown (validateTransactionTypeAgainstPolicy u parseDuration tt
            (first.policyFor tt)) =
          complianceShown (validateTransactionTypeAgainstPolicy u parseDuration tt
            (second.policyFor tt))) ∧
      first.mapped = second.mapped ∧
      effectiveLifetime parseDuration tt (first.policyFor tt) =
        effectiveLifetime parseDuration tt (second.policyFor tt)) ∧
    ((first.policyFor tt).map (·.spec) = (second.policyFor tt).map (·.spec) →
      (tt₂.status = tt₁.status ↔ first.compliantAt = second.compliantAt ∧
        first.readyAt = second.readyAt ∧ first.mapped = second.mapped)) ∧
    ∀ policies s s' k version, s.phase = .busy k (.update version tt₂) →
      s.store.lookup k = some { obj := tt₁, version := version } →
      Control.Step (transactionTypeReconciler u parseDuration) policies s (.update true) s' →
      (k ∈ s'.queue.dirty ↔ k ∈ s.queue.dirty ∨ tt₂.status ≠ tt₁.status) := by
  -- Both passes went through, and wrote what they made of the object.
  rcases (written_eq_some_iff u parseDuration first publisher tt₁).mp hfirst with
    ⟨tt', hget', _, rfl⟩
  rw [hget] at hget'
  cases hget'
  rcases (written_eq_some_iff u parseDuration second publisher' tt₂).mp hsecond with
    ⟨tt', hagain', _, rfl⟩
  rw [hagain] at hagain'
  cases hagain'
  have hsame := settled_twice_iff first.compliantAt first.readyAt second.compliantAt
    second.readyAt
    (validateTransactionTypeAgainstPolicy u parseDuration tt (first.policyFor tt))
    (validateTransactionTypeAgainstPolicy u parseDuration tt (second.policyFor tt))
    (effectiveLifetime parseDuration tt (first.policyFor tt))
    (effectiveLifetime parseDuration tt (second.policyFor tt))
    (computeProducedTctxFields tt first.mapped) (computeProducedTctxFields tt second.mapped) tt
  rw [computeProducedTctxFields_inj] at hsame
  refine ⟨hsame, ?_, ?_⟩
  · intro hspec
    -- The verdict on a type reads nothing of a policy but its spec.
    have hverdict := verdict_spec u parseDuration tt _ _ hspec
    have hviolations := congrArg Verdict.violations hverdict
    have hlifetime := congrArg Verdict.lifetime hverdict
    simp only [verdict] at hviolations hlifetime
    refine hsame.trans ?_
    simp only [hviolations, hlifetime, and_true, and_assoc]
  · intro policies s s' k version hphase hstored hstep
    rw [mem_dirty_update_iff _ policies s s' k { obj := _, version := version } _ hphase hstored
      hstep]
    exact or_congr_right (not_congr (settledObject_eq_iff u parseDuration second _))

/-- A pass over an object when there are no policies. -/
def quietEncounter (now : Int) (mapped : List String) (tt : V1alpha1.TransactionType) :
    Encounter where
  get := .ok tt
  policies := .ok []
  compliantAt := now
  readyAt := now
  mapped := mapped
  update := .ok ()
  list := .ok []

/-- A type that maps two fields. -/
def twoFieldType : V1alpha1.TransactionType :=
  { sampleType with
    spec := { sampleType.spec with
              tctxMapping := (Finmap.singleton "item"
                { source := "path", field := "item", required := true }).insert "user"
                { source := "header", field := "x-user", required := true } } }

/-- A second pass within the second that meets the mapping's keys in the same order writes
    the same status. -/
theorem second_pass_prompt :
    RangesKeys twoFieldType.spec.tctxMapping ["item", "user"] ∧
    ∃ tt₁ tt₂, (reconcileTransactionType Unicode.ascii sampleDuration
        (quietEncounter 7 ["item", "user"] twoFieldType) none).written = some tt₁ ∧
      (reconcileTransactionType Unicode.ascii sampleDuration
        (quietEncounter 7 ["item", "user"] tt₁) none).written = some tt₂ ∧
      tt₂.status = tt₁.status := by
  refine ⟨by unfold RangesKeys; decide, _, _, rfl, rfl, ?_⟩
  exact ((second_pass_iff Unicode.ascii sampleDuration
    (quietEncounter 7 ["item", "user"] twoFieldType) (quietEncounter 7 ["item", "user"] _) none
    none twoFieldType _ _ rfl rfl rfl rfl).2.1 rfl).mpr ⟨rfl, rfl, rfl⟩

/-- A pass a second later writes another status, and so does a pass within the
    second that meets the mapping's keys in the other order. -/
theorem later_pass_differs :
    (∃ tt₁ tt₂, (reconcileTransactionType Unicode.ascii sampleDuration
        (quietEncounter 7 [] sampleType) none).written = some tt₁ ∧
      (reconcileTransactionType Unicode.ascii sampleDuration
        (quietEncounter 8 [] tt₁) none).written = some tt₂ ∧ tt₂.status ≠ tt₁.status) ∧
    ∃ tt₁ tt₂, RangesKeys twoFieldType.spec.tctxMapping ["item", "user"] ∧
      RangesKeys twoFieldType.spec.tctxMapping ["user", "item"] ∧
      (reconcileTransactionType Unicode.ascii sampleDuration
        (quietEncounter 7 ["item", "user"] twoFieldType) none).written = some tt₁ ∧
      (reconcileTransactionType Unicode.ascii sampleDuration
        (quietEncounter 7 ["user", "item"] tt₁) none).written = some tt₂ ∧
      tt₂.status ≠ tt₁.status :=
  ⟨⟨_, _, rfl, rfl, by decide⟩,
    ⟨_, _, by unfold RangesKeys; decide, by unfold RangesKeys; decide, rfl, rfl, by decide⟩⟩

end Controller

end Kontxt
