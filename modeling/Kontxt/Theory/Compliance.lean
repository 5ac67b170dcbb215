import Kontxt.Theory.Fixpoint
import Kontxt.Theory.Selection

/-!
# Three Accounts of Compliance

Whether a transaction type complies with a policy is said in three places. The
validation lists violations, which the condition `PolicyCompliant` reports. The
produced fields are listed in the status. The lifetime is clamped to the ceiling,
which the status reports as well. Each has its own loops and its own handling of
what cannot be parsed, and the status shows all three side by side.

They agree. A lifetime that is set is above the ceiling just when clamping
changes it, and a mandatory field is missing just when it is not among the
produced ones: the validation skips the purpose and the list begins with it.

## Main definitions

* `Controller.mandatoryViolation`: A violation that names a mandatory field.

## Theorems

* `Controller.clampTokenLifetime_eq_self_iff`: What clamping leaves alone.
* `Controller.mem_computeProducedTctxFields`: The fields that are produced.
* `Controller.filter_mandatoryViolation`: The mandatory fields reported missing.
* `Controller.compliance_agrees`: The three accounts agree.
-/

namespace Kontxt

namespace Controller

open Go Lib

section Lifetimes

variable (parseDuration : String → Except String Int)

/-- Clamping leaves a lifetime alone just when it is not above the ceiling. -/
theorem clampTokenLifetime_eq_self_iff (requested defaultLifetime : String)
    (policy : V1alpha1.TokenPolicy) (hset : requested ≠ "") :
    clampTokenLifetime parseDuration requested policy.spec.constraints.maxTokenLifetime
        defaultLifetime = requested ↔
      ¬Exceeds parseDuration requested policy := by
  constructor
  · intro hsame
    rw [← hsame]
    exact not_exceeds_clamped parseDuration requested defaultLifetime policy
  · intro hwithin
    unfold clampTokenLifetime
    simp only [if_neg hset]
    by_cases hmax : policy.spec.constraints.maxTokenLifetime = ""
    · rw [if_pos hmax]
    · rw [if_neg hmax]
      split
      · next d m hd hm =>
        have hle : ¬d > m := fun hgt => hwithin ⟨hmax, d, m, hd, hm, hgt⟩
        rw [if_neg hle]
      · rfl

end Lifetimes

section Fields

variable (u : Unicode) (parseDuration : String → Except String Int)

/-- A field is produced if it is the purpose, mapped or enriched. -/
theorem mem_computeProducedTctxFields (tt : V1alpha1.TransactionType) (mapped : List String)
    (hmapped : RangesKeys tt.spec.tctxMapping mapped) (field : String) :
    field ∈ computeProducedTctxFields tt mapped ↔
      field = "purpose" ∨ produces tt field = true := by
  unfold computeProducedTctxFields produces
  rw [List.cons_append, List.mem_cons, List.mem_append, mem_of_rangesKeys hmapped,
    Bool.or_eq_true, List.any_eq_true, List.mem_map]
  simp only [beq_iff_eq]

/-- Whether a violation reports a mandatory field that is not produced. -/
def mandatoryViolation (violation : String) : Bool :=
  hasPrefix violation "mandatory tctx field "

theorem mandatoryViolation_mandatory (text : String) :
    mandatoryViolation ("mandatory tctx field " ++ text) = true :=
  (hasPrefix_iff _ _).mpr ⟨text, rfl⟩

theorem mandatoryViolation_of_head (violation : String)
    (hhead : violation.toList.head? ≠ some 'm') : mandatoryViolation violation = false := by
  rw [← Bool.not_eq_true]
  intro hmandatory
  rcases (hasPrefix_iff _ _).mp hmandatory with ⟨rest, rfl⟩
  rw [String.toList_append] at hhead
  exact hhead rfl

theorem filter_lifetimeViolations (tt : V1alpha1.TransactionType)
    (policy : V1alpha1.TokenPolicy) :
    (lifetimeViolations parseDuration tt policy).filter mandatoryViolation = [] := by
  rw [List.filter_eq_nil_iff]
  intro violation hviolation
  unfold lifetimeViolations at hviolation
  split at hviolation
  · split at hviolation
    · split at hviolation
      · rw [List.mem_singleton.mp hviolation, mandatoryViolation_of_head _ (by simp)]
        exact Bool.false_ne_true
      · cases hviolation
    · cases hviolation
  · cases hviolation

/-- The violations that report a mandatory field are those of the mandatory fields
    that are not produced, in the policy's order. -/
theorem filter_mandatoryViolation (tt : V1alpha1.TransactionType)
    (policy : V1alpha1.TokenPolicy) (mapped : List String)
    (hmapped : RangesKeys tt.spec.tctxMapping mapped) :
    (validateTransactionTypeAgainstPolicy u parseDuration tt (some policy)).filter
        mandatoryViolation =
      (policy.spec.constraints.mandatoryTctxFields.filter fun field =>
        decide (field ∉ computeProducedTctxFields tt mapped)).map fun field =>
          "mandatory tctx field " ++ quote u field ++ " not produced by this TransactionType" := by
  -- The validation skips the purpose, which the list of produced fields begins with.
  have hmissing : ∀ field, decide (field ∉ computeProducedTctxFields tt mapped) =
      (field != "purpose" && !produces tt field) := by
    intro field
    rw [Bool.eq_iff_iff, decide_eq_true_eq, mem_computeProducedTctxFields tt mapped hmapped]
    simp
  have henrichers : (tt.spec.tctxEnrichments.flatMap fun enrichment =>
      (policy.spec.constraints.disallowedEnrichers.filter (enrichment.enricher == ·)).map fun _ =>
        "enricher " ++ quote u enrichment.enricher ++ " is disallowed by policy").filter
          mandatoryViolation = [] := by
    rw [List.filter_eq_nil_iff]
    intro violation hviolation
    rcases List.mem_flatMap.mp hviolation with ⟨enrichment, _, hviolation⟩
    rcases List.mem_map.mp hviolation with ⟨_, _, rfl⟩
    rw [mandatoryViolation_of_head _ (by simp)]
    exact Bool.false_ne_true
  -- Of the three loops only that over the mandatory fields has such violations, and
  -- all of its violations are.
  unfold validateTransactionTypeAgainstPolicy
  rw [List.filter_append, List.filter_append, filter_lifetimeViolations, henrichers,
    List.nil_append, List.append_nil, List.filter_eq_self.mpr]
  · simp only [hmissing]
  · intro violation hviolation
    rcases List.mem_map.mp hviolation with ⟨field, _, rfl⟩
    rw [String.append_assoc]
    exact mandatoryViolation_mandatory _

end Fields

/-- The three accounts agree. For every transaction type, policy and order of the
    mapping's keys there is no violation just when the lifetime is not set or clamping
    leaves it alone, whatever the default, every mandatory field is produced, and no
    enrichment uses a disallowed enricher; and there are as many violations about
    mandatory fields as mandatory fields that are not produced. -/
theorem compliance_agrees (u : Unicode) (parseDuration : String → Except String Int)
    (tt : V1alpha1.TransactionType) (policy : V1alpha1.TokenPolicy) (mapped : List String)
    (hmapped : RangesKeys tt.spec.tctxMapping mapped) :
    (∀ defaultLifetime,
      validateTransactionTypeAgainstPolicy u parseDuration tt (some policy) = [] ↔
        (tt.spec.tokenLifetime = "" ∨
          clampTokenLifetime parseDuration tt.spec.tokenLifetime
            policy.spec.constraints.maxTokenLifetime defaultLifetime = tt.spec.tokenLifetime) ∧
        (∀ field ∈ policy.spec.constraints.mandatoryTctxFields,
          field ∈ computeProducedTctxFields tt mapped) ∧
        ∀ enrichment ∈ tt.spec.tctxEnrichments,
          enrichment.enricher ∉ policy.spec.constraints.disallowedEnrichers) ∧
    (validateTransactionTypeAgainstPolicy u parseDuration tt (some policy)).countP
        mandatoryViolation =
      policy.spec.constraints.mandatoryTctxFields.countP fun field =>
        decide (field ∉ computeProducedTctxFields tt mapped) := by
  constructor
  · intro defaultLifetime
    have hlifetime : (tt.spec.tokenLifetime = "" ∨
        clampTokenLifetime parseDuration tt.spec.tokenLifetime
          policy.spec.constraints.maxTokenLifetime defaultLifetime = tt.spec.tokenLifetime) ↔
        ¬(tt.spec.tokenLifetime ≠ "" ∧ Exceeds parseDuration tt.spec.tokenLifetime policy) := by
      -- Clamping puts the default in the place of a lifetime that is not set.
      by_cases hset : tt.spec.tokenLifetime = ""
      · simp [hset]
      · rw [clampTokenLifetime_eq_self_iff parseDuration _ _ _ hset]
        simp [hset]
    rw [violations_eq_nil_iff, hlifetime]
    simp only [Option.some.injEq, forall_eq', Violates, not_or, not_exists,
      mem_computeProducedTctxFields tt mapped hmapped]
    refine and_congr_right fun _ => and_congr ?_ ?_
    · refine forall_congr' fun field => ?_
      rw [not_and, not_and, Bool.not_eq_false]
      exact imp_congr_right fun _ => (Decidable.or_iff_not_imp_left).symm
    · exact forall_congr' fun enrichment => not_and
  · rw [List.countP_eq_length_filter, filter_mandatoryViolation u parseDuration tt policy mapped
      hmapped, List.length_map, ← List.countP_eq_length_filter]

/-- A field that is mandatory twice and not produced is reported twice; the mapped
    one and the purpose are not reported. -/
theorem compliance_agrees_two_fields :
    (validateTransactionTypeAgainstPolicy Unicode.ascii sampleDuration twoFieldType
      (some { name := "fields"
              spec := { targetNamespaces := none, issuanceRules := []
                        constraints := { maxTokenLifetime := ""
                                         mandatoryTctxFields :=
                                           ["item", "cart", "purpose", "cart"] } } })).countP
      mandatoryViolation = 2 :=
  (compliance_agrees Unicode.ascii sampleDuration twoFieldType _ ["item", "user"]
    (by unfold RangesKeys; decide)).2

end Controller

end Kontxt
