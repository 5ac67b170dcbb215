import Kontxt.Theory.Convergence
import Kontxt.Theory.Ordering

/-!
# Which Policy Is Found

A transaction type is checked against one policy. A policy that names the type's
namespace is meant to override one without a selector, which is the default for
all namespaces. `findApplicablePolicy` has a loop for each, but the first loop
already stops at a default, so the second never finds anything and the first
applicable policy of the list is taken. `findApplicablePolicy_prefers_iff` says
when that is the policy meant: when no default stands before all the policies
that name the namespace. Whether one does is a matter of the order in which the
policies are listed.

Listing the policies can fail, when a type is checked and again for every type
when rules are rebuilt. Both places go on as if there were no policy. A type is
then found compliant whatever its constraints, and a rule is published with the
lifetime the type asks for. `reconcile_sound_iff` says which failures matter:
those for a type that violates its policy, and those for a type whose own
lifetime is above the ceiling.

## Main definitions

* `Controller.IsDefault`, `Controller.ListsNamespace`: The two ways to apply.
* `Controller.Prefers`: The policy that names the namespace, else a default.
* `Controller.Shadowed`: A default before all policies that name the namespace.
* `Controller.applicable`: The policy that is found when listing succeeds.
* `Controller.Exceeds`, `Controller.Violates`: A lifetime above the ceiling, and
  a type against a policy's constraints.
* `Controller.Listings`: What each listing of the policies has to give.
* `Controller.Encounter.Over`: The listings give that, or fail.
* `Controller.RecordsSoundly`, `Controller.PublishesSoundly`: What a pass must
  not record or publish.

## Theorems

* `Controller.findApplicablePolicy_ok`: The first applicable policy is found.
* `Controller.findApplicablePolicy_prefers_iff`: When the policy meant is found.
* `Controller.default_shadows`: A default that hides a stricter policy.
* `Controller.violations_eq_nil_iff`: What the validation checks.
* `Controller.not_exceeds_clamped`: A clamped lifetime is within the ceiling.
* `Controller.reconcile_sound_iff`: Which failed listings matter.
* `Controller.failed_lookup_open`: A failed listing that lets a type through.
-/

namespace Kontxt

namespace Controller

open Go Lib

section Preference

/-- A policy without a selector. -/
def IsDefault (policy : V1alpha1.TokenPolicy) : Prop :=
  policy.spec.targetNamespaces = none

/-- A policy whose selector names the namespace. -/
def ListsNamespace (nameSpace : String) (policy : V1alpha1.TokenPolicy) : Prop :=
  ∃ sel, policy.spec.targetNamespaces = some sel ∧ nameSpace ∈ sel.matchNames

theorem not_isDefault_of_lists (nameSpace : String) (policy : V1alpha1.TokenPolicy)
    (h : ListsNamespace nameSpace policy) : ¬IsDefault policy := by
  rcases h with ⟨sel, hsel, _⟩
  intro hdefault
  rw [IsDefault, hsel] at hdefault
  cases hdefault

theorem appliesTo_iff (nameSpace : String) (policy : V1alpha1.TokenPolicy) :
    appliesTo nameSpace policy = true ↔ IsDefault policy ∨ ListsNamespace nameSpace policy := by
  unfold appliesTo IsDefault ListsNamespace
  cases policy.spec.targetNamespaces with
  | none => simp
  | some sel => simp

/-- A lookup takes the first applicable policy. The loop for defaults finds
    nothing that the loop before it has passed over. -/
theorem findApplicablePolicy_ok (policies : List V1alpha1.TokenPolicy) (nameSpace : String) :
    findApplicablePolicy (.ok policies) nameSpace =
      .ok (policies.find? (appliesTo nameSpace)) := by
  unfold findApplicablePolicy
  cases hfind : policies.find? (appliesTo nameSpace) with
  | some policy => simp only [hfind]
  | none =>
      have hdefaults : (policies.find? fun policy => policy.spec.targetNamespaces.isNone) =
          none := by
        rw [List.find?_eq_none] at hfind ⊢
        intro policy hpolicy hnone
        refine hfind policy hpolicy ((appliesTo_iff nameSpace policy).mpr (Or.inl ?_))
        exact Option.isNone_iff_eq_none.mp hnone
      simp only [hfind, hdefaults]

/-- The policy meant: one that names the namespace if there is one, else a
    default if there is one, else none. -/
structure Prefers (nameSpace : String) (policies : List V1alpha1.TokenPolicy)
    (found : Option V1alpha1.TokenPolicy) : Prop where
  specific : (∃ p ∈ policies, ListsNamespace nameSpace p) →
    ∃ p ∈ policies, found = some p ∧ ListsNamespace nameSpace p
  default : (∀ p ∈ policies, ¬ListsNamespace nameSpace p) → (∃ p ∈ policies, IsDefault p) →
    ∃ p ∈ policies, found = some p ∧ IsDefault p
  nothing : (∀ p ∈ policies, ¬ListsNamespace nameSpace p) → (∀ p ∈ policies, ¬IsDefault p) →
    found = none

/-- A default comes before every policy that names the namespace, and there is
    such a policy. -/
def Shadowed (nameSpace : String) (policies : List V1alpha1.TokenPolicy) : Prop :=
  ∃ before policy after, policies = before ++ policy :: after ∧ IsDefault policy ∧
    (∀ p ∈ before, ¬ListsNamespace nameSpace p) ∧ ∃ p ∈ after, ListsNamespace nameSpace p

/-- If a default comes first, a default is found. -/
theorem find_of_shadowed (nameSpace : String) (policies : List V1alpha1.TokenPolicy)
    (h : Shadowed nameSpace policies) :
    ∃ p, policies.find? (appliesTo nameSpace) = some p ∧ IsDefault p := by
  rcases h with ⟨before, policy, after, rfl, hdefault, hbefore, _⟩
  rw [List.find?_append]
  cases hfind : before.find? (appliesTo nameSpace) with
  | none =>
      have happlies := (appliesTo_iff nameSpace policy).mpr (Or.inl hdefault)
      exact ⟨policy, by simp [happlies], hdefault⟩
  | some p =>
      -- What the scan finds even earlier is a default as well.
      have hmem := List.mem_of_find?_eq_some hfind
      have happlies := (appliesTo_iff nameSpace p).mp (List.find?_some hfind)
      exact ⟨p, by simp, happlies.resolve_right (hbefore p hmem)⟩

/-- If the scan finds a default and some policy names the namespace, the default
    comes before all of those. -/
theorem shadowed_of_find (nameSpace : String) (policies : List V1alpha1.TokenPolicy)
    (policy : V1alpha1.TokenPolicy) (hdefault : IsDefault policy)
    (hfind : policies.find? (appliesTo nameSpace) = some policy)
    (hlists : ∃ p ∈ policies, ListsNamespace nameSpace p) : Shadowed nameSpace policies := by
  rcases List.find?_eq_some_iff_append.mp hfind with ⟨_, before, after, rfl, hbefore⟩
  have hpassed : ∀ p ∈ before, ¬ListsNamespace nameSpace p := by
    intro p hp hlist
    have hnot := hbefore p hp
    rw [(appliesTo_iff nameSpace p).mpr (Or.inr hlist)] at hnot
    cases hnot
  refine ⟨before, policy, after, rfl, hdefault, hpassed, ?_⟩
  rcases hlists with ⟨p, hp, hlist⟩
  rcases List.mem_append.mp hp with hp | hp
  · exact absurd hlist (hpassed p hp)
  · rcases List.mem_cons.mp hp with rfl | hp
    · exact absurd hdefault (not_isDefault_of_lists nameSpace p hlist)
    · exact ⟨p, hp, hlist⟩

/-- The first applicable policy is the one meant, unless a default is first
    although some policy names the namespace. -/
theorem prefers_find_iff (nameSpace : String) (policies : List V1alpha1.TokenPolicy) :
    Prefers nameSpace policies (policies.find? (appliesTo nameSpace)) ↔
      ¬Shadowed nameSpace policies := by
  constructor
  · intro hprefers hshadowed
    -- A default is found, and no default is meant.
    rcases find_of_shadowed nameSpace policies hshadowed with ⟨p, hfind, hdefault⟩
    rcases hshadowed with ⟨before, policy, after, rfl, _, _, q, hq, hlists⟩
    rcases hprefers.specific ⟨q, by simp [hq], hlists⟩ with ⟨p', _, hfound, hlists'⟩
    have hsame : p = p' := Option.some.inj (hfind.symm.trans hfound)
    exact not_isDefault_of_lists nameSpace p' hlists' (hsame ▸ hdefault)
  · intro hshadowed
    cases hfind : policies.find? (appliesTo nameSpace) with
    | none =>
        -- Nothing applies, so there is no policy of either kind.
        rw [List.find?_eq_none] at hfind
        refine ⟨?_, ?_, fun _ _ => rfl⟩
        · intro hlists
          rcases hlists with ⟨p, hp, hlist⟩
          exact absurd ((appliesTo_iff nameSpace p).mpr (Or.inr hlist)) (hfind p hp)
        · intro _ hdefaults
          rcases hdefaults with ⟨p, hp, hdefault⟩
          exact absurd ((appliesTo_iff nameSpace p).mpr (Or.inl hdefault)) (hfind p hp)
    | some policy =>
        have hmem := List.mem_of_find?_eq_some hfind
        rcases (appliesTo_iff nameSpace policy).mp (List.find?_some hfind) with hdefault | hlists
        · refine ⟨?_, fun _ _ => ⟨policy, hmem, rfl, hdefault⟩, ?_⟩
          · intro hlists
            exact absurd (shadowed_of_find nameSpace policies policy hdefault hfind hlists)
              hshadowed
          · intro _ hnone
            exact absurd hdefault (hnone policy hmem)
        · refine ⟨fun _ => ⟨policy, hmem, rfl, hlists⟩, ?_, ?_⟩
          · intro hnone
            exact absurd hlists (hnone policy hmem)
          · intro hnone
            exact absurd hlists (hnone policy hmem)

/-- Of a kind of which there is at most one, any two are the same. -/
theorem eq_of_pairwise_not {α : Type} (P : α → Prop) (l : List α)
    (hone : l.Pairwise fun a b => ¬(P a ∧ P b)) (a b : α) (ha : a ∈ l) (hb : b ∈ l) (hpa : P a)
    (hpb : P b) : a = b := by
  by_contra hne
  have hsymm : Std.Symm fun a b => ¬(P a ∧ P b) := ⟨fun x y hxy hyx => hxy ⟨hyx.2, hyx.1⟩⟩
  exact hone.forall ha hb hne ⟨hpa, hpb⟩

/-- With at most one policy that names the namespace and at most one default,
    the order does not matter exactly when there are not both. -/
theorem find_perm_iff (nameSpace : String) (policies : List V1alpha1.TokenPolicy)
    (hspecific : policies.Pairwise fun p q =>
      ¬(ListsNamespace nameSpace p ∧ ListsNamespace nameSpace q))
    (hdefault : policies.Pairwise fun p q => ¬(IsDefault p ∧ IsDefault q)) :
    (∀ policies', policies.Perm policies' →
      policies'.find? (appliesTo nameSpace) = policies.find? (appliesTo nameSpace)) ↔
    ¬((∃ p ∈ policies, ListsNamespace nameSpace p) ∧ ∃ p ∈ policies, IsDefault p) := by
  constructor
  · intro hsame hboth
    rcases hboth with ⟨⟨p, hp, hlists⟩, q, hq, hisDefault⟩
    -- Each of the two can be listed first.
    rcases exists_perm_find? (appliesTo nameSpace) policies p hp
      ((appliesTo_iff nameSpace p).mpr (Or.inr hlists)) with ⟨l₁, hperm₁, hfind₁⟩
    rcases exists_perm_find? (appliesTo nameSpace) policies q hq
      ((appliesTo_iff nameSpace q).mpr (Or.inl hisDefault)) with ⟨l₂, hperm₂, hfind₂⟩
    have hfound : some p = some q := by
      rw [← hfind₁, hsame l₁ hperm₁, ← hsame l₂ hperm₂, hfind₂]
    exact not_isDefault_of_lists nameSpace p hlists (Option.some.inj hfound ▸ hisDefault)
  · intro hnot policies' hperm
    symm
    -- Two policies that apply are of one kind, of which there is one.
    refine find?_eq_of_unique (appliesTo nameSpace) hperm ?_
    intro p hp q hq hpa hqa
    rcases (appliesTo_iff nameSpace p).mp hpa with hpd | hpl
    · rcases (appliesTo_iff nameSpace q).mp hqa with hqd | hql
      · exact eq_of_pairwise_not IsDefault policies hdefault p q hp hq hpd hqd
      · exact absurd ⟨⟨q, hq, hql⟩, p, hp, hpd⟩ hnot
    · rcases (appliesTo_iff nameSpace q).mp hqa with hqd | hql
      · exact absurd ⟨⟨p, hp, hpl⟩, q, hq, hqd⟩ hnot
      · exact eq_of_pairwise_not (ListsNamespace nameSpace) policies hspecific p q hp hq hpl hql

end Preference

/-- When the policy meant is found. Every lookup in a list of policies answers.
    Its answer is a policy that names the namespace if there is one, else a
    default, else nothing, exactly when no default comes before all the policies
    that name the namespace. With at most one policy that names the namespace and
    at most one default, every permutation of the list gives the same answer
    exactly when there are not both. -/
theorem findApplicablePolicy_prefers_iff (policies : List V1alpha1.TokenPolicy)
    (nameSpace : String) :
    (∃ found, findApplicablePolicy (.ok policies) nameSpace = .ok found ∧
      (Prefers nameSpace policies found ↔ ¬Shadowed nameSpace policies)) ∧
    ((policies.Pairwise fun p q =>
        ¬(ListsNamespace nameSpace p ∧ ListsNamespace nameSpace q)) →
      (policies.Pairwise fun p q => ¬(IsDefault p ∧ IsDefault q)) →
      ((∀ policies', policies.Perm policies' →
          findApplicablePolicy (.ok policies') nameSpace =
            findApplicablePolicy (.ok policies) nameSpace) ↔
        ¬((∃ p ∈ policies, ListsNamespace nameSpace p) ∧ ∃ p ∈ policies, IsDefault p))) := by
  constructor
  · exact ⟨_, findApplicablePolicy_ok policies nameSpace, prefers_find_iff nameSpace policies⟩
  · intro hspecific hdefault
    rw [← find_perm_iff nameSpace policies hspecific hdefault]
    constructor
    · intro hsame policies' hperm
      have hfound := hsame policies' hperm
      rw [findApplicablePolicy_ok, findApplicablePolicy_ok] at hfound
      exact Except.ok.inj hfound
    · intro hsame policies' hperm
      rw [findApplicablePolicy_ok, findApplicablePolicy_ok, hsame policies' hperm]

/-- A policy with a ceiling, for the namespaces a selector names. -/
def ceilingPolicy (name : String) (target : Option (List String)) (maxTokenLifetime : String) :
    V1alpha1.TokenPolicy where
  name := name
  spec := { targetNamespaces := target.map fun names => { matchNames := names, matchLabels := [] }
            constraints := { maxTokenLifetime := maxTokenLifetime }
            issuanceRules := [] }

theorem not_isDefault_ceilingPolicy (name : String) (names : List String) (ceiling : String) :
    ¬IsDefault (ceilingPolicy name (some names) ceiling) := by
  intro h
  cases h

theorem not_lists_ceilingPolicy (nameSpace name ceiling : String) :
    ¬ListsNamespace nameSpace (ceilingPolicy name none ceiling) := by
  intro h
  rcases h with ⟨sel, hsel, _⟩
  cases hsel

/-- A stricter policy for one namespace and a default after it. In another namespace the
    default is found in every order; in its own the stricter one is found, and not in every
    order. -/
theorem findApplicablePolicy_prefers_strict :
    (∀ policies', [ceilingPolicy "strict" (some ["beta"]) "5s",
        ceilingPolicy "baseline" none "30s"].Perm policies' →
      findApplicablePolicy (.ok policies') "alpha" =
        findApplicablePolicy (.ok [ceilingPolicy "strict" (some ["beta"]) "5s",
          ceilingPolicy "baseline" none "30s"]) "alpha") ∧
    Prefers "beta" [ceilingPolicy "strict" (some ["beta"]) "5s",
        ceilingPolicy "baseline" none "30s"]
      (some (ceilingPolicy "strict" (some ["beta"]) "5s")) ∧
    ∃ policies', [ceilingPolicy "strict" (some ["beta"]) "5s",
        ceilingPolicy "baseline" none "30s"].Perm policies' ∧
      findApplicablePolicy (.ok policies') "beta" ≠
        findApplicablePolicy (.ok [ceilingPolicy "strict" (some ["beta"]) "5s",
          ceilingPolicy "baseline" none "30s"]) "beta" := by
  let strict := ceilingPolicy "strict" (some ["beta"]) "5s"
  let baseline := ceilingPolicy "baseline" none "30s"
  have hstrict : ∀ nameSpace, ListsNamespace nameSpace strict ↔ nameSpace = "beta" := by
    intro nameSpace
    constructor
    · rintro ⟨sel, hsel, hmem⟩
      cases hsel
      exact List.mem_singleton.mp hmem
    · rintro rfl
      exact ⟨_, rfl, List.mem_singleton_self _⟩
  have hone : ∀ nameSpace, [strict, baseline].Pairwise fun p q =>
      ¬(ListsNamespace nameSpace p ∧ ListsNamespace nameSpace q) := fun nameSpace =>
    List.pairwise_pair.mpr fun h => not_lists_ceilingPolicy _ _ _ h.2
  have hdefault : [strict, baseline].Pairwise fun p q => ¬(IsDefault p ∧ IsDefault q) :=
    List.pairwise_pair.mpr fun h => not_isDefault_ceilingPolicy _ _ _ h.1
  have halpha := findApplicablePolicy_prefers_iff [strict, baseline] "alpha"
  have hbeta := findApplicablePolicy_prefers_iff [strict, baseline] "beta"
  refine ⟨(halpha.2 (hone _) hdefault).mpr ?_, ?_, ?_⟩
  · rintro ⟨⟨p, hp, hlists⟩, _⟩
    rcases List.mem_cons.mp hp with rfl | hp
    · exact absurd ((hstrict _).mp hlists) (by decide)
    · rw [List.mem_singleton.mp hp] at hlists
      exact not_lists_ceilingPolicy _ _ _ hlists
  · rcases hbeta.1 with ⟨found, hfound, hprefers⟩
    have hstrictFound : found = some strict :=
      (Except.ok.inj (hfound.symm.trans (by decide)) : found = some strict)
    rw [hstrictFound] at hfound hprefers
    refine hprefers.mpr fun hshadowed => ?_
    rcases find_of_shadowed "beta" _ hshadowed with ⟨p, hfind, hp⟩
    rw [findApplicablePolicy_ok, hfind] at hfound
    rw [Option.some.inj (Except.ok.inj hfound)] at hp
    exact not_isDefault_ceilingPolicy _ _ _ hp
  · by_contra hsame
    push Not at hsame
    refine (hbeta.2 (hone _) hdefault).mp hsame ⟨⟨strict, by simp, (hstrict _).mpr rfl⟩, ?_⟩
    exact ⟨baseline, by simp, rfl⟩

/-- A default listed before the stricter policy of a namespace hides it; listed
    the other way round, the stricter one is found. -/
theorem default_shadows :
    findApplicablePolicy (.ok [ceilingPolicy "baseline" none "30s",
        ceilingPolicy "strict" (some ["beta"]) "5s"]) "beta" =
      .ok (some (ceilingPolicy "baseline" none "30s")) ∧
    ¬Prefers "beta" [ceilingPolicy "baseline" none "30s",
        ceilingPolicy "strict" (some ["beta"]) "5s"]
      (some (ceilingPolicy "baseline" none "30s")) ∧
    findApplicablePolicy (.ok [ceilingPolicy "strict" (some ["beta"]) "5s",
        ceilingPolicy "baseline" none "30s"]) "beta" =
      .ok (some (ceilingPolicy "strict" (some ["beta"]) "5s")) := by
  refine ⟨by decide, ?_, by decide⟩
  intro hprefers
  have hlists : ListsNamespace "beta" (ceilingPolicy "strict" (some ["beta"]) "5s") :=
    ⟨_, rfl, List.mem_singleton_self _⟩
  rcases hprefers.specific ⟨_, by simp, hlists⟩ with ⟨p, _, hfound, hp⟩
  rw [← Option.some.inj hfound] at hp
  exact not_lists_ceilingPolicy _ _ _ hp

section Constraints

variable (u : Unicode) (parseDuration : String → Except String Int)

/-- The policy that is found when the policies can be listed. -/
def applicable (policies : List V1alpha1.TokenPolicy) (nameSpace : String) :
    Option V1alpha1.TokenPolicy :=
  policyOrNil (findApplicablePolicy (.ok policies) nameSpace)

/-- A lifetime above a policy's ceiling. Without a ceiling, or if one of the two
    cannot be parsed, nothing is above it. -/
def Exceeds (lifetime : String) (policy : V1alpha1.TokenPolicy) : Prop :=
  policy.spec.constraints.maxTokenLifetime ≠ "" ∧
    ∃ d m, parseDuration lifetime = .ok d ∧
      parseDuration policy.spec.constraints.maxTokenLifetime = .ok m ∧ m < d

/-- A transaction type that is against a policy's constraints: it asks for a
    lifetime above the ceiling, does not produce a mandatory field, or uses an
    enricher that is disallowed. -/
def Violates (tt : V1alpha1.TransactionType) (policy : V1alpha1.TokenPolicy) : Prop :=
  (tt.spec.tokenLifetime ≠ "" ∧ Exceeds parseDuration tt.spec.tokenLifetime policy) ∨
  (∃ field ∈ policy.spec.constraints.mandatoryTctxFields,
    field ≠ "purpose" ∧ produces tt field = false) ∨
  ∃ enrichment ∈ tt.spec.tctxEnrichments,
    enrichment.enricher ∈ policy.spec.constraints.disallowedEnrichers

theorem lifetimeViolations_eq_nil_iff (tt : V1alpha1.TransactionType)
    (policy : V1alpha1.TokenPolicy) :
    lifetimeViolations parseDuration tt policy = [] ↔
      ¬(tt.spec.tokenLifetime ≠ "" ∧ Exceeds parseDuration tt.spec.tokenLifetime policy) := by
  unfold lifetimeViolations Exceeds
  by_cases hset : policy.spec.constraints.maxTokenLifetime ≠ "" ∧ tt.spec.tokenLifetime ≠ ""
  · rw [if_pos hset]
    cases hmax : parseDuration policy.spec.constraints.maxTokenLifetime with
    | error e => simp
    | ok m =>
        cases htt : parseDuration tt.spec.tokenLifetime with
        | error e => simp
        | ok d =>
            by_cases hlt : d > m
            · simp [hset.1, hset.2, hlt]
            · simp [hlt]
  · rw [if_neg hset]
    simp only [true_iff]
    intro h
    exact hset ⟨h.2.1, h.1⟩

/-- The validation reports a violation exactly when there is one. -/
theorem violations_eq_nil_iff (tt : V1alpha1.TransactionType)
    (policy : Option V1alpha1.TokenPolicy) :
    validateTransactionTypeAgainstPolicy u parseDuration tt policy = [] ↔
      ∀ p, policy = some p → ¬Violates parseDuration tt p := by
  cases policy with
  | none => simp [validateTransactionTypeAgainstPolicy]
  | some p =>
      have henricher : ∀ enricher : String,
          p.spec.constraints.disallowedEnrichers.filter (enricher == ·) = [] ↔
            enricher ∉ p.spec.constraints.disallowedEnrichers := by
        intro enricher
        simp only [List.filter_eq_nil_iff, beq_iff_eq]
        constructor
        · intro h hmem
          exact h enricher hmem rfl
        · intro h other hother hsame
          exact h (hsame ▸ hother)
      simp only [validateTransactionTypeAgainstPolicy, List.append_eq_nil_iff,
        lifetimeViolations_eq_nil_iff, List.map_eq_nil_iff, List.filter_eq_nil_iff,
        List.flatMap_eq_nil_iff, Option.some.injEq, forall_eq', Violates, not_or, henricher,
        not_exists, not_and, and_assoc]
      simp

/-- A lifetime clamped to a policy's ceiling is not above it. -/
theorem not_exceeds_clamped (requested defaultLifetime : String)
    (policy : V1alpha1.TokenPolicy) :
    ¬Exceeds parseDuration (clampTokenLifetime parseDuration requested
      policy.spec.constraints.maxTokenLifetime defaultLifetime) policy := by
  intro h
  rcases h with ⟨hmax, d, m, hd, hm, hlt⟩
  unfold clampTokenLifetime at hd
  simp only [if_neg hmax, hm] at hd
  cases hreq : parseDuration (if requested = "" then defaultLifetime else requested) with
  | error e =>
      -- What cannot be parsed is passed on, and is not above anything.
      rw [hreq] at hd
      simp only [] at hd
      rw [hreq] at hd
      cases hd
  | ok r =>
      rw [hreq] at hd
      by_cases hgt : r > m
      · simp only [if_pos hgt] at hd
        rw [hm] at hd
        cases hd
        exact lt_irrefl _ hlt
      · simp only [if_neg hgt] at hd
        rw [hreq] at hd
        cases hd
        exact hgt hlt

theorem clampTokenLifetime_ne_empty (requested maxLifetime defaultLifetime : String)
    (hdefault : defaultLifetime ≠ "") :
    clampTokenLifetime parseDuration requested maxLifetime defaultLifetime ≠ "" := by
  have hrequested : (if requested = "" then defaultLifetime else requested) ≠ "" := by
    by_cases h : requested = ""
    · rw [if_pos h]
      exact hdefault
    · rw [if_neg h]
      exact h
  unfold clampTokenLifetime
  by_cases hmax : maxLifetime = ""
  · simp only [if_pos hmax]
    exact hrequested
  · simp only [if_neg hmax]
    split
    · split
      · exact hmax
      · exact hrequested
    · exact hrequested

/-- The lifetime a rule gets when no policy is found. -/
def ownLifetime (tt : V1alpha1.TransactionType) : String :=
  if tt.spec.tokenLifetime = "" then "15s" else tt.spec.tokenLifetime

/-- Under the policy found, a rule's lifetime is not above the ceiling. -/
theorem not_exceeds_publishedRule (tt : V1alpha1.TransactionType)
    (policies : List V1alpha1.TokenPolicy) (policy : V1alpha1.TokenPolicy)
    (hfound : applicable policies tt.nameSpace = some policy) :
    ¬Exceeds parseDuration (publishedRule parseDuration tt (.ok policies)).tokenLifetime
      policy := by
  have hlifetime : (publishedRule parseDuration tt (.ok policies)).tokenLifetime =
      clampTokenLifetime parseDuration tt.spec.tokenLifetime
        policy.spec.constraints.maxTokenLifetime "15s" := by
    unfold applicable at hfound
    unfold publishedRule generationRuleOf effectiveLifetime
    simp only [hfound]
    exact if_neg (clampTokenLifetime_ne_empty parseDuration _ _ _ (by decide))
  rw [hlifetime]
  exact not_exceeds_clamped parseDuration _ _ policy

end Constraints

section Failures

variable (u : Unicode) (parseDuration : String → Except String Int)

/-- What every listing of the policies has to give, each in an order of its own: the one
    for the object, and the one for each type in turn as the rules are rebuilt. -/
structure Listings where
  lookup : List V1alpha1.TokenPolicy
  rebuild : Nat → List V1alpha1.TokenPolicy

/-- Every listing of the policies gives what it has to, or fails. -/
structure Encounter.Over (met : Encounter) (policies : Listings) : Prop where
  lookup : met.policies = .ok policies.lookup ∨ ∃ e, met.policies = .error e
  lookups : ∀ items, met.list = .ok items → ∀ (i : Nat) item, items[i]? = some item →
    item.2 = .ok (policies.rebuild i) ∨ ∃ e, item.2 = .error e

/-- The object says that it is compliant. -/
def SaysCompliant (tt : V1alpha1.TransactionType) : Prop :=
  ∃ c, tt.status.conditions.find? (·.type == conditionPolicyCompliant) = some c ∧
    c.status = .conditionTrue

/-- A pass records compliance only for an object that does not violate its
    policy. -/
def RecordsSoundly (policies : Listings) (pass : Pass) : Prop :=
  ∀ tt, pass.written = some tt → SaysCompliant tt →
    ∀ policy, applicable policies.lookup tt.nameSpace = some policy →
      ¬Violates parseDuration tt policy

/-- A pass with a publisher publishes no rule with a lifetime above the ceiling
    of its policy. -/
def PublishesSoundly (policies : Listings) (publisher : Option RuleServer) (pass : Pass) : Prop :=
  ∀ server rules, publisher = some server →
    pass.publisher = some (server.updateGenerationRules rules) →
    ∀ (i : Nat) rule, rules[i]? = some rule → ∀ policy,
      applicable (policies.rebuild i) rule.nameSpace = some policy →
        ¬Exceeds parseDuration rule.tokenLifetime policy

/-- A pass that comes to rebuilding the rules: the object is gone, or its status
    was written. -/
def Encounter.Rebuilds (met : Encounter) : Prop :=
  met.get = .error .notFound ∨ (∃ tt, met.get = .ok tt) ∧ met.update = .ok ()

/-- The status that is written says compliant exactly when no violation was
    found. -/
theorem saysCompliant_settled_iff (compliantAt readyAt : Int) (violations : List String)
    (lifetime : String) (producedFields : List String) (tt : V1alpha1.TransactionType) :
    SaysCompliant (settleTransactionType compliantAt readyAt violations lifetime producedFields
      tt) ↔ violations = [] := by
  rcases showsCompliance_settled compliantAt readyAt violations lifetime producedFields tt with
    ⟨c, hfind, hshows⟩
  unfold SaysCompliant
  rw [hfind]
  cases violations with
  | nil => simpa using hshows.1
  | cons v vs =>
      have hstatus : c.status = .conditionFalse := hshows.1
      simp [hstatus]

theorem written_eq_some_iff (met : Encounter) (publisher : Option RuleServer)
    (tt' : V1alpha1.TransactionType) :
    (reconcileTransactionType u parseDuration met publisher).written = some tt' ↔
      ∃ tt, met.get = .ok tt ∧ met.update = .ok () ∧
        tt' = settledObject u parseDuration met tt := by
  have hafter : ∀ written, (rebuildAfter parseDuration met publisher written).written =
      written := by
    intro written
    unfold rebuildAfter
    split <;> rfl
  unfold reconcileTransactionType
  cases met.get with
  | error e => cases e <;> simp [hafter]
  | ok tt =>
      cases met.update with
      | error e => simp
      | ok _ => simp [hafter, eq_comm]

/-- What is published are the rules of the types that were listed. -/
theorem publishes_iff (met : Encounter) (server : RuleServer) (rules : List GenerationRule) :
    (reconcileTransactionType u parseDuration met (some server)).publisher =
        some (server.updateGenerationRules rules) ↔
      met.Rebuilds ∧ ∃ items, met.list = .ok items ∧
        rules = items.map fun item => publishedRule parseDuration item.1 item.2 := by
  -- The version tells a publisher that was updated from one that was not.
  have hidle : ∀ rules, server ≠ server.updateGenerationRules rules := by
    intro rules h
    have hversion : server.generation.version = server.generation.version + 1 :=
      congrArg (fun s => s.generation.version) h
    exact absurd (UInt64.left_eq_add.mp hversion) (by decide)
  have hafter : ∀ written, (rebuildAfter parseDuration met (some server) written).publisher =
      some (server.updateGenerationRules rules) ↔ ∃ items, met.list = .ok items ∧
        rules = items.map fun item => publishedRule parseDuration item.1 item.2 := by
    intro written
    unfold rebuildAfter rebuildGenerationRules
    cases met.list with
    | error e => simpa using hidle rules
    | ok items =>
        simp only [Option.map_some, Option.some.injEq, Except.ok.injEq, exists_eq_left']
        constructor
        · intro h
          exact (congrArg (fun s => s.generation.rules) h).symm
        · intro h
          rw [h]
  unfold reconcileTransactionType Encounter.Rebuilds
  cases met.get with
  | error e =>
      cases e with
      | notFound => simp [hafter]
      | other e => simpa using hidle rules
  | ok tt =>
      cases met.update with
      | error e => simpa using hidle rules
      | ok _ => simp [hafter]

/-- A pass records soundly exactly when the lookup answered or the object does
    not violate its policy. -/
theorem recordsSoundly_iff (met : Encounter) (policies : Listings) (hover : met.Over policies)
    (publisher : Option RuleServer) :
    RecordsSoundly parseDuration policies
        (reconcileTransactionType u parseDuration met publisher) ↔
      ∀ tt, met.get = .ok tt → met.update = .ok () → met.policies = .ok policies.lookup ∨
        ∀ policy, applicable policies.lookup tt.nameSpace = some policy →
          ¬Violates parseDuration tt policy := by
  unfold RecordsSoundly
  simp only [written_eq_some_iff]
  constructor
  · intro hsound tt hget hupdate
    rcases hover.lookup with hok | ⟨e, herror⟩
    · exact Or.inl hok
    · -- With no policy found there is no violation, so compliance is recorded.
      refine Or.inr (hsound (settledObject u parseDuration met tt) ⟨tt, hget, hupdate, rfl⟩ ?_)
      unfold settledObject
      rw [saysCompliant_settled_iff, herror]
      rfl
  · intro hcond tt' hwritten hsays policy hpolicy
    rcases hwritten with ⟨tt, hget, hupdate, rfl⟩
    rcases hcond tt hget hupdate with hok | hnone
    · unfold settledObject at hsays
      rw [saysCompliant_settled_iff, violations_eq_nil_iff, hok] at hsays
      exact hsays policy hpolicy
    · exact hnone policy hpolicy

/-- A pass publishes soundly exactly when it publishes nothing, or the lookup for
    every type answered or the type's own lifetime is not above the ceiling. -/
theorem publishesSoundly_iff (met : Encounter) (policies : Listings) (hover : met.Over policies)
    (publisher : Option RuleServer) :
    PublishesSoundly parseDuration policies publisher
        (reconcileTransactionType u parseDuration met publisher) ↔
      (publisher.isSome → met.Rebuilds → ∀ items, met.list = .ok items →
        ∀ (i : Nat) item, items[i]? = some item → item.2 = .ok (policies.rebuild i) ∨
          ∀ policy, applicable (policies.rebuild i) item.1.nameSpace = some policy →
            ¬Exceeds parseDuration (ownLifetime item.1) policy) := by
  unfold PublishesSoundly
  constructor
  · intro hsound hsome hrebuilds items hitems i item hitem
    rcases Option.isSome_iff_exists.mp hsome with ⟨server, rfl⟩
    rcases hover.lookups items hitems i item hitem with hok | ⟨e, herror⟩
    · exact Or.inl hok
    · -- A lookup that failed leaves the type its own lifetime.
      have hpublished := (publishes_iff u parseDuration met server _).mpr
        ⟨hrebuilds, items, hitems, rfl⟩
      have hrule := hsound server _ rfl hpublished i (publishedRule parseDuration item.1 item.2)
        (by rw [List.getElem?_map, hitem]; rfl)
      rw [herror] at hrule
      exact Or.inr hrule
  · intro hcond server rules hserver hpublished i rule hrule policy hpolicy
    subst hserver
    rcases (publishes_iff u parseDuration met server rules).mp hpublished with
      ⟨hrebuilds, items, hitems, rfl⟩
    rw [List.getElem?_map] at hrule
    rcases Option.map_eq_some_iff.mp hrule with ⟨item, hitem, rfl⟩
    rcases hover.lookups items hitems i item hitem with hok | ⟨e, herror⟩
    · rw [hok]
      exact not_exceeds_publishedRule parseDuration item.1 _ policy hpolicy
    · rcases hcond rfl hrebuilds items hitems i item hitem with hok | hnone
      · rw [herror] at hok
        cases hok
      · rw [herror]
        exact hnone policy hpolicy

end Failures

/-- Which failed listings matter. For every pass, whatever each listing of the policies has
    to give and whichever of them fail, and every publisher: the pass records compliance
    only for an object that does not violate its policy exactly when the lookup for the
    object answered or the object does not violate its policy; and it publishes no lifetime
    above a ceiling exactly when it publishes nothing, or for every type the lookup answered
    or the type's own lifetime is not above the ceiling. The policy of an object or a type is
    the one its own listing leads to. In particular a pass in which no listing fails does
    neither. -/
theorem reconcile_sound_iff (u : Unicode) (parseDuration : String → Except String Int)
    (policies : Listings) (met : Encounter) (hover : met.Over policies)
    (publisher : Option RuleServer) :
    (RecordsSoundly parseDuration policies
        (reconcileTransactionType u parseDuration met publisher) ↔
      ∀ tt, met.get = .ok tt → met.update = .ok () → met.policies = .ok policies.lookup ∨
        ∀ policy, applicable policies.lookup tt.nameSpace = some policy →
          ¬Violates parseDuration tt policy) ∧
    (PublishesSoundly parseDuration policies publisher
        (reconcileTransactionType u parseDuration met publisher) ↔
      (publisher.isSome → met.Rebuilds → ∀ items, met.list = .ok items →
        ∀ (i : Nat) item, items[i]? = some item → item.2 = .ok (policies.rebuild i) ∨
          ∀ policy, applicable (policies.rebuild i) item.1.nameSpace = some policy →
            ¬Exceeds parseDuration (ownLifetime item.1) policy)) :=
  ⟨recordsSoundly_iff u parseDuration met policies hover publisher,
    publishesSoundly_iff u parseDuration met policies hover publisher⟩

/-- A type that asks for five seconds. -/
def briefType : V1alpha1.TransactionType :=
  { sampleType with name := "ping", spec := { sampleType.spec with tokenLifetime := "5s" } }

/-- Two policies, which the rebuild meets the other way round. -/
def twoListings : Listings where
  lookup := [samplePolicy "5s", samplePolicy "30s"]
  rebuild := fun _ => [samplePolicy "30s", samplePolicy "5s"]

/-- A pass for the sample type in which the listing for the brief type fails. -/
def briefEncounter : Encounter where
  get := .ok sampleType
  policies := .ok twoListings.lookup
  compliantAt := 0
  readyAt := 0
  mapped := []
  update := .ok ()
  list := .ok [(sampleType, .ok (twoListings.rebuild 0)), (briefType, .error "timeout")]

/-- The failure does not matter, for the brief type asks for less than the ceiling. -/
theorem reconcile_sound_answered :
    RecordsSoundly sampleDuration twoListings
      (reconcileTransactionType Unicode.ascii sampleDuration briefEncounter
        (some RuleServer.new)) ∧
    PublishesSoundly sampleDuration twoListings (some RuleServer.new)
      (reconcileTransactionType Unicode.ascii sampleDuration briefEncounter
        (some RuleServer.new)) := by
  -- Which items there are, and what was listed for each of them.
  have hitem : ∀ items, briefEncounter.list = .ok items → ∀ (i : Nat) item, items[i]? = some item →
      item.2 = .ok (twoListings.rebuild i) ∨ item = (briefType, .error "timeout") := by
    intro items hitems i item hitem
    cases hitems
    match i with
    | 0 => exact Or.inl (Option.some.inj hitem ▸ rfl)
    | 1 => exact Or.inr (Option.some.inj hitem).symm
    | _ + 2 => cases hitem
  have hover : briefEncounter.Over twoListings := by
    refine ⟨Or.inl rfl, fun items hitems i item hi => ?_⟩
    rcases hitem items hitems i item hi with hok | rfl
    · exact Or.inl hok
    · exact Or.inr ⟨_, rfl⟩
  have hsound := reconcile_sound_iff Unicode.ascii sampleDuration twoListings briefEncounter hover
    (some RuleServer.new)
  refine ⟨hsound.1.mpr fun _ _ _ => Or.inl rfl, hsound.2.mpr ?_⟩
  intro _ _ items hitems i item hi
  rcases hitem items hitems i item hi with hok | rfl
  · exact Or.inl hok
  · right
    intro policy hpolicy hexceeds
    have hfound : policy = samplePolicy "30s" :=
      (Option.some.inj ((by decide : some (samplePolicy "30s") =
        applicable (twoListings.rebuild 0) briefType.nameSpace).trans hpolicy)).symm
    rcases hexceeds with ⟨_, d, m, hd, hm, hlt⟩
    rw [hfound] at hm
    have hd' : d = 5000000000 := (Except.ok.inj hd).symm
    have hm' : m = 30000000000 := (Except.ok.inj hm).symm
    rw [hd', hm'] at hlt
    exact absurd hlt (by decide)

/-- A pass for the sample type in which no listing of the policies succeeds. -/
def failedEncounter : Encounter where
  get := .ok sampleType
  policies := .error "timeout"
  compliantAt := 0
  readyAt := 0
  mapped := []
  update := .ok ()
  list := .ok [(sampleType, .error "timeout")]

/-- When the listings fail, the type is recorded as compliant, and its rule published with
    ten seconds where the policy allows five. -/
theorem failed_lookup_open :
    ¬RecordsSoundly sampleDuration ⟨[samplePolicy "5s"], fun _ => [samplePolicy "5s"]⟩
      (reconcileTransactionType Unicode.ascii sampleDuration failedEncounter
        (some RuleServer.new)) ∧
    ¬PublishesSoundly sampleDuration ⟨[samplePolicy "5s"], fun _ => [samplePolicy "5s"]⟩
      (some RuleServer.new)
      (reconcileTransactionType Unicode.ascii sampleDuration failedEncounter
        (some RuleServer.new)) := by
  have hfound : applicable [samplePolicy "5s"] "shop" = some (samplePolicy "5s") := by decide
  have hexceeds : Exceeds sampleDuration "10s" (samplePolicy "5s") :=
    ⟨by decide, 10000000000, 5000000000, by decide, by decide, by decide⟩
  constructor
  · intro hsound
    refine hsound (settledObject Unicode.ascii sampleDuration failedEncounter sampleType) rfl ?_ _
      hfound (Or.inl ⟨by decide, hexceeds⟩)
    exact (saysCompliant_settled_iff 0 0 [] "10s" ["purpose"] sampleType).mpr rfl
  · intro hsound
    exact hsound RuleServer.new [generationRuleOf sampleType "10s"] rfl rfl 0 _ rfl _ hfound
      hexceeds

end Controller

end Kontxt
