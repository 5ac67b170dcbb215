import Kontxt.Core.Controller
import Kontxt.Core.RuleClient
import Kontxt.Theory.Application
import Kontxt.Theory.Cel
import Kontxt.Theory.Distribution
import Kontxt.Theory.Exchange

/-!
# Enforcing Policies

Whether the issuance rules of a policy are enforced. On the way from a policy
to the handler a rule is looked up by name twice. The reconciler holds back
every rule with the name of one that fails to compile, and the client's map
keeps one rule for each policy and name, the last. Nothing makes names distinct
within a policy, so a valid rule can be lost at either place, and a lost rule
no longer denies anything.

What is not held back compiles, so the service never refuses a list that the
reconciler published (`validated_installs`). `Survives` is what a rule has to be
not to be lost. `mem_active` says that the handler's rules are those of the
survivors, whatever the order of policies, maps and sorting, and everything else
about enforcement follows from it.

## Main definitions

* `validationConfig`: What the validation compiles for a rule.
* `heldBack`: A name the reconciler holds back.
* `Survives`: The last rule of its name, all of which compile.
* `Enforced`: A rule set enforces the rules of the policies, and no others.
* `Represented`: Every valid rule has a survivor like it.

## Theorems

* `validateIssuanceCEL_eq`: The fast path changes nothing.
* `heldBack_iff`: The names the reconciler holds back.
* `validated_installs`: What is published compiles and is installed.
* `mem_collected`: What a client collects from its map.
* `mem_active`: The handler's rules are the survivors'.
* `policies_enforced_iff`: When every valid rule is enforced.
* `represented_of_distinct`: With distinct names every valid rule survives.
-/

namespace Kontxt

open Go Lib
open Controller (policyRule policyRules resolveTargetNamespaces validateIssuanceCEL)

section Policies

variable (u : Unicode) (newEnv : Except String (Cel.Env Tts.Activation))

/-- The rule is the last of its name in the policy, and every rule of that name
    compiles. -/
structure Survives (policy : V1alpha1.TokenPolicy) (ir : V1alpha1.IssuanceRule) : Prop where
  last : view V1alpha1.IssuanceRule.name policy.spec.issuanceRules.reverse ir.name = some ir
  compile : ∀ ir' ∈ policy.spec.issuanceRules, ir'.name = ir.name →
    (Cel.programOf newEnv ir'.cel).isSome = true

theorem Survives.mem {policy : V1alpha1.TokenPolicy} {ir : V1alpha1.IssuanceRule}
    (h : Survives newEnv policy ir) : ir ∈ policy.spec.issuanceRules :=
  List.mem_reverse.mp (mem_of_view _ _ _ _ h.last).1

/-- A rule has an error exactly when its expression has no program, and the
    error carries its name. -/
theorem compileError_exists (cfg : Tts.IssuanceRuleConfig) (name : String) :
    (∃ e, Controller.compileError u newEnv cfg = some e ∧ e.ruleName = name) ↔
      cfg.name = name ∧ Cel.programOf newEnv cfg.cel = none := by
  have hspec : (∃ ps, Tts.compileIssuanceRules u newEnv [cfg] = .ok ps) ↔
      (Cel.programOf newEnv cfg.cel).isSome = true :=
    Cel.compileRules_singleton u "issuance" _ _ _ newEnv cfg
  unfold Controller.compileError
  cases hc : Tts.compileIssuanceRules u newEnv [cfg] with
  | ok ps =>
      have hsome := hspec.mp ⟨ps, hc⟩
      simp only [reduceCtorEq, false_and, exists_false, false_iff, not_and]
      intro _ hnone
      rw [hnone] at hsome
      cases hsome
  | error msg =>
      rw [hc] at hspec
      simp only [reduceCtorEq, exists_false, false_iff, Option.not_isSome_iff_eq_none] at hspec
      simp only [Option.some.injEq, exists_eq_left', hspec, and_true]

theorem compileError_eq_none_iff (cfg : Tts.IssuanceRuleConfig) :
    Controller.compileError u newEnv cfg = none ↔
      (Cel.programOf newEnv cfg.cel).isSome = true := by
  constructor
  · intro hnone
    rw [← Bool.not_eq_false, Option.isSome_eq_false_iff, Option.isNone_iff_eq_none]
    intro hfails
    rcases (compileError_exists u newEnv cfg cfg.name).mpr ⟨rfl, hfails⟩ with ⟨e, he, _⟩
    rw [hnone] at he
    cases he
  · intro hsome
    cases he : Controller.compileError u newEnv cfg with
    | none => rfl
    | some e =>
        have hfails := ((compileError_exists u newEnv cfg e.ruleName).mp ⟨e, he, rfl⟩).2
        rw [hfails] at hsome
        cases hsome

/-- What the validation compiles for a rule. -/
def validationConfig (ir : V1alpha1.IssuanceRule) : Tts.IssuanceRuleConfig where
  name := ir.name
  cel := ir.cel
  message := ir.message
  targetNamespaces := []

/-- The fast path changes nothing: the errors are those of the rules, each compiled
    on its own. -/
theorem validateIssuanceCEL_eq (rules : List V1alpha1.IssuanceRule) :
    validateIssuanceCEL u newEnv rules =
      rules.filterMap fun ir => Controller.compileError u newEnv (validationConfig ir) := by
  unfold validateIssuanceCEL
  by_cases hlen : rules.length = 0
  · rw [if_pos hlen, List.length_eq_zero_iff.mp hlen]
    rfl
  · rw [if_neg hlen]
    cases hall : Tts.compileIssuanceRules u newEnv (rules.map validationConfig) with
    | ok ps =>
        -- All of them compiled, so none of them fails.
        have heach := (Cel.compileRules_exists_iff u "issuance" _ _ _ newEnv _).mp ⟨ps, hall⟩
        have hnone : ∀ ir ∈ rules, Controller.compileError u newEnv (validationConfig ir) = none :=
          fun ir hir => (compileError_eq_none_iff u newEnv _).mpr
            (Option.isSome_iff_exists.mpr (heach _ (List.mem_map_of_mem hir)))
        rw [List.filterMap_eq_nil_iff.mpr hnone]
        unfold validationConfig at hall
        simp only [hall]
    | error e =>
        unfold validationConfig at hall
        simp only [hall, List.filterMap_map]
        rfl

/-- Whether the reconciler holds back the rules of a name: one of them has an
    error. -/
def heldBack (rules : List V1alpha1.IssuanceRule) (name : String) : Bool :=
  (validateIssuanceCEL u newEnv rules).any fun e => e.ruleName == name

/-- The names the reconciler holds back are those of rules that do not
    compile. -/
theorem heldBack_iff (rules : List V1alpha1.IssuanceRule) (name : String) :
    heldBack u newEnv rules name = true ↔
      ∃ ir ∈ rules, ir.name = name ∧ Cel.programOf newEnv ir.cel = none := by
  unfold heldBack
  simp only [validateIssuanceCEL_eq, List.any_eq_true, List.mem_filterMap, beq_iff_eq]
  constructor
  · intro hgiven
    rcases hgiven with ⟨e, ⟨ir, hir, he⟩, hname⟩
    exact ⟨ir, hir, (compileError_exists u newEnv _ name).mp ⟨e, he, hname⟩⟩
  · intro hgiven
    rcases hgiven with ⟨ir, hir, hfails⟩
    rcases (compileError_exists u newEnv (validationConfig ir) name).mpr hfails with
      ⟨e, he, hname⟩
    exact ⟨e, ⟨ir, hir, he⟩, hname⟩

/-- A name is not held back exactly when all rules of that name compile. -/
theorem not_heldBack_iff (rules : List V1alpha1.IssuanceRule) (name : String) :
    heldBack u newEnv rules name = false ↔
      ∀ ir ∈ rules, ir.name = name → (Cel.programOf newEnv ir.cel).isSome = true := by
  rw [← Bool.not_eq_true, heldBack_iff]
  simp only [not_exists, not_and, ← Option.not_isSome_iff_eq_none, not_not]

theorem policyRules_eq (policy : V1alpha1.TokenPolicy) :
    policyRules u newEnv policy =
      (policy.spec.issuanceRules.filter fun ir =>
        !heldBack u newEnv policy.spec.issuanceRules ir.name).map (policyRule policy) := rfl

/-- Whatever is published compiles. -/
theorem programOf_of_mem_policyRules (policy : V1alpha1.TokenPolicy) (r : IssuanceRule)
    (hr : r ∈ policyRules u newEnv policy) : ∃ p, Cel.programOf newEnv r.cel = some p := by
  rw [policyRules_eq] at hr
  rcases List.mem_map.mp hr with ⟨ir, hir, rfl⟩
  rcases List.mem_filter.mp hir with ⟨hmem, hkept⟩
  rw [Bool.not_eq_true', not_heldBack_iff] at hkept
  exact Option.isSome_iff_exists.mp (hkept ir hmem rfl)

/-- The list published for the policies compiles as a whole, rule by rule. -/
theorem compile_published (policies : List V1alpha1.TokenPolicy) :
    ∃ compiled, Tts.compileIssuanceRules u newEnv
        ((policies.flatMap (policyRules u newEnv)).map issuanceConfig) = .ok compiled ∧
      List.Forall₂ (fun r a => ∃ p, Cel.programOf newEnv r.cel = some p ∧
        a = (issuanceConfig r).build p) (policies.flatMap (policyRules u newEnv)) compiled := by
  have hcompiles := (Cel.compileRules_exists_iff u "issuance" Tts.IssuanceRuleConfig.name
    Tts.IssuanceRuleConfig.cel Tts.IssuanceRuleConfig.build newEnv
    ((policies.flatMap (policyRules u newEnv)).map issuanceConfig)).mpr (by
      rw [List.forall_mem_map]
      intro r hr
      rcases List.mem_flatMap.mp hr with ⟨policy, _, hr⟩
      exact programOf_of_mem_policyRules u newEnv policy r hr)
  rcases hcompiles with ⟨compiled, hcompiled⟩
  exact ⟨compiled, hcompiled, (compileIssuanceRules_eq_ok newEnv u _ compiled).mp hcompiled⟩

/-- Whether a rule is held back depends on its name alone, which is part of the
    key, so the filter can be judged at the key looked for. -/
theorem view_policyRules_eq (policy : V1alpha1.TokenPolicy) (k : String × String × String) :
    view keyFor (policyRules u newEnv policy).reverse k =
      (if !heldBack u newEnv policy.spec.issuanceRules k.2.2 then
        view (fun ir => ("", policy.name, ir.name)) policy.spec.issuanceRules.reverse k
      else none).map (policyRule policy) := by
  rw [policyRules_eq, ← List.map_reverse, view_map, ← List.filter_reverse]
  exact congrArg _ (view_filter (fun ir : V1alpha1.IssuanceRule => ("", policy.name, ir.name))
    (fun k => !heldBack u newEnv policy.spec.issuanceRules k.2.2)
    policy.spec.issuanceRules.reverse k)

/-- Within a policy the key is the name. -/
theorem view_policyName (policyName : String) (rules : List V1alpha1.IssuanceRule)
    (name : String) :
    view (fun ir : V1alpha1.IssuanceRule => ("", policyName, ir.name)) rules
        ("", policyName, name) =
      view V1alpha1.IssuanceRule.name rules name := by
  have hkey : Function.Injective fun name : String => ("", policyName, name) := by
    intro a b hab
    simp only [Prod.mk.injEq, true_and] at hab
    exact hab
  exact view_injective V1alpha1.IssuanceRule.name _ hkey rules name

/-- What a scan from the back finds among the rules published for one policy:
    the rule of a survivor. -/
theorem view_policyRules (policy : V1alpha1.TokenPolicy) (k : String × String × String)
    (r : IssuanceRule) :
    view keyFor (policyRules u newEnv policy).reverse k = some r ↔
      ∃ ir, Survives newEnv policy ir ∧ r = policyRule policy ir ∧ k = keyFor r := by
  rw [view_policyRules_eq, Option.map_eq_some_iff]
  constructor
  · intro hgiven
    rcases hgiven with ⟨ir, hir, rfl⟩
    rw [Option.ite_none_right_eq_some, Bool.not_eq_true'] at hir
    rcases hir with ⟨hkept, hfound⟩
    have hk : ("", policy.name, ir.name) = k := (mem_of_view _ _ _ _ hfound).2
    rw [← hk] at hfound hkept
    rw [view_policyName] at hfound
    exact ⟨ir, ⟨hfound, (not_heldBack_iff u newEnv _ _).mp hkept⟩, rfl, hk.symm⟩
  · intro hgiven
    rcases hgiven with ⟨ir, hir, rfl, rfl⟩
    have hkept := (not_heldBack_iff u newEnv _ _).mpr hir.compile
    refine ⟨ir, ?_, rfl⟩
    rw [Option.ite_none_right_eq_some, Bool.not_eq_true']
    exact ⟨hkept, (view_policyName policy.name _ ir.name).trans hir.last⟩

/-- What a client collects from its map after the snapshot: the rules of the
    survivors. -/
theorem mem_collected (policies : List V1alpha1.TokenPolicy)
    (hnames : (policies.map V1alpha1.TokenPolicy.name).Nodup) (flat : List IssuanceRule)
    (hflat : Ranges (insertAll keyFor ∅ (policies.flatMap (policyRules u newEnv))) flat)
    (r : IssuanceRule) :
    r ∈ flat ↔ ∃ policy ∈ policies, ∃ ir, Survives newEnv policy ir ∧ r = policyRule policy ir := by
  have hgroup : ∀ policy, ∀ r ∈ policyRules u newEnv policy, (keyFor r).2.1 = policy.name := by
    intro policy r hr
    rcases List.mem_map.mp hr with ⟨ir, _, rfl⟩
    rfl
  -- The last rule stored under a key is found, and the policy's name is part of
  -- the key, so a rule competes only with rules of its own policy.
  have hlookup : ∀ k, (insertAll keyFor ∅ (policies.flatMap (policyRules u newEnv))).lookup k
      = some r ↔ ∃ policy ∈ policies, ∃ ir, Survives newEnv policy ir ∧
        r = policyRule policy ir ∧ k = keyFor r := by
    intro k
    rw [lookup_insertAll, Finmap.lookup_empty, Option.or_none,
      view_flatMap_reverse keyFor _ (fun k => k.2.1) _ policies hgroup hnames]
    simp only [view_policyRules]
  rw [mem_of_ranges hflat]
  simp only [hlookup]
  constructor
  · intro hgiven
    rcases hgiven with ⟨k, policy, hpolicy, ir, hir, hr, _⟩
    exact ⟨policy, hpolicy, ir, hir, hr⟩
  · intro hgiven
    rcases hgiven with ⟨policy, hpolicy, ir, hir, hr⟩
    exact ⟨keyFor r, policy, hpolicy, ir, hir, hr, rfl⟩

/-- The compiled form of a policy's rule. -/
def activeRule (policy : V1alpha1.TokenPolicy) (ir : V1alpha1.IssuanceRule)
    (p : Cel.Program Tts.Activation) : Tts.IssuanceRule :=
  (issuanceConfig (policyRule policy ir)).build p

/-- Of the rules collected, sorted and made into configurations. -/
theorem mem_configs (S : SortSlice) (policies : List V1alpha1.TokenPolicy)
    (hnames : (policies.map V1alpha1.TokenPolicy.name).Nodup) (flat : List IssuanceRule)
    (hflat : Ranges (insertAll keyFor ∅ (policies.flatMap (policyRules u newEnv))) flat)
    (cfg : Tts.IssuanceRuleConfig) :
    cfg ∈ (S.sort issuanceLess flat).map issuanceConfig ↔
      ∃ policy ∈ policies, ∃ ir, Survives newEnv policy ir ∧
        cfg = issuanceConfig (policyRule policy ir) := by
  rw [List.mem_map]
  simp only [(S.perm issuanceLess flat).mem_iff,
    mem_collected u newEnv policies hnames flat hflat]
  constructor
  · intro hgiven
    rcases hgiven with ⟨r, ⟨policy, hpolicy, ir, hir, hr⟩, hcfg⟩
    exact ⟨policy, hpolicy, ir, hir, by rw [← hcfg, hr]⟩
  · intro hgiven
    rcases hgiven with ⟨policy, hpolicy, ir, hir, hcfg⟩
    exact ⟨_, ⟨policy, hpolicy, ir, hir, rfl⟩, hcfg.symm⟩

/-- The handler's rules after a snapshot are the survivors', compiled. None of
    them fails to compile, so the setter does install them. -/
theorem mem_active (S : SortSlice) (policies : List V1alpha1.TokenPolicy)
    (hnames : (policies.map V1alpha1.TokenPolicy.name).Nodup) (server server' : RuleServer)
    (hpublished : Controller.rebuildIssuanceRules u newEnv (.ok policies) (some server)
      = .ok (some server'))
    (resp : Response Proto.IssuanceRule)
    (hresp : resp.update = some (.snapshot (server'.issuance.rules.map issuanceRuleToProto)))
    (c c' : TtsClient) (h : Tts.Handler) (hh : c.setter.handler = some h)
    (hhandles : c.Handles u S newEnv resp c') :
    ∃ h', c'.setter.handler = some h' ∧ c'.synced = true ∧ ∀ a, a ∈ h'.loadIssuanceRules ↔
      ∃ policy ∈ policies, ∃ ir p, Survives newEnv policy ir ∧
        Cel.programOf newEnv ir.cel = some p ∧ a = activeRule policy ir p := by
  rcases hhandles with ⟨flat, hflat, rfl⟩
  have hserver : server'.issuance.rules = policies.flatMap (policyRules u newEnv) := by
    rw [← Option.some.inj (Except.ok.inj hpublished)]
    rfl
  rw [receive_snapshot lawful_issuance _ resp hresp, hserver] at hflat
  have hmem := mem_configs u newEnv S policies hnames flat hflat
  -- A survivor's own expression compiles, and so the whole list does.
  have hcompiles : ∃ compiled, Tts.compileIssuanceRules u newEnv
      ((S.sort issuanceLess flat).map issuanceConfig) = .ok compiled := by
    refine (Cel.compileRules_exists_iff u "issuance" _ _ _ newEnv _).mpr fun cfg hcfg => ?_
    rcases (hmem cfg).mp hcfg with ⟨policy, _, ir, hir, rfl⟩
    exact Option.isSome_iff_exists.mp (hir.compile ir hir.mem rfl)
  rcases hcompiles with ⟨compiled, hcompiled⟩
  have hinstall : TtsClient.install u S newEnv
      { c with rules := issuanceStream.receive c.rules resp } flat
      = { rules := issuanceStream.receive c.rules resp
          setter := { handler := some (h.setIssuanceRules compiled) }
          synced := true } := by
    unfold TtsClient.install HandlerSetter.setIssuanceRules
    simp only [hh, hcompiled]
  rw [hinstall]
  refine ⟨_, rfl, rfl, fun a => ?_⟩
  -- Sorting and iterating only reorder, which membership does not see.
  have hactive := Cel.mem_of_compileRules u "issuance" _ _ _ newEnv _ compiled hcompiled a
  refine hactive.trans ?_
  simp only [hmem]
  constructor
  · intro hgiven
    rcases hgiven with ⟨cfg, ⟨policy, hpolicy, ir, hir, hcfg⟩, p, hp, ha⟩
    rw [hcfg] at hp ha
    exact ⟨policy, hpolicy, ir, p, hir, hp, ha⟩
  · intro hgiven
    rcases hgiven with ⟨policy, hpolicy, ir, p, hir, hp, ha⟩
    exact ⟨_, ⟨policy, hpolicy, ir, hir, rfl⟩, p, hp, ha⟩

/-- A list of rules enforces the policies. Every rule that compiles is in it,
    with its program, message and target namespaces; every rule in it is such a
    rule; and without target namespaces no token is issued that a rule which
    compiles evaluates to false for. -/
structure Enforced (policies : List V1alpha1.TokenPolicy) (active : List Tts.IssuanceRule) :
    Prop where
  reached : ∀ policy ∈ policies, ∀ ir ∈ policy.spec.issuanceRules, ∀ p,
    Cel.programOf newEnv ir.cel = some p → ∃ a ∈ active, a.program = p ∧
      a.message = ir.message ∧
      a.targetNamespaces = resolveTargetNamespaces policy.spec.targetNamespaces
  sourced : ∀ a ∈ active, ∃ policy ∈ policies, ∃ ir ∈ policy.spec.issuanceRules,
    Cel.programOf newEnv ir.cel = some a.program ∧ a.message = ir.message ∧
      a.targetNamespaces = resolveTargetNamespaces policy.spec.targetNamespaces
  denies : (∀ policy ∈ policies, resolveTargetNamespaces policy.spec.targetNamespaces = []) →
    ∀ policy ∈ policies, ∀ ir ∈ policy.spec.issuanceRules, ∀ p,
      Cel.programOf newEnv ir.cel = some p → ∀ ictx : Tts.IssuanceContext,
        p ictx.activation = .ok (.bool false) →
        Tts.evaluateIssuanceRules u active ictx ≠ .ok ()

/-- Every rule that compiles has a survivor with its program, message and target
    namespaces, be it the rule itself or another like it. -/
def Represented (policies : List V1alpha1.TokenPolicy) : Prop :=
  ∀ policy ∈ policies, ∀ ir ∈ policy.spec.issuanceRules, ∀ p,
    Cel.programOf newEnv ir.cel = some p → ∃ policy' ∈ policies, ∃ ir',
      Survives newEnv policy' ir' ∧ Cel.programOf newEnv ir'.cel = some p ∧
      ir'.message = ir.message ∧
      resolveTargetNamespaces policy'.spec.targetNamespaces
        = resolveTargetNamespaces policy.spec.targetNamespaces

/-- A rule without target namespaces that evaluates to false denies. -/
theorem denies_of_mem (active : List Tts.IssuanceRule) (a : Tts.IssuanceRule) (ha : a ∈ active)
    (htargets : a.targetNamespaces = []) (ictx : Tts.IssuanceContext)
    (hfalse : a.program ictx.activation = .ok (.bool false)) :
    Tts.evaluateIssuanceRules u active ictx ≠ .ok () := by
  intro hok
  have htrue := (Tts.evaluateIssuanceRules_eq_ok u active ictx).mp hok a ha (by
    rw [htargets]
    rfl)
  rw [hfalse] at htrue
  cases htrue

end Policies

/-- Validation and installation agree. For every list of rules the errors reported
    are those of the rules that fail on their own, in order, and none are reported
    just when each rule compiles on its own. For every list of policies, whatever is
    published is compiled without an error by the setter, one rule for each, in
    order, and installed. -/
theorem validated_installs (u : Unicode) (newEnv : Except String (Cel.Env Tts.Activation)) :
    (∀ rules : List V1alpha1.IssuanceRule,
      validateIssuanceCEL u newEnv rules =
        rules.filterMap (fun ir => Controller.compileError u newEnv (validationConfig ir)) ∧
      (validateIssuanceCEL u newEnv rules = [] ↔
        ∀ ir ∈ rules, ∃ ps, Tts.compileIssuanceRules u newEnv [validationConfig ir] = .ok ps)) ∧
    ∀ (policies : List V1alpha1.TokenPolicy) (server : RuleServer) (h : Tts.Handler),
      ∃ server' compiled,
        Controller.rebuildIssuanceRules u newEnv (.ok policies) (some server) =
          .ok (some server') ∧
        Tts.compileIssuanceRules u newEnv (server'.issuance.rules.map issuanceConfig) =
          .ok compiled ∧
        List.Forall₂ (fun r a => ∃ p, Cel.programOf newEnv r.cel = some p ∧
          a = (issuanceConfig r).build p) server'.issuance.rules compiled ∧
        HandlerSetter.setIssuanceRules u newEnv { handler := some h } server'.issuance.rules =
          .ok { handler := some (h.setIssuanceRules compiled) } := by
  constructor
  · intro rules
    refine ⟨validateIssuanceCEL_eq u newEnv rules, ?_⟩
    rw [validateIssuanceCEL_eq, List.filterMap_eq_nil_iff]
    refine forall₂_congr fun ir _ => ?_
    rw [compileError_eq_none_iff]
    exact (Cel.compileRules_singleton u "issuance" _ _ _ newEnv _).symm
  · intro policies server h
    rcases compile_published u newEnv policies with ⟨compiled, hcompiled, hrules⟩
    refine ⟨server.updateIssuanceRules (policies.flatMap (policyRules u newEnv)), compiled, rfl,
      hcompiled, hrules, ?_⟩
    have hpublished : (server.updateIssuanceRules
        (policies.flatMap (policyRules u newEnv))).issuance.rules =
        policies.flatMap (policyRules u newEnv) := rfl
    unfold HandlerSetter.setIssuanceRules
    simp only [hpublished, hcompiled]

/-- When every valid rule is enforced. For policies with distinct names, in any
    order, a client that handles the snapshot of what was published installs a
    rule set, and that set enforces the policies exactly when every rule that
    compiles is represented by a survivor. -/
theorem policies_enforced_iff (u : Unicode) (S : SortSlice)
    (newEnv : Except String (Cel.Env Tts.Activation)) (policies : List V1alpha1.TokenPolicy)
    (hnames : (policies.map V1alpha1.TokenPolicy.name).Nodup) (server server' : RuleServer)
    (hpublished : Controller.rebuildIssuanceRules u newEnv (.ok policies) (some server)
      = .ok (some server'))
    (resp : Response Proto.IssuanceRule)
    (hresp : resp.update = some (.snapshot (server'.issuance.rules.map issuanceRuleToProto)))
    (c c' : TtsClient) (h : Tts.Handler) (hh : c.setter.handler = some h)
    (hhandles : c.Handles u S newEnv resp c') :
    ∃ h', c'.setter.handler = some h' ∧ c'.synced = true ∧
      (Enforced u newEnv policies h'.loadIssuanceRules ↔ Represented newEnv policies) := by
  rcases mem_active u newEnv S policies hnames server server' hpublished resp hresp c c' h hh
    hhandles with ⟨h', hh', hsynced, hactive⟩
  refine ⟨h', hh', hsynced, fun henforced => ?_, fun hrep => ?_⟩
  · intro policy hpolicy ir hir p hp
    rcases henforced.reached policy hpolicy ir hir p hp with ⟨a, ha, hprogram, hmessage, htargets⟩
    rcases (hactive a).mp ha with ⟨policy', hpolicy', ir', p', hir', hp', rfl⟩
    exact ⟨policy', hpolicy', ir', hir', hprogram ▸ hp', hmessage, htargets⟩
  · have hreached : ∀ policy ∈ policies, ∀ ir ∈ policy.spec.issuanceRules, ∀ p,
        Cel.programOf newEnv ir.cel = some p → ∃ a ∈ h'.loadIssuanceRules, a.program = p ∧
          a.message = ir.message ∧
          a.targetNamespaces = resolveTargetNamespaces policy.spec.targetNamespaces := by
      intro policy hpolicy ir hir p hp
      rcases hrep policy hpolicy ir hir p hp with
        ⟨policy', hpolicy', ir', hir', hp', hmessage, htargets⟩
      exact ⟨activeRule policy' ir' p, (hactive _).mpr ⟨policy', hpolicy', ir', p, hir', hp', rfl⟩,
        rfl, hmessage, htargets⟩
    -- The converse and the denial need no condition of their own.
    refine ⟨hreached, fun a ha => ?_, fun hcluster policy hpolicy ir hir p hp ictx hfalse => ?_⟩
    · rcases (hactive a).mp ha with ⟨policy, hpolicy, ir, p, hir, hp, rfl⟩
      exact ⟨policy, hpolicy, ir, hir.mem, hp, rfl, rfl⟩
    · rcases hreached policy hpolicy ir hir p hp with ⟨a, ha, hprogram, _, htargets⟩
      rw [hcluster policy hpolicy] at htargets
      exact denies_of_mem u _ a ha htargets ictx (hprogram ▸ hfalse)

/-- When rule names are distinct within every policy, all that compile
    survive. -/
theorem represented_of_distinct (newEnv : Except String (Cel.Env Tts.Activation))
    (policies : List V1alpha1.TokenPolicy)
    (hrules : ∀ policy ∈ policies,
      DistinctKeys V1alpha1.IssuanceRule.name policy.spec.issuanceRules) :
    Represented newEnv policies := by
  intro policy hpolicy ir hir p hp
  have hd := hrules policy hpolicy
  have hlast := view_of_mem _ _ hd ir hir
  refine ⟨policy, hpolicy, ir, ⟨?_, fun ir' hir' hname => ?_⟩, hp, rfl, rfl⟩
  · rw [view_reverse _ _ hd]
    exact hlast
  · have hsame := view_of_mem _ _ hd ir' hir'
    -- A rule of the same name is the same rule.
    rw [hname, hlast] at hsame
    rw [← Option.some.inj hsame, hp]
    rfl

/-- A client can handle what is published for any policies. -/
theorem exists_handled (newEnv : Except String (Cel.Env Tts.Activation))
    (policies : List V1alpha1.TokenPolicy) (c : TtsClient) :
    ∃ server c', Controller.rebuildIssuanceRules Unicode.ascii newEnv (.ok policies)
        (some RuleServer.new) = .ok (some server) ∧
      c.Handles Unicode.ascii SortSlice.insertion newEnv
        (issuanceStream.buildSnapshot server.issuance) c' := by
  let server := RuleServer.new.updateIssuanceRules
    (policies.flatMap (policyRules Unicode.ascii newEnv))
  rcases exists_ranges (issuanceStream.receive c.rules
    (issuanceStream.buildSnapshot server.issuance)) with ⟨flat, hflat⟩
  exact ⟨server, _, rfl, flat, hflat, rfl⟩

/-- A policy that denies everything, with another rule. -/
def freezePolicy (name cel : String) : V1alpha1.TokenPolicy where
  name := "freeze"
  spec :=
    { targetNamespaces := none
      issuanceRules := [{ name := "freeze", cel := "false", message := "frozen" },
        { name := name, cel := cel, message := "closed" }] }

/-- A client of the sample service. -/
def freezeClient : TtsClient where
  rules := ∅
  setter := { handler := some Tts.sampleHandler }
  synced := false

/-- Under another name, a rule that does not compile harms no other. -/
theorem policies_enforced_iff_freeze :
    ∃ (c : TtsClient) (h : Tts.Handler), c.setter.handler = some h ∧
      Enforced Unicode.ascii (.ok (Cel.Env.constants _)) [freezePolicy "thaw" "tru"]
        h.loadIssuanceRules := by
  rcases exists_handled (.ok (Cel.Env.constants _)) [freezePolicy "thaw" "tru"] freezeClient with
    ⟨server, c, hpublished, hhandles⟩
  rcases policies_enforced_iff Unicode.ascii SortSlice.insertion (.ok (Cel.Env.constants _))
    [freezePolicy "thaw" "tru"] (by decide) RuleServer.new server hpublished
    (issuanceStream.buildSnapshot server.issuance) rfl freezeClient c Tts.sampleHandler rfl
    hhandles with ⟨h, hh, _, hiff⟩
  exact ⟨c, h, hh, hiff.mpr (represented_of_distinct _ _ (by decide))⟩

/-- The last rule of the policy is the only one that can survive under the name
    both have. -/
theorem survives_freeze (newEnv : Except String (Cel.Env Tts.Activation)) (cel : String)
    (ir : V1alpha1.IssuanceRule) (h : Survives newEnv (freezePolicy "freeze" cel) ir) :
    ir = { name := "freeze", cel := cel, message := "closed" } := by
  have hname : ir.name = "freeze" := by
    rcases List.mem_cons.mp h.mem with hir | hir
    · rw [hir]
    · rw [List.mem_singleton.mp hir]
  have hlast := h.last
  rw [hname] at hlast
  exact (Option.some.inj hlast).symm

/-- The policy, with a second rule of the same name, is published and handled,
    and every token is issued all the same. -/
def FreezeEvaded (cel : String) : Prop :=
  ∃ (server : RuleServer) (c : TtsClient) (h : Tts.Handler),
    Controller.rebuildIssuanceRules Unicode.ascii (.ok (Cel.Env.constants _))
      (.ok [freezePolicy "freeze" cel]) (some RuleServer.new) = .ok (some server) ∧
    freezeClient.Handles Unicode.ascii SortSlice.insertion (.ok (Cel.Env.constants _))
      (issuanceStream.buildSnapshot server.issuance) c ∧
    c.setter.handler = some h ∧
    (∀ ictx, Tts.evaluateIssuanceRules Unicode.ascii h.loadIssuanceRules ictx = .ok ()) ∧
    ¬Enforced Unicode.ascii (.ok (Cel.Env.constants _)) [freezePolicy "freeze" cel]
      h.loadIssuanceRules

theorem freezeEvaded (cel : String) (hcel : cel = "true" ∨ cel = "fals") : FreezeEvaded cel := by
  rcases exists_handled (.ok (Cel.Env.constants _)) [freezePolicy "freeze" cel] freezeClient with
    ⟨server, c, hpublished, hhandles⟩
  rcases mem_active Unicode.ascii (.ok (Cel.Env.constants _)) SortSlice.insertion
    [freezePolicy "freeze" cel] (List.nodup_singleton _) RuleServer.new server hpublished
    (issuanceStream.buildSnapshot server.issuance) rfl freezeClient c Tts.sampleHandler rfl
    hhandles with ⟨h, hh, _, hactive⟩
  have hissued : ∀ ictx,
      Tts.evaluateIssuanceRules Unicode.ascii h.loadIssuanceRules ictx = .ok () := by
    intro ictx
    rw [Tts.evaluateIssuanceRules_eq_ok]
    intro a ha _
    rcases (hactive a).mp ha with ⟨policy, hpolicy, ir, p, hir, hp, rfl⟩
    rw [List.mem_singleton.mp hpolicy] at hir
    rw [survives_freeze _ cel ir hir] at hp
    -- The survivor is true of everything, or does not compile and is none.
    rcases hcel with rfl | rfl
    · rw [← Option.some.inj hp]
      rfl
    · cases hp
  refine ⟨server, c, h, hpublished, hhandles, hh, hissued, fun henforced => ?_⟩
  have hdenied := henforced.denies (by simp only [List.mem_singleton, forall_eq]; rfl)
    (freezePolicy "freeze" cel) List.mem_cons_self
    { name := "freeze", cel := "false", message := "frozen" } List.mem_cons_self _ rfl
    { subject := "alice", scope := "read", tctx := none, rctx := none, workload := "unknown"
      workloadNS := "" } rfl
  exact hdenied (hissued _)

/-- When the second rule compiles, it takes the place of the first in the
    client's map. When it does not, the reconciler holds back both. -/
theorem same_name_not_enforced : FreezeEvaded "true" ∧ FreezeEvaded "fals" :=
  ⟨freezeEvaded "true" (Or.inl rfl), freezeEvaded "fals" (Or.inr rfl)⟩

end Kontxt
