import Kontxt.Core.Controller
import Kontxt.Core.RuleClient
import Kontxt.Theory.Cel
import Kontxt.Theory.Distribution
import Kontxt.Theory.Mediation

/-!
# Enforcing Requirements

Whether what an administrator writes is what is enforced. A resource goes
through the reconciler's compile step, the rule server, the wire, a client's
map, a sort and a second compile step before it counts.

For requirements the way is lossless. Their names are distinct within a
namespace, so the client's map holds each of them, and whatever order the map
is iterated in, sorting by namespace and name leaves one possible slice. The
two compile steps agree, since the second sees only what passed the first.

## Main definitions

* `enforcedRequirement`: What a requirement is enforced as.

## Theorems

* `validateAndCompileCELRules_fst`: The reconciler keeps what compiles.
* `sort_requirements`: The installed slice is the sorted requirements.
* `requirements_enforced`: Every requirement is enforced, unchanged.
-/

namespace Kontxt

open Go Lib

section Requirements

variable (newEnv : Except String (Cel.Env Celverify.Context))

/-- What a requirement is enforced as: its own fields, and in the order of its
    rules a program for each expression that compiles. -/
def enforcedRequirement (str : V1alpha1.ServiceTokenRequirement) : VerificationRuleSet where
  rule :=
    { nameSpace := str.nameSpace
      name := str.name
      serviceName := str.spec.serviceRefName
      requiredScope := str.spec.verification.requiredScope
      requiredTctxFields := str.spec.verification.requiredTctxFields
      celRules := (str.spec.verification.rules.filter fun r =>
        (Cel.programOf newEnv r.cel).isSome).map fun r =>
          { name := r.name, cel := r.cel, message := r.message }
      excludedEndpoints := str.spec.excludedEndpoints
      autoNarrow := str.spec.autoNarrow }
  celPrograms := str.spec.verification.rules.filterMap fun r =>
    (Cel.programOf newEnv r.cel).map fun p =>
      { name := r.name, program := p, message := r.message }

/-- The reconciler keeps the rules whose expressions compile. The test for an
    empty expression makes no difference to which: it does not compile. -/
theorem validateAndCompileCELRules_fst (u : Unicode) (rules : List V1alpha1.VerificationRule) :
    (Controller.validateAndCompileCELRules u newEnv rules).1
      = rules.filter fun r => (Cel.programOf newEnv r.cel).isSome := by
  induction rules with
  | nil => rfl
  | cons rule rules ih =>
      have hspec : (∃ ps, Celverify.compile u newEnv
          [{ name := rule.name, cel := rule.cel, message := rule.message }] = .ok ps) ↔
          (Cel.programOf newEnv rule.cel).isSome = true :=
        Cel.compileRules_singleton u "verification" _ _ _ newEnv _
      unfold Controller.validateAndCompileCELRules
      rw [List.filter_cons]
      -- The reconciler tests for an empty expression before it compiles, and the
      -- compiler tests again.
      by_cases hempty : rule.cel = ""
      · have hnone : (Cel.programOf newEnv rule.cel).isSome = false := by
          rw [hempty]
          cases newEnv with
          | error e => rfl
          | ok env => rfl
        simp only [if_pos hempty, hnone, Bool.false_eq_true, if_false]
        exact ih
      · simp only [if_neg hempty]
        cases hc : Celverify.compile u newEnv
            [{ name := rule.name, cel := rule.cel, message := rule.message }] with
        | error e =>
            cases hp : (Cel.programOf newEnv rule.cel).isSome with
            | false => exact ih
            | true =>
                -- A program would have made the expression compile.
                rcases hspec.mpr hp with ⟨ps, hps⟩
                rw [hc] at hps
                cases hps
        | ok ps =>
            have hsome : (Cel.programOf newEnv rule.cel).isSome = true := hspec.mp ⟨ps, hc⟩
            rw [if_pos hsome, ← ih]

/-- What is published for a requirement is the rule it is enforced with. -/
theorem requirementRule_eq (u : Unicode) (str : V1alpha1.ServiceTokenRequirement) :
    Controller.requirementRule u newEnv str = (enforcedRequirement newEnv str).rule := by
  unfold Controller.requirementRule
  rw [validateAndCompileCELRules_fst]
  rfl

/-- Compiling what was published gives the programs of the requirement. -/
theorem compileVerificationRuleCEL_requirement (u : Unicode)
    (str : V1alpha1.ServiceTokenRequirement) :
    compileVerificationRuleCEL u newEnv (enforcedRequirement newEnv str).rule
      = (enforcedRequirement newEnv str).celPrograms := by
  rw [compileVerificationRuleCEL_eq]
  unfold enforcedRequirement
  simp only [List.filterMap_map, List.filterMap_filter]
  refine List.filterMap_congr (fun r _ => ?_)
  cases hp : Cel.programOf newEnv r.cel with
  | none => rfl
  | some p => simp only [Option.isSome_some, if_true, Function.comp_apply, compiledCEL, hp,
      Option.map_some]

/-- Each expression of an enforced rule has its program, in order. -/
theorem forall₂_enforcedRequirement (str : V1alpha1.ServiceTokenRequirement) :
    List.Forall₂ (fun c p => compiledCEL newEnv c = some p)
      (enforcedRequirement newEnv str).rule.celRules
      (enforcedRequirement newEnv str).celPrograms := by
  unfold enforcedRequirement
  simp only
  induction str.spec.verification.rules with
  | nil => exact List.Forall₂.nil
  | cons r rules ih =>
      cases hp : Cel.programOf newEnv r.cel with
      | none => simp only [List.filter_cons, List.filterMap_cons, hp, Option.isSome_none,
          Bool.false_eq_true, if_false, Option.map_none]; exact ih
      | some p =>
          simp only [List.filter_cons, List.filterMap_cons, hp, Option.isSome_some, if_true,
            Option.map_some, List.map_cons]
          refine List.Forall₂.cons ?_ ih
          simp only [compiledCEL, hp, Option.map_some]

/-- The key requirements and their rules are sorted by. -/
def sortKey (nameSpace name : String) : Lex (String × String) :=
  toLex (nameSpace, name)

/-- The comparison the adapter sorts by compares namespaces, then names. -/
theorem verificationLess_eq :
    verificationLess = lessBy fun r : VerificationRule => sortKey r.nameSpace r.name := by
  funext a b
  unfold verificationLess lessBy sortKey
  by_cases hns : a.nameSpace = b.nameSpace
  · simp only [hns, ne_eq, not_true_eq_false, if_false, Prod.Lex.toLex_lt_toLex, lt_self_iff_false,
      true_and, false_or]
  · simp only [hns, ne_eq, not_false_eq_true, if_true, Prod.Lex.toLex_lt_toLex, false_and,
      or_false]

/-- Sorting a permutation of the published rules gives the rules of the sorted
    requirements. -/
theorem sort_requirements (S : SortSlice) (strs : List V1alpha1.ServiceTokenRequirement)
    (hd : (strs.map fun str => sortKey str.nameSpace str.name).Nodup)
    (rules : List VerificationRule)
    (hperm : rules.Perm (strs.map fun str => (enforcedRequirement newEnv str).rule)) :
    S.sort verificationLess rules
      = (S.sort (lessBy fun str => sortKey str.nameSpace str.name) strs).map
          fun str => (enforcedRequirement newEnv str).rule := by
  have hd' : (rules.map fun r => sortKey r.nameSpace r.name).Nodup := by
    rw [(hperm.map _).nodup_iff, List.map_map]
    exact hd
  rw [verificationLess_eq]
  -- Both sides are strictly increasing permutations of one list.
  refine eq_of_strict _ (sort_strict S _ rules hd') ?_ ?_
  · rw [List.pairwise_map]
    exact sort_strict S _ strs hd
  · exact (S.perm _ rules).trans (hperm.trans ((S.perm _ strs).map _).symm)

end Requirements

/-- Every requirement reaches enforcement unchanged. For requirements with
    distinct namespaces and names, in any order, a client that handles the
    snapshot of what was published, iterating its map in any order, has as its
    active rule set the requirements sorted by namespace and name, each with its
    own fields and programs; and no published expression is without its
    program. -/
theorem requirements_enforced (u : Unicode) (S : SortSlice)
    (newEnv : Except String (Cel.Env Celverify.Context))
    (strs : List V1alpha1.ServiceTokenRequirement)
    (hdistinct : (strs.map fun str => (str.nameSpace, str.name)).Nodup)
    (server server' : RuleServer)
    (hpublished : Controller.rebuildVerificationRules u newEnv (.ok strs) (some server)
      = .ok (some server'))
    (resp : Response Proto.VerificationRule)
    (hresp : resp.update
      = some (.snapshot (server'.verification.rules.map verificationRuleToProto)))
    (c c' : ExtAuthClient) (hhandles : c.Handles u S newEnv resp c') :
    (∃ sorted : List V1alpha1.ServiceTokenRequirement, sorted.Perm strs ∧
      sorted.Pairwise (fun a b =>
        a.nameSpace < b.nameSpace ∨ a.nameSpace = b.nameSpace ∧ a.name < b.name) ∧
      c'.verSet.loadVerificationRules = sorted.map (enforcedRequirement newEnv)) ∧
    ∀ rs ∈ c'.verSet.loadVerificationRules,
      List.Forall₂ (fun cel p => compiledCEL newEnv cel = some p) rs.rule.celRules
        rs.celPrograms := by
  rcases hhandles with ⟨rules, hranges, rfl⟩
  have hserver : server'.verification.rules
      = strs.map fun str => (enforcedRequirement newEnv str).rule := by
    rw [← Option.some.inj (Except.ok.inj hpublished)]
    exact List.map_congr_left fun str _ => requirementRule_eq newEnv u str
  have hkeys : DistinctKeys verificationStream.key server'.verification.rules := by
    rw [hserver, DistinctKeys, List.map_map]
    exact hdistinct
  have hperm : rules.Perm server'.verification.rules := by
    rw [receive_snapshot lawful_verification _ resp hresp] at hranges
    exact perm_of_ranges_insertAll verificationStream.key _ hkeys rules hranges
  rw [hserver] at hperm
  -- The order the map was iterated in is forgotten by the sort.
  have hactive : (c.verSet.setVerificationRules u S newEnv rules).loadVerificationRules
      = (S.sort (lessBy fun str => sortKey str.nameSpace str.name) strs).map
          (enforcedRequirement newEnv) := by
    unfold ExtAuth.Server.setVerificationRules ExtAuth.Server.loadVerificationRules
    simp only [Option.getD_some]
    rw [sort_requirements newEnv S strs hdistinct rules hperm, List.map_map]
    refine List.map_congr_left fun str _ => ?_
    simp only [Function.comp_apply, compileVerificationRuleCEL_requirement]
  refine ⟨⟨_, S.perm _ strs, ?_, hactive⟩, ?_⟩
  · have hkeyed : (strs.map fun str => sortKey str.nameSpace str.name).Nodup := hdistinct
    exact (sort_strict S _ strs hkeyed).imp fun hlt => Prod.Lex.toLex_lt_toLex.mp hlt
  · intro rs hrs
    rw [hactive] at hrs
    rcases List.mem_map.mp hrs with ⟨str, _, rfl⟩
    exact forall₂_enforcedRequirement newEnv str

/-- A requirement of a service for a scope and some expressions. -/
def sampleRequirement (name : String) (rules : List V1alpha1.VerificationRule) :
    V1alpha1.ServiceTokenRequirement where
  nameSpace := "shop"
  name := name
  spec :=
    { serviceRefName := name
      verification := { requiredScope := "read", requiredTctxFields := [], rules := rules }
      excludedEndpoints := []
      autoNarrow := false }

/-- Two requirements, listed out of order, one with an expression that compiles
    and one that does not. -/
def sampleRequirements : List V1alpha1.ServiceTokenRequirement :=
  [sampleRequirement "catalog" [],
    sampleRequirement "billing" [{ name := "open", cel := "true", message := "closed" },
      { name := "typo", cel := "tru", message := "closed" }]]

theorem requirements_enforced_sample :
    ∃ (c : ExtAuthClient) (sorted : List V1alpha1.ServiceTokenRequirement),
      sorted.Perm sampleRequirements ∧
      c.verSet.loadVerificationRules
        = sorted.map (enforcedRequirement (.ok (Cel.Env.constants _))) := by
  let server := RuleServer.new.updateVerificationRules (sampleRequirements.map
    (Controller.requirementRule Unicode.ascii (.ok (Cel.Env.constants _))))
  let client : ExtAuthClient :=
    { verRules := ∅, verSet := ExtAuth.closedServer, verSynced := false }
  rcases exists_ranges (verificationStream.receive client.verRules
    (verificationStream.buildSnapshot server.verification)) with ⟨rules, hranges⟩
  have henforced := requirements_enforced Unicode.ascii SortSlice.insertion
    (.ok (Cel.Env.constants _)) sampleRequirements (by decide) RuleServer.new server rfl
    (verificationStream.buildSnapshot server.verification) rfl client _ ⟨rules, hranges, rfl⟩
  rcases henforced.1 with ⟨sorted, hperm, _, hactive⟩
  exact ⟨_, sorted, hperm, hactive⟩

end Kontxt
