import Kontxt.Core.GenerationServer
import Kontxt.Theory.Distribution
import Kontxt.Theory.Requirements

/-!
# What the Order of Rules Decides

A client collects its rules from a map, in whatever order the map is iterated.
What the order means differs between the two adapters.

The one that verifies sorts the rules when they are installed. With distinct
namespaces and names there is one sorted order, so the rule set that is stored
is the same for every order the rules came in, and with it everything that is
read off it: the exclusions, the first rule that fails, and the rule a token is
narrowed for.

The one that generates tokens keeps the order and takes the first rule that
matches. Patterns may overlap, so the order matters as soon as two rules match
one request, and `generation_choice_iff` says that it matters only then.

## Theorems

* `setVerificationRules_eq_of_perm`: Installing rules in another order.
* `ExtAuth.verification_order_irrelevant`: The same rule set, and the same
  responses.
* `find?_eq_of_unique`: A scan with one possible result.
* `ExtAuth.generation_choice_iff`: When the order does not decide which rule is
  chosen.
-/

namespace Kontxt

open Go Lib

namespace ExtAuth

/-- Rules with distinct namespaces and names are installed in one order. -/
theorem setVerificationRules_eq_of_perm (u : Unicode) (S S' : SortSlice)
    (newEnv : Except String (Cel.Env Celverify.Context)) (s : Server)
    (rules rules' : List VerificationRule)
    (hdistinct : (rules.map fun r => (r.nameSpace, r.name)).Nodup) (hperm : rules.Perm rules') :
    s.setVerificationRules u S newEnv rules = s.setVerificationRules u S' newEnv rules' := by
  have hkeys : (rules.map fun r => sortKey r.nameSpace r.name).Nodup := hdistinct
  have hsorted : S.sort verificationLess rules = S'.sort verificationLess rules' := by
    rw [verificationLess_eq]
    exact sort_eq_of_perm S S' (fun r => sortKey r.nameSpace r.name) hperm hkeys
  unfold Server.setVerificationRules
  rw [hsorted]

/-- Verification does not depend on the order of the rules. Of every list of
    rules with distinct namespaces and names, every permutation is stored as the
    same rule set, by any two sorts; so every request gets the same response,
    with the same message and the same token, and a token is narrowed for the
    same rule. -/
theorem verification_order_irrelevant (u : Unicode) (S S' : SortSlice)
    (newEnv : Except String (Cel.Env Celverify.Context)) (s : Server)
    (rules rules' : List VerificationRule)
    (hdistinct : (rules.map fun r => (r.nameSpace, r.name)).Nodup) (hperm : rules.Perm rules') :
    (s.setVerificationRules u S newEnv rules).loadVerificationRules
        = (s.setVerificationRules u S' newEnv rules').loadVerificationRules ∧
      (∀ req, (s.setVerificationRules u S newEnv rules).check u req
        = (s.setVerificationRules u S' newEnv rules').check u req) ∧
      ∀ claims, Server.narrowingRule claims
          (s.setVerificationRules u S newEnv rules).loadVerificationRules
        = Server.narrowingRule claims
          (s.setVerificationRules u S' newEnv rules').loadVerificationRules := by
  have hsame := setVerificationRules_eq_of_perm u S S' newEnv s rules rules' hdistinct hperm
  rw [hsame]
  exact ⟨rfl, fun _ => rfl, fun _ => rfl⟩

/-- A rule that requires a scope. -/
def orderedRule (name requiredScope : String) : VerificationRule where
  nameSpace := "shop"
  name := name
  serviceName := name
  requiredScope := requiredScope
  requiredTctxFields := []
  celRules := []
  excludedEndpoints := []
  autoNarrow := false

/-- A server that takes every token for one with scope `pay`. -/
def payServer : Server where
  verifier := fun _ => .ok
    { issuer := "", issuedAt := 0, expiresAt := 0, audience := "", transactionID := "",
      subject := "", scope := "pay", requestingWorkload := "", transactionContext := none,
      requesterContext := none }
  verificationRules := none
  ttsClient := none

/-- A request with a token. -/
def payRequest : CheckRequest where
  http := some { path := "/orders", method := "GET", headers := AList.singleton "txn-token" "t" }

/-- Two rules that both fail, in both orders: the first by name is reported. -/
theorem verification_order_irrelevant_sample :
    (payServer.setVerificationRules Unicode.ascii SortSlice.insertion noCel
        [orderedRule "a" "read", orderedRule "b" "write"]).check Unicode.ascii payRequest
      = (payServer.setVerificationRules Unicode.ascii SortSlice.insertion noCel
        [orderedRule "b" "write", orderedRule "a" "read"]).check Unicode.ascii payRequest ∧
    (payServer.setVerificationRules Unicode.ascii SortSlice.insertion noCel
        [orderedRule "b" "write", orderedRule "a" "read"]).check Unicode.ascii payRequest
      = denied .permissionDenied
        "token scope \"pay\" does not contain required scope \"read\" (rule: a)" :=
  ⟨(verification_order_irrelevant Unicode.ascii SortSlice.insertion SortSlice.insertion noCel
    payServer [orderedRule "a" "read", orderedRule "b" "write"]
    [orderedRule "b" "write", orderedRule "a" "read"] (by decide)
    (List.Perm.swap _ _ [])).2.1 payRequest, by decide⟩

end ExtAuth

section Scan

variable {α : Type}

/-- A scan finds the one element it can find, in every order. -/
theorem find?_eq_of_unique (p : α → Bool) {l l' : List α} (hperm : l.Perm l')
    (hunique : ∀ a ∈ l, ∀ b ∈ l, p a = true → p b = true → a = b) :
    l.find? p = l'.find? p := by
  cases hfound : l.find? p with
  | none =>
      symm
      rw [List.find?_eq_none] at hfound ⊢
      intro a ha
      exact hfound a (hperm.mem_iff.mpr ha)
  | some a =>
      have ha := List.mem_of_find?_eq_some hfound
      have hpa := List.find?_some hfound
      have hsome : (l'.find? p).isSome = true :=
        List.find?_isSome.mpr ⟨a, hperm.mem_iff.mp ha, hpa⟩
      rcases Option.isSome_iff_exists.mp hsome with ⟨b, hb⟩
      have hbl : b ∈ l := hperm.mem_iff.mpr (List.mem_of_find?_eq_some hb)
      rw [hb, hunique a ha b hbl hpa (List.find?_some hb)]

/-- Every element a scan could find is found in some order. -/
theorem exists_perm_find? (p : α → Bool) (l : List α) (a : α) (ha : a ∈ l) (hpa : p a = true) :
    ∃ l', l.Perm l' ∧ l'.find? p = some a := by
  rcases List.append_of_mem ha with ⟨before, after, rfl⟩
  exact ⟨a :: (before ++ after), List.perm_middle, List.find?_cons_of_pos hpa⟩

end Scan

namespace ExtAuth

/-- When the order of the rules does not decide which one is chosen. For every
    map of generation rules by namespace and name, and every request, all orders
    in which a client can list the map lead to the same rule exactly when at most
    one rule of the map matches the request. -/
theorem generation_choice_iff (u : Unicode) (s : GenerationServer)
    (m : GoMap (String × String) GenerationRule) (hkeyed : KeyedMap generationStream m)
    (path method : String) :
    (∀ l l', Ranges m l → Ranges m l' →
      findMatchingRule u (s.setGenerationRules l).generationRules path method
        = findMatchingRule u (s.setGenerationRules l').generationRules path method) ↔
    ∀ k k' r r', m.lookup k = some r → m.lookup k' = some r' →
      ruleMatches u path method r = true → ruleMatches u path method r' = true → k = k' := by
  constructor
  · intro hsame k k' r r' hr hr' hmatch hmatch'
    rcases exists_ranges m with ⟨l, hl⟩
    -- Each of the two can be listed first.
    rcases exists_perm_find? (ruleMatches u path method) l r ((mem_of_ranges hl r).mpr ⟨k, hr⟩)
      hmatch with ⟨l₁, hperm₁, hfind₁⟩
    rcases exists_perm_find? (ruleMatches u path method) l r'
      ((mem_of_ranges hl r').mpr ⟨k', hr'⟩) hmatch' with ⟨l₂, hperm₂, hfind₂⟩
    have hl₁ : Ranges m l₁ := (Multiset.coe_eq_coe.mpr hperm₁.symm).trans hl
    have hl₂ : Ranges m l₂ := (Multiset.coe_eq_coe.mpr hperm₂.symm).trans hl
    have hchosen : some r = some r' := hfind₁.symm.trans ((hsame l₁ l₂ hl₁ hl₂).trans hfind₂)
    rw [← hkeyed k r hr, ← hkeyed k' r' hr', Option.some.inj hchosen]
  · intro hone l l' hl hl'
    have hperm : l.Perm l' := Multiset.coe_eq_coe.mp (hl.trans hl'.symm)
    refine find?_eq_of_unique (ruleMatches u path method) hperm ?_
    intro a ha b hb hpa hpb
    rcases (mem_of_ranges hl a).mp ha with ⟨k, hk⟩
    rcases (mem_of_ranges hl b).mp hb with ⟨k', hk'⟩
    have hkeys : k = k' := hone k k' a b hk hk' hpa hpb
    rw [hkeys, hk'] at hk
    exact (Option.some.inj hk).symm

/-- A rule for reading what a pattern matches. -/
def readRule (nameSpace path scope : String) : GenerationRule where
  nameSpace := nameSpace
  name := "read"
  endpoint := { path := path, method := "GET" }
  purpose := scope
  scope := scope
  tctxMapping := ∅
  tctxEnrichments := []
  rctxFields := []
  tokenLifetime := ""

/-- Two rules of different namespaces, by their keys. -/
def twoReadRules (path path' : String) : GoMap (String × String) GenerationRule :=
  (Finmap.singleton ("shop", "read") (readRule "shop" path "shop.read")).insert ("team", "read")
    (readRule "team" path' "team.read")

theorem lookup_twoReadRules (path path' : String) (k : String × String) (r : GenerationRule)
    (h : (twoReadRules path path').lookup k = some r) :
    (k = ("team", "read") ∧ r = readRule "team" path' "team.read") ∨
      (k = ("shop", "read") ∧ r = readRule "shop" path "shop.read") := by
  by_cases hteam : k = ("team", "read")
  · rw [hteam, twoReadRules, Finmap.lookup_insert] at h
    exact Or.inl ⟨hteam, (Option.some.inj h).symm⟩
  · rw [twoReadRules, Finmap.lookup_insert_of_ne _ hteam] at h
    have hmem := Multiset.mem_singleton.mp (Finmap.lookup_eq_some_iff.mp h)
    cases hmem
    exact Or.inr ⟨rfl, rfl⟩

theorem twoReadRules_keyed (path path' : String) :
    KeyedMap generationStream (twoReadRules path path') := by
  intro k r h
  rcases lookup_twoReadRules path path' k r h with ⟨rfl, rfl⟩ | ⟨rfl, rfl⟩
  · rfl
  · rfl

/-- A server without rules or pods. -/
def idleServer : GenerationServer where
  ttsClient := fun _ => .error "connection refused"
  identityResolver := { pods := ∅ }
  generationRules := []

/-- Patterns that do not overlap: every order leads to the same rule. -/
theorem generation_choice_iff_sample :
    KeyedMap generationStream (twoReadRules "/orders/\x7bid\x7d" "/items/\x7bid\x7d") ∧
    ∀ l l', Ranges (twoReadRules "/orders/\x7bid\x7d" "/items/\x7bid\x7d") l →
      Ranges (twoReadRules "/orders/\x7bid\x7d" "/items/\x7bid\x7d") l' →
      findMatchingRule Unicode.ascii (idleServer.setGenerationRules l).generationRules
          "/orders/7" "GET"
        = findMatchingRule Unicode.ascii (idleServer.setGenerationRules l').generationRules
          "/orders/7" "GET" := by
  refine ⟨twoReadRules_keyed _ _, (generation_choice_iff Unicode.ascii idleServer _
    (twoReadRules_keyed _ _) "/orders/7" "GET").mpr ?_⟩
  intro k k' r r' hr hr' hmatch hmatch'
  have hitems : ruleMatches Unicode.ascii "/orders/7" "GET"
      (readRule "team" "/items/\x7bid\x7d" "team.read") = false := by decide
  rcases lookup_twoReadRules _ _ k r hr with ⟨_, rfl⟩ | ⟨rfl, _⟩
  · rw [hitems] at hmatch
    cases hmatch
  · rcases lookup_twoReadRules _ _ k' r' hr' with ⟨_, rfl⟩ | ⟨rfl, _⟩
    · rw [hitems] at hmatch'
      cases hmatch'
    · rfl

/-- Two patterns that differ in the name of a parameter: one request gets
    another scope in another order. -/
theorem overlapping_choice :
    ∃ l l', Ranges (twoReadRules "/orders/\x7bid\x7d" "/orders/\x7border\x7d") l ∧
      Ranges (twoReadRules "/orders/\x7bid\x7d" "/orders/\x7border\x7d") l' ∧
      (findMatchingRule Unicode.ascii (idleServer.setGenerationRules l).generationRules
        "/orders/7" "GET").map GenerationRule.scope = some "shop.read" ∧
      (findMatchingRule Unicode.ascii (idleServer.setGenerationRules l').generationRules
        "/orders/7" "GET").map GenerationRule.scope = some "team.read" := by
  rcases exists_ranges (twoReadRules "/orders/\x7bid\x7d" "/orders/\x7border\x7d") with ⟨l, hl⟩
  have hne : (("shop", "read") : String × String) ≠ ("team", "read") := by decide
  have hshop := (mem_of_ranges hl (readRule "shop" "/orders/\x7bid\x7d" "shop.read")).mpr
    ⟨("shop", "read"), (Finmap.lookup_insert_of_ne _ hne).trans Finmap.lookup_singleton_eq⟩
  have hteam := (mem_of_ranges hl (readRule "team" "/orders/\x7border\x7d" "team.read")).mpr
    ⟨("team", "read"), Finmap.lookup_insert _⟩
  rcases exists_perm_find? (ruleMatches Unicode.ascii "/orders/7" "GET") l _ hshop
    (by decide) with ⟨l₁, hperm₁, hfind₁⟩
  rcases exists_perm_find? (ruleMatches Unicode.ascii "/orders/7" "GET") l _ hteam
    (by decide +kernel) with ⟨l₂, hperm₂, hfind₂⟩
  refine ⟨l₁, l₂, (Multiset.coe_eq_coe.mpr hperm₁.symm).trans hl,
    (Multiset.coe_eq_coe.mpr hperm₂.symm).trans hl, ?_, ?_⟩
  · exact congrArg (Option.map GenerationRule.scope) hfind₁
  · exact congrArg (Option.map GenerationRule.scope) hfind₂

end ExtAuth

end Kontxt
