import Kontxt.Theory.Application
import Kontxt.Theory.Generation
import Kontxt.Theory.Issuance
import Kontxt.Theory.Policies
import Kontxt.Theory.Requirements
import Kontxt.Theory.Settling

/-!
# From the Cluster to the Decision

What the objects in the cluster mean for the requests that are served. Objects are
stored, a worker makes rules of them and publishes these, streams carry them to clients,
and the servers behind the clients answer requests by them; every part has its own
results elsewhere, and this module puts them together. The statements name an object and
an answer, and nothing in between.

They are about states in which nothing is left to do for a client. Which those are is
said by `Plane.Settled`, and that every state can become one by `reconnect_settles`. How
such a state came about is left open: objects changed, passes failed, the controller was
started again, connections broke and broadcasts were lost, in any order.

The kinds differ in what is lost on the way. A requirement reaches its adapter whole,
except for expressions that do not compile. A rule of a policy reaches the token service
if it survives the others of its name. A transaction type reaches its adapter with a
lifetime that policies gave it. Whether the policies are those stored now is another
matter: a policy that changes later makes no type pending, and one that could not be listed
counts as none, so this holds of the runs that `Plane.Heeds` describes.

## Main definitions

* `Exempts`: A requirement exempts the endpoint of a request.
* `Meets`: Claims and a request meet a requirement.
* `Serving`: A transaction type is for an endpoint.

## Theorems

* `handed_one_each`: What a client was handed, for kinds with one rule for an object.
* `requirements_govern`: Requests that the adapters let pass.
* `policies_govern`: Tokens that the token services issue.
* `types_govern`: Requests for which the adapters obtain a token.
-/

namespace Kontxt

open Go Lib

section OneEach

variable {κ ω χ ν α π ξ : Type} [DecidableEq κ] {R : Reconciler κ ω χ ν α}
  {T : RuleStream α π κ} {E : Enforcer α ξ}

/-- Where an object makes one rule that has the object's key, a client that nothing is
    left to do for was last handed one rule for each object stored. -/
theorem handed_one_each (rule : ω → ν → α) (hrules : ∀ o v, R.rules o v = [rule o v])
    (hkeys : ∀ o v, T.key (rule o v) = R.key o) (s : Plane κ ω χ α π κ ξ)
    (hs : PlaneInv R T E s) (client : Nat) (hsettled : s.Settled client) :
    ∃ (found : List (ω × ν)) (k : Consumer α ξ) (h : Handed α),
      (∀ o, o ∈ found.map Prod.fst ↔ s.control.Stores o) ∧
      (∀ p ∈ found, R.Finds s.env p.1 p.2) ∧
      h.rules.Perm (found.map fun p => rule p.1 p.2) ∧
      Relation.ReflTransGen E.Serves (k.handle E.set h).setter
        (s.fleet.clients client).setter := by
  rcases handed_of_settled s hs client hsettled with
    ⟨objs, rules, hlisted, hbuilt, k, h, hh, hserves⟩
  rcases exists_found R s.env objs rules hbuilt with ⟨found, hobjs, hfinds, hflat⟩
  have hone : rules = found.map fun p => rule p.1 p.2 := by
    rw [hflat]
    simp only [hrules]
    exact List.map_eq_flatMap.symm
  have hdistinct : DistinctKeys T.key rules := by
    have hnodup := nodup_keys_listed s.control hs.control objs hlisted
    rw [hobjs, List.map_map] at hnodup
    rw [hone, DistinctKeys, List.map_map]
    simpa only [Function.comp_def, hkeys] using hnodup
  refine ⟨found, k, h, ?_, hfinds, ?_, hserves⟩
  · intro o
    rw [← hobjs]
    exact mem_listed s.control objs hlisted o
  · rw [← hone]
    exact perm_of_ranges_insertAll T.key rules hdistinct h.rules hh

end OneEach

section Requirements

variable (u : Unicode) (newEnv : Except String (Cel.Env Celverify.Context))

/-- A requirement exempts the endpoint of a request. -/
def Exempts (req : ExtAuth.HttpRequest) (str : V1alpha1.ServiceTokenRequirement) : Prop :=
  ∃ ep ∈ str.spec.excludedEndpoints,
    equalFold u req.method ep.method = true ∧ ExtAuth.matchPath req.path ep.path = true

/-- The claims of a token and a request meet a requirement. An expression that does not
    compile asks for nothing. -/
structure Meets (claims : Token.Claims) (req : ExtAuth.HttpRequest)
    (str : V1alpha1.ServiceTokenRequirement) : Prop where
  scope : str.spec.verification.requiredScope = "" ∨
    str.spec.verification.requiredScope ∈ fields claims.scope
  tctx : ∀ field ∈ str.spec.verification.requiredTctxFields,
    hasKey claims.transactionContext field = true
  cel : ∀ r ∈ str.spec.verification.rules, ∀ p, Cel.programOf newEnv r.cel = some p →
    p (ExtAuth.celContext u claims req) = .ok (.bool true)

/-- What is published for a requirement is satisfied when the requirement is met: what
    is left out does not compile. -/
theorem satisfied_requirementRule (claims : Token.Claims) (req : ExtAuth.HttpRequest)
    (str : V1alpha1.ServiceTokenRequirement) :
    ExtAuth.Satisfied u newEnv claims req (Controller.requirementRule u newEnv str) ↔
      Meets u newEnv claims req str := by
  rw [requirementRule_eq]
  constructor
  · intro h
    refine ⟨h.scope, h.tctx, fun r hr p hp => ?_⟩
    refine h.cel { name := r.name, cel := r.cel, message := r.message } ?_ p hp
    refine List.mem_map_of_mem (List.mem_filter.mpr ⟨hr, ?_⟩)
    rw [hp]
    rfl
  · intro h
    refine ⟨h.scope, h.tctx, fun c hc p hp => ?_⟩
    rcases List.mem_map.mp hc with ⟨r, hr, rfl⟩
    exact h.cel r (List.mem_filter.mp hr).1 p hp

/-- Serving requests leaves the rules of the adapter as they are. -/
theorem verificationRules_serves (S : SortSlice) (s s' : ExtAuth.Server)
    (hserves : Relation.ReflTransGen (verificationEnforcer u S newEnv).Serves s s') :
    s'.verificationRules = s.verificationRules := by
  induction hserves with
  | refl => rfl
  | tail _ hserve ih => exact Eq.trans hserve ih

/-- What the adapter decides is what the requirements in the cluster say. In every state
    of the control plane in which nothing is left to do for an adapter, whatever was
    changed, lost or started again on the way: a request passes exactly when a stored
    requirement exempts its endpoint, or it carries a token the verifier accepts that
    meets every stored requirement. -/
theorem requirements_govern (S : SortSlice)
    (s : Plane (String × String) V1alpha1.ServiceTokenRequirement Unit VerificationRule
      Proto.VerificationRule (String × String) ExtAuth.Server)
    (hr : (verificationPlanes u S newEnv).Reachable s) (client : Nat)
    (hsettled : s.Settled client) (req : ExtAuth.HttpRequest) :
    ((s.fleet.clients client).setter.check u { http := some req }).isOK = true ↔
      (∃ str, s.control.Stores str ∧ Exempts u req str) ∨
      (ExtAuth.getHeader u req.headers Token.headerName ≠ "" ∧
        ∃ claims, (s.fleet.clients client).setter.verifier
            (ExtAuth.getHeader u req.headers Token.headerName) = .ok claims ∧
          ∀ str, s.control.Stores str → Meets u newEnv claims req str) := by
  rcases handed_one_each (fun str _ => Controller.requirementRule u newEnv str)
    (fun _ _ => rfl) (fun _ _ => rfl) s (planeInv_verification u S newEnv s hr) client hsettled with
    ⟨found, k, h, hstored, _, hperm, hserves⟩
  have hmem : ∀ r, r ∈ h.rules ↔
      ∃ str, s.control.Stores str ∧ Controller.requirementRule u newEnv str = r := by
    intro r
    simp only [hperm.mem_iff, ← hstored, List.mem_map]
    constructor
    · rintro ⟨p, hp, rfl⟩
      exact ⟨p.1, ⟨p, hp, rfl⟩, rfl⟩
    · rintro ⟨_, ⟨p, hp, rfl⟩, rfl⟩
      exact ⟨p, hp, rfl⟩
  -- The rules in force are those handed over last.
  have hserver : (s.fleet.clients client).setter =
      (s.fleet.clients client).setter.setVerificationRules u S newEnv h.rules := by
    have hkept := verificationRules_serves u newEnv S _ _ hserves
    cases hx : (s.fleet.clients client).setter with
    | mk verifier verificationRules ttsClient =>
        rw [hx] at hkept
        exact congrArg (fun r => ExtAuth.Server.mk verifier r ttsClient) hkept
  have hdecision := ExtAuth.decision_iff u newEnv S (s.fleet.clients client).setter h.rules req
  unfold ExtAuth.decision ExtAuth.Admits at hdecision
  rw [← hserver] at hdecision
  rw [hdecision]
  simp only [hmem]
  constructor
  · rintro (⟨_, ⟨str, hstr, rfl⟩, hexcludes⟩ | ⟨htok, claims, hver, hall⟩)
    · exact Or.inl ⟨str, hstr, hexcludes⟩
    · refine Or.inr ⟨htok, claims, hver, fun str hstr => ?_⟩
      exact (satisfied_requirementRule u newEnv claims req str).mp (hall _ ⟨str, hstr, rfl⟩)
  · rintro (⟨str, hstr, hexempts⟩ | ⟨htok, claims, hver, hall⟩)
    · exact Or.inl ⟨_, ⟨str, hstr, rfl⟩, hexempts⟩
    · refine Or.inr ⟨htok, claims, hver, ?_⟩
      rintro _ ⟨str, hstr, rfl⟩
      exact (satisfied_requirementRule u newEnv claims req str).mpr (hall str hstr)

end Requirements

/-- A requirement that exempts a health check, with its status settled. -/
def healthRequirement : V1alpha1.ServiceTokenRequirement :=
  Controller.settleRequirement Unicode.ascii ExtAuth.noCel 0
    { nameSpace := "shop", name := "orders"
      spec := { serviceRefName := "orders"
                verification := { requiredScope := "orders", requiredTctxFields := [], rules := [] }
                excludedEndpoints := [{ path := "/healthz", method := "GET" }]
                autoNarrow := false } }

/-- With that requirement stored, a request without a token passes for the health check
    and for nothing else. -/
theorem requirements_govern_health :
    ∃ s, (verificationPlanes Unicode.ascii SortSlice.insertion ExtAuth.noCel).Reachable s ∧
      s.Settled 0 ∧
      ((s.fleet.clients 0).setter.check Unicode.ascii
        { http := some { method := "GET", path := "/healthz", headers := ∅ } }).isOK = true ∧
      ((s.fleet.clients 0).setter.check Unicode.ascii
        { http := some { method := "GET", path := "/orders", headers := ∅ } }).isOK = false := by
  have hnew : (verificationEnforcer Unicode.ascii SortSlice.insertion ExtAuth.noCel).New
      ExtAuth.closedServer := rfl
  rcases exists_settled_one lawful_verification
    (Controller.key_requirements Unicode.ascii ExtAuth.noCel) () ("shop", "orders")
    healthRequirement ExtAuth.closedServer rfl hnew () trivial ⟨0, by decide⟩ 0 with
    ⟨s, hr, hsettled, hstore⟩
  have hr' := System.reachable_of_restrict _ s hr
  have hgovern := requirements_govern Unicode.ascii ExtAuth.noCel SortSlice.insertion s hr' 0
    hsettled
  refine ⟨s, hr', hsettled, ?_, ?_⟩
  · rw [hgovern]
    refine Or.inl ⟨healthRequirement, (stores_singleton s.control _ _ hstore _).mpr rfl, ?_⟩
    exact ⟨_, List.mem_cons_self, by decide, by decide⟩
  · rw [Bool.eq_false_iff, ne_eq, hgovern]
    rintro (⟨str, hstr, ep, hep, hmatch⟩ | ⟨htoken, _⟩)
    · rw [(stores_singleton s.control _ _ hstore str).mp hstr] at hep
      rw [List.mem_singleton.mp hep] at hmatch
      exact absurd hmatch (by decide)
    · exact htoken (by decide)

section Policies

open Controller (resolveTargetNamespaces)

variable (u : Unicode) (newEnv : Except String (Cel.Env Tts.Activation))

/-- Serving requests leaves the rules of the token service as they are. -/
theorem issuanceRules_serves (S : SortSlice) (x x' : HandlerSetter)
    (hserves : Relation.ReflTransGen (issuanceEnforcer u S newEnv).Serves x x') (h' : Tts.Handler)
    (hx' : x'.handler = some h') :
    ∃ h, x.handler = some h ∧ h'.loadIssuanceRules = h.loadIssuanceRules := by
  induction hserves generalizing h' with
  | refl => exact ⟨h', hx', rfl⟩
  | tail _ hserve ih =>
      rcases hserve with ⟨h₁, env, r, hx₁, rfl⟩
      rcases ih h₁ hx₁ with ⟨h, hx, hrules⟩
      rcases Tts.serveHTTP_handler env h₁ r with ⟨router, hserved⟩
      refine ⟨h, hx, ?_⟩
      rw [← Option.some.inj hx', hserved]
      exact hrules

/-- A token service keeps its handler. -/
theorem handler_reachable (S : SortSlice)
    (s : Plane String V1alpha1.TokenPolicy Unit IssuanceRule Proto.IssuanceRule
      (String × String × String) HandlerSetter) (hr : (issuancePlanes u S newEnv).Reachable s)
    (client : Nat) : ∃ h, (s.fleet.clients client).setter.handler = some h := by
  refine setters_reachable (fun x => ∃ h, x.handler = some h) ?_ ?_ ?_ s hr client
  · rintro x ⟨h, hx, _⟩
    exact ⟨h, hx⟩
  · intro x rules y _ hset
    change x.setIssuanceRules u newEnv _ = .ok y at hset
    unfold HandlerSetter.setIssuanceRules at hset
    split at hset
    · cases hset
    · split at hset
      · cases hset
      · cases hset
        exact ⟨_, rfl⟩
  · rintro x y _ ⟨h, env, r, _, rfl⟩
    exact ⟨_, rfl⟩

/-- A token service that was handed the rules of policies has those that survive, if it
    has a handler at all. -/
theorem mem_handled (S : SortSlice) (policies : List V1alpha1.TokenPolicy)
    (hnames : (policies.map V1alpha1.TokenPolicy.name).Nodup)
    (k : Consumer IssuanceRule HandlerSetter) (handed : Handed IssuanceRule)
    (hranges : Ranges (insertAll keyFor ∅ (policies.flatMap (Controller.policyRules u newEnv)))
      handed.rules) (h : Tts.Handler)
    (hh : (k.handle (issuanceEnforcer u S newEnv).set handed).setter.handler = some h)
    (a : Tts.IssuanceRule) :
    a ∈ h.loadIssuanceRules ↔ ∃ policy ∈ policies, ∃ ir p, Survives newEnv policy ir ∧
      Cel.programOf newEnv ir.cel = some p ∧ a = activeRule policy ir p := by
  have hset : (issuanceEnforcer u S newEnv).set k.setter handed.rules =
      k.setter.setIssuanceRules u newEnv (S.sort issuanceLess handed.rules) := rfl
  unfold Consumer.handle at hh
  rw [hset] at hh
  cases hk : k.setter.handler with
  | none =>
      have hnil : k.setter.setIssuanceRules u newEnv (S.sort issuanceLess handed.rules) =
          .error "handler is nil" := by
        unfold HandlerSetter.setIssuanceRules
        rw [hk]
      rw [hnil] at hh
      cases hk.symm.trans hh
  | some h₀ =>
      -- The rules are handled as those of a snapshot are.
      let server := RuleServer.new.updateIssuanceRules
        (policies.flatMap (Controller.policyRules u newEnv))
      let client : TtsClient := { rules := ∅, setter := k.setter, synced := k.synced }
      have hreceived := receive_snapshot lawful_issuance server.issuance.rules
        (issuanceStream.buildSnapshot server.issuance) rfl ∅
      rcases mem_active u newEnv S policies hnames RuleServer.new server rfl
        (issuanceStream.buildSnapshot server.issuance) rfl client _ h₀ hk
        ⟨handed.rules, hreceived ▸ hranges, rfl⟩ with ⟨h', hh', _, hactive⟩
      have hsame : h' = h := by
        cases hx : k.setter.setIssuanceRules u newEnv (S.sort issuanceLess handed.rules) with
        | error e =>
            simp only [TtsClient.install, client, hx] at hh hh'
            exact Option.some.inj (hh'.symm.trans hh)
        | ok setter =>
            simp only [TtsClient.install, client, hx] at hh hh'
            exact Option.some.inj (hh'.symm.trans hh)
      rw [← hsame]
      exact hactive a

/-- What the token service issues is what the policies in the cluster say. In every state
    of the control plane in which nothing is left to do for a token service, its rules are
    the compiled forms of the surviving rules of the policies stored, and every token it
    issues anew makes each of them true that is not limited to namespaces. -/
theorem policies_govern (S : SortSlice)
    (s : Plane String V1alpha1.TokenPolicy Unit IssuanceRule Proto.IssuanceRule
      (String × String × String) HandlerSetter)
    (hr : (issuancePlanes u S newEnv).Reachable s) (client : Nat) (hsettled : s.Settled client) :
    ∃ h, (s.fleet.clients client).setter.handler = some h ∧
      (∀ a, a ∈ h.loadIssuanceRules ↔ ∃ policy, s.control.Stores policy ∧ ∃ ir p,
        Survives newEnv policy ir ∧ Cel.programOf newEnv ir.cel = some p ∧
          a = activeRule policy ir p) ∧
      ∀ (env : Tts.Env) (r : Tts.Request) (tok ity ty : String), Tts.presented r = none →
        (h.serveHTTP env r).1 = .token tok ity ty →
        ∃ c, Token.claimsOf env.jwt tok = some c ∧
          ∀ policy, s.control.Stores policy →
            resolveTargetNamespaces policy.spec.targetNamespaces = [] →
            ∀ ir p, Survives newEnv policy ir → Cel.programOf newEnv ir.cel = some p →
              p (Tts.ownContext c).activation = .ok (.bool true) := by
  have hinv := planeInv_issuance u S newEnv s hr
  rcases handler_reachable u newEnv S s hr client with ⟨h, hh⟩
  rcases handed_of_settled s hinv client hsettled with
    ⟨policies, rules, hlisted, hbuilt, k, handed, hranges, hserves⟩
  rcases exists_found _ _ policies rules hbuilt with ⟨found, hpolicies, _, hflat⟩
  have hrules : rules = policies.flatMap (Controller.policyRules u newEnv) := by
    rw [hflat, hpolicies, List.flatMap_map]
    rfl
  rcases issuanceRules_serves u newEnv S _ _ hserves h hh with ⟨h₁, hh₁, hloaded⟩
  have hgoverned : ∀ a, a ∈ h.loadIssuanceRules ↔ ∃ policy, s.control.Stores policy ∧ ∃ ir p,
      Survives newEnv policy ir ∧ Cel.programOf newEnv ir.cel = some p ∧
        a = activeRule policy ir p := by
    intro a
    have hnames := nodup_keys_listed s.control hinv.control policies hlisted
    rw [hloaded, mem_handled u newEnv S policies hnames k handed (hrules ▸ hranges) h₁ hh₁ a]
    simp only [mem_listed s.control policies hlisted]
  refine ⟨h, hh, hgoverned, fun env r tok ity ty hnew hresp => ?_⟩
  rcases Tts.newIssue_of_not_presented env h r tok ity ty hnew hresp with ⟨form, req, hissue⟩
  rcases Tts.newIssue_complies env h r form req tok hissue with ⟨c, hc, hcomplies⟩
  refine ⟨c, hc, fun policy hpolicy htargets ir p hir hp => ?_⟩
  have hactive := (hgoverned (activeRule policy ir p)).mpr ⟨policy, hpolicy, ir, p, hir, hp, rfl⟩
  exact hcomplies (activeRule policy ir p) hactive htargets

end Policies

/-- With a policy stored that denies everything, and another rule of it that does not
    compile, the token service issues no new token. -/
theorem policies_govern_freeze :
    ∃ s h, (issuancePlanes Unicode.ascii SortSlice.insertion (.ok (Cel.Env.constants _))).Reachable
        s ∧ s.Settled 0 ∧ (s.fleet.clients 0).setter.handler = some h ∧
      ∀ (env : Tts.Env) (r : Tts.Request) (tok ity ty : String), Tts.presented r = none →
        (h.serveHTTP env r).1 ≠ .token tok ity ty := by
  let newEnv : Except String (Cel.Env Tts.Activation) := .ok (Cel.Env.constants _)
  let policy := Controller.settlePolicy Unicode.ascii newEnv 0 0 (freezePolicy "thaw" "tru")
  let setter : HandlerSetter := { handler := some Tts.sampleHandler }
  have hnew : (issuanceEnforcer Unicode.ascii SortSlice.insertion newEnv).New setter :=
    ⟨_, rfl, rfl⟩
  have hsettles : (Controller.policyReconciler Unicode.ascii newEnv).Settles () policy policy :=
    ⟨0, 0, (Controller.settlePolicy_twice Unicode.ascii newEnv 0 0 _).symm⟩
  rcases exists_settled_one lawful_issuance (Controller.key_policies Unicode.ascii newEnv) ()
    "freeze" policy setter rfl hnew () trivial hsettles 0 with ⟨s, hr, hsettled, hstore⟩
  have hr' := System.reachable_of_restrict _ s hr
  rcases policies_govern Unicode.ascii newEnv SortSlice.insertion s hr' 0 hsettled with
    ⟨h, hh, _, hissues⟩
  refine ⟨s, h, hr', hsettled, hh, fun env r tok ity ty hpresented hresp => ?_⟩
  rcases hissues env r tok ity ty hpresented hresp with ⟨c, _, hall⟩
  have hsurvives : Survives newEnv policy
      { name := "freeze", cel := "false", message := "frozen" } := by
    refine ⟨rfl, fun ir hir hname => ?_⟩
    rcases List.mem_cons.mp hir with rfl | hir
    · rfl
    · rw [List.mem_singleton.mp hir] at hname
      exact absurd hname (by decide)
  have hstored := (stores_singleton s.control _ _ hstore policy).mpr rfl
  cases hall policy hstored rfl _ _ hsurvives rfl

section Types

variable (u : Unicode) (parseDuration : String → Except String Int)

/-- A transaction type is for the endpoint of a request. -/
def Serving (path method : String) (tt : V1alpha1.TransactionType) : Prop :=
  equalFold u tt.spec.endpoint.method method = true ∧
    matchEndpointPath (cutQuery path) tt.spec.endpoint.path = true

theorem ruleMatches_generationRuleOf (path method : String) (tt : V1alpha1.TransactionType)
    (lifetime : String) :
    ruleMatches u path method (Controller.generationRuleOf tt lifetime) = true ↔
      Serving u path method tt :=
  Bool.and_eq_true_iff

theorem generationRules_serves (s s' : ExtAuth.GenerationServer)
    (hserves : Relation.ReflTransGen generationEnforcer.Serves s s') :
    s'.generationRules = s.generationRules := by
  induction hserves with
  | refl => rfl
  | tail _ hserve ih => exact Eq.trans hserve ih

/-- Whatever lookups find or fail to, the adapter has one rule for each stored type, with
    the lifetime that some listing of policies gives it. -/
theorem generationRules_settled
    (s : Plane (String × String) V1alpha1.TransactionType
      (GoMap String (Stored V1alpha1.TokenPolicy)) GenerationRule Proto.GenerationRule
      (String × String) ExtAuth.GenerationServer)
    (hr : (generationPlanes u parseDuration).Reachable s) (client : Nat)
    (hsettled : s.Settled client) :
    (∀ tt, s.control.Stores tt → ∃ listed, Controller.publishedRule parseDuration tt listed ∈
      (s.fleet.clients client).setter.generationRules) ∧
    ∀ r ∈ (s.fleet.clients client).setter.generationRules, ∃ tt listed, s.control.Stores tt ∧
      r = Controller.publishedRule parseDuration tt listed := by
  rcases handed_one_each (fun tt v => Controller.generationRuleOf tt v.lifetime) (fun _ _ => rfl)
    (fun _ _ => rfl) s (planeInv_unaware lawful_generation (Controller.key_types u parseDuration)
      s hr) client hsettled with ⟨found, k, h, hstored, hfinds, hperm, hserves⟩
  have hmem : ∀ r, r ∈ (s.fleet.clients client).setter.generationRules ↔
      ∃ p ∈ found, Controller.generationRuleOf p.1 p.2.lifetime = r := by
    intro r
    rw [generationRules_serves _ _ hserves, ← List.mem_map]
    exact hperm.mem_iff
  -- A failed listing counts as one without policies.
  have hlisted : ∀ p ∈ found, ∃ listed, Controller.generationRuleOf p.1 p.2.lifetime =
      Controller.publishedRule parseDuration p.1 listed := by
    intro p hp
    rcases hfinds p hp with ⟨env, policies, _, hverdict⟩ | hmissed
    · exact ⟨.ok (policies.map Stored.obj), by rw [hverdict]; rfl⟩
    · exact ⟨.error "list failed", by rw [hmissed]; rfl⟩
  constructor
  · intro tt htt
    rcases List.mem_map.mp ((hstored tt).mpr htt) with ⟨p, hp, rfl⟩
    rcases hlisted p hp with ⟨listed, hrule⟩
    exact ⟨listed, (hmem _).mpr ⟨p, hp, hrule⟩⟩
  · intro r hr
    rcases (hmem r).mp hr with ⟨p, hp, rfl⟩
    rcases hlisted p hp with ⟨listed, hrule⟩
    exact ⟨p.1, listed, (hstored p.1).mp (List.mem_map_of_mem hp), hrule⟩

/-- In heeded runs it is a listing of the policies stored now. -/
theorem generationRules_heeded
    (s : Plane (String × String) V1alpha1.TransactionType
      (GoMap String (Stored V1alpha1.TokenPolicy)) GenerationRule Proto.GenerationRule
      (String × String) ExtAuth.GenerationServer)
    (hr : (heededGenerationPlanes u parseDuration).Reachable s) (client : Nat)
    (hsettled : s.Settled client) (r : GenerationRule)
    (hrule : r ∈ (s.fleet.clients client).setter.generationRules) :
    ∃ tt policies, s.control.Stores tt ∧ Ranges s.env policies ∧
      r = Controller.publishedRule parseDuration tt (.ok (policies.map Stored.obj)) := by
  rcases handed_one_each (fun tt v => Controller.generationRuleOf tt v.lifetime) (fun _ _ => rfl)
    (fun _ _ => rfl) s (planeInv_generation u parseDuration s hr) client hsettled with
    ⟨found, k, h, hstored, hfinds, hperm, hserves⟩
  rw [generationRules_serves _ _ hserves] at hrule
  rcases List.mem_map.mp (hperm.mem_iff.mp hrule) with ⟨p, hp, rfl⟩
  rcases hfinds p hp with ⟨policies, hpolicies, hverdict⟩
  exact ⟨p.1, policies, (hstored p.1).mp (List.mem_map_of_mem hp), hpolicies,
    by rw [hverdict]; rfl⟩

/-- What the adapter obtains tokens for is what the transaction types in the cluster say.
    In every state of the control plane in which nothing is left to do for an adapter,
    however policies changed and whatever listings failed: a request is passed on without a
    token exactly when no stored type is for its endpoint, and the rule any other request is
    exchanged by is that of a stored type for its endpoint. Its lifetime is the one that the
    policies stored now give the type, if policies changed only while the types concerned
    were pending and listings failed safely. -/
theorem types_govern
    (s : Plane (String × String) V1alpha1.TransactionType
      (GoMap String (Stored V1alpha1.TokenPolicy)) GenerationRule Proto.GenerationRule
      (String × String) ExtAuth.GenerationServer)
    (hr : (generationPlanes u parseDuration).Reachable s) (client : Nat)
    (hsettled : s.Settled client) (D : ExtAuth.Decoders) (req : ExtAuth.EntryRequest)
    (httpReq : ExtAuth.EntryHttp) (hhttp : req.http = some httpReq) :
    (∀ mapped, (s.fleet.clients client).setter.check u D mapped req = ExtAuth.allowed ↔
      ¬∃ tt, s.control.Stores tt ∧ Serving u httpReq.path httpReq.method tt) ∧
    ∀ rule, findMatchingRule u (s.fleet.clients client).setter.generationRules httpReq.path
        httpReq.method = some rule →
      (∃ tt listed, s.control.Stores tt ∧ Serving u httpReq.path httpReq.method tt ∧
        rule = Controller.publishedRule parseDuration tt listed) ∧
      ((heededGenerationPlanes u parseDuration).Reachable s →
        ∃ tt policies, s.control.Stores tt ∧ Serving u httpReq.path httpReq.method tt ∧
          Ranges s.env policies ∧
          rule = Controller.publishedRule parseDuration tt (.ok (policies.map Stored.obj))) := by
  rcases generationRules_settled u parseDuration s hr client hsettled with ⟨hall, honly⟩
  constructor
  · intro mapped
    rw [ExtAuth.check_eq_allowed_iff u D _ mapped req httpReq hhttp, findMatchingRule,
      List.find?_eq_none]
    constructor
    · rintro hnone ⟨tt, htt, hserving⟩
      rcases hall tt htt with ⟨listed, hrule⟩
      exact hnone _ hrule ((ruleMatches_generationRuleOf u _ _ _ _).mpr hserving)
    · intro hnone r hrule hmatches
      rcases honly r hrule with ⟨tt, listed, htt, rfl⟩
      exact hnone ⟨tt, htt, (ruleMatches_generationRuleOf u _ _ _ _).mp hmatches⟩
  · intro rule hmatched
    have hrule := List.mem_of_find?_eq_some hmatched
    have hmatches : ruleMatches u httpReq.path httpReq.method rule = true :=
      List.find?_some hmatched
    constructor
    · rcases honly rule hrule with ⟨tt, listed, htt, rfl⟩
      exact ⟨tt, listed, htt, (ruleMatches_generationRuleOf u _ _ _ _).mp hmatches, rfl⟩
    · intro hheeded
      rcases generationRules_heeded u parseDuration s hheeded client hsettled rule hrule with
        ⟨tt, policies, htt, hpolicies, rfl⟩
      exact ⟨tt, policies, htt, (ruleMatches_generationRuleOf u _ _ _ _).mp hmatches, hpolicies,
        rfl⟩

end Types

/-- With a transaction type stored for them, orders are not passed on as they are, and the
    lifetime they are exchanged with is within the policy. When the policy is deleted
    afterwards, they still are not passed on. -/
theorem types_govern_orders :
    ∃ s s', (heededGenerationPlanes Unicode.ascii Controller.sampleDuration).Reachable s ∧
      s.Settled 0 ∧
      (∀ rule, findMatchingRule Unicode.ascii (s.fleet.clients 0).setter.generationRules "/orders"
        "POST" = some rule → ∃ policies, Ranges s.env policies ∧
          rule = Controller.publishedRule Controller.sampleDuration Controller.sampleType
            (.ok (policies.map Stored.obj))) ∧
      (generationPlanes Unicode.ascii Controller.sampleDuration).step s (.surroundings ∅) s' ∧
      ∀ mapped, (s'.fleet.clients 0).setter.check Unicode.ascii ExtAuth.Decoders.framed mapped
        { http := some { path := "/orders", method := "POST", headers := ∅, body := "" }
          source := none } ≠ ExtAuth.allowed := by
  rcases exists_settled_orders with ⟨s, hr, hsettled, hstore⟩
  let httpReq : ExtAuth.EntryHttp :=
    { path := "/orders", method := "POST", headers := ∅, body := "" }
  have hr' := System.reachable_of_restrict _ s hr
  have hone := stores_singleton s.control _ _ hstore
  have hedit : (generationPlanes Unicode.ascii Controller.sampleDuration).step s (.surroundings ∅)
      { s with env := ∅ } := .surroundings s ∅
  refine ⟨s, _, hr, hsettled, fun rule hrule => ?_, hedit, fun mapped hallowed => ?_⟩
  · have hgovern := types_govern Unicode.ascii Controller.sampleDuration s hr' 0 hsettled
      ExtAuth.Decoders.framed { http := some httpReq, source := none } httpReq rfl
    rcases (hgovern.2 rule hrule).2 hr with ⟨tt, policies, htt, _, hpolicies, heq⟩
    rw [(hone tt).mp htt] at heq
    exact ⟨policies, hpolicies, heq⟩
  · have hgovern := types_govern Unicode.ascii Controller.sampleDuration _ (hr'.next _ _ hedit)
      0 ⟨hsettled.quiet, hsettled.current⟩ ExtAuth.Decoders.framed
      { http := some httpReq, source := none } httpReq rfl
    refine (hgovern.1 mapped).mp hallowed ⟨Controller.sampleType, (hone _).mpr rfl, ?_⟩
    exact ⟨by decide, by decide⟩

end Kontxt
