import Kontxt.Theory.Issuance
import Kontxt.Theory.Policies

/-!
# The Namespaces a Policy Governs

A policy's selector is read twice. The controller looks for the policy that
applies to the namespace of a transaction type, and the token service decides
whether an issuance rule of the policy applies to the namespace of a workload.
In between the selector is flattened to a list of names in which being empty
means every namespace. So a selector that is there but names nothing selects no
namespace for the controller and every namespace for the token service, and
`targeting_agrees_iff` says that this is the only case in which they disagree.

At the token service the namespace of the workload is another matter. The
handler builds the context of the rules with no namespace, whatever the workload
is identified as, and a rule with target namespaces never applies to a request
without one. So only cluster-wide rules can refuse a request, and a rule that
targets the workload's own namespace is as if it were not there.

## Main definitions

* `Controller.Unselective`: A selector that selects nothing by name or label.
* `Tts.NewExchange`: A well-formed exchange whose subject token authenticates.
* `Tts.ServiceAccountOf`: The workload is a service account of a namespace.
* `Tts.Installed`: A rule of a policy with target namespaces is installed.

## Theorems

* `Controller.findApplicablePolicy_single`: When the only policy applies.
* `Tts.ruleAppliesToNamespace_iff`: When a rule applies.
* `Controller.targeting_agrees_iff`: When the two readings agree.
* `Tts.serveHTTP_denied`, `Tts.serveHTTP_passed`: The answer to an exchange.
* `Tts.refused_iff`: When an exchange is refused by policy.
* `Tts.evaluateIssuanceRules_targeted`: A targeted rule makes no difference.
* `Tts.targeted_refusal_iff`: When a targeted request is refused.
-/

namespace Kontxt

open Go Lib

/-- A rule applies if it has no target namespaces, or the workload's namespace
    is known and one of them. -/
theorem Tts.ruleAppliesToNamespace_iff (targets : List String) (workloadNS : String) :
    Tts.ruleAppliesToNamespace targets workloadNS = true ↔
      targets = [] ∨ (workloadNS ≠ "" ∧ workloadNS ∈ targets) := by
  unfold Tts.ruleAppliesToNamespace
  by_cases hlen : targets.length = 0
  · rw [if_pos hlen]
    exact iff_of_true rfl (Or.inl (List.length_eq_zero_iff.mp hlen))
  · have hne : targets ≠ [] := fun h => hlen (List.length_eq_zero_iff.mpr h)
    rw [if_neg hlen]
    by_cases hns : workloadNS = ""
    · rw [if_pos hns]
      simp only [Bool.false_eq_true, hne, hns, ne_eq, not_true_eq_false, false_and, or_false]
    · rw [if_neg hns, List.contains_iff_mem]
      simp only [hne, hns, ne_eq, not_false_eq_true, true_and, false_or]

namespace Controller

/-- Nothing is selected, by name or by label. -/
def Unselective (sel : Option V1alpha1.NamespaceSelector) : Prop :=
  ∀ s, sel = some s → s.matchNames = [] ∧ s.matchLabels = []

/-- The only policy applies to a namespace if its selector, if any, names it. -/
theorem findApplicablePolicy_single (policy : V1alpha1.TokenPolicy) (nameSpace : String) :
    findApplicablePolicy (.ok [policy]) nameSpace = .ok (some policy) ↔
      ∀ sel, policy.spec.targetNamespaces = some sel → nameSpace ∈ sel.matchNames := by
  unfold findApplicablePolicy
  cases hsel : policy.spec.targetNamespaces with
  | none => simp only [List.find?_singleton, appliesTo, hsel, if_true, reduceCtorEq,
      false_implies, implies_true]
  | some sel =>
      simp only [List.find?_singleton, appliesTo, hsel, Option.isNone_some, Option.some.injEq,
        forall_eq', ← List.contains_iff_mem]
      cases sel.matchNames.contains nameSpace with
      | true => simp only [if_true]
      | false => simp only [Bool.false_eq_true, if_false, Except.ok.injEq, reduceCtorEq]

/-- When controller and token service agree on the namespaces a policy governs,
    and an empty selector governs all of them: exactly when a selector that is
    there names some namespace. -/
theorem targeting_agrees_iff (policy : V1alpha1.TokenPolicy) (nameSpace : String)
    (hns : nameSpace ≠ "") :
    ((findApplicablePolicy (.ok [policy]) nameSpace = .ok (some policy) ↔
        Tts.ruleAppliesToNamespace (resolveTargetNamespaces policy.spec.targetNamespaces)
          nameSpace = true) ∧
      (Unselective policy.spec.targetNamespaces →
        findApplicablePolicy (.ok [policy]) nameSpace = .ok (some policy) ∧
          Tts.ruleAppliesToNamespace (resolveTargetNamespaces policy.spec.targetNamespaces)
            nameSpace = true)) ↔
      ∀ sel, policy.spec.targetNamespaces = some sel → sel.matchNames ≠ [] := by
  rw [findApplicablePolicy_single, Tts.ruleAppliesToNamespace_iff]
  cases hsel : policy.spec.targetNamespaces with
  | none =>
      simp only [reduceCtorEq, false_implies, implies_true, resolveTargetNamespaces, true_or,
        and_self]
  | some sel =>
      simp only [Option.some.injEq, forall_eq', resolveTargetNamespaces, ne_eq, hns,
        not_false_eq_true, true_and]
      constructor
      · -- With no names the controller finds nothing and every rule applies.
        intro h hempty
        have hmem := h.1.mpr (Or.inl hempty)
        rw [hempty] at hmem
        exact List.not_mem_nil hmem
      · intro hnames
        refine ⟨⟨Or.inr, fun h => h.resolve_left hnames⟩, fun hnone => ?_⟩
        exact absurd (hnone sel rfl).1 hnames

/-- A policy with a selector. -/
def selectorPolicy (matchNames : List String) : V1alpha1.TokenPolicy where
  name := "limits"
  spec := { targetNamespaces := some { matchNames := matchNames, matchLabels := [] }
            issuanceRules := [] }

theorem targeting_agrees_iff_shop :
    (findApplicablePolicy (.ok [selectorPolicy ["shop"]]) "shop" =
        .ok (some (selectorPolicy ["shop"])) ↔
      Tts.ruleAppliesToNamespace
        (resolveTargetNamespaces (selectorPolicy ["shop"]).spec.targetNamespaces) "shop" = true) ∧
    (Unselective (selectorPolicy ["shop"]).spec.targetNamespaces →
      findApplicablePolicy (.ok [selectorPolicy ["shop"]]) "shop" =
          .ok (some (selectorPolicy ["shop"])) ∧
        Tts.ruleAppliesToNamespace
          (resolveTargetNamespaces (selectorPolicy ["shop"]).spec.targetNamespaces) "shop" =
            true) :=
  (targeting_agrees_iff (selectorPolicy ["shop"]) "shop" (by decide)).mpr (by
    intro sel hsel
    rw [← Option.some.inj hsel]
    exact List.cons_ne_nil _ _)

/-- A selector without names governs no namespace for the controller and every
    namespace for the token service. -/
theorem empty_selector_disagrees :
    Unselective (selectorPolicy []).spec.targetNamespaces ∧
      findApplicablePolicy (.ok [selectorPolicy []]) "shop" = .ok none ∧
      Tts.ruleAppliesToNamespace
        (resolveTargetNamespaces (selectorPolicy []).spec.targetNamespaces) "shop" = true := by
  refine ⟨?_, by decide, by decide⟩
  intro sel hsel
  rw [← Option.some.inj hsel]
  exact ⟨rfl, rfl⟩

end Controller

namespace Tts

/-- A well-formed exchange for a new token whose subject token authenticates. -/
structure NewExchange (env : Env) (h : Handler) (r : Request) (req : TokenExchangeRequest)
    (info : Authn.SubjectInfo) : Prop where
  method : r.method = "POST"
  parsed : ∃ form, r.form = .ok form ∧ parseRequest env.unmarshal form = .ok req
  fresh : req.subjectTokenType ≠ Token.subjectTokenTypeTxnToken
  authenticated : Authn.Router.authenticate env.toEnv h.router req.subjectToken = .ok info

/-- The requesting workload is identified as a service account of a
    namespace. -/
def ServiceAccountOf (r : Request) (nameSpace : String) : Prop :=
  ∃ account, r.headerGet "X-Kontxt-Workload" =
    "system:serviceaccount:" ++ nameSpace ++ ":" ++ account

/-- A rule of a policy with a selector compiles and is among the handler's. -/
structure Installed (newEnv : Except String (Cel.Env Activation)) (h : Handler)
    (policy : V1alpha1.TokenPolicy) (sel : V1alpha1.NamespaceSelector)
    (ir : V1alpha1.IssuanceRule) (p : Cel.Program Activation) : Prop where
  selector : policy.spec.targetNamespaces = some sel
  rule : ir ∈ policy.spec.issuanceRules
  compiles : Cel.programOf newEnv ir.cel = some p
  active : activeRule policy ir p ∈ h.loadIssuanceRules

/-- The rules that are evaluated, and what they are evaluated against. -/
def evaluated (env : Env) (h : Handler) (r : Request) (req : TokenExchangeRequest)
    (info : Authn.SubjectInfo) : Except String Unit :=
  evaluateIssuanceRules env.unicode h.loadIssuanceRules
    (Handler.issuanceContext info.subject (identifyWorkload r) req)

/-- Such an exchange is for a new token. -/
theorem serveHTTP_newExchange (env : Env) (h : Handler) (r : Request)
    (req : TokenExchangeRequest) (info : Authn.SubjectInfo)
    (hex : NewExchange env h r req info) : (h.serveHTTP env r).1 = h.issue env r req := by
  rcases hex.parsed with ⟨form, hform, hparsed⟩
  unfold Handler.serveHTTP
  rw [if_neg (not_not.mpr hex.method), hform]
  simp only [hparsed, if_neg hex.fresh]

/-- If a rule fails, the exchange is refused by policy. -/
theorem serveHTTP_denied (env : Env) (h : Handler) (r : Request) (req : TokenExchangeRequest)
    (info : Authn.SubjectInfo) (hex : NewExchange env h r req info) (e : String)
    (hrules : evaluated env h r req info = .error e) :
    (h.serveHTTP env r).1 = .error 403 "policy_denied" e := by
  unfold evaluated at hrules
  rw [serveHTTP_newExchange env h r req info hex]
  unfold Handler.issue
  simp only [hex.authenticated, hrules]

/-- If all rules pass, the token is signed. -/
theorem serveHTTP_passed (env : Env) (h : Handler) (r : Request) (req : TokenExchangeRequest)
    (info : Authn.SubjectInfo) (hex : NewExchange env h r req info)
    (hrules : evaluated env h r req info = .ok ()) :
    (h.serveHTTP env r).1 =
      h.signAndRespond env (h.newClaims info.subject (identifyWorkload r) req) := by
  unfold evaluated at hrules
  rw [serveHTTP_newExchange env h r req info hex]
  unfold Handler.issue
  simp only [hex.authenticated, hrules]

/-- Signing is never refused by policy. -/
theorem signAndRespond_ne_denied (env : Env) (h : Handler) (claims : Token.Claims) (e : String) :
    h.signAndRespond env claims ≠ .error 403 "policy_denied" e := by
  unfold Handler.signAndRespond
  simp only []
  cases Token.new env.jwt claims h.keyManager.signingKey.1 h.keyManager.signingKey.2 h.lifetime
      env.now env.uuid with
  | error _ => simp only [ne_eq, Response.error.injEq, Nat.reduceEqDiff, false_and,
      not_false_eq_true]
  | ok _ => simp only [ne_eq, reduceCtorEq, not_false_eq_true]

/-- Such an exchange is refused by policy exactly when some cluster-wide rule is
    not true of its values. -/
theorem refused_iff (env : Env) (h : Handler) (r : Request) (req : TokenExchangeRequest)
    (info : Authn.SubjectInfo) (hex : NewExchange env h r req info) :
    (∃ e, (h.serveHTTP env r).1 = .error 403 "policy_denied" e) ↔
      ∃ rule ∈ h.loadIssuanceRules, rule.targetNamespaces = [] ∧
        rule.program (Handler.issuanceContext info.subject (identifyWorkload r) req).activation ≠
          .ok (.bool true) := by
  -- The context has no namespace, so cluster-wide rules are all that apply.
  have happlies : ∀ rule : IssuanceRule,
      ruleAppliesToNamespace rule.targetNamespaces "" = true ↔ rule.targetNamespaces = [] := by
    intro rule
    rw [ruleAppliesToNamespace_iff]
    simp only [ne_eq, not_true_eq_false, false_and, or_false]
  have hnot : (∃ rule ∈ h.loadIssuanceRules, rule.targetNamespaces = [] ∧
      rule.program (Handler.issuanceContext info.subject (identifyWorkload r) req).activation ≠
        .ok (.bool true)) ↔ evaluated env h r req info ≠ .ok () := by
    unfold evaluated
    rw [ne_eq, evaluateIssuanceRules_eq_ok]
    simp only [Handler.issuanceContext, happlies, not_forall, exists_prop, ne_eq]
  rw [hnot]
  cases hrules : evaluated env h r req info with
  | error e =>
      refine iff_of_true ⟨e, serveHTTP_denied env h r req info hex e hrules⟩ ?_
      simp only [ne_eq, reduceCtorEq, not_false_eq_true]
  | ok _ =>
      refine iff_of_false ?_ (fun h => h rfl)
      intro hgiven
      rcases hgiven with ⟨e, he⟩
      rw [serveHTTP_passed env h r req info hex hrules] at he
      exact signAndRespond_ne_denied env h _ e he

/-- A rule with target namespaces makes no difference in a context without
    one. -/
theorem evaluateIssuanceRules_targeted (u : Unicode) (before after : List IssuanceRule)
    (rule : IssuanceRule) (htargets : rule.targetNamespaces ≠ []) (ictx : IssuanceContext)
    (hns : ictx.workloadNS = "") :
    evaluateIssuanceRules u (before ++ rule :: after) ictx =
      evaluateIssuanceRules u (before ++ after) ictx := by
  have hskip : evaluateIssuanceRule u ictx rule = .ok () := by
    have hfalse : ruleAppliesToNamespace rule.targetNamespaces ictx.workloadNS = false := by
      rw [← Bool.not_eq_true, ruleAppliesToNamespace_iff, hns]
      simp only [htargets, ne_eq, not_true_eq_false, false_and, or_false, not_false_eq_true]
    unfold evaluateIssuanceRule
    rw [if_pos hfalse]
  exact forM_skip before after rule (evaluateIssuanceRule u ictx) hskip

/-- When a targeted rule does what it is for. Let a policy name a namespace, and
    let one of its rules be installed. A request from a workload of that
    namespace is refused by policy exactly when some cluster-wide rule is not
    true of its values, whatever the rule says; and a request from a workload of
    a namespace the policy does not name is answered as without the rule. -/
theorem targeted_refusal_iff (newEnv : Except String (Cel.Env Activation)) (env : Env)
    (h : Handler) (policy : V1alpha1.TokenPolicy) (sel : V1alpha1.NamespaceSelector)
    (ir : V1alpha1.IssuanceRule) (p : Cel.Program Activation)
    (hinstalled : Installed newEnv h policy sel ir p) (nameSpace : String)
    (hnamed : nameSpace ∈ sel.matchNames) :
    (∀ r req info, nameSpace ≠ "" → ServiceAccountOf r nameSpace →
      NewExchange env h r req info →
      ((∃ e, (h.serveHTTP env r).1 = .error 403 "policy_denied" e) ↔
        ∃ rule ∈ h.loadIssuanceRules, rule.targetNamespaces = [] ∧
          rule.program
              (Handler.issuanceContext info.subject (identifyWorkload r) req).activation ≠
            .ok (.bool true))) ∧
    (∀ r req info other, other ∉ sel.matchNames → ServiceAccountOf r other →
      NewExchange env h r req info → ∀ before after,
        h.loadIssuanceRules = before ++ activeRule policy ir p :: after →
        (h.serveHTTP env r).1 = ((h.setIssuanceRules (before ++ after)).serveHTTP env r).1) := by
  constructor
  · intro r req info _ _ hex
    exact refused_iff env h r req info hex
  · intro r req info other _ _ hex before after hrules
    -- The handler fills in no namespace, so a rule with targets is skipped for
    -- every request.
    have htargets : (activeRule policy ir p).targetNamespaces ≠ [] := by
      have hsel : (activeRule policy ir p).targetNamespaces = sel.matchNames := by
        have hresolve : (activeRule policy ir p).targetNamespaces =
          Controller.resolveTargetNamespaces policy.spec.targetNamespaces := rfl
        rw [hresolve, hinstalled.selector]
        rfl
      rw [hsel]
      exact List.ne_nil_of_mem hnamed
    have hex' : NewExchange env (h.setIssuanceRules (before ++ after)) r req info :=
      ⟨hex.method, hex.parsed, hex.fresh, hex.authenticated⟩
    have hsame : evaluated env h r req info =
        evaluated env (h.setIssuanceRules (before ++ after)) r req info := by
      unfold evaluated
      rw [hrules, evaluateIssuanceRules_targeted env.unicode before after _ htargets _ rfl]
      rfl
    cases heval : evaluated env h r req info with
    | error e =>
        rw [serveHTTP_denied env h r req info hex e heval,
          serveHTTP_denied env _ r req info hex' e (hsame.symm.trans heval)]
    | ok _ =>
        rw [serveHTTP_passed env h r req info hex heval,
          serveHTTP_passed env _ r req info hex' (hsame.symm.trans heval)]
        rfl

/-- A policy for one namespace whose rule denies everything. -/
def shopFreeze : V1alpha1.TokenPolicy where
  name := "freeze"
  spec := { targetNamespaces := some { matchNames := ["shop"], matchLabels := [] }
            issuanceRules := [{ name := "freeze", cel := "false", message := "frozen" }] }

/-- The sample request, from a service account of a namespace. -/
def serviceRequest (nameSpace : String) : Request :=
  { sampleIssue with
    header := [("X-Kontxt-Workload", "system:serviceaccount:" ++ nameSpace ++ ":cart")] }

/-- A JWT library that can sign what a service account of `shop` asks for. -/
def shopEnv : Env :=
  { sampleEnv with
    jwt := JwtLib.ofTable [("e30.e30.c2ln", sampleSubject),
      ("shop", Token.newJwt
        { sampleClaims "read write" with
          requestingWorkload := "system:serviceaccount:shop:cart" } "k1" 0 0 "")] }

/-- The rule of the policy as installed. -/
def shopRule : IssuanceRule :=
  activeRule shopFreeze { name := "freeze", cel := "false", message := "frozen" }
    fun _ => .ok (.bool false)

/-- A cluster-wide rule that denies everything. -/
def denyAll : IssuanceRule where
  name := "deny-all"
  program := fun _ => .ok (.bool false)
  message := "closed"
  targetNamespaces := []

theorem shopFreeze_installed (rules : List IssuanceRule) :
    Installed (.ok (Cel.Env.constants _)) (sampleHandler.setIssuanceRules (shopRule :: rules))
      shopFreeze { matchNames := ["shop"], matchLabels := [] }
      { name := "freeze", cel := "false", message := "frozen" } fun _ => .ok (.bool false) :=
  ⟨rfl, List.mem_singleton_self _, rfl, List.mem_cons_self⟩

/-- The parameters of the sample exchange. -/
def serviceExchange : TokenExchangeRequest where
  grantType := Token.grantType
  subjectToken := "e30.e30.c2ln"
  subjectTokenType := "urn:ietf:params:oauth:token-type:access_token"
  requestedTokenType := Token.requestedTokenType
  audience := ""
  scope := "read write"
  requestDetails := none
  requestContext := none

/-- The sample exchange parses and its subject token authenticates. -/
theorem serviceRequest_newExchange (rules : List IssuanceRule) (nameSpace : String) :
    ∃ info, NewExchange shopEnv (sampleHandler.setIssuanceRules rules)
      (serviceRequest nameSpace) serviceExchange info := by
  have hok : (Authn.Router.authenticate shopEnv.toEnv sampleHandler.router
      serviceExchange.subjectToken).toOption.isSome = true := by
    decide
  cases hinfo : Authn.Router.authenticate shopEnv.toEnv sampleHandler.router
      serviceExchange.subjectToken with
  | error e =>
      rw [hinfo] at hok
      cases hok
  | ok info => exact ⟨info, rfl, ⟨_, rfl, by decide⟩, by decide, hinfo⟩

/-- With a cluster-wide rule that denies, the request is refused; and from
    another namespace it is answered as without the targeted rule. -/
theorem targeted_refusal_iff_sample :
    (∃ e, ((sampleHandler.setIssuanceRules [shopRule, denyAll]).serveHTTP shopEnv
        (serviceRequest "shop")).1 = .error 403 "policy_denied" e) ∧
    ((sampleHandler.setIssuanceRules [shopRule, denyAll]).serveHTTP shopEnv
        (serviceRequest "office")).1 =
      (((sampleHandler.setIssuanceRules [shopRule, denyAll]).setIssuanceRules
        [denyAll]).serveHTTP shopEnv (serviceRequest "office")).1 := by
  have htargeted := targeted_refusal_iff _ shopEnv _ shopFreeze _ _ _
    (shopFreeze_installed [denyAll]) "shop" (List.mem_singleton_self _)
  constructor
  · rcases serviceRequest_newExchange [shopRule, denyAll] "shop" with ⟨info, hex⟩
    refine (htargeted.1 (serviceRequest "shop") _ info (by decide) ⟨"cart", rfl⟩ hex).mpr
      ⟨denyAll, ?_, rfl, ?_⟩
    · exact List.mem_cons_of_mem _ (List.mem_singleton_self _)
    · intro h
      cases h
  · rcases serviceRequest_newExchange [shopRule, denyAll] "office" with ⟨info, hex⟩
    exact htargeted.2 (serviceRequest "office") _ info "office" (by decide) ⟨"cart", rfl⟩ hex
      [] [denyAll] rfl

/-- The policy's rule is installed and false of everything, and a workload of the
    namespace it targets gets its token. -/
theorem targeted_rule_inert :
    Installed (.ok (Cel.Env.constants _)) (sampleHandler.setIssuanceRules [shopRule]) shopFreeze
      { matchNames := ["shop"], matchLabels := [] }
      { name := "freeze", cel := "false", message := "frozen" } (fun _ => .ok (.bool false)) ∧
    ServiceAccountOf (serviceRequest "shop") "shop" ∧
    (∃ info, NewExchange shopEnv (sampleHandler.setIssuanceRules [shopRule])
      (serviceRequest "shop") serviceExchange info) ∧
    ((sampleHandler.setIssuanceRules [shopRule]).serveHTTP shopEnv (serviceRequest "shop")).1 =
      .token "shop" Token.requestedTokenType "N_A" :=
  ⟨shopFreeze_installed [], ⟨"cart", rfl⟩, serviceRequest_newExchange _ "shop",
    by decide⟩

end Tts

end Kontxt
