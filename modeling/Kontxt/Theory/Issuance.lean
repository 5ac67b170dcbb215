import Kontxt.Theory.Delegation

/-!
# Policy on Issued Tokens

Two bounds a token ought to respect: the issuance rules loaded when it is
issued, and the authority of the subject it is issued for. The handler
evaluates the rules on one of its two paths and compares scopes on the other.

The rules are evaluated for a new token, against exactly the values the token
will carry, so a new token complies. A replacement is not checked, although its
scope and workload differ from those the rules once saw, and the rules may
have changed since. So a replacement complies exactly when the rules happen to
hold of its values, and `policy_upheld_iff` says so for every exchange and,
from there, for every run.

The scope of a new token is the one asked for. Nothing relates it to the scope
of the subject token, which the authenticator verifies and then drops, so the
bound holds exactly when the request kept to it.

## Main definitions

* `Tts.Complies`: Cluster-wide rules hold of a token's own values.
* `Tts.RulesAllow`: The rules hold of the values a replacement will carry.
* `Tts.verifiedClaims`: The claims a subject token was accepted with.

## Theorems

* `Tts.newIssue_complies`: New tokens comply with the loaded rules.
* `Tts.replace_complies_iff`: When a replacement does.
* `Tts.policy_upheld_iff`: When every token complies.
* `Tts.issued_scope_within_iff`: When a new token keeps to the subject's scope.
-/

namespace Kontxt

namespace Tts

open Go Lib

/-- The context of a token's own values. -/
def ownContext (c : Token.Claims) : IssuanceContext where
  subject := c.subject
  scope := c.scope
  tctx := c.transactionContext
  rctx := c.requesterContext
  workload := c.requestingWorkload
  workloadNS := ""

/-- Every cluster-wide rule is true, without error, of a token's own values. -/
def Complies (rules : List IssuanceRule) (c : Token.Claims) : Prop :=
  ∀ rule ∈ rules, rule.targetNamespaces = [] →
    rule.program (ownContext c).activation = .ok (.bool true)

/-- If the event replaces a token, the cluster-wide rules loaded at that moment
    hold of the presented token's subject and contexts with the requested scope
    and the requester's workload. -/
def RulesAllow (J : JwtLib) (s : Service) : Event → Prop
  | .exchange _ r => ∀ form p existing, r.form = .ok form → presented r = some p →
      Token.claimsOf J p = some existing →
      isScopeSubset (formValue form "scope") existing.scope = true →
      Complies s.handler.loadIssuanceRules
        { existing with
          scope := formValue form "scope"
          requestingWorkload := identifyWorkload r }
  | _ => True

/-- A new token complies with the loaded rules: they were evaluated against the
    values it carries. -/
theorem newIssue_complies (env : Env) (h : Handler) (r : Request)
    (form : List (String × String)) (req : TokenExchangeRequest) (tok : String)
    (hnew : NewIssue env h r form req tok) :
    ∃ c, Token.claimsOf env.jwt tok = some c ∧ Complies h.loadIssuanceRules c := by
  rcases hnew.issued with ⟨info, _, hrules, hclaims⟩
  refine ⟨_, hclaims, fun rule hrule htargets => ?_⟩
  -- The handler leaves the workload's namespace empty, so exactly the
  -- cluster-wide rules were evaluated.
  have happlies : ruleAppliesToNamespace rule.targetNamespaces "" = true := by
    rw [htargets]
    rfl
  exact (evaluateIssuanceRules_eq_ok env.unicode _ _).mp hrules rule hrule happlies

/-- A replacement complies exactly when the rules, which nobody evaluated, hold
    of the values it carries. -/
theorem replace_complies_iff (env : Env) (s : Service) (r : Request)
    (form : List (String × String)) (req : TokenExchangeRequest) (tok : String)
    (hrep : Replace env s.handler r form req tok) :
    (∃ c, Token.claimsOf env.jwt tok = some c ∧ Complies s.handler.loadIssuanceRules c) ↔
      RulesAllow env.jwt s (.exchange env r) := by
  rcases hrep.replaced with ⟨existing, hex, hsub, hclaims⟩
  rcases parseRequest_ok _ _ _ hrep.parsed with ⟨hscope, _, _⟩
  have hpres := presented_replace env s.handler r form req tok hrep
  constructor
  · intro hgiven form' p existing' hform' hp hex' _
    rcases hgiven with ⟨c, hc, hcomp⟩
    -- The condition is about the request's own form and the token it presents.
    have hforms : form' = form := by
      have hf := hrep.form_ok
      rw [hform'] at hf
      exact Except.ok.inj hf
    have hexs : existing' = existing := by
      rw [hpres] at hp
      rw [← Option.some.inj hp, hex] at hex'
      exact (Option.some.inj hex').symm
    have hcs : c = _ := Option.some.inj (hc.symm.trans hclaims)
    rw [hforms, hexs, ← hscope]
    rw [hcs] at hcomp
    exact hcomp
  · intro hallow
    refine ⟨_, hclaims, ?_⟩
    have hcomp := hallow form req.subjectToken existing hrep.form_ok hpres hex (hscope ▸ hsub)
    rw [← hscope] at hcomp
    exact hcomp

/-- An exchange that is answered with a token complies with the loaded rules
    exactly when the rules hold of what a replacement will carry. -/
theorem exchange_complies_iff (env : Env) (s : Service) (r : Request) (tok ity ty : String)
    (hresp : (s.handler.serveHTTP env r).1 = .token tok ity ty) :
    (∃ c, Token.claimsOf env.jwt tok = some c ∧ Complies s.handler.loadIssuanceRules c) ↔
      RulesAllow env.jwt s (.exchange env r) := by
  rcases serveHTTP_token env s.handler r tok ity ty hresp with ⟨form, req, hnew | hrep⟩
  · have hcomp := newIssue_complies env s.handler r form req tok hnew
    have hpres := presented_newIssue env s.handler r form req tok hnew
    refine ⟨fun _ _ p _ _ hp => ?_, fun _ => hcomp⟩
    rw [hpres] at hp
    cases hp
  · exact replace_complies_iff env s r form req tok hrep

/-- Every token complies with the rules loaded when it was issued, in every run
    in which the rules hold of what each replacement will carry; and for each
    exchange answered with a token that condition is exact. -/
theorem policy_upheld_iff (J : JwtLib) :
    (∀ s, ((service J).restrict (RulesAllow J)).Reachable s →
      ∀ g ∈ s.grants, ∃ c, Token.claimsOf J g.token = some c ∧ Complies g.rules c) ∧
    ∀ (env : Env) (s : Service) (r : Request) (tok ity ty : String), env.jwt = J →
      (s.handler.serveHTTP env r).1 = .token tok ity ty →
      ((∃ c, Token.claimsOf J tok = some c ∧ Complies s.handler.loadIssuanceRules c) ↔
        RulesAllow J s (.exchange env r)) := by
  constructor
  · refine System.invariant _ ?_ ?_
    · intro s hs g hg
      rw [show s.grants = [] from hs] at hg
      exact absurd hg List.not_mem_nil
    · intro s e s' hall hgiven g hg
      rcases hgiven with ⟨hallow, hunder, hafter⟩
      rw [hafter] at hg
      cases e with
      | rotate entry => exact hall g hg
      | setIssuanceRules rules => exact hall g hg
      | exchange env r =>
          -- Only an exchange adds a grant, and its rules are those loaded then.
          have hJ : env.jwt = J := hunder
          rcases mem_grants_serve s env r g hg with hmem | ⟨⟨ity, ty, hresp⟩, _, hrules⟩
          · exact hall g hmem
          · rw [hrules, ← hJ]
            rw [← hJ] at hallow
            exact (exchange_complies_iff env s r g.token ity ty hresp).mpr hallow
  · intro env s r tok ity ty hJ hresp
    rw [← hJ]
    exact exchange_complies_iff env s r tok ity ty hresp

/-- A cluster-wide rule that forbids tokens for `read` alone. -/
def forbidRead : IssuanceRule where
  name := "no-read-only-tokens"
  program := fun a => .ok (.bool (a.scope != "read"))
  message := "read-only tokens are not issued"
  targetNamespaces := []

/-- The sample service with that rule, before any exchange. -/
def ruledService : Service where
  handler := sampleHandler.setIssuanceRules [forbidRead]
  grants := []

/-- The rule passes a token for two scopes, and the token it is then replaced
    by is the one the rule forbids. -/
theorem replacement_evades_policy :
    ¬∀ (J : JwtLib) (s : Service), (service J).Reachable s →
      ∀ g ∈ s.grants, ∃ c, Token.claimsOf J g.token = some c ∧ Complies g.rules c := by
  intro h
  have hreach : (service sampleEnv.jwt).Reachable
      ((ruledService.serve sampleEnv sampleIssue).serve sampleEnv sampleReplace) := by
    refine System.Reachable.step _ (.exchange sampleEnv sampleReplace) _ ?_
      (service_exchange _ sampleEnv sampleReplace)
    refine System.Reachable.step ruledService (.exchange sampleEnv sampleIssue) _ ?_
      (service_exchange ruledService sampleEnv sampleIssue)
    exact System.Reachable.init ruledService rfl
  have hchild : ({ token := "child", parent := some "root", rules := [forbidRead] } : Grant) ∈
      ((ruledService.serve sampleEnv sampleIssue).serve sampleEnv sampleReplace).grants := by
    have hresp : ((ruledService.serve sampleEnv sampleIssue).handler.serveHTTP sampleEnv
        sampleReplace).1 = .token "child" Token.requestedTokenType "N_A" := by decide
    have hpres : presented sampleReplace = some "root" := by decide +kernel
    rw [Service.serve, hresp, hpres]
    exact List.mem_cons_self
  rcases h _ _ hreach _ hchild with ⟨c, hc, hcomp⟩
  have hclaims : Token.claimsOf sampleEnv.jwt "child" = some (sampleClaims "read") := by
    decide +kernel
  -- The rule is asked about the scope the replacement carries.
  have hrule := hcomp forbidRead (List.mem_singleton.mpr rfl) rfl
  rw [← Option.some.inj (hclaims.symm.trans hc)] at hrule
  exact absurd (Except.ok.inj hrule) (by decide +kernel)

/-- A cluster-wide rule that forbids tokens for `admin` alone. -/
def forbidAdmin : IssuanceRule where
  name := "no-admin-tokens"
  program := fun a => .ok (.bool (a.scope != "admin"))
  message := "admin tokens are not issued"
  targetNamespaces := []

/-- After a token was issued without rules, the rule is set. -/
def guardedService : Service :=
  (Service.serve { handler := sampleHandler, grants := [] } sampleEnv sampleIssue).after
    (.setIssuanceRules [forbidAdmin])

/-- A token is issued, a rule is set that holds of what its replacement carries, and the
    replacement complies with it. -/
theorem policy_upheld_iff_sample :
    (guardedService.serve sampleEnv sampleReplace).grants.map Grant.token = ["child", "root"] ∧
    ∀ g ∈ (guardedService.serve sampleEnv sampleReplace).grants,
      ∃ c, Token.claimsOf sampleEnv.jwt g.token = some c ∧ Complies g.rules c := by
  refine ⟨by decide +kernel, (policy_upheld_iff sampleEnv.jwt).1 _ ?_⟩
  let s₀ : Service := { handler := sampleHandler, grants := [] }
  have hpres : presented sampleIssue = none := by decide +kernel
  have hnew : RulesAllow sampleEnv.jwt s₀ (.exchange sampleEnv sampleIssue) := by
    intro form p existing _ hp
    rw [hpres] at hp
    cases hp
  have hissued : ((service sampleEnv.jwt).restrict (RulesAllow sampleEnv.jwt)).Reachable
      (s₀.serve sampleEnv sampleIssue) :=
    (System.Reachable.init s₀ rfl).next_restrict (.exchange sampleEnv sampleIssue) _ hnew
      (service_exchange s₀ sampleEnv sampleIssue)
  have hguarded : ((service sampleEnv.jwt).restrict (RulesAllow sampleEnv.jwt)).Reachable
      guardedService :=
    hissued.next_restrict (.setIssuanceRules [forbidAdmin]) _ trivial ⟨trivial, rfl⟩
  have hclaims : Token.claimsOf sampleEnv.jwt "child" = some (sampleClaims "read") := by
    decide +kernel
  have hallow : RulesAllow sampleEnv.jwt guardedService (.exchange sampleEnv sampleReplace) := by
    refine (exchange_complies_iff sampleEnv guardedService sampleReplace "child"
      Token.requestedTokenType "N_A" (by decide +kernel)).mp ⟨_, hclaims, fun rule hrule _ => ?_⟩
    rw [show rule = forbidAdmin from List.mem_singleton.mp hrule]
    rfl
  exact hguarded.next_restrict _ _ hallow (service_exchange _ sampleEnv sampleReplace)

/-- The claims a subject token is accepted with: those the matching
    authenticator verified. -/
def verifiedClaims (env : Authn.Env) (router : Authn.Router) (tokenString : String) :
    Option Object :=
  match Authn.extractIssuer env tokenString with
  | .error _ => none
  | .ok issuer =>
    match Authn.Router.matching router issuer with
    | none => none
    | some a => (a.parse env tokenString).toOption.map Jwt.claims

theorem verifiedClaims_of_authenticate (env : Authn.Env) (router : Authn.Router) (tok : String)
    (info : Authn.SubjectInfo) (h : Authn.Router.authenticate env router tok = .ok info) :
    ∃ claims, verifiedClaims env router tok = some claims := by
  unfold Authn.Router.authenticate at h
  unfold verifiedClaims
  cases hiss : Authn.extractIssuer env tok with
  | error e =>
      rw [hiss] at h
      cases h
  | ok issuer =>
      rw [hiss] at h
      simp only [] at h ⊢
      cases hmatch : Authn.Router.matching router issuer with
      | none =>
          rw [hmatch] at h
          cases h
      | some a =>
          rw [hmatch] at h
          simp only [Authn.Authenticator.authenticate] at h ⊢
          cases hparse : a.parse env tok with
          | error e =>
              rw [hparse] at h
              cases h
          | ok t => exact ⟨t.claims, rfl⟩

/-- A token from the new-issuance path keeps to the scopes of the subject token
    exactly when the requested scopes are among them. -/
theorem issued_scope_within_iff (env : Env) (h : Handler) (r : Request) (tok ity ty : String)
    (hnew : presented r = none) (hresp : (h.serveHTTP env r).1 = .token tok ity ty) :
    ∃ form claims c, r.form = .ok form ∧
      verifiedClaims env.toEnv h.router (formValue form "subject_token") = some claims ∧
      Token.claimsOf env.jwt tok = some c ∧
      ((∀ x ∈ fields c.scope, x ∈ fields (claims.str "scope")) ↔
        ∀ x ∈ fields (formValue form "scope"), x ∈ fields (claims.str "scope")) := by
  rcases newIssue_of_not_presented env h r tok ity ty hnew hresp with ⟨form, req, hissue⟩
  rcases hissue.issued with ⟨info, hauth, _, hclaims⟩
  rcases parseRequest_ok _ _ _ hissue.parsed with ⟨hscope, hsub, _⟩
  rw [hsub] at hauth
  rcases verifiedClaims_of_authenticate env.toEnv h.router _ info hauth with ⟨claims, hver⟩
  refine ⟨form, claims, _, hissue.form_ok, hver, hclaims, ?_⟩
  -- The token's scope is the one asked for, word for word.
  rw [← hscope]
  exact Iff.rfl

/-- The subject token carries the scope `read`, and the token issued for it
    carries `write` as well. -/
theorem issued_scope_exceeds_subject :
    ¬∀ (env : Env) (h : Handler) (r : Request) (form : List (String × String))
      (claims : Object) (c : Token.Claims) (tok ity ty : String),
      presented r = none → r.form = .ok form →
      verifiedClaims env.toEnv h.router (formValue form "subject_token") = some claims →
      (h.serveHTTP env r).1 = .token tok ity ty → Token.claimsOf env.jwt tok = some c →
      ∀ x ∈ fields c.scope, x ∈ fields (claims.str "scope") := by
  intro h
  have hwrite := h sampleEnv sampleHandler sampleIssue _ sampleSubject.claims
    (sampleClaims "read write") "root" _ _ (by decide) rfl (by decide +kernel)
    sampleIssue_token (by decide +kernel) "write" (by decide +kernel)
  exact absurd hwrite (by decide +kernel)

theorem issued_scope_within_iff_sample :
    ∃ form claims c, sampleIssue.form = .ok form ∧
      verifiedClaims sampleEnv.toEnv sampleHandler.router (formValue form "subject_token")
        = some claims ∧
      Token.claimsOf sampleEnv.jwt "root" = some c ∧
      ((∀ x ∈ fields c.scope, x ∈ fields (claims.str "scope")) ↔
        ∀ x ∈ fields (formValue form "scope"), x ∈ fields (claims.str "scope")) :=
  issued_scope_within_iff sampleEnv sampleHandler sampleIssue "root" _ _ (by decide +kernel)
    sampleIssue_token

end Tts

end Kontxt
