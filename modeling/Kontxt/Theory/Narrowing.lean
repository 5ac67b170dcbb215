import Kontxt.Core.Verifier
import Kontxt.Theory.Client
import Kontxt.Theory.Requirements

/-!
# Narrowing

What the verification adapter does to a token it lets through. A rule may ask
for the token to be narrowed to the scope the rule requires; the first such
rule, in the order of namespace and name, decides, and the adapter exchanges
the token for one with that scope.

A token that passed the checks has the required scope of every rule among its
scopes. A scope without white space is its own only field, so the three scope
tests on the way agree: a rule narrows exactly when the token has more than one
scope entry, the service's subset test is always passed, and what comes back
has exactly the required scope. When nothing narrows, every rule that asks for
it has what it asked for already.

Narrowing looks at one rule and the checks at all of them. So the narrowed
token passes the same rules again exactly when no two rules require different
scopes.

## Main definitions

* `Wired`: An adapter connected to a token service.
* `Narrows`: A rule asks for a narrower token.
* `narrowing`: The exchange the adapter sends.
* `Signs`: The library signs claims for a service.
* `narrowedClaims`: What the service signs for the adapter.

## Theorems

* `check_narrowed`: What happened when a narrowed token is forwarded.
* `narrows_iff`: A rule narrows a passing token that has more than one scope.
* `narrowingRule_eq_some`: The rule that narrows is the first that asks.
* `narrowed_claims`: What a narrowed token carries.
* `narrowed_passes_iff`: When a narrowed token passes the rules again.
* `narrowing_succeeds`, `narrowing_issued`: The service answers the adapter's
  exchange.
* `auto_narrowing`: Narrowing gives exactly the required scope.
-/

namespace Kontxt

open Go Lib

namespace Verify

/-- A token the verifier accepts is judged by the claims it carries. -/
theorem verify_claims (env : Authn.Env) (v : Verifier) (tok : String) (claims : Token.Claims)
    (h : v.verify env tok = .ok claims) :
    tok ≠ "" ∧ Token.claimsOf env.jwt tok = some claims := by
  unfold Verifier.verify at h
  rw [ite_error_eq_ok] at h
  rcases h with ⟨hne, h⟩
  cases hparse : env.jwt.parse tok (fun t => (v.keyFunc env t).1) (.withAudience v.audience)
      env.now with
  | error e =>
      rw [hparse] at h
      cases h
  | ok t =>
      rw [hparse] at h
      simp only [ite_error_eq_ok, Except.ok.injEq] at h
      rw [Token.claimsOf_of_parse env.jwt tok _ _ _ t hparse, h.2]
      exact ⟨hne, rfl⟩

end Verify

namespace ExtAuth

/-- An adapter connected to a token service: it reads tokens with the library
    the service signs them with, and exchanges them with the service's
    handler. -/
structure Wired (s : Server) (env : Tts.Env) (h : Tts.Handler) (marshal : Object → String) :
    Prop where
  verifier : ∃ (v : Verify.Verifier) (venv : Authn.Env), venv.jwt = env.jwt ∧
    s.verifier = v.verify venv
  client : s.ttsClient = some (SdkTts.narrowingClient env h marshal)

/-- A rule asks for a narrower token than the one with these claims. -/
def Narrows (claims : Token.Claims) (r : VerificationRule) : Prop :=
  r.autoNarrow = true ∧ r.requiredScope ≠ "" ∧ claims.scope ≠ r.requiredScope ∧
    scopeIsBroader claims.scope r.requiredScope = true

instance (claims : Token.Claims) : DecidablePred (Narrows claims) := fun r =>
  inferInstanceAs (Decidable (r.autoNarrow = true ∧ r.requiredScope ≠ "" ∧
    claims.scope ≠ r.requiredScope ∧ scopeIsBroader claims.scope r.requiredScope = true))

/-- The exchange the adapter sends for a token and a scope. -/
def narrowing (tok scope : String) : SdkTts.ExchangeRequest where
  subjectToken := tok
  subjectTokenType := Token.subjectTokenTypeTxnToken
  scope := scope
  requestDetails := none
  requestContext := none

theorem wired_claims (s : Server) (env : Tts.Env) (h : Tts.Handler) (marshal : Object → String)
    (hw : Wired s env h marshal) (tok : String) (claims : Token.Claims)
    (hver : s.verifier tok = .ok claims) :
    tok ≠ "" ∧ Token.claimsOf env.jwt tok = some claims := by
  rcases hw.verifier with ⟨v, venv, hjwt, hverifier⟩
  rw [hverifier] at hver
  rw [← hjwt]
  exact Verify.verify_claims venv v tok claims hver

section Scan

/-- The scan finds the first rule that asks for a narrower token. -/
theorem narrowingRule_eq_find (claims : Token.Claims) (sets : List VerificationRuleSet) :
    Server.narrowingRule claims sets
      = (sets.map VerificationRuleSet.rule).find? (fun r => decide (Narrows claims r)) := by
  induction sets with
  | nil => rfl
  | cons rs rest ih =>
      unfold Server.narrowingRule
      rw [List.map_cons, List.find?_cons, ← ih]
      by_cases hskip : rs.rule.autoNarrow = false ∨ rs.rule.requiredScope = ""
      · have hno : ¬Narrows claims rs.rule := by
          intro hn
          rcases hskip with hauto | hscope
          · rw [hn.1] at hauto
            cases hauto
          · exact hn.2.1 hscope
        simp only [if_pos hskip, decide_eq_false hno]
      · have hboth : Narrows claims rs.rule ↔ claims.scope ≠ rs.rule.requiredScope ∧
            scopeIsBroader claims.scope rs.rule.requiredScope = true := by
          rw [not_or, Bool.not_eq_false] at hskip
          unfold Narrows
          simp only [hskip.1, hskip.2, ne_eq, not_false_eq_true, true_and]
        by_cases hn : Narrows claims rs.rule
        · simp only [if_neg hskip, if_pos (hboth.mp hn), decide_eq_true hn]
        · simp only [if_neg hskip, if_neg (fun h => hn (hboth.mpr h)), decide_eq_false hn]

variable (u : Unicode) (S : SortSlice) (newEnv : Except String (Cel.Env Celverify.Context))

/-- Over a rule set in its installed order the scan is one over the sorted
    rules. -/
theorem narrowingRule_setVerificationRules (s : Server) (rules : List VerificationRule)
    (claims : Token.Claims) :
    Server.narrowingRule claims (s.setVerificationRules u S newEnv rules).loadVerificationRules
      = (S.sort verificationLess rules).find? (fun r => decide (Narrows claims r)) := by
  have hrules : (s.setVerificationRules u S newEnv rules).loadVerificationRules.map
      VerificationRuleSet.rule = S.sort verificationLess rules := by
    unfold Server.setVerificationRules Server.loadVerificationRules
    simp only [Option.getD_some, List.map_map, Function.comp_def, List.map_id']
  rw [narrowingRule_eq_find, hrules]

/-- The rule that narrows asks for it, and no rule that asks comes before it in
    the order of namespace and name. -/
theorem narrowingRule_eq_some (s : Server) (rules : List VerificationRule)
    (claims : Token.Claims) (a : VerificationRule)
    (hfound : Server.narrowingRule claims
      (s.setVerificationRules u S newEnv rules).loadVerificationRules = some a) :
    a ∈ rules ∧ Narrows claims a ∧
      ∀ b ∈ rules, Narrows claims b → verificationLess b a = false := by
  rw [narrowingRule_setVerificationRules] at hfound
  have hweak : StrictWeak verificationLess := by
    rw [verificationLess_eq]
    exact strictWeak_lessBy _
  have hsorted := S.sorted verificationLess rules hweak
  have hmem := fun r => (S.perm verificationLess rules).mem_iff (a := r)
  rcases List.find?_eq_some_iff_append.mp hfound with ⟨hnarrows, before, after, hsplit, hbefore⟩
  refine ⟨(hmem a).mp (List.mem_of_find?_eq_some hfound), of_decide_eq_true hnarrows, ?_⟩
  intro b hb hbnarrows
  have hin := (hmem b).mpr hb
  rw [hsplit] at hin hsorted
  rcases List.mem_append.mp hin with hearlier | hlater
  · -- Rules before the one found do not ask.
    have hno := hbefore b hearlier
    rw [decide_eq_true hbnarrows] at hno
    cases hno
  · rcases List.mem_cons.mp hlater with rfl | hlater
    · cases hirr : verificationLess b b with
      | false => rfl
      | true =>
          rw [hweak.asymm b b hirr] at hirr
          cases hirr
    · exact (List.pairwise_cons.mp (List.pairwise_append.mp hsorted).2.1).1 b hlater

/-- Some rule narrows when any rule asks. -/
theorem narrowingRule_isSome (s : Server) (rules : List VerificationRule) (claims : Token.Claims) :
    (Server.narrowingRule claims
      (s.setVerificationRules u S newEnv rules).loadVerificationRules).isSome = true ↔
      ∃ r ∈ rules, Narrows claims r := by
  rw [narrowingRule_setVerificationRules, List.find?_isSome]
  simp only [(S.perm verificationLess rules).mem_iff, decide_eq_true_eq]

end Scan

section Scopes

/-- A rule narrows a token that passed it exactly when the rule asks for
    narrowing and the token has more than one scope entry, whatever white space
    or repetition there is. -/
theorem narrows_iff (claims : Token.Claims) (r : VerificationRule) (hne : r.requiredScope ≠ "")
    (hpass : r.requiredScope ∈ fields claims.scope) :
    Narrows claims r ↔ r.autoNarrow = true ∧ 1 < (fields claims.scope).length := by
  have hfields := fields_of_mem_fields claims.scope r.requiredScope hpass
  have hbroader : scopeIsBroader claims.scope r.requiredScope = true ↔
      1 < (fields claims.scope).length := by
    unfold scopeIsBroader
    simp only [hfields, List.all_cons, List.all_nil, Bool.and_true, Bool.and_eq_true,
      List.contains_iff_mem, hpass, true_and, decide_eq_true_eq, List.length_singleton, gt_iff_lt]
  unfold Narrows
  rw [hbroader]
  constructor
  · intro h
    exact ⟨h.1, h.2.2.2⟩
  · intro h
    refine ⟨h.1, hne, fun heq => ?_, h.2⟩
    -- The required scope itself has one entry.
    rw [heq, hfields, List.length_singleton] at h
    omega

/-- A token that passed a rule which asks for narrowing and does not narrow it
    has the required scope and no other. -/
theorem scope_of_not_narrows (claims : Token.Claims) (r : VerificationRule)
    (hauto : r.autoNarrow = true) (hne : r.requiredScope ≠ "")
    (hpass : r.requiredScope ∈ fields claims.scope) (hno : ¬Narrows claims r) :
    fields claims.scope = [r.requiredScope] := by
  rw [narrows_iff claims r hne hpass] at hno
  have hlen : ¬1 < (fields claims.scope).length := fun h => hno ⟨hauto, h⟩
  cases hscopes : fields claims.scope with
  | nil =>
      rw [hscopes] at hpass
      exact absurd hpass List.not_mem_nil
  | cons x xs =>
      rw [hscopes, List.length_cons] at hlen
      have hxs : xs = [] := List.eq_nil_of_length_eq_zero (by omega)
      rw [hscopes, hxs, List.mem_singleton] at hpass
      rw [hxs, hpass]

/-- A scope among a token's passes the service's subset test. -/
theorem isScopeSubset_of_mem (scope existing : String) (hmem : scope ∈ fields existing) :
    Tts.isScopeSubset scope existing = true := by
  rw [Tts.isScopeSubset_iff, fields_of_mem_fields existing scope hmem]
  intro x hx
  rw [List.mem_singleton.mp hx]
  exact hmem

end Scopes

section Check

variable (u : Unicode)

/-- What `Check` does with a token it lets through. -/
theorem check_passed (s : Server) (req : HttpRequest) (claims : Token.Claims)
    (hexcl : s.isExcluded u req.path req.method = false)
    (htok : getHeader u req.headers Token.headerName ≠ "")
    (hver : s.verifier (getHeader u req.headers Token.headerName) = .ok claims)
    (hpass : s.checkVerificationRules u claims req = .ok ()) :
    s.check u { http := some req }
      = if s.autoNarrow claims (getHeader u req.headers Token.headerName) ≠ "" then
          allowedWithHeaders
            [(Token.headerName, s.autoNarrow claims (getHeader u req.headers Token.headerName))]
        else allowed := by
  unfold Server.check
  simp only [hexcl, htok, hver, hpass, Bool.false_eq_true, if_false]

/-- A response with headers comes from narrowing a token that passed. -/
theorem check_narrowed (s : Server) (req : HttpRequest) (headers : List (String × String))
    (hcheck : s.check u { http := some req } = allowedWithHeaders headers) :
    ∃ claims, s.verifier (getHeader u req.headers Token.headerName) = .ok claims ∧
      s.checkVerificationRules u claims req = .ok () ∧
      s.autoNarrow claims (getHeader u req.headers Token.headerName) ≠ "" ∧
      headers
        = [(Token.headerName, s.autoNarrow claims (getHeader u req.headers Token.headerName))] := by
  -- Every other answer sets a status.
  have hstatus : ∀ resp : CheckResponse, resp.status.isSome = true →
      resp ≠ allowedWithHeaders headers := by
    intro resp hsome heq
    rw [heq] at hsome
    cases hsome
  unfold Server.check at hcheck
  simp only [] at hcheck
  by_cases hexcl : s.isExcluded u req.path req.method = true
  · rw [if_pos hexcl] at hcheck
    exact absurd hcheck (hstatus _ rfl)
  · rw [if_neg hexcl] at hcheck
    by_cases htok : getHeader u req.headers Token.headerName = ""
    · rw [if_pos htok] at hcheck
      exact absurd hcheck (hstatus _ rfl)
    · rw [if_neg htok] at hcheck
      cases hver : s.verifier (getHeader u req.headers Token.headerName) with
      | error e =>
          rw [hver] at hcheck
          exact absurd hcheck (hstatus _ rfl)
      | ok claims =>
          rw [hver] at hcheck
          simp only [] at hcheck
          cases hrules : s.checkVerificationRules u claims req with
          | error e =>
              rw [hrules] at hcheck
              exact absurd hcheck (hstatus _ rfl)
          | ok _ =>
              rw [hrules] at hcheck
              simp only [] at hcheck
              by_cases hnarrow :
                  s.autoNarrow claims (getHeader u req.headers Token.headerName) ≠ ""
              · rw [if_pos hnarrow] at hcheck
                have hheaders := HttpResponse.okResponse.inj (congrArg
                  CheckResponse.httpResponse hcheck)
                exact ⟨claims, rfl, hrules, hnarrow, hheaders.symm⟩
              · rw [if_neg hnarrow] at hcheck
                exact absurd hcheck (hstatus _ rfl)

/-- What an adapter connected to a service forwards instead of a token. -/
theorem autoNarrow_wired (s : Server) (env : Tts.Env) (h : Tts.Handler)
    (marshal : Object → String)
    (hclient : s.ttsClient = some (SdkTts.narrowingClient env h marshal)) (claims : Token.Claims)
    (tok : String) :
    s.autoNarrow claims tok
      = match Server.narrowingRule claims s.loadVerificationRules with
        | none => ""
        | some a =>
          match SdkTts.exchange (SdkTts.overHandler env h) marshal
              (narrowing tok a.requiredScope) with
          | .error _ => ""
          | .ok narrowed => narrowed := by
  unfold Server.autoNarrow
  rw [hclient]
  rfl

/-- The token stays as it is if no rule narrows it. -/
theorem autoNarrow_none (s : Server) (env : Tts.Env) (h : Tts.Handler)
    (marshal : Object → String)
    (hclient : s.ttsClient = some (SdkTts.narrowingClient env h marshal)) (claims : Token.Claims)
    (tok : String) (hrule : Server.narrowingRule claims s.loadVerificationRules = none) :
    s.autoNarrow claims tok = "" := by
  rw [autoNarrow_wired s env h marshal hclient, hrule]

/-- The token is replaced by what the exchange for the rule that narrows
    gives. -/
theorem autoNarrow_some (s : Server) (env : Tts.Env) (h : Tts.Handler)
    (marshal : Object → String)
    (hclient : s.ttsClient = some (SdkTts.narrowingClient env h marshal)) (claims : Token.Claims)
    (tok narrowed : String) (a : VerificationRule)
    (hrule : Server.narrowingRule claims s.loadVerificationRules = some a)
    (hex : SdkTts.exchange (SdkTts.overHandler env h) marshal (narrowing tok a.requiredScope)
      = .ok narrowed) :
    s.autoNarrow claims tok = narrowed := by
  rw [autoNarrow_wired s env h marshal hclient, hrule]
  simp only [hex]

/-- A narrowed token is the answer to the exchange for the rule that
    narrows. -/
theorem autoNarrow_ne (s : Server) (env : Tts.Env) (h : Tts.Handler) (marshal : Object → String)
    (hclient : s.ttsClient = some (SdkTts.narrowingClient env h marshal)) (claims : Token.Claims)
    (tok : String) (hne : s.autoNarrow claims tok ≠ "") :
    ∃ a, Server.narrowingRule claims s.loadVerificationRules = some a ∧
      SdkTts.exchange (SdkTts.overHandler env h) marshal (narrowing tok a.requiredScope)
        = .ok (s.autoNarrow claims tok) := by
  rw [autoNarrow_wired s env h marshal hclient] at hne ⊢
  cases hrule : Server.narrowingRule claims s.loadVerificationRules with
  | none =>
      rw [hrule] at hne
      exact absurd rfl hne
  | some a =>
      rw [hrule] at hne
      refine ⟨a, rfl, ?_⟩
      simp only [] at hne ⊢
      cases hex : SdkTts.exchange (SdkTts.overHandler env h) marshal
          (narrowing tok a.requiredScope) with
      | error e =>
          rw [hex] at hne
          exact absurd rfl hne
      | ok narrowed => rfl

end Check

/-- What comes back from the adapter's exchange has exactly the scope asked for
    and the contexts of the token sent, and its transaction if it had one. -/
theorem narrowed_claims (env : Tts.Env) (h : Tts.Handler) (marshal : Object → String)
    (tok scope narrowed : String) (claims : Token.Claims)
    (hclaims : Token.claimsOf env.jwt tok = some claims)
    (hex : SdkTts.exchange (SdkTts.overHandler env h) marshal (narrowing tok scope)
      = .ok narrowed) :
    ∃ c, Token.claimsOf env.jwt narrowed = some c ∧ c.scope = scope ∧
      c.transactionContext = claims.transactionContext ∧
      (claims.transactionID ≠ "" → Tts.SameTransaction claims c) := by
  rcases SdkTts.exchange_ok env h marshal _ narrowed hex with ⟨_, _, _, ity, ty, hresp⟩
  have hpresented := SdkTts.presented_exchangeHttp marshal (narrowing tok scope) rfl
  rcases Tts.replace_of_presented env h _ tok narrowed ity ty hpresented hresp with
    ⟨form, req, hrep, hsub, hscope⟩
  have hform : SdkTts.exchangeForm marshal (narrowing tok scope) = form :=
    Except.ok.inj hrep.form_ok
  have hreqscope : req.scope = scope := by
    rw [hscope, ← hform]
    rfl
  rcases hrep.replaced with ⟨existing, hexisting, _, hnarrowed⟩
  rw [hsub, hclaims] at hexisting
  rw [← Option.some.inj hexisting] at hnarrowed
  refine ⟨_, hnarrowed, hreqscope, rfl, fun htxn => ?_⟩
  refine ⟨?_, rfl, rfl, rfl⟩
  simp only [Token.signedClaims, Tts.Handler.replacementClaims, htxn, if_false]

/-- When a narrowed token passes the rules again. For every rule set, and every
    request that is answered with a narrowed token, the narrowed token has the
    scope and the context fields every rule requires exactly when no two rules
    require different scopes. -/
theorem narrowed_passes_iff (u : Unicode) (S : SortSlice)
    (newEnv : Except String (Cel.Env Celverify.Context)) (s : Server) (env : Tts.Env)
    (h : Tts.Handler) (marshal : Object → String) (hw : Wired s env h marshal)
    (rules : List VerificationRule) (req : HttpRequest) (tok : String)
    (hcheck : (s.setVerificationRules u S newEnv rules).check u { http := some req }
      = allowedWithHeaders [(Token.headerName, tok)]) :
    ∃ c, Token.claimsOf env.jwt tok = some c ∧
      ((∀ r ∈ rules,
          (r.requiredScope = "" ∨ scopeContains c.scope r.requiredScope = true) ∧
          ∀ field ∈ r.requiredTctxFields, hasKey c.transactionContext field = true) ↔
        ∀ r ∈ rules, ∀ r' ∈ rules, r.requiredScope ≠ "" → r'.requiredScope ≠ "" →
          r.requiredScope = r'.requiredScope) := by
  rcases check_narrowed u _ req _ hcheck with ⟨claims, hver, hpass, hne, hheaders⟩
  rcases autoNarrow_ne (s.setVerificationRules u S newEnv rules) env h marshal hw.client claims _
    hne with ⟨a, hrule, hex⟩
  rcases narrowingRule_eq_some u S newEnv s rules claims a hrule with ⟨ha, hnarrows, _⟩
  have htok : tok = (s.setVerificationRules u S newEnv rules).autoNarrow claims
      (getHeader u req.headers Token.headerName) :=
    (Prod.mk.inj (List.cons.inj hheaders).1).2
  rw [← htok] at hex
  have hclaims := (wired_claims s env h marshal hw _ claims hver).2
  rcases narrowed_claims env h marshal _ _ tok claims hclaims hex with ⟨c, hc, hscope, htctx, _⟩
  rw [checkVerificationRules_setVerificationRules] at hpass
  -- The required scope that was asked for is the narrowed token's only scope.
  have hrequired : a.requiredScope ∈ fields claims.scope :=
    (hpass a ha).scope.resolve_left hnarrows.2.1
  have honly : fields c.scope = [a.requiredScope] := by
    rw [hscope]
    exact fields_of_mem_fields _ _ hrequired
  refine ⟨c, hc, ?_⟩
  simp only [scopeContains_iff, honly, List.mem_singleton]
  constructor
  · intro hagain r hr r' hr' hr0 hr0'
    have hsame := (hagain r hr).1.resolve_left hr0
    have hsame' := (hagain r' hr').1.resolve_left hr0'
    rw [hsame, hsame']
  · intro hagree r hr
    refine ⟨?_, ?_⟩
    · by_cases hempty : r.requiredScope = ""
      · exact Or.inl hempty
      · exact Or.inr (hagree r hr a ha hempty hnarrows.2.1)
    · rw [htctx]
      exact (hpass r hr).tctx

/-- The library signs claims with the service's current key. -/
def Signs (env : Tts.Env) (h : Tts.Handler) (claims : Token.Claims) : Prop :=
  ∃ tok, tok ≠ "" ∧ env.jwt.signedString
    (Token.newJwt claims h.keyManager.signingKey.2 h.lifetime env.now env.uuid)
    h.keyManager.signingKey.1 = .ok tok

/-- The claims the service signs for the adapter's exchange, which sends nothing
    a workload could be identified by. -/
def narrowedClaims (h : Tts.Handler) (claims : Token.Claims) (tok scope : String) : Token.Claims :=
  h.replacementClaims claims "unknown" (SdkTts.readRequest (narrowing tok scope) none none)

/-- The adapter's exchange parses. -/
theorem parseRequest_narrowing (unmarshal : String → Except String (Option Object))
    (marshal : Object → String) (tok scope : String) (htok : tok ≠ "") (hscope : scope ≠ "") :
    Tts.parseRequest unmarshal (SdkTts.exchangeForm marshal (narrowing tok scope))
      = .ok (SdkTts.readRequest (narrowing tok scope) none none) := by
  refine SdkTts.parseRequest_exchangeForm unmarshal marshal (narrowing tok scope) none none htok
    hscope ?_ ?_
  · unfold Tts.parseObject
    rw [SdkTts.formValue_details]
    rfl
  · unfold Tts.parseObject
    rw [SdkTts.formValue_context]
    rfl

/-- The service answers the adapter's exchange for a token it issued and still
    accepts, and a scope among the token's. -/
theorem narrowing_succeeds (env : Tts.Env) (h : Tts.Handler) (marshal : Object → String)
    (tok scope : String) (claims : Token.Claims) (htok : tok ≠ "") (hscope : scope ≠ "")
    (v : Tts.LocalVerifier) (hv : h.verifier = some v)
    (hver : v.verify env.toEnv h.keyManager tok = .ok claims)
    (hsub : Tts.isScopeSubset scope claims.scope = true) (hissued : Tts.Issued env.jwt h tok)
    (hsigns : Signs env h (narrowedClaims h claims tok scope)) :
    ∃ narrowed, narrowed ≠ "" ∧
      SdkTts.exchange (SdkTts.overHandler env h) marshal (narrowing tok scope) = .ok narrowed := by
  rcases hsigns with ⟨narrowed, hne, hsigned⟩
  rcases hissued with ⟨c, hc, _, hiss, haud, hreq⟩
  have hcs : c = claims :=
    Option.some.inj (hc.symm.trans (Tts.verify_ok env.toEnv v h.keyManager tok claims hver))
  rw [hcs] at hiss haud hreq
  -- What signing requires of the narrowed claims it required of the token.
  have hrequired : Token.validateRequired (narrowedClaims h claims tok scope) = .ok () := by
    unfold Token.validateRequired at hreq ⊢
    simp only [ite_error_eq_ok, hiss, haud] at hreq
    rcases hreq with ⟨hiss0, haud0, hsub0, _, _, _⟩
    have hwl : ("unknown" : String) ≠ "" := by decide
    simp only [narrowedClaims, Tts.Handler.replacementClaims, SdkTts.readRequest, narrowing, hiss0,
      haud0, hsub0, hscope, hwl, if_false]
  have htype : Token.subjectTokenTypeTxnToken ≠ "" := by decide
  have hsent : SdkTts.sentType (narrowing tok scope) = Token.subjectTokenTypeTxnToken :=
    if_neg htype
  have hserve : (h.serveHTTP env (SdkTts.exchangeHttp marshal (narrowing tok scope))).1
      = .token narrowed Token.requestedTokenType "N_A" := by
    rw [SdkTts.serveHTTP_exchangeHttp env h marshal _ none none
      (parseRequest_narrowing env.unmarshal marshal tok scope htok hscope), if_pos hsent]
    unfold Tts.Handler.handleReplacement
    rw [SdkTts.identifyWorkload_exchangeHttp]
    have hpresent : (SdkTts.readRequest (narrowing tok scope) none none).subjectToken = tok := rfl
    have hasked : (SdkTts.readRequest (narrowing tok scope) none none).scope = scope := rfl
    simp only [hv, hpresent, hver, hasked, hsub, Bool.true_eq_false, if_false]
    rw [Tts.signAndRespond_eq_token]
    exact ⟨(Token.new_eq_ok _ _ _ _ _ _ _ _).mpr ⟨hrequired, hsigned⟩, rfl, rfl⟩
  refine ⟨narrowed, hne, ?_⟩
  have htok' : (narrowing tok scope).subjectToken = tok := rfl
  have hscope' : (narrowing tok scope).scope = scope := rfl
  unfold SdkTts.exchange SdkTts.overHandler
  simp only [hserve, htok', hscope', htok, hscope, hne, if_false]

/-- Of a token the service issued and still accepts, the adapter's exchange for a
    scope among the token's gives one with that scope in the same
    transaction. -/
theorem narrowing_issued (env : Tts.Env) (svc : Tts.Service)
    (hsvc : (Tts.service env.jwt).Reachable svc) (g : Tts.Grant) (hg : g ∈ svc.grants)
    (marshal : Object → String) (claims : Token.Claims) (hne : g.token ≠ "")
    (hclaims : Token.claimsOf env.jwt g.token = some claims) (scope : String) (hscope : scope ≠ "")
    (hsub : Tts.isScopeSubset scope claims.scope = true) (v : Tts.LocalVerifier)
    (hv : svc.handler.verifier = some v)
    (hlocal : ∃ c, v.verify env.toEnv svc.handler.keyManager g.token = .ok c)
    (hsigns : Signs env svc.handler (narrowedClaims svc.handler claims g.token scope)) :
    ∃ tok c, tok ≠ "" ∧
      SdkTts.exchange (SdkTts.overHandler env svc.handler) marshal (narrowing g.token scope)
        = .ok tok ∧
      Token.claimsOf env.jwt tok = some c ∧ c.scope = scope ∧ Tts.SameTransaction claims c := by
  have hissued := Tts.issued_reachable env.jwt svc hsvc g hg
  have htxn : claims.transactionID ≠ "" := by
    rcases hissued with ⟨c₀, hc₀, htxn₀, _⟩
    rw [← Option.some.inj (hc₀.symm.trans hclaims)]
    exact htxn₀
  -- Both verifiers read the same claims.
  rcases hlocal with ⟨c', hlocal⟩
  have hc' : c' = claims := Option.some.inj
    ((Tts.verify_ok env.toEnv v _ g.token c' hlocal).symm.trans hclaims)
  rw [hc'] at hlocal
  rcases narrowing_succeeds env svc.handler marshal g.token scope claims hne hscope v hv hlocal
    hsub hissued hsigns with ⟨tok, htokne, hexchange⟩
  rcases narrowed_claims env svc.handler marshal _ _ tok claims hclaims hexchange with
    ⟨c, hc, hcscope, _, hsame⟩
  exact ⟨tok, c, htokne, hexchange, hc, hcscope, hsame htxn⟩

/-- Narrowing gives exactly the required scope and is never refused for it. Of
    every token the service issued and still accepts and that passed the rules:
    if some rule asks for a narrower token, the exchange sent for the first such
    rule passes the service's subset test, and the token that comes back is
    forwarded, with the rule's required scope as its only scope and the
    transaction, subject and contexts of the original; otherwise the original is
    forwarded, and has exactly the required scope of every rule that asks for
    narrowing. -/
theorem auto_narrowing (u : Unicode) (S : SortSlice)
    (newEnv : Except String (Cel.Env Celverify.Context)) (env : Tts.Env) (svc : Tts.Service)
    (hsvc : (Tts.service env.jwt).Reachable svc) (g : Tts.Grant) (hg : g ∈ svc.grants)
    (marshal : Object → String) (s : Server) (hw : Wired s env svc.handler marshal)
    (rules : List VerificationRule) (req : HttpRequest)
    (htok : getHeader u req.headers Token.headerName = g.token)
    (hexcl : ¬∃ r ∈ rules, Excludes u req r) (claims : Token.Claims)
    (hver : s.verifier g.token = .ok claims)
    (hpass : (s.setVerificationRules u S newEnv rules).checkVerificationRules u claims req = .ok ())
    (v : Tts.LocalVerifier) (hv : svc.handler.verifier = some v)
    (hlocal : ∃ c, v.verify env.toEnv svc.handler.keyManager g.token = .ok c)
    (hsigns : ∀ r ∈ rules, Narrows claims r →
      Signs env svc.handler (narrowedClaims svc.handler claims g.token r.requiredScope)) :
    ((∃ r ∈ rules, Narrows claims r) →
      ∃ a ∈ rules, Narrows claims a ∧
        (∀ b ∈ rules, Narrows claims b → verificationLess b a = false) ∧
        Tts.isScopeSubset a.requiredScope claims.scope = true ∧
        ∃ tok c, SdkTts.exchange (SdkTts.overHandler env svc.handler) marshal
            (narrowing g.token a.requiredScope) = .ok tok ∧
          (s.setVerificationRules u S newEnv rules).check u { http := some req }
            = allowedWithHeaders [(Token.headerName, tok)] ∧
          Token.claimsOf env.jwt tok = some c ∧
          (∀ x, x ∈ fields c.scope ↔ x = a.requiredScope) ∧ Tts.SameTransaction claims c) ∧
    ((¬∃ r ∈ rules, Narrows claims r) →
      (s.setVerificationRules u S newEnv rules).check u { http := some req } = allowed ∧
      ∀ r ∈ rules, r.autoNarrow = true → r.requiredScope ≠ "" →
        ∀ x, x ∈ fields claims.scope ↔ x = r.requiredScope) := by
  rcases wired_claims s env svc.handler marshal hw g.token claims hver with ⟨hne, hclaims⟩
  have hsat := (checkVerificationRules_setVerificationRules u newEnv S s rules claims req).mp hpass
  have hnotexcl : (s.setVerificationRules u S newEnv rules).isExcluded u req.path req.method
      = false := by
    rw [← Bool.not_eq_true, isExcluded_setVerificationRules]
    exact hexcl
  have hcheck := check_passed u (s.setVerificationRules u S newEnv rules) req claims hnotexcl
    (htok ▸ hne) (htok ▸ hver) hpass
  rw [htok] at hcheck
  have hsome := narrowingRule_isSome u S newEnv s rules claims
  constructor
  · intro hex
    rcases Option.isSome_iff_exists.mp (hsome.mpr hex) with ⟨a, hfound⟩
    rcases narrowingRule_eq_some u S newEnv s rules claims a hfound with ⟨ha, hna, hfirst⟩
    -- The rules passed, so the scope that is asked for is one the token has.
    have hmem : a.requiredScope ∈ fields claims.scope := (hsat a ha).scope.resolve_left hna.2.1
    have hsub := isScopeSubset_of_mem a.requiredScope claims.scope hmem
    rcases narrowing_issued env svc hsvc g hg marshal claims hne hclaims a.requiredScope hna.2.1
      hsub v hv hlocal (hsigns a ha hna) with ⟨tok, c, htokne, hexchange, hc, hscope, hsame⟩
    refine ⟨a, ha, hna, hfirst, hsub, tok, c, hexchange, ?_, hc, fun x => ?_, hsame⟩
    · have hnarrow := autoNarrow_some (s.setVerificationRules u S newEnv rules) env svc.handler
        marshal hw.client claims g.token tok a hfound hexchange
      rw [hcheck, hnarrow, if_pos htokne]
    · rw [hscope, fields_of_mem_fields _ _ hmem, List.mem_singleton]
  · intro hno
    have hnone : Server.narrowingRule claims
        (s.setVerificationRules u S newEnv rules).loadVerificationRules = none := by
      rw [← Option.not_isSome_iff_eq_none, hsome]
      exact hno
    refine ⟨?_, fun r hr hauto hr0 x => ?_⟩
    · have hkept := autoNarrow_none (s.setVerificationRules u S newEnv rules) env svc.handler
        marshal hw.client claims g.token hnone
      rw [hcheck, hkept, if_neg (fun h => h rfl)]
    · have hmem : r.requiredScope ∈ fields claims.scope := (hsat r hr).scope.resolve_left hr0
      rw [scope_of_not_narrows claims r hauto hr0 hmem (fun hn => hno ⟨r, hr, hn⟩),
        List.mem_singleton]

section Sample

/-- A rule that requires a scope. -/
def scopeRule (name requiredScope : String) (autoNarrow : Bool) : VerificationRule where
  nameSpace := "shop"
  name := name
  serviceName := name
  requiredScope := requiredScope
  requiredTctxFields := []
  celRules := []
  excludedEndpoints := []
  autoNarrow := autoNarrow

/-- A verifier that has the sample service's key. -/
def sampleVerifier : Verify.Verifier where
  jwksURL := "tts/jwks"
  audience := "kontxt"
  keys := Finmap.singleton "k1" Tts.sampleKey.publicKey

/-- An adapter connected to a service in the sample surroundings. -/
def sampleAdapter (h : Tts.Handler) : Server where
  verifier := sampleVerifier.verify Tts.sampleEnv.toEnv
  verificationRules := none
  ttsClient := some (SdkTts.narrowingClient Tts.sampleEnv h (fun _ => "null"))

theorem sampleAdapter_wired (h : Tts.Handler) :
    Wired (sampleAdapter h) Tts.sampleEnv h (fun _ => "null") where
  verifier := ⟨sampleVerifier, Tts.sampleEnv.toEnv, rfl, rfl⟩
  client := rfl

/-- A request that carries the sample service's token for `read write`. -/
def rootRequest : HttpRequest where
  path := "/orders"
  method := "GET"
  headers := ⟨[⟨"txn-token", "root"⟩], List.nodup_singleton _⟩

/-- A rule that narrows to `read` and one that requires nothing agree. -/
theorem narrowed_passes_iff_sample :
    ((sampleAdapter Tts.sampleHandler).setVerificationRules Unicode.ascii SortSlice.insertion noCel
      [scopeRule "a" "read" true, scopeRule "b" "" false]).check Unicode.ascii
        { http := some rootRequest } = allowedWithHeaders [(Token.headerName, "child")] ∧
    ∃ c, Token.claimsOf Tts.sampleEnv.jwt "child" = some c ∧
      ∀ r ∈ [scopeRule "a" "read" true, scopeRule "b" "" false],
        (r.requiredScope = "" ∨ scopeContains c.scope r.requiredScope = true) ∧
        ∀ field ∈ r.requiredTctxFields, hasKey c.transactionContext field = true := by
  have hcheck : ((sampleAdapter Tts.sampleHandler).setVerificationRules Unicode.ascii
      SortSlice.insertion noCel [scopeRule "a" "read" true, scopeRule "b" "" false]).check
        Unicode.ascii { http := some rootRequest }
          = allowedWithHeaders [(Token.headerName, "child")] := by
    decide +kernel
  rcases narrowed_passes_iff Unicode.ascii SortSlice.insertion noCel _ Tts.sampleEnv
    Tts.sampleHandler _ (sampleAdapter_wired Tts.sampleHandler) _ rootRequest "child" hcheck with
    ⟨c, hc, hiff⟩
  exact ⟨hcheck, c, hc, hiff.mpr (by decide)⟩

/-- A token for `read write` passes a rule for each of the two scopes, and is
    narrowed to the one the first rule requires. -/
theorem narrowed_rejected :
    ¬∀ (rules : List VerificationRule) (req : HttpRequest) (tok : String) (c : Token.Claims),
      ((sampleAdapter Tts.sampleHandler).setVerificationRules Unicode.ascii SortSlice.insertion
        noCel rules).check Unicode.ascii { http := some req }
          = allowedWithHeaders [(Token.headerName, tok)] →
      Token.claimsOf Tts.sampleEnv.jwt tok = some c →
      ∀ r ∈ rules, r.requiredScope = "" ∨ scopeContains c.scope r.requiredScope = true := by
  intro hall
  have hwrite := hall [scopeRule "a" "read" true, scopeRule "b" "write" false] rootRequest "child"
    (Token.signedClaims (Tts.sampleClaims "read") 0 0 "") (by decide) (by decide)
    (scopeRule "b" "write" false) (List.mem_cons_of_mem _ (List.mem_singleton.mpr rfl))
  exact absurd hwrite (by decide +kernel)

theorem sampleRoot_service : (Tts.service Tts.sampleEnv.jwt).Reachable Tts.sampleRoot := by
  have hinit : (Tts.service Tts.sampleEnv.jwt).init
      { handler := Tts.sampleHandler, grants := [] } := rfl
  exact (System.Reachable.init _ hinit).next _ _
    (Tts.service_exchange _ Tts.sampleEnv Tts.sampleIssue)

/-- A rule that asks for narrowing, after one that does not. -/
def sampleRules : List VerificationRule :=
  [scopeRule "b" "write" false, scopeRule "a" "read" true]

/-- The token for `read write` is narrowed to `read`. -/
theorem auto_narrowing_sample :
    ∃ a ∈ sampleRules, Narrows (Tts.sampleClaims "read write") a ∧
      ∃ tok c, ((sampleAdapter Tts.sampleRoot.handler).setVerificationRules Unicode.ascii
          SortSlice.insertion noCel sampleRules).check Unicode.ascii { http := some rootRequest }
            = allowedWithHeaders [(Token.headerName, tok)] ∧
        Token.claimsOf Tts.sampleEnv.jwt tok = some c ∧
        (∀ x, x ∈ fields c.scope ↔ x = a.requiredScope) ∧
        Tts.SameTransaction (Tts.sampleClaims "read write") c := by
  have hgrant : ({ token := "root", parent := none, rules := [] } : Tts.Grant) ∈
      Tts.sampleRoot.grants := by
    rw [Tts.sampleRoot_grants]
    exact List.mem_singleton.mpr rfl
  have hsigns : ∀ r ∈ sampleRules, Narrows (Tts.sampleClaims "read write") r →
      Signs Tts.sampleEnv Tts.sampleRoot.handler (narrowedClaims Tts.sampleRoot.handler
        (Tts.sampleClaims "read write") "root" r.requiredScope) := by
    intro r hr hnarrows
    rcases List.mem_cons.mp hr with rfl | hr
    · exact absurd hnarrows (by decide)
    · rw [List.mem_singleton.mp hr]
      exact ⟨"child", by decide, by decide⟩
  have hexcl : ¬∃ r ∈ sampleRules, Excludes Unicode.ascii rootRequest r := by
    unfold Excludes
    decide
  have hauto := auto_narrowing Unicode.ascii SortSlice.insertion noCel Tts.sampleEnv
    Tts.sampleRoot sampleRoot_service _ hgrant (fun _ => "null")
    (sampleAdapter Tts.sampleRoot.handler) (sampleAdapter_wired _) sampleRules rootRequest
    (by decide +kernel) hexcl (Tts.sampleClaims "read write") (by decide)
    (by decide) { audience := "kontxt" } (by decide)
    ⟨Tts.sampleClaims "read write", by decide +kernel⟩ hsigns
  rcases hauto.1 ⟨scopeRule "a" "read" true, List.mem_cons_of_mem _ (List.mem_singleton.mpr rfl),
    by decide⟩ with ⟨a, ha, hna, _, _, tok, c, _, hcheck, hc, hscope, hsame⟩
  exact ⟨a, ha, hna, tok, c, hcheck, hc, hscope, hsame⟩

end Sample

end ExtAuth

end Kontxt
