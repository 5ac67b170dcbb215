import Kontxt.Lib.System
import Kontxt.Theory.Exchange

/-!
# Delegation Chains

A token service over time: exchanges, key rotations and rule changes in any
order, with a record of every token that came out. `service` is the system
with all of these steps. A delegation is a run of it that starts with one new
issuance and in which every exchange presents a token obtained earlier, so
that its grants form a tree under the first token.

Along a delegation authority can only shrink. Scopes shrink because a
replacement's scope was tested against the claims of the token it replaces,
and those claims are the ones that were signed. The transaction, the subject
and both contexts stay what they were, which for the transaction needs one
fact about the root: its identifier is not empty, since an empty one would be
replaced by a fresh identifier at every exchange.

## Main definitions

* `Tts.Grant`: A token that came out of an exchange.
* `Tts.Service`: A handler and the tokens it has issued.
* `Tts.service`: The token service as a transition system.
* `Tts.delegation`: The runs below one root token.
* `Tts.ScopesWithin`: One token's scopes are among another's.
* `Tts.SameTransaction`: Two tokens belong to one transaction.
* `Tts.Issued`: A token the handler could have issued.

## Theorems

* `Tts.replace_within`: A replacement is within the token it replaces.
* `Tts.delegation_inv`: Every grant is within the root.
* `Tts.delegation_shrinks`: Delegation chains only shrink.
* `Tts.issued_reachable`: Tokens in circulation have what signing requires.
-/

namespace Kontxt

namespace Tts

open Go Lib

/-- A token that came out of an exchange: the token it replaced, if any, and
    the rules that were loaded at the time. -/
structure Grant where
  token : String
  parent : Option String
  rules : List IssuanceRule

/-- A handler and the tokens it has issued, latest first. -/
structure Service where
  handler : Handler
  grants : List Grant

/-- What can happen to a token service. -/
inductive Event where
  | exchange (env : Env) (r : Request)
  | rotate (entry : Keys.KeyEntry)
  | setIssuanceRules (rules : List IssuanceRule)

/-- The token a replacement request presents. -/
def presented (r : Request) : Option String :=
  match r.form with
  | .error _ => none
  | .ok form =>
    if formValue form "subject_token_type" = Token.subjectTokenTypeTxnToken then
      some (formValue form "subject_token")
    else none

/-- Serve a request and record the token it is answered with. -/
def Service.serve (s : Service) (env : Env) (r : Request) : Service where
  handler := (s.handler.serveHTTP env r).2
  grants :=
    match (s.handler.serveHTTP env r).1 with
    | .token tok _ _ =>
      { token := tok, parent := presented r, rules := s.handler.loadIssuanceRules } :: s.grants
    | _ => s.grants

/-- The service after an event. -/
def Service.after (s : Service) : Event → Service
  | .exchange env r => s.serve env r
  | .rotate entry =>
    { s with handler := { s.handler with keyManager := s.handler.keyManager.rotate entry } }
  | .setIssuanceRules rules => { s with handler := s.handler.setIssuanceRules rules }

/-- An event takes place under the JWT library `J`. -/
def Event.Under (J : JwtLib) : Event → Prop
  | .exchange env _ => env.jwt = J
  | _ => True

/-- The token service: any handler to start with, and any events. -/
def service (J : JwtLib) : System Service Event where
  init := fun s => s.grants = []
  step := fun s e s' => e.Under J ∧ s' = s.after e

theorem service_exchange (s : Service) (env : Env) (r : Request) :
    (service env.jwt).step s (.exchange env r) (s.serve env r) :=
  ⟨rfl, rfl⟩

/-- An exchange presents a token obtained earlier; other events are free. -/
def Presents (s : Service) : Event → Prop
  | .exchange _ r => ∃ g ∈ s.grants, presented r = some g.token
  | _ => True

/-- The runs that start with the new issuance of `root` and go on with
    replacements of tokens obtained on the way. -/
def delegation (J : JwtLib) (root : String) : System Service Event where
  init := fun s => ∃ (h : Handler) (env : Env) (r : Request), env.jwt = J ∧ presented r = none ∧
    s = ({ handler := h, grants := [] } : Service).serve env r ∧
    s.grants = [{ token := root, parent := none, rules := h.loadIssuanceRules }]
  step := ((service J).restrict Presents).step

/-- The scopes of `c` are among those of `p`. -/
def ScopesWithin (c p : Token.Claims) : Prop :=
  ∀ x ∈ fields c.scope, x ∈ fields p.scope

/-- `c` belongs to the transaction of `c₀`, with its subject and contexts. -/
structure SameTransaction (c₀ c : Token.Claims) : Prop where
  txn : c.transactionID = c₀.transactionID
  sub : c.subject = c₀.subject
  tctx : c.transactionContext = c₀.transactionContext
  rctx : c.requesterContext = c₀.requesterContext

/-- A grant is within the root claims and within the token it replaced. -/
structure Within (J : JwtLib) (c₀ : Token.Claims) (g : Grant) (c : Token.Claims) : Prop where
  claims : Token.claimsOf J g.token = some c
  scopes : ScopesWithin c c₀
  same : SameTransaction c₀ c
  parent : ∀ p, g.parent = some p → ∃ pc, Token.claimsOf J p = some pc ∧ ScopesWithin c pc

/-- Every grant is within the root, whose transaction identifier is not
    empty. -/
def DelegationInv (J : JwtLib) (root : String) (s : Service) : Prop :=
  ∃ c₀, Token.claimsOf J root = some c₀ ∧ c₀.transactionID ≠ "" ∧
    ∀ g ∈ s.grants, ∃ c, Within J c₀ g c

/-- A request answered by the replacement path presents a token. -/
theorem presented_replace (env : Env) (h : Handler) (r : Request)
    (form : List (String × String)) (req : TokenExchangeRequest) (tok : String)
    (hrep : Replace env h r form req tok) : presented r = some req.subjectToken := by
  rcases parseRequest_ok _ _ _ hrep.parsed with ⟨_, hsub, hty⟩
  have htype : formValue form "subject_token_type" = Token.subjectTokenTypeTxnToken := by
    rw [← hty]
    exact hrep.txn
  unfold presented
  rw [hrep.form_ok]
  simp only [htype, if_true, hsub]

/-- A request answered by the new-issuance path presents none. -/
theorem presented_newIssue (env : Env) (h : Handler) (r : Request)
    (form : List (String × String)) (req : TokenExchangeRequest) (tok : String)
    (hnew : NewIssue env h r form req tok) : presented r = none := by
  rcases parseRequest_ok _ _ _ hnew.parsed with ⟨_, _, hty⟩
  have htype : formValue form "subject_token_type" ≠ Token.subjectTokenTypeTxnToken := by
    rw [← hty]
    exact hnew.not_txn
  unfold presented
  rw [hnew.form_ok]
  simp only [htype, if_false]

/-- A request that presents a token is answered, if with a token at all, by the
    replacement path. -/
theorem replace_of_presented (env : Env) (h : Handler) (r : Request) (p tok ity ty : String)
    (hp : presented r = some p) (hresp : (h.serveHTTP env r).1 = .token tok ity ty) :
    ∃ form req, Replace env h r form req tok ∧ req.subjectToken = p ∧
      req.scope = formValue form "scope" := by
  rcases serveHTTP_token env h r tok ity ty hresp with ⟨form, req, hnew | hrep⟩
  · rw [presented_newIssue env h r form req tok hnew] at hp
    cases hp
  · rw [presented_replace env h r form req tok hrep] at hp
    exact ⟨form, req, hrep, Option.some.inj hp, (parseRequest_ok _ _ _ hrep.parsed).1⟩

/-- A replacement is within the token it replaces: its scopes are among that
    token's, and everything that must not change is unchanged. -/
theorem replace_within (env : Env) (h : Handler) (r : Request) (form : List (String × String))
    (req : TokenExchangeRequest) (tok : String) (hrep : Replace env h r form req tok)
    (existing : Token.Claims)
    (hex : Token.claimsOf env.jwt req.subjectToken = some existing)
    (htxn : existing.transactionID ≠ "") :
    ∃ c, Token.claimsOf env.jwt tok = some c ∧ ScopesWithin c existing ∧
      SameTransaction existing c := by
  rcases hrep.replaced with ⟨existing', hex', hsub, hclaims⟩
  -- The handler verified the presented token itself, so these are its claims.
  have hsame : existing' = existing := by
    rw [hex] at hex'
    exact (Option.some.inj hex').symm
  rw [hsame] at hsub hclaims
  refine ⟨_, hclaims, ?_, ?_, rfl, rfl, rfl⟩
  · exact (isScopeSubset_iff req.scope existing.scope).mp hsub
  · -- The identifier would only be replaced if it were empty.
    simp only [Token.signedClaims, Handler.replacementClaims, htxn, if_false]

/-- A request that presents no token is answered, if with a token at all, by
    the new-issuance path. -/
theorem newIssue_of_not_presented (env : Env) (h : Handler) (r : Request) (tok ity ty : String)
    (hp : presented r = none) (hresp : (h.serveHTTP env r).1 = .token tok ity ty) :
    ∃ form req, NewIssue env h r form req tok := by
  rcases serveHTTP_token env h r tok ity ty hresp with ⟨form, req, hnew | hrep⟩
  · exact ⟨form, req, hnew⟩
  · rw [presented_replace env h r form req tok hrep] at hp
    cases hp

/-- A new token carries a transaction identifier. -/
theorem newIssue_txn_ne (env : Env) (h : Handler) (r : Request) (form : List (String × String))
    (req : TokenExchangeRequest) (tok : String) (hnew : NewIssue env h r form req tok) :
    ∃ c, Token.claimsOf env.jwt tok = some c ∧ c.transactionID ≠ "" := by
  rcases hnew.issued with ⟨info, _, _, hclaims⟩
  refine ⟨_, hclaims, ?_⟩
  -- The handler leaves the identifier empty and the signer generates one.
  simp only [Token.signedClaims, Handler.newClaims, if_true]
  exact env.uuid_ne

/-- The grants after serving a request: those before, and at most one more. -/
theorem mem_grants_serve (s : Service) (env : Env) (r : Request) (g : Grant)
    (hg : g ∈ (s.serve env r).grants) :
    g ∈ s.grants ∨ ((∃ ity ty, (s.handler.serveHTTP env r).1 = .token g.token ity ty) ∧
      g.parent = presented r ∧ g.rules = s.handler.loadIssuanceRules) := by
  unfold Service.serve at hg
  cases hresp : (s.handler.serveHTTP env r).1 with
  | token tok ity ty =>
      rw [hresp] at hg
      rcases List.mem_cons.mp hg with rfl | hmem
      · exact Or.inr ⟨⟨ity, ty, rfl⟩, rfl, rfl⟩
      · exact Or.inl hmem
  | error status errCode description =>
      rw [hresp] at hg
      exact Or.inl hg
  | panic =>
      rw [hresp] at hg
      exact Or.inl hg

theorem delegationInv_init (J : JwtLib) (root : String) (s : Service)
    (hs : (delegation J root).init s) : DelegationInv J root s := by
  rcases hs with ⟨h, env, r, hJ, hp, rfl, hgrants⟩
  have hroot : ({ token := root, parent := none, rules := h.loadIssuanceRules } : Grant) ∈
      (Service.serve { handler := h, grants := [] } env r).grants := by
    rw [hgrants]
    exact List.mem_singleton.mpr rfl
  rcases mem_grants_serve _ env r _ hroot with hmem | ⟨⟨ity, ty, hresp⟩, _, _⟩
  · exact absurd hmem List.not_mem_nil
  · rcases newIssue_of_not_presented env h r root ity ty hp hresp with ⟨form, req, hnew⟩
    rcases newIssue_txn_ne env h r form req root hnew with ⟨c₀, hc₀, htxn⟩
    rw [hJ] at hc₀
    refine ⟨c₀, hc₀, htxn, fun g hg => ?_⟩
    rw [hgrants, List.mem_singleton] at hg
    rw [hg]
    exact ⟨c₀, hc₀, fun x hx => hx, ⟨rfl, rfl, rfl, rfl⟩, fun p hp => by cases hp⟩

theorem delegationInv_exchange (J : JwtLib) (root : String) (s : Service) (env : Env)
    (r : Request) (hs : DelegationInv J root s) (hJ : env.jwt = J)
    (hpres : Presents s (.exchange env r)) : DelegationInv J root (s.serve env r) := by
  rcases hs with ⟨c₀, hc₀, htxn, hall⟩
  refine ⟨c₀, hc₀, htxn, fun g hg => ?_⟩
  rcases mem_grants_serve s env r g hg with hmem | ⟨⟨ity, ty, hresp⟩, hparent, _⟩
  · exact hall g hmem
  · -- The new grant replaces some earlier one, and inherits its place under the root.
    rcases hpres with ⟨g', hg', hp⟩
    rcases hall g' hg' with ⟨c', hw'⟩
    rcases replace_of_presented env s.handler r g'.token g.token ity ty hp hresp with
      ⟨form, req, hrep, hsub, _⟩
    have hex : Token.claimsOf env.jwt req.subjectToken = some c' := by
      rw [hsub, hJ]
      exact hw'.claims
    -- The parent's identifier is the root's, which the signer would otherwise
    -- replace.
    have htxn' : c'.transactionID ≠ "" := by
      rw [hw'.same.txn]
      exact htxn
    rcases replace_within env s.handler r form req g.token hrep c' hex htxn' with
      ⟨c, hc, hscope, hsame⟩
    rw [hJ] at hc
    refine ⟨c, hc, fun x hx => hw'.scopes x (hscope x hx), ?_, fun p hgp => ?_⟩
    · exact ⟨hsame.txn.trans hw'.same.txn, hsame.sub.trans hw'.same.sub,
        hsame.tctx.trans hw'.same.tctx, hsame.rctx.trans hw'.same.rctx⟩
    · rw [hparent, hp] at hgp
      rw [← Option.some.inj hgp]
      exact ⟨c', hw'.claims, hscope⟩

/-- Every grant of a delegation is within its root. -/
theorem delegation_inv (J : JwtLib) (root : String) (s : Service)
    (hr : (delegation J root).Reachable s) : DelegationInv J root s := by
  refine System.invariant (DelegationInv J root) (delegationInv_init J root) ?_ s hr
  intro s e s' hs hstep
  rcases hstep with ⟨hpres, hunder, rfl⟩
  -- Rotations and rule changes issue nothing.
  cases e with
  | exchange env r => exact delegationInv_exchange J root s env r hs hunder hpres
  | rotate entry => exact hs
  | setIssuanceRules rules => exact hs

/-- Delegation chains only shrink. In every state of a run that starts with the
    issuance of `root` and goes on with replacements of tokens obtained on the
    way, every token's scopes are among those of the token it replaced and of
    the root, and its transaction, subject and contexts are the root's; and a
    request for a scope beyond the presented token's is answered with no token. -/
theorem delegation_shrinks (J : JwtLib) (root : String) (s : Service)
    (hr : (delegation J root).Reachable s) :
    (∃ c₀, Token.claimsOf J root = some c₀ ∧
      ∀ g ∈ s.grants, ∃ c, Token.claimsOf J g.token = some c ∧ ScopesWithin c c₀ ∧
        SameTransaction c₀ c ∧
        ∀ p, g.parent = some p → ∃ pc, Token.claimsOf J p = some pc ∧ ScopesWithin c pc) ∧
    ∀ (env : Env) (r : Request) (form : List (String × String)), env.jwt = J →
      r.form = .ok form → ∀ g ∈ s.grants, presented r = some g.token →
      ∀ pc, Token.claimsOf J g.token = some pc →
      ¬(∀ x ∈ fields (formValue form "scope"), x ∈ fields pc.scope) →
      ∀ tok ity ty, (s.handler.serveHTTP env r).1 ≠ .token tok ity ty := by
  constructor
  · rcases delegation_inv J root s hr with ⟨c₀, hc₀, _, hall⟩
    refine ⟨c₀, hc₀, fun g hg => ?_⟩
    rcases hall g hg with ⟨c, hw⟩
    exact ⟨c, hw.claims, hw.scopes, hw.same, hw.parent⟩
  · intro env r form hJ hform g _ hp pc hpc hnot tok ity ty hresp
    rcases replace_of_presented env s.handler r g.token tok ity ty hp hresp with
      ⟨form', req, hrep, hsub, hscope⟩
    rcases hrep.replaced with ⟨existing, hex, hsubset, _⟩
    rw [hsub, hJ, hpc] at hex
    have hforms : form' = form := by
      have hf := hrep.form_ok
      rw [hform] at hf
      exact (Except.ok.inj hf).symm
    -- A token would mean that the subset test was passed.
    rw [isScopeSubset_iff, hscope, hforms, ← Option.some.inj hex] at hsubset
    exact hnot hsubset

/-- A token the handler could have issued: its claims name the handler's issuer
    and trust domain, belong to a transaction, and have what signing requires. -/
def Issued (J : JwtLib) (h : Handler) (tok : String) : Prop :=
  ∃ c, Token.claimsOf J tok = some c ∧ c.transactionID ≠ "" ∧ c.issuer = h.issuer ∧
    c.audience = h.trustDomain ∧ Token.validateRequired c = .ok ()

theorem signAndRespond_issued (env : Env) (h : Handler) (claims : Token.Claims)
    (hiss : claims.issuer = h.issuer) (haud : claims.audience = h.trustDomain)
    (tok ity ty : String) (hresp : h.signAndRespond env claims = .token tok ity ty) :
    Issued env.jwt h tok := by
  have hnew := ((signAndRespond_eq_token env h claims tok ity ty).mp hresp).1
  refine ⟨_, signAndRespond_token env h claims tok ity ty hresp, ?_, hiss, haud, ?_⟩
  · -- An empty identifier is replaced by one that is not.
    unfold Token.signedClaims
    by_cases htxn : claims.transactionID = ""
    · simp only [htxn, if_true]
      exact env.uuid_ne
    · simp only [htxn, if_false, ne_eq, not_false_eq_true]
  · exact ((Token.new_eq_ok _ _ _ _ _ _ _ _).mp hnew).1

/-- Whatever path a token came from, the handler issued it. -/
theorem serveHTTP_issued (env : Env) (h : Handler) (r : Request) (tok ity ty : String)
    (hresp : (h.serveHTTP env r).1 = .token tok ity ty) : Issued env.jwt h tok := by
  rcases serveHTTP_paths env h r tok ity ty hresp with ⟨form, req, _, _, hpath⟩
  rcases hpath with ⟨_, hissue⟩ | ⟨_, hreplace⟩
  · rcases issue_signs env h r req tok ity ty hissue with ⟨info, _, _, hsigned⟩
    exact signAndRespond_issued env h _ rfl rfl tok ity ty hsigned
  · rcases handleReplacement_signs env h r req tok ity ty hreplace with ⟨existing, _, _, hsigned⟩
    exact signAndRespond_issued env h _ rfl rfl tok ity ty hsigned

/-- Every token in circulation was issued by the handler as it is now, whose
    issuer and trust domain never change. -/
theorem issued_reachable (J : JwtLib) (s : Service) (hr : (service J).Reachable s) :
    ∀ g ∈ s.grants, Issued J s.handler g.token := by
  refine System.invariant (fun s => ∀ g ∈ s.grants, Issued J s.handler g.token) ?_ ?_ s hr
  · intro s hs g hg
    rw [hs] at hg
    exact absurd hg List.not_mem_nil
  · intro s e s' hs hstep g hg
    rcases hstep with ⟨hunder, rfl⟩
    cases e with
    | exchange env r =>
        have hJ : env.jwt = J := hunder
        rcases serveHTTP_handler env s.handler r with ⟨router, hrouter⟩
        have hkept : Issued J s.handler g.token := by
          rcases mem_grants_serve s env r g hg with hmem | ⟨⟨ity, ty, hresp⟩, _, _⟩
          · exact hs g hmem
          · rw [← hJ]
            exact serveHTTP_issued env s.handler r g.token ity ty hresp
        have hhandler : (s.after (.exchange env r)).handler = { s.handler with router := router } :=
          hrouter
        rw [hhandler]
        exact hkept
    | rotate entry => exact hs g hg
    | setIssuanceRules rules => exact hs g hg

/-- The sample service after issuing its root token. -/
def sampleRoot : Service :=
  ({ handler := sampleHandler, grants := [] } : Service).serve sampleEnv sampleIssue

/-- The sample service after replacing it as well. -/
def sampleRun : Service :=
  sampleRoot.serve sampleEnv sampleReplace

theorem sampleRoot_grants :
    sampleRoot.grants = [{ token := "root", parent := none, rules := [] }] := by
  unfold sampleRoot Service.serve
  simp only [sampleIssue_token]
  rfl

theorem sampleRun_reachable : (delegation sampleEnv.jwt "root").Reachable sampleRun := by
  have hinit : (delegation sampleEnv.jwt "root").init sampleRoot :=
    ⟨sampleHandler, sampleEnv, sampleIssue, rfl, by decide, rfl, sampleRoot_grants⟩
  have hpresents : Presents sampleRoot (.exchange sampleEnv sampleReplace) := by
    refine ⟨{ token := "root", parent := none, rules := [] }, ?_, by decide⟩
    rw [sampleRoot_grants]
    exact List.mem_singleton.mpr rfl
  exact System.Reachable.step sampleRoot (.exchange sampleEnv sampleReplace) sampleRun
    (System.Reachable.init sampleRoot hinit)
    ⟨hpresents, service_exchange sampleRoot sampleEnv sampleReplace⟩

/-- The run has issued two tokens, and the second is within the first. -/
theorem delegation_shrinks_sample :
    sampleRun.grants.map Grant.token = ["child", "root"] ∧
    ∃ c₀, Token.claimsOf sampleEnv.jwt "root" = some c₀ ∧
      ∀ g ∈ sampleRun.grants, ∃ c, Token.claimsOf sampleEnv.jwt g.token = some c ∧
        ScopesWithin c c₀ ∧ SameTransaction c₀ c ∧
        ∀ p, g.parent = some p →
          ∃ pc, Token.claimsOf sampleEnv.jwt p = some pc ∧ ScopesWithin c pc :=
  ⟨by decide, (delegation_shrinks sampleEnv.jwt "root" sampleRun sampleRun_reachable).1⟩

end Tts

end Kontxt
