import Kontxt.Theory.Sealing

/-!
# Tokens for Internal Workloads

A request without a bearer token comes from a workload of the cluster. The
adapter resolves the workload to a service account and sends the name of the
account, the text `system:serviceaccount:` and so on, as the subject token, with
a token type of its own. The token service does not know the type. It tells
transaction tokens from everything else, and hands everything else to its
router, which takes the text for a JWT.

So the exchange succeeds exactly when some authenticator accepts the name of the
account as a token, which `internal_exchange_iff` says. It never does: the text
has a colon before its first dot, and the header of a JWT is base64.

## Main definitions

* `JwtLib.ReadsEncoded`: A library reads headers that are base64.
* `ExtAuth.Internal`: A request from a resolved workload that matches a rule
  which requires nothing of it.
* `ExtAuth.internalExchange`: The exchange the adapter sends for it.

## Theorems

* `ExtAuth.resolve_eq_ok`: Every resolved identity is a service account.
* `ExtAuth.authenticate_colon`: Text with a colon up front is no token.
* `ExtAuth.extractFields_optional`: Nothing required, nothing denied.
* `ExtAuth.internal_exchange_iff`: When a workload is issued a token.
-/

namespace Kontxt

open Go Lib

/-- What stands before the first dot of a token that can be read is base64. -/
def JwtLib.ReadsEncoded (J : JwtLib) : Prop :=
  ∀ (s : String) (t : Jwt) (header : String) (parts : List String),
    J.parseUnverified s = .ok t → split s '.' = header :: parts →
    ∃ bytes, rawURLDecode header = .ok bytes

namespace ExtAuth

section Identities

/-- Every identity a resolver gives is that of a service account. -/
theorem resolve_eq_ok (u : Unicode) (r : IdentityResolver) (principal sourceIP : String)
    (identity : WorkloadIdentity) (h : r.resolve u principal sourceIP = .ok identity) :
    ∃ ns sa, identity = serviceAccountIdentity ns sa := by
  unfold IdentityResolver.resolve at h
  by_cases hprincipal : principal ≠ ""
  · -- The principal wins over the address, even when it cannot be read.
    rw [if_pos hprincipal] at h
    unfold resolveFromPrincipal at h
    rw [ite_error_eq_ok, ite_error_eq_ok] at h
    rcases h with ⟨_, _, h⟩
    split at h
    · cases h
    · split at h
      · exact ⟨_, _, (Except.ok.inj h).symm⟩
      · cases h
  · rw [if_neg hprincipal] at h
    by_cases hip : sourceIP ≠ ""
    · rw [if_pos hip] at h
      unfold IdentityResolver.resolveFromPodIP at h
      rw [ite_error_eq_ok] at h
      cases hpod : r.pods.lookup (IdentityResolver.stripPort sourceIP) with
      | none =>
          rw [hpod] at h
          cases h.2
      | some info =>
          rw [hpod] at h
          exact ⟨_, _, (Except.ok.inj h.2).symm⟩
    · rw [if_neg hip] at h
      cases h

/-- The subject of a service account begins with a word and a colon. -/
theorem subject_toList (ns sa : String) :
    ∃ rest, (serviceAccountIdentity ns sa).subject.toList = "system:".toList ++ rest := by
  have hsplit : "system:serviceaccount:" = "system:" ++ "serviceaccount:" := by decide
  unfold serviceAccountIdentity
  simp only [hsplit, String.toList_append, List.append_assoc]
  exact ⟨_, rfl⟩

theorem subject_ne (ns sa : String) : (serviceAccountIdentity ns sa).subject ≠ "" := by
  intro hempty
  rcases subject_toList ns sa with ⟨rest, htext⟩
  rw [hempty] at htext
  have hword : "system:".toList ≠ [] := by decide
  exact hword (List.append_eq_nil_iff.mp htext.symm).1

/-- So it has a colon before its first dot. -/
theorem split_subject (ns sa : String) :
    ∃ first parts, split (serviceAccountIdentity ns sa).subject '.'
      = String.ofList ("system:".toList ++ first) :: parts := by
  rcases subject_toList ns sa with ⟨rest, htext⟩
  have hdot : '.' ∉ "system:".toList := by decide
  rcases splitOn_append '.' "system:".toList rest hdot with ⟨first, pieces, hpieces⟩
  refine ⟨first, pieces.map String.ofList, ?_⟩
  unfold split
  rw [htext, hpieces, List.map_cons]

/-- No library that reads base64 headers takes a service account for a token, so
    no router accepts one. -/
theorem authenticate_colon (env : Authn.Env) (hJ : env.jwt.ReadsEncoded) (r : Authn.Router)
    (ns sa : String) :
    ∃ e, Authn.Router.authenticate env r (serviceAccountIdentity ns sa).subject
      = .error (.error e) := by
  have hread : ∀ t, env.jwt.parseUnverified (serviceAccountIdentity ns sa).subject ≠ .ok t := by
    intro t ht
    rcases split_subject ns sa with ⟨first, parts, hsplit⟩
    rcases hJ _ t _ parts ht hsplit with ⟨bytes, hbytes⟩
    have hcolon : ':' ∈ (String.ofList ("system:".toList ++ first)).toList := by
      rw [String.toList_ofList]
      exact List.mem_append_left _ (by decide)
    exact absurd (mem_of_rawURLDecode _ bytes hbytes ':' hcolon) (by decide)
  unfold Authn.Router.authenticate
  cases Authn.extractIssuer env (serviceAccountIdentity ns sa).subject with
  | error e => exact ⟨_, rfl⟩
  | ok issuer =>
      simp only []
      cases Authn.Router.matching r issuer with
      | none => exact ⟨_, rfl⟩
      | some a =>
          simp only [Authn.Authenticator.authenticate]
          cases hparse : a.parse env (serviceAccountIdentity ns sa).subject with
          | error e => exact ⟨_, rfl⟩
          | ok t => exact absurd ((JwtLib.parse_eq_ok _ _ _ _ _ t).mp hparse).1 (hread t)

end Identities

section Requests

variable (u : Unicode) (D : Decoders) (s : GenerationServer)

/-- A request without a bearer token, from a workload that was resolved, that
    matches a rule with a scope and no required mapping. -/
structure Internal (req : EntryRequest) (httpReq : EntryHttp) (rule : GenerationRule)
    (identity : WorkloadIdentity) : Prop where
  http : req.http = some httpReq
  matched : findMatchingRule u s.generationRules httpReq.path httpReq.method = some rule
  scope : rule.scope ≠ ""
  optional : ∀ field m, rule.tctxMapping.lookup field = some m → m.required = false
  unauthorized : ¬(getHeader u httpReq.headers "Authorization" ≠ "" ∧
    hasPrefix (getHeader u httpReq.headers "Authorization") "Bearer " = true)
  resolved : s.identityResolver.resolve u ((req.source.map Source.principal).getD "")
    (extractSourceAddress req) = .ok identity

/-- The exchange for a workload: its subject as the subject token. -/
def internalExchange (req : EntryRequest) (httpReq : EntryHttp) (rule : GenerationRule)
    (identity : WorkloadIdentity) (details : Object) : SdkTts.ExchangeRequest :=
  entryExchange rule (identity.subject, subjectTokenTypeServiceAccount) details
    (getHeader u httpReq.headers "Authorization") (extractSourceAddress req)

/-- How a handler answers that exchange. -/
def internalAnswer (env : Tts.Env) (h : Tts.Handler) (req : EntryRequest) (httpReq : EntryHttp)
    (rule : GenerationRule) (identity : WorkloadIdentity) (details : Object) : Tts.Response :=
  (h.serveHTTP env (SdkTts.exchangeHttp (fun o => D.marshal (.obj o))
    (internalExchange u req httpReq rule identity details))).1

/-- A loop over mappings that are not required denies nothing. -/
theorem extractFields_optional (httpReq : EntryHttp)
    (mapped : List (String × V1alpha1.TctxFieldMapping))
    (hmapped : ∀ e ∈ mapped, e.2.required = false) (o : Object) :
    ∃ details, extractFields u D httpReq mapped o = .ok details := by
  refine (extractFields_ok_iff u D httpReq mapped o).mpr ?_
  intro e he hreq
  rw [hmapped e he] at hreq
  cases hreq

/-- The handler issues for the exchange of a workload what it issues for the
    request the exchange stands for. -/
theorem internalAnswer_eq (req : EntryRequest) (httpReq : EntryHttp) (rule : GenerationRule)
    (env : Tts.Env) (h : Tts.Handler)
    (hunmarshal : env.unmarshal = D.unmarshal) (hscope : rule.scope ≠ "") (ns sa : String)
    (details : Object) (hds : AllStrings details) :
    ∃ r read, internalAnswer u D env h req httpReq rule (serviceAccountIdentity ns sa) details
        = h.issue env r read ∧
      read.subjectToken = (serviceAccountIdentity ns sa).subject := by
  have hdv := SdkTts.formValue_details (fun o => D.marshal (.obj o))
    (internalExchange u req httpReq rule (serviceAccountIdentity ns sa) details)
  have hcv := SdkTts.formValue_context (fun o => D.marshal (.obj o))
    (internalExchange u req httpReq rule (serviceAccountIdentity ns sa) details)
  rcases parseObject_marshal D _ "request_details" details hds hdv with ⟨details', hd, _⟩
  rcases parseObject_marshal D _ "request_context" _ (allStrings_requestContext _ _) hcv with
    ⟨context', hc, _⟩
  rw [← hunmarshal] at hd hc
  have hparse := SdkTts.parseRequest_exchangeForm env.unmarshal _
    (internalExchange u req httpReq rule (serviceAccountIdentity ns sa) details) _ _
    (subject_ne ns sa) hscope hd hc
  -- The handler compares the type with one value only, and this is another.
  have hsent : SdkTts.sentType
      (internalExchange u req httpReq rule (serviceAccountIdentity ns sa) details)
        ≠ Token.subjectTokenTypeTxnToken := by
    have hne : subjectTokenTypeServiceAccount ≠ "" := by decide
    have htxn : subjectTokenTypeServiceAccount ≠ Token.subjectTokenTypeTxnToken := by decide
    have htype : SdkTts.sentType
        (internalExchange u req httpReq rule (serviceAccountIdentity ns sa) details)
          = subjectTokenTypeServiceAccount := if_neg hne
    rw [htype]
    exact htxn
  refine ⟨_, _, (SdkTts.serveHTTP_exchangeHttp env h _ _ _ _ hparse).trans (if_neg hsent), rfl⟩

variable {u D s} {req : EntryRequest} {httpReq : EntryHttp} {rule : GenerationRule}
  {identity : WorkloadIdentity}

/-- The subject of the exchange is the workload. -/
theorem subjectToken_internal (hint : Internal u s req httpReq rule identity) :
    s.subjectToken u req (getHeader u httpReq.headers "Authorization")
      = .ok (identity.subject, subjectTokenTypeServiceAccount) := by
  unfold GenerationServer.subjectToken
  rw [if_neg hint.unauthorized, hint.resolved]

/-- A subject token the router accepts leads to a token, unless a rule denies or
    signing fails. -/
theorem issue_of_authenticate (env : Tts.Env) (h : Tts.Handler) (r : Tts.Request)
    (read : Tts.TokenExchangeRequest) (info : Authn.SubjectInfo)
    (hauth : Authn.Router.authenticate env.toEnv h.router read.subjectToken = .ok info) :
    (∃ e, h.issue env r read = .error 403 "policy_denied" e) ∨
      (∃ e, h.issue env r read = .error 500 "server_error" e) ∨
      ∃ tok ity ty, h.issue env r read = .token tok ity ty := by
  unfold Tts.Handler.issue Tts.Handler.signAndRespond
  rw [hauth]
  simp only []
  cases Tts.evaluateIssuanceRules env.unicode h.loadIssuanceRules
      (Tts.Handler.issuanceContext info.subject (Tts.identifyWorkload r) read) with
  | error e => exact Or.inl ⟨e, rfl⟩
  | ok _ =>
      simp only []
      cases Token.new env.jwt (h.newClaims info.subject (Tts.identifyWorkload r) read)
          h.keyManager.signingKey.1 h.keyManager.signingKey.2 h.lifetime env.now env.uuid with
      | error e => exact Or.inr (Or.inl ⟨_, rfl⟩)
      | ok tok => exact Or.inr (Or.inr ⟨_, _, _, rfl⟩)

/-- Where no rule denies and signing works, the handler issues a token for a
    subject exactly when the router accepts the subject token for it. -/
theorem issue_token_iff (env : Tts.Env) (h : Tts.Handler) (r : Tts.Request)
    (read : Tts.TokenExchangeRequest) (subject : String)
    (hrules : ∀ e, h.issue env r read ≠ .error 403 "policy_denied" e)
    (hsigns : ∀ e, h.issue env r read ≠ .error 500 "server_error" e) :
    (∃ tok ity ty c, h.issue env r read = .token tok ity ty ∧
      Token.claimsOf env.jwt tok = some c ∧ c.subject = subject) ↔
    ∃ info, Authn.Router.authenticate env.toEnv h.router read.subjectToken = .ok info ∧
      info.subject = subject := by
  constructor
  · intro hgiven
    rcases hgiven with ⟨tok, ity, ty, c, hissue, hc, hsub⟩
    rcases Tts.issue_token env h r read tok ity ty hissue with ⟨info, hauth, _, hclaims⟩
    rw [hclaims] at hc
    exact ⟨info, hauth, (congrArg Token.Claims.subject (Option.some.inj hc)).trans hsub⟩
  · intro hgiven
    rcases hgiven with ⟨info, hauth, hsub⟩
    rcases issue_of_authenticate env h r read info hauth with
      ⟨e, he⟩ | ⟨e, he⟩ | ⟨tok, ity, ty, htok⟩
    · exact absurd he (hrules e)
    · exact absurd he (hsigns e)
    · rcases Tts.issue_token env h r read tok ity ty htok with ⟨info', hauth', _, hclaims⟩
      have hinfo : info' = info := Except.ok.inj (hauth'.symm.trans hauth)
      exact ⟨tok, ity, ty, _, htok, hclaims, hinfo ▸ hsub⟩

/-- When a workload is issued a token. For every request without a bearer token,
    from a resolved workload, that matches a rule with a scope and no required
    mapping: if no issuance rule denies and signing works, the exchange the
    adapter sends is answered with a token for the workload exactly when the
    router accepts the workload's name as a token for it. With a library that
    reads base64 headers the answer is always that the token is invalid. -/
theorem internal_exchange_iff (env : Tts.Env) (h : Tts.Handler) (hwired : s.Wired D env h)
    (hint : Internal u s req httpReq rule identity)
    (mapped : List (String × V1alpha1.TctxFieldMapping))
    (hmapped : RangesEntries rule.tctxMapping mapped) :
    ∃ details, extractFields u D httpReq mapped [("purpose", .str rule.purpose)] = .ok details ∧
      (∀ tok, s.check u D mapped req = allowedWithHeaders [(Token.headerName, tok)] ↔
        s.ttsClient (internalExchange u req httpReq rule identity details) = .ok tok) ∧
      ((∀ e, internalAnswer u D env h req httpReq rule identity details
          ≠ .error 403 "policy_denied" e) →
        (∀ e, internalAnswer u D env h req httpReq rule identity details
          ≠ .error 500 "server_error" e) →
        ((∃ tok ity ty c, internalAnswer u D env h req httpReq rule identity details
            = .token tok ity ty ∧
          Token.claimsOf env.jwt tok = some c ∧ c.subject = identity.subject) ↔
        ∃ info, Authn.Router.authenticate env.toEnv h.router identity.subject = .ok info ∧
          info.subject = identity.subject)) ∧
      (env.jwt.ReadsEncoded → ∃ e, internalAnswer u D env h req httpReq rule identity details
        = .error 401 "invalid_token" e) := by
  rcases resolve_eq_ok u _ _ _ identity hint.resolved with ⟨ns, sa, hid⟩
  have hrequired : ∀ e ∈ mapped, e.2.required = false := by
    intro e he
    exact hint.optional e.1 e.2 ((mem_of_rangesEntries hmapped e.1 e.2).mp he)
  rcases extractFields_optional u D httpReq mapped hrequired [("purpose", .str rule.purpose)] with
    ⟨details, hfields⟩
  have hpurpose : AllStrings [("purpose", .str rule.purpose)] := by
    intro e he
    rw [List.mem_singleton.mp he]
    exact ⟨_, rfl⟩
  have hds := allStrings_extractFields u D httpReq mapped _ details hpurpose hfields
  rcases internalAnswer_eq u D req httpReq rule env h hwired.unmarshal hint.scope ns sa details hds
    with ⟨r, read, hanswer, hread⟩
  refine ⟨details, hfields, fun tok => ?_, ?_, ?_⟩
  · rw [check_eq_token u D s mapped req httpReq hint.http rule hint.matched tok,
      subjectToken_internal hint]
    constructor
    · -- The subject and the details are determined, so the exchange is this one.
      intro hgiven
      rcases hgiven with ⟨subject, details', hsubject, hfields', hexchange⟩
      rw [hfields] at hfields'
      rw [← Except.ok.inj hsubject, ← Except.ok.inj hfields'] at hexchange
      exact hexchange
    · intro hexchange
      exact ⟨_, details, rfl, hfields, hexchange⟩
  · intro hrules hsigns
    rw [hid, hanswer] at hrules hsigns ⊢
    rw [← hread]
    exact issue_token_iff env h r read read.subjectToken hrules hsigns
  · intro hJ
    rcases authenticate_colon env.toEnv hJ h.router ns sa with ⟨e, he⟩
    rw [hid, hanswer]
    refine ⟨e, ?_⟩
    unfold Tts.Handler.issue
    rw [hread, he]

end Requests

section Sample

/-- A rule for a job of the cluster, which takes nothing from the request. -/
def jobRule : GenerationRule where
  nameSpace := "shop"
  name := "sync"
  endpoint := { path := "/sync", method := "POST" }
  purpose := "sync"
  scope := "sync"
  tctxMapping := ∅
  tctxEnrichments := []
  rctxFields := []
  tokenLifetime := ""

def jobHttp : EntryHttp where
  path := "/sync"
  method := "POST"
  headers := ∅
  body := ""

/-- The job's request, with the principal the mesh vouches for. -/
def jobRequest (sa : String) : EntryRequest where
  http := some jobHttp
  source := some { principal := "spiffe://cluster.local/ns/shop/sa/" ++ sa, socketAddress := none }

/-- A subject token whose text is the name of a service account, and the token it
    would be exchanged for. -/
def jobEnv : Tts.Env :=
  { Tts.sampleEnv with
    jwt := JwtLib.ofTable
      [("system:serviceaccount:shop:a.e30.c",
        { header := [("alg", .str "RS256"), ("kid", .str "idp-1")]
          claims := [("iss", .str "idp"), ("sub", .str "system:serviceaccount:shop:a.e30.c"),
            ("aud", .str "kontxt")] }),
        ("job", Token.newJwt
          { Tts.sampleClaims "sync" with
            subject := "system:serviceaccount:shop:a.e30.c"
            transactionContext := some [("purpose", .str "sync")]
            requesterContext := some [("authn", .str "kubernetes-sa")] } "k1" 0 0 "")]
    unmarshal := Decoders.framed.unmarshal }

/-- A library that knows one token, whose header is base64. -/
def encodedEnv : Tts.Env :=
  { jobEnv with jwt := JwtLib.ofTable [("e30.e30.c2ln", Tts.sampleSubject)] }

theorem readsEncoded_encodedEnv : encodedEnv.jwt.ReadsEncoded := by
  intro s t header parts hread hsplit
  have hs : s = "e30.e30.c2ln" := by
    by_contra hne
    have hunknown : encodedEnv.jwt.parseUnverified s = .error "token is malformed" := by
      simp [encodedEnv, JwtLib.ofTable, List.lookup_cons, beq_eq_false_iff_ne.mpr hne]
    cases hunknown.symm.trans hread
  rw [hs, show split "e30.e30.c2ln" '.' = ["e30", "e30", "c2ln"] by decide +kernel] at hsplit
  cases hsplit
  exact ⟨[123, 125], by decide +kernel⟩

/-- The adapter with the rule, in front of the sample handler. -/
def jobServer (env : Tts.Env) : GenerationServer where
  ttsClient := SdkTts.exchange (SdkTts.overHandler env Tts.sampleHandler) fun o =>
    Decoders.framed.marshal (.obj o)
  identityResolver := { pods := ∅ }
  generationRules := [jobRule]

theorem internal_job (env : Tts.Env) (sa : String)
    (hresolved : (jobServer env).identityResolver.resolve Unicode.ascii
      ("spiffe://cluster.local/ns/shop/sa/" ++ sa) "" = .ok (serviceAccountIdentity "shop" sa)) :
    Internal Unicode.ascii (jobServer env) (jobRequest sa) jobHttp jobRule
      (serviceAccountIdentity "shop" sa) where
  http := rfl
  matched := List.find?_cons_of_pos (by decide +kernel)
  scope := by decide
  optional := by
    intro field m h
    rw [show jobRule.tctxMapping = ∅ from rfl, Finmap.lookup_empty] at h
    cases h
  unauthorized := by decide +kernel
  resolved := hresolved

/-- With a library that reads base64 headers a service account is refused. One that took
    the name of an account for a token of that account would make the exchange succeed. -/
theorem internal_exchange_iff_job :
    (∃ details e, internalAnswer Unicode.ascii Decoders.framed encodedEnv Tts.sampleHandler
        (jobRequest "cart") jobHttp jobRule (serviceAccountIdentity "shop" "cart") details
        = .error 401 "invalid_token" e) ∧
    ∃ details tok ity ty c, internalAnswer Unicode.ascii Decoders.framed jobEnv Tts.sampleHandler
        (jobRequest "a.e30.c") jobHttp jobRule (serviceAccountIdentity "shop" "a.e30.c") details
        = .token tok ity ty ∧
      Token.claimsOf jobEnv.jwt tok = some c ∧
      c.subject = "system:serviceaccount:shop:a.e30.c" := by
  constructor
  · have hint := internal_job encodedEnv "cart" (by decide)
    rcases internal_exchange_iff (D := Decoders.framed) encodedEnv Tts.sampleHandler ⟨rfl, rfl⟩
      hint [] rfl with ⟨details, _, _, _, hnever⟩
    exact ⟨details, hnever readsEncoded_encodedEnv⟩
  have hint := internal_job jobEnv "a.e30.c" (by decide)
  rcases internal_exchange_iff (D := Decoders.framed) jobEnv Tts.sampleHandler ⟨rfl, rfl⟩ hint []
    rfl with ⟨details, hfields, _, hiff, _⟩
  have hanswer : internalAnswer Unicode.ascii Decoders.framed jobEnv Tts.sampleHandler
      (jobRequest "a.e30.c") jobHttp jobRule (serviceAccountIdentity "shop" "a.e30.c")
      [("purpose", .str "sync")] = .token "job" Token.requestedTokenType "N_A" := by
    decide +kernel
  have hauth : (Authn.Router.authenticate jobEnv.toEnv Tts.sampleHandler.router
      "system:serviceaccount:shop:a.e30.c").toOption.map Authn.SubjectInfo.subject
        = some "system:serviceaccount:shop:a.e30.c" := by decide +kernel
  have hsubject : (serviceAccountIdentity "shop" "a.e30.c").subject
      = "system:serviceaccount:shop:a.e30.c" := by decide
  rw [← Except.ok.inj hfields] at hiff
  refine ⟨_, (hiff ?_ ?_).mpr ?_⟩
  · intro e he
    cases hanswer.symm.trans he
  · intro e he
    cases hanswer.symm.trans he
  · rw [hsubject]
    cases hcase : Authn.Router.authenticate jobEnv.toEnv Tts.sampleHandler.router
        "system:serviceaccount:shop:a.e30.c" with
    | error e =>
        rw [hcase] at hauth
        cases hauth
    | ok info =>
        rw [hcase] at hauth
        exact ⟨info, rfl, Option.some.inj hauth⟩

/-- The service account `cart` of `shop`: nothing denies, and the exchange is
    refused. -/
theorem internal_workload_refused :
    Internal Unicode.ascii (jobServer jobEnv) (jobRequest "cart") jobHttp jobRule
      (serviceAccountIdentity "shop" "cart") ∧
    (jobServer jobEnv).Wired Decoders.framed jobEnv Tts.sampleHandler ∧
    Tts.sampleHandler.loadIssuanceRules = [] ∧
    internalAnswer Unicode.ascii Decoders.framed jobEnv Tts.sampleHandler (jobRequest "cart")
        jobHttp jobRule (serviceAccountIdentity "shop" "cart") [("purpose", .str "sync")]
      = .error 401 "invalid_token"
        "extracting issuer from token: invalid JWT: expected 3 parts, got 1" ∧
    (jobServer jobEnv).check Unicode.ascii Decoders.framed [] (jobRequest "cart")
      = denied .internal ("token exchange failed: token exchange failed (HTTP 401): " ++
        "invalid_token: extracting issuer from token: invalid JWT: expected 3 parts, got 1") :=
  ⟨internal_job jobEnv "cart" (by decide +kernel), ⟨rfl, rfl⟩, rfl, by decide +kernel,
    by decide +kernel⟩

end Sample

end ExtAuth

end Kontxt
