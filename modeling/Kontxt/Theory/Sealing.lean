import Kontxt.Core.Controller
import Kontxt.Core.GenerationServer
import Kontxt.Theory.Client

/-!
# What a Token Is Sealed With

A transaction type promises two things the controller checks against a policy:
the fields of the transaction context it produces, and a lifetime within the
ceiling. This is about whether a token obtained through the rule published for
the type keeps the promises.

The controller counts a field as produced if the type maps or enriches it. The
adapter puts a field into the request only if it is the purpose, or its mapping
gives a value on this request; it never computes an enrichment, and nothing
downstream does. So a mandatory field is in the token exactly when it is the
purpose or was extracted, and `mandatory_sealed_iff` says so.

The lifetime goes from the policy into the rule, and there it ends. The adapter
does not send it, and the token service signs with its own lifetime. So the
ceiling holds exactly when that lifetime happens to keep to it.

## Main definitions

* `ExtAuth.Extracted`: A mapping gives a value on a request.
* `ExtAuth.GenerationServer.Wired`: The adapter's client reaches a handler.
* `ExtAuth.Obtained`: A token was obtained through the rule published for a
  type.
* `ceilSeconds`: A duration rounded up to whole seconds.

## Theorems

* `ExtAuth.extractFields_cons`: What the loop does with one field.
* `ExtAuth.extractFields_ok_iff`: When the loop comes to its end.
* `ExtAuth.hasKey_extractFields`: The fields the loop collects.
* `ExtAuth.check_eq_token`: What must have happened for a token to be passed on.
* `ExtAuth.obtained_claims`: The claims of the token.
* `ExtAuth.mandatory_sealed_iff`: When the mandatory fields are sealed.
* `ExtAuth.lifetime_ceiling_iff`: When the ceiling holds.
-/

namespace Kontxt

open Go Lib

/-- A duration rounded up to whole seconds. -/
def ceilSeconds (d : Int) : Int :=
  -(-d / second)

namespace ExtAuth

section Collecting

variable (u : Unicode) (D : Decoders) (httpReq : EntryHttp)

/-- A mapping gives a value on a request. -/
def Extracted (mapping : V1alpha1.TctxFieldMapping) : Prop :=
  ∃ val, extractTctxField u D httpReq mapping = .ok val ∧ val ≠ ""

theorem allStrings_set (o : Object) (ho : AllStrings o) (k val : String) :
    AllStrings (o.set k (.str val)) := by
  intro e he
  rcases List.mem_cons.mp he with rfl | he
  · exact ⟨val, rfl⟩
  · exact ho e (List.mem_filter.mp he).1

/-- What the loop does with one field. An extracted value is set; a field without
    one is a denial if it is required, and left out otherwise. -/
theorem extractFields_cons (name : String) (mapping : V1alpha1.TctxFieldMapping)
    (rest : List (String × V1alpha1.TctxFieldMapping)) (o : Object) :
    (∃ val, extractTctxField u D httpReq mapping = .ok val ∧ val ≠ "" ∧
      extractFields u D httpReq ((name, mapping) :: rest) o
        = extractFields u D httpReq rest (o.set name (.str val))) ∨
    (¬Extracted u D httpReq mapping ∧ mapping.required = true ∧
      ∃ message, extractFields u D httpReq ((name, mapping) :: rest) o
        = .error (denied .invalidArgument message)) ∨
    (¬Extracted u D httpReq mapping ∧ mapping.required = false ∧
      extractFields u D httpReq ((name, mapping) :: rest) o
        = extractFields u D httpReq rest o) := by
  unfold Extracted
  rw [extractFields]
  cases hval : extractTctxField u D httpReq mapping with
  | error e =>
      have hnone : ¬∃ val, (.error e : Except String String) = .ok val ∧ val ≠ "" := by simp
      by_cases hreq : mapping.required = true
      · exact Or.inr (Or.inl ⟨hnone, hreq, _, if_pos hreq⟩)
      · exact Or.inr (Or.inr ⟨hnone, Bool.eq_false_iff.mpr hreq, if_neg hreq⟩)
  | ok val =>
      by_cases hempty : val = ""
      · have hnone : ¬∃ v, (.ok val : Except String String) = .ok v ∧ v ≠ "" := by simp [hempty]
        simp only [hempty, ne_eq, not_true_eq_false, if_false] at hnone ⊢
        by_cases hreq : mapping.required = true
        · exact Or.inr (Or.inl ⟨hnone, hreq, _, if_pos hreq⟩)
        · exact Or.inr (Or.inr ⟨hnone, Bool.eq_false_iff.mpr hreq, if_neg hreq⟩)
      · exact Or.inl ⟨val, rfl, hempty, if_pos hempty⟩

/-- The loop comes to its end exactly when every required field is extracted. -/
theorem extractFields_ok_iff (mapped : List (String × V1alpha1.TctxFieldMapping)) (o : Object) :
    (∃ details, extractFields u D httpReq mapped o = .ok details) ↔
      ∀ e ∈ mapped, e.2.required = true → Extracted u D httpReq e.2 := by
  induction mapped generalizing o with
  | nil => simp [extractFields]
  | cons entry rest ih =>
      rcases entry with ⟨name, mapping⟩
      rw [List.forall_mem_cons]
      rcases extractFields_cons u D httpReq name mapping rest o with
        ⟨val, hval, hne, hset⟩ | ⟨hnot, hreq, message, hdenied⟩ | ⟨hnot, hreq, hskip⟩
      · have hextracted : Extracted u D httpReq mapping := ⟨val, hval, hne⟩
        rw [hset, ih]
        simp [hextracted]
      · rw [hdenied]
        simp [hreq, hnot]
      · rw [hskip, ih]
        simp [hreq]

/-- The loop adds strings. -/
theorem allStrings_extractFields (mapped : List (String × V1alpha1.TctxFieldMapping))
    (o details : Object) (ho : AllStrings o)
    (h : extractFields u D httpReq mapped o = .ok details) : AllStrings details := by
  induction mapped generalizing o with
  | nil =>
      cases h
      exact ho
  | cons entry rest ih =>
      rcases entry with ⟨name, mapping⟩
      rcases extractFields_cons u D httpReq name mapping rest o with
        ⟨val, _, _, hset⟩ | ⟨_, _, message, hdenied⟩ | ⟨_, _, hskip⟩
      · exact ih _ (allStrings_set o ho name val) (hset.symm.trans h)
      · cases hdenied.symm.trans h
      · exact ih o ho (hskip.symm.trans h)

/-- The loop adds the fields that are extracted, and no others. -/
theorem hasKey_extractFields (mapped : List (String × V1alpha1.TctxFieldMapping))
    (o details : Object) (h : extractFields u D httpReq mapped o = .ok details)
    (field : String) :
    hasKey (some details) field = true ↔
      hasKey (some o) field = true ∨ ∃ m, (field, m) ∈ mapped ∧ Extracted u D httpReq m := by
  induction mapped generalizing o with
  | nil =>
      cases h
      simp only [List.not_mem_nil, false_and, exists_false, or_false]
  | cons entry rest ih =>
      rcases entry with ⟨name, mapping⟩
      have hsplit : (∃ m, (field, m) ∈ (name, mapping) :: rest ∧ Extracted u D httpReq m) ↔
          (field = name ∧ Extracted u D httpReq mapping) ∨
            ∃ m, (field, m) ∈ rest ∧ Extracted u D httpReq m := by
        simp only [List.mem_cons, Prod.mk.injEq, or_and_right, exists_or, and_assoc,
          exists_and_left, exists_eq_left]
      rw [hsplit]
      rcases extractFields_cons u D httpReq name mapping rest o with
        ⟨val, hval, hne, hset⟩ | ⟨_, _, message, hdenied⟩ | ⟨hnot, _, hskip⟩
      · have hextracted : Extracted u D httpReq mapping := ⟨val, hval, hne⟩
        rw [ih _ (hset.symm.trans h), hasKey_set, ← or_assoc]
        simp only [hextracted, and_true, or_comm]
      · cases hdenied.symm.trans h
      · -- A field that is left out gives no value, so it counts for nothing.
        rw [ih o (hskip.symm.trans h)]
        simp only [hnot, and_false, false_or]

/-- The loop fails with a denial. -/
theorem extractFields_error (mapped : List (String × V1alpha1.TctxFieldMapping)) (o : Object)
    (resp : CheckResponse) (h : extractFields u D httpReq mapped o = .error resp) :
    ∃ message, resp = denied .invalidArgument message := by
  induction mapped generalizing o with
  | nil => cases h
  | cons entry rest ih =>
      rcases entry with ⟨name, mapping⟩
      rcases extractFields_cons u D httpReq name mapping rest o with
        ⟨val, _, _, hset⟩ | ⟨_, _, message, hdenied⟩ | ⟨_, _, hskip⟩
      · exact ih _ (hset.symm.trans h)
      · exact ⟨message, Except.error.inj (h.symm.trans hdenied)⟩
      · exact ih o (hskip.symm.trans h)

end Collecting

/-- The requester context holds strings. -/
theorem allStrings_requestContext (authHeader sourceAddr : String) :
    AllStrings (requestContext authHeader sourceAddr) := by
  intro e he
  unfold requestContext at he
  rcases List.mem_append.mp he with he | he
  · by_cases haddr : sourceAddr ≠ ""
    · rw [if_pos haddr] at he
      rw [List.mem_singleton.mp he]
      exact ⟨sourceAddr, rfl⟩
    · rw [if_neg haddr] at he
      exact absurd he List.not_mem_nil
  · rw [List.mem_singleton.mp he]
    exact ⟨_, rfl⟩

/-- A token is passed on exactly when a rule matches, the subject is found, the
    fields are collected and the exchange succeeds. -/
theorem check_eq_token (u : Unicode) (D : Decoders) (s : GenerationServer)
    (mapped : List (String × V1alpha1.TctxFieldMapping)) (req : EntryRequest)
    (httpReq : EntryHttp) (hhttp : req.http = some httpReq) (rule : GenerationRule)
    (hrule : findMatchingRule u s.generationRules httpReq.path httpReq.method = some rule)
    (tok : String) :
    s.check u D mapped req = allowedWithHeaders [(Token.headerName, tok)] ↔
      ∃ subject details,
        s.subjectToken u req (getHeader u httpReq.headers "Authorization") = .ok subject ∧
        extractFields u D httpReq mapped [("purpose", .str rule.purpose)] = .ok details ∧
        s.ttsClient (entryExchange rule subject details
          (getHeader u httpReq.headers "Authorization") (extractSourceAddress req)) = .ok tok := by
  have hdenied : ∀ code message,
      denied code message ≠ allowedWithHeaders [(Token.headerName, tok)] := by
    intro code message h
    cases congrArg CheckResponse.status h
  unfold GenerationServer.check
  rw [hhttp]
  simp only [hrule]
  cases hsub : s.subjectToken u req (getHeader u httpReq.headers "Authorization") with
  | error e => simp only [hdenied, reduceCtorEq, false_and, exists_false]
  | ok subject =>
      cases hfields : extractFields u D httpReq mapped [("purpose", .str rule.purpose)] with
      | error resp =>
          rcases extractFields_error u D httpReq mapped _ resp hfields with ⟨message, rfl⟩
          simp only [hdenied, reduceCtorEq, false_and, and_false, exists_false]
      | ok details =>
          simp only [Except.ok.injEq, exists_and_left, exists_eq_left']
          cases s.ttsClient (entryExchange rule subject details
              (getHeader u httpReq.headers "Authorization") (extractSourceAddress req)) with
          | error e => simp only [hdenied, reduceCtorEq]
          | ok txToken =>
              simp only [allowedWithHeaders, CheckResponse.mk.injEq, true_and,
                HttpResponse.okResponse.injEq, List.cons.injEq, Prod.mk.injEq, and_true,
                Except.ok.injEq]

/-- The adapter's client reaches a handler, which reads JSON as the adapter
    does. -/
structure GenerationServer.Wired (s : GenerationServer) (D : Decoders) (env : Tts.Env)
    (h : Tts.Handler) : Prop where
  client : s.ttsClient = SdkTts.exchange (SdkTts.overHandler env h) fun o => D.marshal (.obj o)
  unmarshal : env.unmarshal = D.unmarshal

/-- A request matches the rule published for a transaction type, and a token is
    passed on for it. -/
structure Obtained (u : Unicode) (D : Decoders) (parseDuration : String → Except String Int)
    (s : GenerationServer) (env : Tts.Env) (h : Tts.Handler) (tt : V1alpha1.TransactionType)
    (listed : Except String (List V1alpha1.TokenPolicy)) (req : EntryRequest)
    (httpReq : EntryHttp) (tok : String) : Prop where
  wired : s.Wired D env h
  http : req.http = some httpReq
  rule : findMatchingRule u s.generationRules httpReq.path httpReq.method =
    some (Controller.publishedRule parseDuration tt listed)
  token : ∃ mapped, RangesEntries (Controller.publishedRule parseDuration tt listed).tctxMapping
      mapped ∧
    s.check u D mapped req = allowedWithHeaders [(Token.headerName, tok)]

/-- The subject of an exchange is an access token or a workload. -/
theorem subjectToken_type (u : Unicode) (s : GenerationServer) (req : EntryRequest)
    (authHeader : String) (subject : String × String)
    (h : s.subjectToken u req authHeader = .ok subject) :
    subject.2 = Token.subjectTokenTypeAccessToken ∨
      subject.2 = subjectTokenTypeServiceAccount := by
  unfold GenerationServer.subjectToken at h
  by_cases hbearer : authHeader ≠ "" ∧ hasPrefix authHeader "Bearer " = true
  · rw [if_pos hbearer] at h
    rw [← Except.ok.inj h]
    exact Or.inl rfl
  · rw [if_neg hbearer] at h
    cases hres : s.identityResolver.resolve u ((req.source.map Source.principal).getD "")
        (extractSourceAddress req) with
    | error e =>
        rw [hres] at h
        cases h
    | ok identity =>
        rw [hres] at h
        rw [← Except.ok.inj h]
        exact Or.inr rfl

/-- Neither of the two is empty, or the type of a transaction token. -/
theorem ne_of_subject_type (ty : String)
    (h : ty = Token.subjectTokenTypeAccessToken ∨ ty = subjectTokenTypeServiceAccount) :
    ty ≠ "" ∧ ty ≠ Token.subjectTokenTypeTxnToken := by
  rcases h with rfl | rfl
  · decide
  · decide

/-- An object of strings arrives with the members it was sent with. -/
theorem parseObject_marshal (D : Decoders) (form : List (String × String)) (key : String)
    (o : Object) (ho : AllStrings o) (hform : Tts.formValue form key = D.marshal (.obj o)) :
    ∃ o', Tts.parseObject D.unmarshal form key = .ok (some o') ∧
      ∀ k, o'.lookup k = o.lookup k := by
  rcases D.unmarshal_marshal o ho with ⟨o', hparsed, hsame⟩
  refine ⟨o', ?_, hsame⟩
  unfold Tts.parseObject
  rw [hform, if_neg (D.marshal_ne o), hparsed]

/-- The claims of the token an exchange with two objects of strings gives: the
    context arrives as it was sent, and the times are the handler's. -/
theorem exchange_claims (D : Decoders) (env : Tts.Env) (h : Tts.Handler)
    (hunmarshal : env.unmarshal = D.unmarshal) (x : SdkTts.ExchangeRequest)
    (details context : Object) (hdetails : x.requestDetails = some details)
    (hcontext : x.requestContext = some context) (hds : AllStrings details)
    (hcs : AllStrings context) (htype : x.subjectTokenType ≠ "")
    (htxn : x.subjectTokenType ≠ Token.subjectTokenTypeTxnToken) (tok : String)
    (hok : SdkTts.exchange (SdkTts.overHandler env h) (fun o => D.marshal (.obj o)) x = .ok tok) :
    ∃ c details', Token.claimsOf env.jwt tok = some c ∧ c.issuedAt = Token.unix env.now ∧
      c.expiresAt = Token.unix (env.now + h.lifetime) ∧ c.transactionContext = some details' ∧
      ∀ k, details'.lookup k = details.lookup k := by
  rcases SdkTts.exchange_ok env h _ x tok hok with ⟨_, hsubject, hscope, ity, ty, hresp⟩
  have hdv := SdkTts.formValue_details (fun o => D.marshal (.obj o)) x
  have hcv := SdkTts.formValue_context (fun o => D.marshal (.obj o)) x
  rw [hdetails] at hdv
  rw [hcontext] at hcv
  rcases parseObject_marshal D _ "request_details" details hds hdv with ⟨details', hd, hsame⟩
  rcases parseObject_marshal D _ "request_context" context hcs hcv with ⟨context', hc, _⟩
  rw [← hunmarshal] at hd hc
  have hparse := SdkTts.parseRequest_exchangeForm env.unmarshal _ x _ _ hsubject hscope hd hc
  -- The subject is not a transaction token, so the token is a new one.
  have hsent : SdkTts.sentType x ≠ Token.subjectTokenTypeTxnToken := by
    unfold SdkTts.sentType
    rw [if_neg htype]
    exact htxn
  rw [SdkTts.serveHTTP_exchangeHttp env h _ x _ _ hparse, if_neg hsent] at hresp
  rcases Tts.issue_token env h _ _ tok ity ty hresp with ⟨info, _, _, hclaims⟩
  exact ⟨_, details', hclaims, rfl, rfl, rfl, hsame⟩

/-- The claims of a token that was obtained: its context has the members that
    were collected, and its times are the handler's. -/
theorem obtained_claims (u : Unicode) (D : Decoders) (parseDuration : String → Except String Int)
    (s : GenerationServer) (env : Tts.Env) (h : Tts.Handler) (tt : V1alpha1.TransactionType)
    (listed : Except String (List V1alpha1.TokenPolicy)) (req : EntryRequest)
    (httpReq : EntryHttp) (tok : String)
    (hobt : Obtained u D parseDuration s env h tt listed req httpReq tok) :
    ∃ c, Token.claimsOf env.jwt tok = some c ∧ c.issuedAt = Token.unix env.now ∧
      c.expiresAt = Token.unix (env.now + h.lifetime) ∧
      ∀ field, hasKey c.transactionContext field = true ↔ field = "purpose" ∨
        ∃ m, tt.spec.tctxMapping.lookup field = some m ∧ Extracted u D httpReq m := by
  rcases hobt.token with ⟨mapped, hmapped, hcheck⟩
  rcases (check_eq_token u D s mapped req httpReq hobt.http _ hobt.rule tok).mp hcheck with
    ⟨subject, details, hsub, hfields, hexchange⟩
  rcases ne_of_subject_type _ (subjectToken_type u s req _ subject hsub) with ⟨htype, htxn⟩
  have hkeys := hasKey_extractFields u D httpReq mapped _ details hfields
  have hpurpose : AllStrings [("purpose", .str (Controller.publishedRule parseDuration tt
      listed).purpose)] := by
    intro e he
    rw [List.mem_singleton.mp he]
    exact ⟨_, rfl⟩
  have hds := allStrings_extractFields u D httpReq mapped _ details hpurpose hfields
  rw [hobt.wired.client] at hexchange
  rcases exchange_claims D env h hobt.wired.unmarshal _ details _ rfl rfl hds
    (allStrings_requestContext _ _) htype htxn tok hexchange with
    ⟨c, details', hc, hiat, hexp, htctx, hsame⟩
  refine ⟨c, hc, hiat, hexp, fun field => ?_⟩
  have hmap : (Controller.publishedRule parseDuration tt listed).tctxMapping =
    tt.spec.tctxMapping := rfl
  have hpurpose : hasKey (some [("purpose", .str
      (Controller.publishedRule parseDuration tt listed).purpose)]) field = true ↔
      field = "purpose" := by
    unfold hasKey
    rw [Option.getD_some, List.lookup_cons, List.lookup_nil]
    by_cases hf : field = "purpose"
    · simp only [hf, beq_self_eq_true, Option.isSome_some]
    · simp only [beq_eq_false_iff_ne.mpr hf, Option.isSome_none, Bool.false_eq_true, hf]
  -- The details went through JSON and came back with the same lookups.
  have hkey : hasKey c.transactionContext field = hasKey (some details) field := by
    unfold hasKey
    rw [htctx, Option.getD_some, Option.getD_some, hsame]
  rw [hkey, hkeys, hpurpose, ← hmap]
  simp only [mem_of_rangesEntries hmapped]

section Sample

/-- A transaction type that maps one field from a header and enriches another. -/
def orderType : V1alpha1.TransactionType where
  nameSpace := "shop"
  name := "order"
  spec :=
    { endpoint := { path := "/orders", method := "POST" }
      purpose := "order"
      scope := "read write"
      tctxMapping := Finmap.singleton "order"
        { source := "header", field := "X-Order", required := true }
      tctxEnrichments := [{ field := "region", enricher := "geo" }]
      rctxFields := []
      tokenLifetime := "" }

/-- A policy for all namespaces with mandatory fields and a ceiling. -/
def orderPolicy (mandatory : List String) : V1alpha1.TokenPolicy where
  name := "orders"
  spec :=
    { targetNamespaces := none
      constraints := { maxTokenLifetime := "10s", mandatoryTctxFields := mandatory }
      issuanceRules := [] }

/-- The one duration the samples use. -/
def tenSeconds (s : String) : Except String Int :=
  if s = "10s" then .ok (10 * second) else .error "invalid duration"

/-- A token service with a lifetime. -/
def orderHandler (lifetime : Int) : Tts.Handler :=
  { Tts.sampleHandler with lifetime := lifetime }

/-- The claims of a token for an order. -/
def orderClaims : Token.Claims :=
  { Tts.sampleClaims "read write" with
    transactionContext := some [("order", .str "42"), ("purpose", .str "order")]
    requesterContext := some [("authn", .str "oidc")] }

/-- A JWT library that can sign an order for five seconds and for a minute. -/
def orderEnv : Tts.Env :=
  { Tts.sampleEnv with
    jwt := JwtLib.ofTable [("e30.e30.c2ln", Tts.sampleSubject),
      ("short", Token.newJwt orderClaims "k1" (5 * second) 0 ""),
      ("long", Token.newJwt orderClaims "k1" (60 * second) 0 "")]
    unmarshal := Decoders.framed.unmarshal }

/-- The adapter with the rule published for the transaction type. -/
def orderServer (mandatory : List String) (lifetime : Int) : GenerationServer where
  ttsClient := SdkTts.exchange (SdkTts.overHandler orderEnv (orderHandler lifetime)) fun o =>
    Decoders.framed.marshal (.obj o)
  identityResolver := { pods := ∅ }
  generationRules :=
    [Controller.publishedRule tenSeconds orderType (.ok [orderPolicy mandatory])]

/-- An order with a bearer token. -/
def orderHttp : EntryHttp where
  path := "/orders"
  method := "POST"
  headers := (AList.singleton "authorization" "Bearer e30.e30.c2ln").insert "x-order" "42"
  body := ""

/-- The order is exchanged for a token, whatever is mandatory. -/
theorem order_obtained (mandatory : List String) (lifetime : Int) (tok : String)
    (htok : (orderServer [] lifetime).check Unicode.ascii Decoders.framed
        [("order", { source := "header", field := "X-Order", required := true })]
        { http := some orderHttp, source := none } =
      allowedWithHeaders [(Token.headerName, tok)]) :
    Obtained Unicode.ascii Decoders.framed tenSeconds (orderServer mandatory lifetime) orderEnv
      (orderHandler lifetime) orderType (.ok [orderPolicy mandatory])
      { http := some orderHttp, source := none } orderHttp tok := by
  have hmatch : ruleMatches Unicode.ascii orderHttp.path orderHttp.method
      (Controller.publishedRule tenSeconds orderType (.ok [orderPolicy mandatory])) = true := by
    have hsame : ruleMatches Unicode.ascii orderHttp.path orderHttp.method
        (Controller.publishedRule tenSeconds orderType (.ok [orderPolicy mandatory])) =
      ruleMatches Unicode.ascii orderHttp.path orderHttp.method
        (Controller.publishedRule tenSeconds orderType (.ok [orderPolicy []])) := rfl
    rw [hsame]
    decide
  exact ⟨⟨rfl, rfl⟩, rfl, List.find?_cons_of_pos hmatch,
    [("order", { source := "header", field := "X-Order", required := true })], rfl, htok⟩

theorem order_short (mandatory : List String) :
    Obtained Unicode.ascii Decoders.framed tenSeconds (orderServer mandatory (5 * second)) orderEnv
      (orderHandler (5 * second)) orderType (.ok [orderPolicy mandatory])
      { http := some orderHttp, source := none } orderHttp "short" :=
  order_obtained mandatory (5 * second) "short" (by decide +kernel)

theorem order_long (mandatory : List String) :
    Obtained Unicode.ascii Decoders.framed tenSeconds (orderServer mandatory (60 * second)) orderEnv
      (orderHandler (60 * second)) orderType (.ok [orderPolicy mandatory])
      { http := some orderHttp, source := none } orderHttp "long" :=
  order_obtained mandatory (60 * second) "long" (by decide +kernel)

end Sample

/-- When the mandatory fields are in the token. For a transaction type that
    complies with a policy, every mandatory field is a key of the context sealed
    into a token exactly when every one is the purpose, or is mapped to something
    this request has. -/
theorem mandatory_sealed_iff (u : Unicode) (D : Decoders)
    (parseDuration : String → Except String Int) (s : GenerationServer) (env : Tts.Env)
    (h : Tts.Handler) (tt : V1alpha1.TransactionType)
    (listed : Except String (List V1alpha1.TokenPolicy)) (req : EntryRequest)
    (httpReq : EntryHttp) (tok : String)
    (hobt : Obtained u D parseDuration s env h tt listed req httpReq tok) :
    ∃ c, Token.claimsOf env.jwt tok = some c ∧ ∀ policy,
      Controller.validateTransactionTypeAgainstPolicy u parseDuration tt (some policy) = [] →
      ((∀ field ∈ policy.spec.constraints.mandatoryTctxFields,
          hasKey c.transactionContext field = true) ↔
        ∀ field ∈ policy.spec.constraints.mandatoryTctxFields, field = "purpose" ∨
          ∃ m, tt.spec.tctxMapping.lookup field = some m ∧ Extracted u D httpReq m) := by
  rcases obtained_claims u D parseDuration s env h tt listed req httpReq tok hobt with
    ⟨c, hc, _, _, hkeys⟩
  refine ⟨c, hc, fun policy _ => ?_⟩
  simp only [hkeys]

/-- A mandatory field that is mapped and in the request is sealed. -/
theorem mandatory_sealed_iff_order :
    ∃ c, Token.claimsOf orderEnv.jwt "short" = some c ∧
      ∀ field ∈ (orderPolicy ["purpose", "order"]).spec.constraints.mandatoryTctxFields,
        hasKey c.transactionContext field = true := by
  rcases mandatory_sealed_iff Unicode.ascii Decoders.framed tenSeconds
    (orderServer ["purpose", "order"] (5 * second)) orderEnv (orderHandler (5 * second)) orderType
    _ _ orderHttp "short" (order_short _) with ⟨c, hc, hsealed⟩
  refine ⟨c, hc, (hsealed (orderPolicy ["purpose", "order"]) (by decide)).mpr ?_⟩
  intro field hfield
  rcases List.mem_cons.mp hfield with rfl | hfield
  · exact Or.inl rfl
  · rw [List.mem_singleton.mp hfield]
    exact Or.inr ⟨{ source := "header", field := "X-Order", required := true },
      Finmap.lookup_singleton_eq, "42", by decide, by decide⟩

/-- A mandatory field that is only enriched: the type complies with the policy,
    and the token does not have the field. -/
theorem enriched_field_missing :
    Controller.validateTransactionTypeAgainstPolicy Unicode.ascii tenSeconds orderType
        (some (orderPolicy ["region"])) = [] ∧
    Obtained Unicode.ascii Decoders.framed tenSeconds (orderServer ["region"] (5 * second)) orderEnv
      (orderHandler (5 * second)) orderType (.ok [orderPolicy ["region"]])
      { http := some orderHttp, source := none } orderHttp "short" ∧
    ∃ c, Token.claimsOf orderEnv.jwt "short" = some c ∧
      hasKey c.transactionContext "region" = false :=
  ⟨by decide, order_short ["region"], _, rfl, by decide⟩

/-- When the ceiling holds. Under an applicable policy whose ceiling is a
    duration, a token's lifetime in whole seconds is at most the ceiling, rounded
    up, exactly when the token service's own lifetime, counted from the start of
    the second it signs in, ends before the second after. -/
theorem lifetime_ceiling_iff (u : Unicode) (D : Decoders)
    (parseDuration : String → Except String Int) (s : GenerationServer) (env : Tts.Env)
    (h : Tts.Handler) (tt : V1alpha1.TransactionType)
    (listed : Except String (List V1alpha1.TokenPolicy)) (req : EntryRequest)
    (httpReq : EntryHttp) (tok : String)
    (hobt : Obtained u D parseDuration s env h tt listed req httpReq tok) :
    ∃ c, Token.claimsOf env.jwt tok = some c ∧ ∀ policy ceiling,
      Controller.findApplicablePolicy listed tt.nameSpace = .ok (some policy) →
      parseDuration policy.spec.constraints.maxTokenLifetime = .ok ceiling →
      (c.expiresAt - c.issuedAt ≤ ceilSeconds ceiling ↔
        env.now % second + h.lifetime < second * (ceilSeconds ceiling + 1)) := by
  rcases obtained_claims u D parseDuration s env h tt listed req httpReq tok hobt with
    ⟨c, hc, hiat, hexp, _⟩
  refine ⟨c, hc, fun policy ceiling _ _ => ?_⟩
  rw [hiat, hexp]
  unfold Token.unix second
  omega

/-- A lifetime within the ceiling keeps to it. -/
theorem lifetime_ceiling_iff_order :
    ∃ c, Token.claimsOf orderEnv.jwt "short" = some c ∧
      c.expiresAt - c.issuedAt ≤ ceilSeconds (10 * second) := by
  rcases lifetime_ceiling_iff Unicode.ascii Decoders.framed tenSeconds
    (orderServer [] (5 * second)) orderEnv (orderHandler (5 * second)) orderType _ _ orderHttp
    "short" (order_short _) with ⟨c, hc, hceiling⟩
  exact ⟨c, hc, (hceiling (orderPolicy []) (10 * second) rfl (by decide)).mpr (by decide)⟩

/-- The policy allows ten seconds, and the token is good for a minute. -/
theorem ceiling_exceeded :
    Controller.findApplicablePolicy (.ok [orderPolicy []]) orderType.nameSpace =
        .ok (some (orderPolicy [])) ∧
    tenSeconds (orderPolicy []).spec.constraints.maxTokenLifetime = .ok (10 * second) ∧
    Obtained Unicode.ascii Decoders.framed tenSeconds (orderServer [] (60 * second)) orderEnv
      (orderHandler (60 * second)) orderType (.ok [orderPolicy []])
      { http := some orderHttp, source := none } orderHttp "long" ∧
    ∃ c, Token.claimsOf orderEnv.jwt "long" = some c ∧ c.expiresAt - c.issuedAt = 60 ∧
      ceilSeconds (10 * second) = 10 :=
  ⟨rfl, by decide, order_long [], _, rfl, by decide, by decide⟩

end ExtAuth

end Kontxt
