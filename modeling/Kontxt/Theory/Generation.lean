import Kontxt.Theory.Sealing

/-!
# What the Adapter Sends

The decision of the adapter in generation mode, and what it tells the token
service. A request that matches no rule is passed through. For one that matches,
a subject is determined, fields are collected and the exchange is called; any of
the three may end in a denial.

Whether the exchange is called is a matter of the answer: `Sends` says that the
answer is what the client makes of one particular exchange, whatever client it
is. `sends_iff` then says everything a request that is sent has gone through,
and the results are read off it.

The fields are collected in the order a loop over a map meets them, which may be
any. Keys of a map are distinct, so the loop sets a field at most once, and what
is collected is the same in every order: the same fields with the same values.
Which of several missing fields a denial names does depend on the order.

Two fields of an exchange mean less than they seem to. The purpose is set before
the loop, so a mapping with the name `purpose` replaces it by what the caller
sent. And the requester context calls a request authenticated by OIDC whenever
it has an `Authorization` header, while only a header with the prefix `Bearer `
is used as a subject token.

## Main definitions

* `ExtAuth.Sends`: The exchange a request leads to.
* `ExtAuth.SubjectAvailable`, `ExtAuth.RequiredExtracted`: What a request must
  have.
* `ExtAuth.DetailSent`: The fields a request leads to.
* `ExtAuth.SameExchange`: Two exchanges that differ in the order of fields.
* `ExtAuth.Leads`: A request that matches a rule and leads to an exchange.

## Theorems

* `ExtAuth.lookup_extractFields`: The values the loop collects.
* `ExtAuth.sends_iff`: What a request that is sent has gone through.
* `ExtAuth.denies_any_order`: Which requests are denied is the same in any order.
* `ExtAuth.check_decision`: The decision, exactly.
* `ExtAuth.purpose_sent_iff`: When the purpose is the rule's.
* `ExtAuth.caller_chooses_purpose`: Two callers, two purposes.
* `ExtAuth.authn_recorded_iff`: When the recorded authentication is the one used.
* `ExtAuth.basic_recorded_as_oidc`: A workload recorded as an OIDC caller.
-/

namespace Kontxt

open Go Lib

namespace ExtAuth

section Collecting

variable (u : Unicode) (D : Decoders) (httpReq : EntryHttp)

/-- The values the loop collects: what was extracted for a field, and what the
    loop started with for a field for which nothing was. -/
theorem lookup_extractFields (mapped : List (String × V1alpha1.TctxFieldMapping))
    (hkeys : (mapped.map Prod.fst).Nodup) (o details : Object)
    (h : extractFields u D httpReq mapped o = .ok details) (field : String) (v : Json) :
    details.lookup field = some v ↔
      (∃ m val, (field, m) ∈ mapped ∧ extractTctxField u D httpReq m = .ok val ∧ val ≠ "" ∧
        v = .str val) ∨
      ((∀ m, (field, m) ∈ mapped → ¬Extracted u D httpReq m) ∧ o.lookup field = some v) := by
  -- The object collected so far varies, so the loop is followed from any.
  induction mapped generalizing o with
  | nil =>
      cases h
      simp
  | cons entry rest ih =>
      rcases entry with ⟨name, mapping⟩
      rw [List.map_cons, List.nodup_cons] at hkeys
      have hfresh : ∀ m, (name, m) ∉ rest := by
        intro m hm
        exact hkeys.1 (List.mem_map.mpr ⟨(name, m), hm, rfl⟩)
      rcases extractFields_cons u D httpReq name mapping rest o with
        ⟨val, hval, hne, hset⟩ | ⟨_, _, message, hdenied⟩ | ⟨hnot, _, hskip⟩
      · rw [ih hkeys.2 _ (hset.symm.trans h), Object.lookup_set]
        by_cases hfield : field = name
        · -- The field is set here and nowhere in the rest.
          subst hfield
          have hextracted : Extracted u D httpReq mapping := ⟨val, hval, hne⟩
          simp [hfresh, hextracted, hval, hne, eq_comm]
        · simp [hfield]
      · cases hdenied.symm.trans h
      · rw [ih hkeys.2 o (hskip.symm.trans h)]
        by_cases hfield : field = name
        · -- Nothing was extracted for it here, and it does not come again.
          subst hfield
          have hvalues : ∀ val, extractTctxField u D httpReq mapping = .ok val → val = "" := by
            intro val hval
            by_contra hne
            exact hnot ⟨val, hval, hne⟩
          have hnone : ¬∃ m val, (m = mapping ∨ (field, m) ∈ rest) ∧
              extractTctxField u D httpReq m = .ok val ∧ val ≠ "" ∧ v = .str val := by
            intro hgiven
            rcases hgiven with ⟨m, val, rfl | hm, hval, hne, _⟩
            · exact hne (hvalues val hval)
            · exact hfresh m hm
          simp only [List.mem_cons, Prod.mk.injEq, true_and, hnone, false_or]
          simp [hfresh, hnot]
        · simp [hfield]

end Collecting

section Sending

variable (u : Unicode) (D : Decoders)

/-- The answer for what the client returns. -/
def answer : Except String String → CheckResponse
  | .error e => denied .internal ("token exchange failed: " ++ e)
  | .ok txToken => allowedWithHeaders [(Token.headerName, txToken)]

/-- A response that denies. -/
def Denies (resp : CheckResponse) : Prop :=
  ∃ code message, resp = denied code message

theorem not_denies_allowedWithHeaders (headers : List (String × String)) :
    ¬Denies (allowedWithHeaders headers) := by
  intro h
  rcases h with ⟨code, message, h⟩
  cases congrArg CheckResponse.status h

/-- The exchange a request leads to: the response is what the client, whatever it
    is, makes of this exchange. -/
def Sends (s : GenerationServer) (mapped : List (String × V1alpha1.TctxFieldMapping))
    (req : EntryRequest) (x : SdkTts.ExchangeRequest) : Prop :=
  ∀ client, GenerationServer.check u D { s with ttsClient := client } mapped req =
    answer (client x)

/-- A response that does not depend on the client is for no exchange. -/
theorem not_sends_const (resp : CheckResponse) (x : SdkTts.ExchangeRequest) :
    ¬∀ client : SdkTts.ExchangeRequest → Except String String, resp = answer (client x) := by
  intro h
  have hfailed : resp = answer (.error "") := h fun _ => .error ""
  have hpassed : resp = answer (.ok "") := h fun _ => .ok ""
  have hsame := hfailed.symm.trans hpassed
  exact not_denies_allowedWithHeaders _ ⟨_, _, hsame.symm⟩

/-- A response is for one exchange only. -/
theorem answer_exchange_inj (x y : SdkTts.ExchangeRequest)
    (h : ∀ client : SdkTts.ExchangeRequest → Except String String,
      answer (client y) = answer (client x)) : x = y := by
  by_contra hne
  -- A client that tells the two apart.
  have hclient := h fun z => if z = y then .error "" else .ok ""
  simp only [if_true, if_neg hne] at hclient
  exact not_denies_allowedWithHeaders _ ⟨_, _, hclient.symm⟩

/-- A request that is sent has matched a rule, and its subject and its fields were
    found. -/
theorem sends_iff (s : GenerationServer) (mapped : List (String × V1alpha1.TctxFieldMapping))
    (req : EntryRequest) (x : SdkTts.ExchangeRequest) :
    Sends u D s mapped req x ↔ ∃ httpReq rule subject details, req.http = some httpReq ∧
      findMatchingRule u s.generationRules httpReq.path httpReq.method = some rule ∧
      s.subjectToken u req (getHeader u httpReq.headers "Authorization") = .ok subject ∧
      extractFields u D httpReq mapped [("purpose", .str rule.purpose)] = .ok details ∧
      x = entryExchange rule subject details (getHeader u httpReq.headers "Authorization")
        (extractSourceAddress req) := by
  unfold Sends GenerationServer.check
  -- Each way to stop before the exchange answers without asking the client.
  cases req.http with
  | none => simpa using not_sends_const _ x
  | some httpReq =>
      simp only [Option.some.injEq, exists_and_left, exists_eq_left']
      cases findMatchingRule u s.generationRules httpReq.path httpReq.method with
      | none => simpa using not_sends_const _ x
      | some rule =>
          simp only [Option.some.injEq, exists_eq_left']
          have hsubject : ∀ client, GenerationServer.subjectToken u
              { s with ttsClient := client } req (getHeader u httpReq.headers "Authorization") =
                s.subjectToken u req (getHeader u httpReq.headers "Authorization") :=
            fun _ => rfl
          simp only [hsubject]
          cases s.subjectToken u req (getHeader u httpReq.headers "Authorization") with
          | error e => simpa using not_sends_const _ x
          | ok subject =>
              simp only [Except.ok.injEq, exists_eq_left']
              cases extractFields u D httpReq mapped [("purpose", .str rule.purpose)] with
              | error resp => simpa using not_sends_const resp x
              | ok details =>
                  simp only [Except.ok.injEq, exists_eq_left']
                  constructor
                  · intro h
                    -- All clients agree on the answer, so they were given the same.
                    refine answer_exchange_inj x _ fun client => ?_
                    rw [← h client]
                    cases client (entryExchange rule subject details _ _) <;> rfl
                  · intro h client
                    rw [h]
                    cases client (entryExchange rule subject details _ _) <;> rfl

/-- A subject is available: a bearer token, or a workload that can be resolved. -/
def SubjectAvailable (s : GenerationServer) (req : EntryRequest) (httpReq : EntryHttp) : Prop :=
  hasPrefix (getHeader u httpReq.headers "Authorization") "Bearer " = true ∨
    ∃ identity, s.identityResolver.resolve u ((req.source.map Source.principal).getD "")
      (extractSourceAddress req) = .ok identity

/-- Every required mapping gives a value. -/
def RequiredExtracted (httpReq : EntryHttp) (rule : GenerationRule) : Prop :=
  ∀ field m, rule.tctxMapping.lookup field = some m → m.required = true →
    Extracted u D httpReq m

/-- A field and the value it is sent with: what its mapping gives, or the rule's
    purpose if no mapping gives one. -/
def DetailSent (httpReq : EntryHttp) (rule : GenerationRule) (field : String) (v : Json) : Prop :=
  (∃ m val, rule.tctxMapping.lookup field = some m ∧
    extractTctxField u D httpReq m = .ok val ∧ val ≠ "" ∧ v = .str val) ∨
  ((∀ m, rule.tctxMapping.lookup field = some m → ¬Extracted u D httpReq m) ∧
    field = "purpose" ∧ v = .str rule.purpose)

theorem ne_empty_of_bearer (authHeader : String)
    (hbearer : hasPrefix authHeader "Bearer " = true) : authHeader ≠ "" := by
  intro hempty
  rw [hempty] at hbearer
  exact absurd hbearer (by decide)

/-- A bearer token is the subject; without one the workload is. -/
theorem subjectToken_cases (s : GenerationServer) (req : EntryRequest) (authHeader : String)
    (subject : String × String) :
    s.subjectToken u req authHeader = .ok subject ↔
      (hasPrefix authHeader "Bearer " = true ∧
        subject = (trimPrefix authHeader "Bearer ", Token.subjectTokenTypeAccessToken)) ∨
      (hasPrefix authHeader "Bearer " = false ∧
        ∃ identity, s.identityResolver.resolve u ((req.source.map Source.principal).getD "")
            (extractSourceAddress req) = .ok identity ∧
          subject = (identity.subject, subjectTokenTypeServiceAccount)) := by
  unfold GenerationServer.subjectToken
  cases hbearer : hasPrefix authHeader "Bearer " with
  | true =>
      simp [ne_empty_of_bearer authHeader hbearer, eq_comm]
  | false =>
      simp only [Bool.false_eq_true, and_false, if_false, false_and, false_or, true_and]
      cases s.identityResolver.resolve u ((req.source.map Source.principal).getD "")
          (extractSourceAddress req) with
      | error e => simp
      | ok identity => simp [eq_comm]

theorem subjectAvailable_iff (s : GenerationServer) (req : EntryRequest) (httpReq : EntryHttp) :
    SubjectAvailable u s req httpReq ↔
      ∃ subject, s.subjectToken u req (getHeader u httpReq.headers "Authorization") =
        .ok subject := by
  unfold SubjectAvailable
  simp only [subjectToken_cases]
  cases hasPrefix (getHeader u httpReq.headers "Authorization") "Bearer " with
  | true => simp
  | false =>
      simp only [Bool.false_eq_true, false_or, false_and, true_and]
      constructor
      · intro h
        rcases h with ⟨identity, hidentity⟩
        exact ⟨_, identity, hidentity, rfl⟩
      · intro h
        rcases h with ⟨_, identity, hidentity, _⟩
        exact ⟨identity, hidentity⟩

/-- The fields an exchange is sent with, in whatever order they were collected. -/
theorem lookup_details_iff (httpReq : EntryHttp) (rule : GenerationRule)
    (mapped : List (String × V1alpha1.TctxFieldMapping))
    (hmapped : RangesEntries rule.tctxMapping mapped) (details : Object)
    (h : extractFields u D httpReq mapped [("purpose", .str rule.purpose)] = .ok details)
    (field : String) (v : Json) :
    details.lookup field = some v ↔ DetailSent u D httpReq rule field v := by
  -- The loop starts with the purpose and nothing else.
  have hstart : ([("purpose", Json.str rule.purpose)] : Object).lookup field = some v ↔
      field = "purpose" ∧ v = .str rule.purpose := by
    by_cases hfield : field = "purpose"
    · simp [hfield, eq_comm]
    · simp [hfield, List.lookup_cons, beq_eq_false_iff_ne.mpr hfield]
  rw [lookup_extractFields u D httpReq mapped (nodup_of_rangesEntries hmapped) _ details h, hstart]
  simp only [mem_of_rangesEntries hmapped, DetailSent]

/-- Two exchanges that differ in nothing but the order of the fields. -/
structure SameExchange (x y : SdkTts.ExchangeRequest) : Prop where
  rest : { x with requestDetails := none } = { y with requestDetails := none }
  details : ∀ field, (x.requestDetails.getD []).lookup field =
    (y.requestDetails.getD []).lookup field

/-- A request that matches a rule and leads to an exchange, with the mapping met
    in some order. -/
structure Leads (s : GenerationServer) (rule : GenerationRule) (req : EntryRequest)
    (httpReq : EntryHttp) (x : SdkTts.ExchangeRequest) : Prop where
  http : req.http = some httpReq
  matched : findMatchingRule u s.generationRules httpReq.path httpReq.method = some rule
  sends : ∃ mapped, RangesEntries rule.tctxMapping mapped ∧ Sends u D s mapped req x

/-- What is known of an exchange a request leads to. -/
theorem Leads.exchange (s : GenerationServer) (rule : GenerationRule) (req : EntryRequest)
    (httpReq : EntryHttp) (x : SdkTts.ExchangeRequest) (h : Leads u D s rule req httpReq x) :
    ∃ subject details,
      s.subjectToken u req (getHeader u httpReq.headers "Authorization") = .ok subject ∧
      (∀ field v, details.lookup field = some v ↔ DetailSent u D httpReq rule field v) ∧
      x = entryExchange rule subject details (getHeader u httpReq.headers "Authorization")
        (extractSourceAddress req) := by
  rcases h.sends with ⟨mapped, hmapped, hsends⟩
  rcases (sends_iff u D s mapped req x).mp hsends with
    ⟨httpReq', rule', subject, details, hhttp, hrule, hsubject, hdetails, hx⟩
  cases h.http.symm.trans hhttp
  cases h.matched.symm.trans hrule
  exact ⟨subject, details, hsubject, lookup_details_iff u D httpReq rule mapped hmapped details
    hdetails, hx⟩

/-- All orders lead to the same exchange. -/
theorem Leads.same (s : GenerationServer) (rule : GenerationRule) (req : EntryRequest)
    (httpReq : EntryHttp) (x y : SdkTts.ExchangeRequest) (hx : Leads u D s rule req httpReq x)
    (hy : Leads u D s rule req httpReq y) : SameExchange x y := by
  rcases hx.exchange with ⟨subject, details, hsubject, hlookup, rfl⟩
  rcases hy.exchange with ⟨subject', details', hsubject', hlookup', rfl⟩
  cases hsubject.symm.trans hsubject'
  refine ⟨rfl, fun field => ?_⟩
  show details.lookup field = details'.lookup field
  apply Option.ext
  intro v
  rw [hlookup, hlookup']

/-- Whether a request that matches a rule is sent does not depend on the order. -/
theorem exists_sends_iff (s : GenerationServer) (rule : GenerationRule) (req : EntryRequest)
    (httpReq : EntryHttp) (hhttp : req.http = some httpReq)
    (hrule : findMatchingRule u s.generationRules httpReq.path httpReq.method = some rule)
    (mapped : List (String × V1alpha1.TctxFieldMapping))
    (hmapped : RangesEntries rule.tctxMapping mapped) :
    (∃ x, Sends u D s mapped req x) ↔
      SubjectAvailable u s req httpReq ∧ RequiredExtracted u D httpReq rule := by
  have hrequired : RequiredExtracted u D httpReq rule ↔
      ∃ details, extractFields u D httpReq mapped [("purpose", .str rule.purpose)] =
        .ok details := by
    rw [extractFields_ok_iff]
    unfold RequiredExtracted
    simp only [← mem_of_rangesEntries hmapped, Prod.forall]
  rw [subjectAvailable_iff, hrequired]
  simp only [sends_iff]
  constructor
  · intro h
    rcases h with ⟨x, httpReq', rule', subject, details, hhttp', hrule', hsubject, hdetails, _⟩
    cases hhttp.symm.trans hhttp'
    cases hrule.symm.trans hrule'
    exact ⟨⟨subject, hsubject⟩, details, hdetails⟩
  · intro h
    rcases h with ⟨⟨subject, hsubject⟩, details, hdetails⟩
    exact ⟨_, httpReq, rule, subject, details, hhttp, hrule, hsubject, hdetails, rfl⟩

/-- A request that matches a rule and is not sent is denied. -/
theorem denies_of_not_sends (s : GenerationServer) (rule : GenerationRule) (req : EntryRequest)
    (httpReq : EntryHttp) (hhttp : req.http = some httpReq)
    (hrule : findMatchingRule u s.generationRules httpReq.path httpReq.method = some rule)
    (mapped : List (String × V1alpha1.TctxFieldMapping))
    (h : ¬∃ x, Sends u D s mapped req x) : Denies (s.check u D mapped req) := by
  simp only [sends_iff] at h
  unfold GenerationServer.check
  simp only [hhttp, hrule]
  cases hsubject : s.subjectToken u req (getHeader u httpReq.headers "Authorization") with
  | error e => exact ⟨_, _, rfl⟩
  | ok subject =>
      cases hfields : extractFields u D httpReq mapped [("purpose", .str rule.purpose)] with
      | error resp =>
          rcases extractFields_error u D httpReq mapped _ resp hfields with ⟨message, rfl⟩
          exact ⟨_, _, rfl⟩
      | ok details =>
          exact absurd ⟨_, httpReq, rule, subject, details, hhttp, hrule, hsubject, hfields, rfl⟩ h

/-- A request that is sent is answered by what the server's own client returns. -/
theorem check_of_sends (s : GenerationServer)
    (mapped : List (String × V1alpha1.TctxFieldMapping)) (req : EntryRequest)
    (x : SdkTts.ExchangeRequest) (h : Sends u D s mapped req x) :
    s.check u D mapped req = answer (s.ttsClient x) :=
  h s.ttsClient

theorem denies_answer_iff (result : Except String String) :
    Denies (answer result) ↔ ∃ e, result = .error e := by
  cases result with
  | error e => exact iff_of_true ⟨_, _, rfl⟩ ⟨e, rfl⟩
  | ok tok => exact iff_of_false (not_denies_allowedWithHeaders _) (by simp)

/-- A request is passed through exactly when no rule matches. -/
theorem check_eq_allowed_iff (s : GenerationServer)
    (mapped : List (String × V1alpha1.TctxFieldMapping)) (req : EntryRequest)
    (httpReq : EntryHttp) (hhttp : req.http = some httpReq) :
    s.check u D mapped req = allowed ↔
      findMatchingRule u s.generationRules httpReq.path httpReq.method = none := by
  cases hrule : findMatchingRule u s.generationRules httpReq.path httpReq.method with
  | none =>
      unfold GenerationServer.check
      simp only [hhttp, hrule]
  | some rule =>
      simp only [reduceCtorEq, iff_false]
      intro hallowed
      -- An exchange that succeeds adds a header, and all else is denied.
      by_cases hsends : ∃ x, Sends u D s mapped req x
      · rcases hsends with ⟨x, hx⟩
        rw [check_of_sends u D s mapped req x hx] at hallowed
        cases hresult : s.ttsClient x with
        | error e =>
            rw [hresult] at hallowed
            cases congrArg CheckResponse.httpResponse hallowed
        | ok tok =>
            rw [hresult] at hallowed
            cases congrArg CheckResponse.status hallowed
      · rcases denies_of_not_sends u D s rule req httpReq hhttp hrule mapped hsends with
          ⟨code, message, hdenied⟩
        rw [hallowed] at hdenied
        cases congrArg CheckResponse.httpResponse hdenied

/-- A client that does not see the order of the fields answers a request alike
    whichever order the mapping is met in. -/
theorem denies_any_order (s : GenerationServer) (rule : GenerationRule) (req : EntryRequest)
    (httpReq : EntryHttp) (hhttp : req.http = some httpReq)
    (hrule : findMatchingRule u s.generationRules httpReq.path httpReq.method = some rule)
    (hclient : ∀ x y, SameExchange x y → s.ttsClient x = s.ttsClient y)
    (mapped mapped' : List (String × V1alpha1.TctxFieldMapping))
    (hmapped : RangesEntries rule.tctxMapping mapped)
    (hmapped' : RangesEntries rule.tctxMapping mapped') :
    Denies (s.check u D mapped req) ↔ Denies (s.check u D mapped' req) := by
  have hexists := exists_sends_iff u D s rule req httpReq hhttp hrule
  by_cases hsends : ∃ x, Sends u D s mapped req x
  · -- Sent in one order, sent in the other, and answered alike.
    have hsends' := (hexists mapped' hmapped').mpr ((hexists mapped hmapped).mp hsends)
    rcases hsends with ⟨x, hx⟩
    rcases hsends' with ⟨y, hy⟩
    have hsame := Leads.same u D s rule req httpReq x y ⟨hhttp, hrule, mapped, hmapped, hx⟩
      ⟨hhttp, hrule, mapped', hmapped', hy⟩
    rw [check_of_sends u D s mapped req x hx, check_of_sends u D s mapped' req y hy,
      hclient x y hsame]
  · have hsends' : ¬∃ y, Sends u D s mapped' req y := by
      intro hy
      exact hsends ((hexists mapped hmapped).mpr ((hexists mapped' hmapped').mp hy))
    exact iff_of_true
      (denies_of_not_sends u D s rule req httpReq hhttp hrule mapped hsends)
      (denies_of_not_sends u D s rule req httpReq hhttp hrule mapped' hsends')

/-- The decision, exactly. A request with HTTP attributes is passed through
    without a header exactly when no rule matches. If a rule is the first to
    match, then with the rule's mapping met in any order: an exchange is sent
    exactly when a subject is available and every required mapping gives a value;
    its details are the fields whose mapping gives a value, with that value, the
    purpose with the rule's unless a mapping of that name gives one, and nothing
    else; the request is denied when nothing is sent and when the exchange fails,
    and gets the token as a header when it succeeds. In any other order the same
    exchange is sent, up to the order of the fields; and for a client that does
    not look at that order, the same requests are denied. -/
theorem check_decision (s : GenerationServer) (req : EntryRequest) (httpReq : EntryHttp)
    (hhttp : req.http = some httpReq) :
    (∀ mapped, s.check u D mapped req = allowed ↔
      findMatchingRule u s.generationRules httpReq.path httpReq.method = none) ∧
    ∀ rule, findMatchingRule u s.generationRules httpReq.path httpReq.method = some rule →
      ∀ mapped, RangesEntries rule.tctxMapping mapped →
      ((∃ x, Sends u D s mapped req x) ↔
        SubjectAvailable u s req httpReq ∧ RequiredExtracted u D httpReq rule) ∧
      (∀ x, Sends u D s mapped req x →
        (∃ details, x.requestDetails = some details ∧
          ∀ field v, details.lookup field = some v ↔ DetailSent u D httpReq rule field v) ∧
        (∀ e, s.ttsClient x = .error e → Denies (s.check u D mapped req)) ∧
        ∀ tok, s.ttsClient x = .ok tok →
          s.check u D mapped req = allowedWithHeaders [(Token.headerName, tok)]) ∧
      ((¬∃ x, Sends u D s mapped req x) → Denies (s.check u D mapped req)) ∧
      ∀ mapped', RangesEntries rule.tctxMapping mapped' →
        (∀ x y, Sends u D s mapped req x → Sends u D s mapped' req y → SameExchange x y) ∧
        ((∀ x y, SameExchange x y → s.ttsClient x = s.ttsClient y) →
          (Denies (s.check u D mapped req) ↔ Denies (s.check u D mapped' req))) := by
  refine ⟨fun mapped => check_eq_allowed_iff u D s mapped req httpReq hhttp, ?_⟩
  intro rule hrule mapped hmapped
  refine ⟨exists_sends_iff u D s rule req httpReq hhttp hrule mapped hmapped, ?_,
    denies_of_not_sends u D s rule req httpReq hhttp hrule mapped, ?_⟩
  · intro x hx
    have hcheck := check_of_sends u D s mapped req x hx
    rcases Leads.exchange u D s rule req httpReq x ⟨hhttp, hrule, mapped, hmapped, hx⟩ with
      ⟨subject, details, _, hlookup, rfl⟩
    refine ⟨⟨details, rfl, hlookup⟩, ?_, ?_⟩
    · intro e he
      rw [hcheck, denies_answer_iff]
      exact ⟨e, he⟩
    · intro tok htok
      rw [hcheck, htok]
      rfl
  · intro mapped' hmapped'
    constructor
    · intro x y hx hy
      exact Leads.same u D s rule req httpReq x y ⟨hhttp, hrule, mapped, hmapped, hx⟩
        ⟨hhttp, hrule, mapped', hmapped', hy⟩
    · intro hclient
      exact denies_any_order u D s rule req httpReq hhttp hrule hclient mapped mapped' hmapped
        hmapped'

end Sending

section Sample

/-- A rule that takes one field from a header. -/
def reportRule (field : String) (required : Bool) : GenerationRule where
  nameSpace := "shop"
  name := "report"
  endpoint := { path := "/report", method := "POST" }
  purpose := "report"
  scope := "report"
  tctxMapping := Finmap.singleton field
    { source := "header", field := "X-Field", required := required }
  tctxEnrichments := []
  rctxFields := []
  tokenLifetime := ""

/-- A resolver that knows one pod. -/
def cartResolver : IdentityResolver where
  pods := Finmap.singleton "10.0.0.7"
    { name := "cart-0", nameSpace := "shop", serviceAccount := "cart" }

/-- The adapter with that rule, and one pod. -/
def reportServer (field : String) (required : Bool) : GenerationServer where
  ttsClient := fun _ => .ok "t"
  identityResolver := cartResolver
  generationRules := [reportRule field required]

/-- A request with an `Authorization` header and the field. -/
def reportHttp (authorization value : String) : EntryHttp where
  path := "/report"
  method := "POST"
  headers := (AList.singleton "authorization" authorization).insert "x-field" value
  body := ""

/-- The request, from the address of the pod. -/
def reportRequest (authorization value : String) : EntryRequest where
  http := some (reportHttp authorization value)
  source := some { principal := "", socketAddress := some "10.0.0.7" }

theorem reportRule_matches (field : String) (required : Bool) (authorization value : String) :
    findMatchingRule Unicode.ascii (reportServer field required).generationRules
      (reportHttp authorization value).path (reportHttp authorization value).method =
        some (reportRule field required) := by
  refine List.find?_cons_of_pos ?_
  show ruleMatches Unicode.ascii "/report" "POST" (reportRule "" true) = true
  decide +kernel

/-- The exchange such a request leads to. -/
theorem reportRequest_leads (field : String) (required : Bool) (authorization value : String)
    (subject : String × String) (details : Object)
    (hsubject : (reportServer field required).subjectToken Unicode.ascii
      (reportRequest authorization value)
      (getHeader Unicode.ascii (reportHttp authorization value).headers "Authorization") =
        .ok subject)
    (hdetails : extractFields Unicode.ascii Decoders.framed (reportHttp authorization value)
      [(field, { source := "header", field := "X-Field", required := required })]
      [("purpose", .str "report")] = .ok details) :
    Leads Unicode.ascii Decoders.framed (reportServer field required) (reportRule field required)
      (reportRequest authorization value) (reportHttp authorization value)
      (entryExchange (reportRule field required) subject details
        (getHeader Unicode.ascii (reportHttp authorization value).headers "Authorization")
        "10.0.0.7") := by
  refine ⟨rfl, reportRule_matches field required authorization value,
    [(field, { source := "header", field := "X-Field", required := required })], rfl, ?_⟩
  exact (sends_iff _ _ _ _ _ _).mpr ⟨_, _, subject, details, rfl,
    reportRule_matches field required authorization value, hsubject, hdetails, rfl⟩

end Sample

/-- A request with a bearer token and the required field is sent. -/
theorem check_decision_report :
    ∃ x, Sends Unicode.ascii Decoders.framed (reportServer "team" true)
        [("team", { source := "header", field := "X-Field", required := true })]
        (reportRequest "Bearer t" "blue") x ∧
      ∃ details, x.requestDetails = some details ∧
        details.lookup "team" = some (.str "blue") := by
  have hdecision := (check_decision Unicode.ascii Decoders.framed (reportServer "team" true)
    (reportRequest "Bearer t" "blue") (reportHttp "Bearer t" "blue") rfl).2 _
    (reportRule_matches "team" true "Bearer t" "blue") _ rfl
  have hextracted : extractTctxField Unicode.ascii Decoders.framed (reportHttp "Bearer t" "blue")
      { source := "header", field := "X-Field", required := true } = .ok "blue" := by
    decide
  have hrequired : RequiredExtracted Unicode.ascii Decoders.framed (reportHttp "Bearer t" "blue")
      (reportRule "team" true) := by
    intro field m hm _
    have hentry := Multiset.mem_singleton.mp (Finmap.lookup_eq_some_iff.mp hm)
    cases hentry
    exact ⟨"blue", hextracted, by decide⟩
  rcases hdecision.1.mpr ⟨Or.inl (by decide), hrequired⟩ with ⟨x, hx⟩
  rcases (hdecision.2.1 x hx).1 with ⟨details, hdetails, hlookup⟩
  refine ⟨x, hx, details, hdetails, (hlookup "team" _).mpr (Or.inl ?_)⟩
  exact ⟨_, "blue", Finmap.lookup_singleton_eq, hextracted, by decide, rfl⟩

section Purpose

variable (u : Unicode) (D : Decoders)

/-- The purpose an exchange is sent with. -/
def purposeSent (x : SdkTts.ExchangeRequest) : Option Json :=
  (x.requestDetails.getD []).lookup "purpose"

/-- On a request, a mapping gives nothing or the rule's purpose. -/
def KeepsPurpose (httpReq : EntryHttp) (rule : GenerationRule)
    (m : V1alpha1.TctxFieldMapping) : Prop :=
  ∀ val, extractTctxField u D httpReq m = .ok val → val = "" ∨ val = rule.purpose

/-- One request is sent with the rule's purpose exactly when a mapping of that
    name gives nothing else. -/
theorem purposeSent_eq_iff (s : GenerationServer) (rule : GenerationRule) (req : EntryRequest)
    (httpReq : EntryHttp) (x : SdkTts.ExchangeRequest) (h : Leads u D s rule req httpReq x) :
    purposeSent x = some (.str rule.purpose) ↔
      ∀ m, rule.tctxMapping.lookup "purpose" = some m → KeepsPurpose u D httpReq rule m := by
  rcases h.exchange with ⟨subject, details, _, hlookup, rfl⟩
  show details.lookup "purpose" = some (.str rule.purpose) ↔ _
  rw [hlookup]
  constructor
  · intro hsent m hm val hval
    by_cases hempty : val = ""
    · exact Or.inl hempty
    · rcases hsent with ⟨m', val', hm', hval', _, hsame⟩ | ⟨hnone, _⟩
      · cases hm.symm.trans hm'
        cases hval.symm.trans hval'
        exact Or.inr (Json.str.inj hsame).symm
      · exact absurd ⟨val, hval, hempty⟩ (hnone m hm)
  · intro hkeeps
    -- What the mapping gives replaces the purpose the loop started with.
    by_cases hextracted : ∃ m, rule.tctxMapping.lookup "purpose" = some m ∧
        Extracted u D httpReq m
    · rcases hextracted with ⟨m, hm, val, hval, hne⟩
      have hsame : val = rule.purpose := (hkeeps m hm val hval).resolve_left hne
      exact Or.inl ⟨m, val, hm, hval, hne, congrArg Json.str hsame.symm⟩
    · refine Or.inr ⟨?_, rfl, rfl⟩
      intro m hm hm'
      exact hextracted ⟨m, hm, hm'⟩

/-- When the purpose is the rule's. Any two requests that match a rule and lead
    to an exchange are sent with the same purpose, and that the rule's, exactly
    when a mapping with the name `purpose`, if the rule has one, gives nothing on
    either request, or the rule's purpose. In particular they are if the rule
    has no such mapping. -/
theorem purpose_sent_iff (s₁ s₂ : GenerationServer) (rule : GenerationRule)
    (req₁ req₂ : EntryRequest) (httpReq₁ httpReq₂ : EntryHttp) (x₁ x₂ : SdkTts.ExchangeRequest)
    (h₁ : Leads u D s₁ rule req₁ httpReq₁ x₁) (h₂ : Leads u D s₂ rule req₂ httpReq₂ x₂) :
    (purposeSent x₁ = purposeSent x₂ ∧ purposeSent x₁ = some (.str rule.purpose)) ↔
      ∀ m, rule.tctxMapping.lookup "purpose" = some m →
        KeepsPurpose u D httpReq₁ rule m ∧ KeepsPurpose u D httpReq₂ rule m := by
  have hfirst := purposeSent_eq_iff u D s₁ rule req₁ httpReq₁ x₁ h₁
  have hsecond := purposeSent_eq_iff u D s₂ rule req₂ httpReq₂ x₂ h₂
  constructor
  · intro h m hm
    exact ⟨hfirst.mp h.2 m hm, hsecond.mp (h.1.symm.trans h.2) m hm⟩
  · intro h
    have hp₁ := hfirst.mpr fun m hm => (h m hm).1
    have hp₂ := hsecond.mpr fun m hm => (h m hm).2
    exact ⟨hp₁.trans hp₂.symm, hp₁⟩

end Purpose

/-- A rule without a mapping for the purpose: both callers get the rule's. -/
theorem purpose_sent_report :
    ∃ x₁ x₂, Leads Unicode.ascii Decoders.framed (reportServer "team" true)
        (reportRule "team" true) (reportRequest "Bearer t" "blue") (reportHttp "Bearer t" "blue")
        x₁ ∧
      Leads Unicode.ascii Decoders.framed (reportServer "team" true) (reportRule "team" true)
        (reportRequest "Bearer t" "red") (reportHttp "Bearer t" "red") x₂ ∧
      purposeSent x₁ = purposeSent x₂ ∧ purposeSent x₁ = some (.str "report") := by
  have hblue := reportRequest_leads "team" true "Bearer t" "blue"
    ("t", Token.subjectTokenTypeAccessToken) [("team", .str "blue"), ("purpose", .str "report")]
    (by decide) (by decide)
  have hred := reportRequest_leads "team" true "Bearer t" "red"
    ("t", Token.subjectTokenTypeAccessToken) [("team", .str "red"), ("purpose", .str "report")]
    (by decide) (by decide)
  refine ⟨_, _, hblue, hred, (purpose_sent_iff Unicode.ascii Decoders.framed _ _ _ _ _ _ _ _ _
    hblue hred).mpr ?_⟩
  intro m hm
  have hentry := Multiset.mem_singleton.mp (Finmap.lookup_eq_some_iff.mp hm)
  have hkey : "purpose" = "team" := congrArg Sigma.fst hentry
  exact absurd hkey (by decide)

/-- A rule that maps the purpose from a header: two callers match it, and each
    has the purpose it sent. -/
theorem caller_chooses_purpose :
    ∃ x₁ x₂, Leads Unicode.ascii Decoders.framed (reportServer "purpose" false)
        (reportRule "purpose" false) (reportRequest "Bearer t" "audit")
        (reportHttp "Bearer t" "audit") x₁ ∧
      Leads Unicode.ascii Decoders.framed (reportServer "purpose" false)
        (reportRule "purpose" false) (reportRequest "Bearer t" "refund")
        (reportHttp "Bearer t" "refund") x₂ ∧
      (reportRule "purpose" false).purpose = "report" ∧
      purposeSent x₁ = some (.str "audit") ∧ purposeSent x₂ = some (.str "refund") :=
  ⟨_, _, reportRequest_leads "purpose" false "Bearer t" "audit"
      ("t", Token.subjectTokenTypeAccessToken) [("purpose", .str "audit")] (by decide)
      (by decide),
    reportRequest_leads "purpose" false "Bearer t" "refund"
      ("t", Token.subjectTokenTypeAccessToken) [("purpose", .str "refund")] (by decide)
      (by decide),
    rfl, by decide, by decide⟩

section Authentication

variable (u : Unicode) (D : Decoders)

/-- The authentication method an exchange is sent with. -/
def authnRecorded (x : SdkTts.ExchangeRequest) : Option Json :=
  (x.requestContext.getD []).lookup "authn"

/-- The subject of an exchange is the caller's bearer token. -/
def BearerUsed (httpReq : EntryHttp) (x : SdkTts.ExchangeRequest) : Prop :=
  x.subjectToken = trimPrefix (getHeader u httpReq.headers "Authorization") "Bearer " ∧
    x.subjectTokenType = Token.subjectTokenTypeAccessToken

/-- The subject of an exchange is the workload the request comes from. -/
def WorkloadUsed (s : GenerationServer) (req : EntryRequest) (x : SdkTts.ExchangeRequest) : Prop :=
  ∃ identity, s.identityResolver.resolve u ((req.source.map Source.principal).getD "")
      (extractSourceAddress req) = .ok identity ∧
    x.subjectToken = identity.subject ∧ x.subjectTokenType = subjectTokenTypeServiceAccount

theorem authn_requestContext (authHeader sourceAddr : String) :
    (requestContext authHeader sourceAddr).lookup "authn" =
      some (.str (if authHeader ≠ "" then "oidc" else "kubernetes-sa")) := by
  unfold requestContext
  by_cases haddr : sourceAddr ≠ ""
  · simp [haddr, List.lookup_cons]
  · simp [haddr]

/-- When the recorded authentication is the one used. For every request that
    leads to an exchange: the requester context says `oidc` exactly for the
    caller's bearer token and `kubernetes-sa` exactly for the resolved workload,
    if and only if the `Authorization` header is absent or empty, or has the
    prefix `Bearer `. -/
theorem authn_recorded_iff (s : GenerationServer)
    (mapped : List (String × V1alpha1.TctxFieldMapping)) (req : EntryRequest)
    (httpReq : EntryHttp) (hhttp : req.http = some httpReq) (x : SdkTts.ExchangeRequest)
    (h : Sends u D s mapped req x) :
    ((authnRecorded x = some (.str "oidc") ↔ BearerUsed u httpReq x) ∧
      (authnRecorded x = some (.str "kubernetes-sa") ↔ WorkloadUsed u s req x)) ↔
    getHeader u httpReq.headers "Authorization" = "" ∨
      hasPrefix (getHeader u httpReq.headers "Authorization") "Bearer " = true := by
  rcases (sends_iff u D s mapped req x).mp h with
    ⟨httpReq', rule, subject, details, hhttp', _, hsubject, _, rfl⟩
  cases hhttp.symm.trans hhttp'
  have hauthn : ∀ method, authnRecorded (entryExchange rule subject details
      (getHeader u httpReq.headers "Authorization") (extractSourceAddress req)) =
        some (.str method) ↔
      (if getHeader u httpReq.headers "Authorization" ≠ "" then "oidc" else "kubernetes-sa") =
        method := by
    intro method
    show (requestContext _ _).lookup "authn" = _ ↔ _
    rw [authn_requestContext, Option.some.injEq, Json.str.injEq]
  have htypes : subjectTokenTypeServiceAccount ≠ Token.subjectTokenTypeAccessToken := by decide
  rw [hauthn, hauthn]
  unfold BearerUsed WorkloadUsed entryExchange
  rcases (subjectToken_cases u s req _ subject).mp hsubject with
    ⟨hbearer, rfl⟩ | ⟨hbearer, identity, hidentity, rfl⟩
  · simp [ne_empty_of_bearer _ hbearer, hbearer, htypes.symm]
  · -- The workload is the subject, whatever else the header holds.
    by_cases hempty : getHeader u httpReq.headers "Authorization" = ""
    · simp [hempty, hidentity, htypes]
    · simp [hempty, hbearer, hidentity, htypes]

end Authentication

/-- A bearer token is recorded as such. -/
theorem authn_recorded_report :
    ∃ x, Leads Unicode.ascii Decoders.framed (reportServer "team" true) (reportRule "team" true)
        (reportRequest "Bearer t" "blue") (reportHttp "Bearer t" "blue") x ∧
      ((authnRecorded x = some (.str "oidc") ↔
          BearerUsed Unicode.ascii (reportHttp "Bearer t" "blue") x) ∧
        (authnRecorded x = some (.str "kubernetes-sa") ↔ WorkloadUsed Unicode.ascii
          (reportServer "team" true) (reportRequest "Bearer t" "blue") x)) := by
  have hleads := reportRequest_leads "team" true "Bearer t" "blue"
    ("t", Token.subjectTokenTypeAccessToken) [("team", .str "blue"), ("purpose", .str "report")]
    (by decide) (by decide)
  rcases hleads.sends with ⟨mapped, _, hsends⟩
  exact ⟨_, hleads, (authn_recorded_iff Unicode.ascii Decoders.framed _ mapped _ _ rfl _
    hsends).mpr (Or.inr (by decide))⟩

/-- A request with basic credentials from a pod: the pod is the subject, and the
    exchange says that the caller was authenticated by OIDC. -/
theorem basic_recorded_as_oidc :
    ∃ x, Leads Unicode.ascii Decoders.framed (reportServer "team" true) (reportRule "team" true)
        (reportRequest "Basic dTpw" "blue") (reportHttp "Basic dTpw" "blue") x ∧
      x.subjectToken = "system:serviceaccount:shop:cart" ∧
      x.subjectTokenType = subjectTokenTypeServiceAccount ∧
      authnRecorded x = some (.str "oidc") :=
  ⟨_, reportRequest_leads "team" true "Basic dTpw" "blue"
    ("system:serviceaccount:shop:cart", subjectTokenTypeServiceAccount)
    [("team", .str "blue"), ("purpose", .str "report")] (by decide) (by decide),
    rfl, rfl, by decide⟩

end ExtAuth

end Kontxt
