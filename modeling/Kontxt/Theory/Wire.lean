import Kontxt.Core.Wire
import Kontxt.Theory.Client

/-!
# What the Wire Carries

The model speaks of a form as its values and of an answer as its fields. Here the
texts in between are taken into account, and nothing changes: an exchange over the
wire gives what the handler gives for the values the client was given, whatever
runes are in them. The one exception is a form of more than ten megabytes, which
the server does not read.

An object that goes through a form arrives as the same object, up to the order of
its members, and a body that reports an error is read as exactly that error.

## Theorems

* `Tts.parseRequest_congr`: A form is read by key.
* `Tts.serveHTTP_proper`: Every error answer has a code, and never the status of success.
* `SdkTts.serveMessage_message`: The handler's answer to what a client sends.
* `SdkTts.exchange_over_wire`: An exchange over the wire.
* `SdkTts.claims_over_wire`: The claims of a token issued over the wire.
* `ExtAuth.extracted_as_written`: A field of a request that is extracted.
* `ExtAuth.denial_body_read`: The body of every denial.
-/

namespace Kontxt

open Go Lib

namespace Tts

/-- A form is read by key. -/
theorem parseRequest_congr (unmarshal : String → Except String (Option Object))
    (form form' : List (String × String)) (h : ∀ k, form.lookup k = form'.lookup k) :
    parseRequest unmarshal form = parseRequest unmarshal form' := by
  have hvalue : ∀ k, formValue form k = formValue form' k := by
    intro k
    unfold formValue
    rw [h]
  unfold parseRequest parseObject
  simp only [hvalue]

/-- Requests that differ in the order of their forms only are answered alike. -/
theorem serveHTTP_congr (env : Env) (h : Handler) (r : Request)
    (form form' : List (String × String)) (hform : ∀ k, form.lookup k = form'.lookup k) :
    h.serveHTTP env { r with form := .ok form } = h.serveHTTP env { r with form := .ok form' } := by
  unfold Handler.serveHTTP
  simp only [parseRequest_congr env.unmarshal form form' hform]
  rfl

/-- The answers that report an error: not with the status of success, and with a
    code. -/
def Response.ProperError : Response → Prop
  | .token _ _ _ => True
  | .error status errCode _ => status ≠ 200 ∧ errCode ≠ ""
  | .panic => True

theorem signAndRespond_proper (env : Env) (h : Handler) (claims : Token.Claims) :
    (h.signAndRespond env claims).ProperError := by
  unfold Handler.signAndRespond
  simp only []
  cases Token.new env.jwt claims h.keyManager.signingKey.1 h.keyManager.signingKey.2 h.lifetime
      env.now env.uuid with
  | error e => exact ⟨by decide, by decide⟩
  | ok txToken => trivial

theorem issue_proper (env : Env) (h : Handler) (r : Request) (req : TokenExchangeRequest) :
    (h.issue env r req).ProperError := by
  unfold Handler.issue
  split
  · trivial
  · exact ⟨by decide, by decide⟩
  · simp only []
    split
    · exact ⟨by decide, by decide⟩
    · exact signAndRespond_proper env h _

theorem handleReplacement_proper (env : Env) (h : Handler) (r : Request)
    (req : TokenExchangeRequest) : (h.handleReplacement env r req).ProperError := by
  unfold Handler.handleReplacement
  split
  · exact ⟨by decide, by decide⟩
  · split
    · exact ⟨by decide, by decide⟩
    · split
      · exact ⟨by decide, by decide⟩
      · exact signAndRespond_proper env h _

/-- Every error answer has a code, and never the status of success. -/
theorem serveHTTP_proper (env : Env) (h : Handler) (r : Request) :
    (h.serveHTTP env r).1.ProperError := by
  unfold Handler.serveHTTP
  split
  · exact ⟨by decide, by decide⟩
  · split
    · exact ⟨by decide, by decide⟩
    · split
      · exact ⟨by decide, by decide⟩
      · split
        · exact handleReplacement_proper env h r _
        · exact issue_proper env h r _

end Tts

namespace SdkTts

section Requests

/-- The content type a client sets is the one the server looks for. -/
theorem mediaType_form (u : Unicode) :
    Http.mediaType u "application/x-www-form-urlencoded" =
      "application/x-www-form-urlencoded" := by
  have hcut : (cut "application/x-www-form-urlencoded" ';').1 =
      "application/x-www-form-urlencoded" := by decide
  have hlower : toLower u "application/x-www-form-urlencoded" =
      "application/x-www-form-urlencoded" := by
    have hrunes : "application/x-www-form-urlencoded".toList.all
        (fun c => c.toNat < 128 && c.toLower == c) = true := by decide
    have hrune : ∀ c ∈ "application/x-www-form-urlencoded".toList,
        c.toNat < 128 ∧ c.toLower = c := by
      intro c hc
      simpa using List.all_eq_true.mp hrunes c hc
    have hmap : "application/x-www-form-urlencoded".toList.map u.toLower =
        "application/x-www-form-urlencoded".toList.map id :=
      List.map_congr_left fun c hc => by
        rw [u.toLower_ascii c (hrune c hc).1, (hrune c hc).2, id_eq]
    unfold toLower
    rw [hmap, List.map_id, String.ofList_toList]
  unfold Http.mediaType
  rw [hcut, hlower]
  decide

/-- An exchange has seven values at most. -/
theorem length_exchangeForm (marshal : Object → String) (req : ExchangeRequest) :
    ¬maxQueryParams < (exchangeForm marshal req).length := by
  have hobject : ∀ key given, (objectValue marshal key given).length ≤ 1 := by
    intro key given
    unfold objectValue
    cases given with
    | none => exact Nat.zero_le 1
    | some o => exact Nat.le_refl 1
  have hdetails := hobject "request_details" req.requestDetails
  have hcontext := hobject "request_context" req.requestContext
  unfold exchangeForm maxQueryParams
  rw [List.length_append, List.length_append]
  simp only [List.length_cons, List.length_nil]
  omega

/-- The form of an exchange as the server reads it. -/
theorem parseForm_message (u : Unicode) (marshal : Object → String) (req : ExchangeRequest) :
    Http.parseForm u (message marshal req) =
      if Http.maxFormSize < (utf8 (message marshal req).body).length then
        .error "http: POST too large"
      else .ok (sortValues (exchangeForm marshal req)) := by
  have htype : ((message marshal req).header.lookup "Content-Type").getD
      "application/octet-stream" = "application/x-www-form-urlencoded" := rfl
  have hpost : Http.parsePostForm u (message marshal req) =
      if Http.maxFormSize < (utf8 (message marshal req).body).length then
        .error "http: POST too large"
      else .ok (sortValues (exchangeForm marshal req)) := by
    unfold Http.parsePostForm
    rw [htype, mediaType_form, if_pos rfl]
    congr 1
    exact (parseQuery_valuesEncode u _).trans (if_neg (length_exchangeForm marshal req))
  have hquery : parseQuery u (message marshal req).query = .ok [] := parseQuery_empty u
  have hmethod : (message marshal req).method = "POST" := rfl
  unfold Http.parseForm
  rw [if_pos (Or.inl hmethod), hpost, hquery]
  split
  · rfl
  · exact congrArg Except.ok (List.append_nil _)

/-- The handler serves what a client sends as it serves the values the client was
    given, unless they are too long. -/
theorem serveHTTP_message (env : Tts.Env) (h : Tts.Handler) (marshal : Object → String)
    (req : ExchangeRequest)
    (hsize : ¬Http.maxFormSize < (utf8 (message marshal req).body).length) :
    h.serveHTTP env (Tts.Request.ofMessage env.unicode (message marshal req)) =
      h.serveHTTP env (exchangeHttp marshal req) := by
  have hform := parseForm_message env.unicode marshal req
  rw [if_neg hsize] at hform
  have hrequest : Tts.Request.ofMessage env.unicode (message marshal req) =
      { exchangeHttp marshal req with form := .ok (sortValues (exchangeForm marshal req)) } := by
    unfold Tts.Request.ofMessage
    rw [hform]
    rfl
  rw [hrequest, Tts.serveHTTP_congr env h (exchangeHttp marshal req) _
    (exchangeForm marshal req) (lookup_sortValues _)]
  rfl

/-- Its answer is the text of that, or that the form could not be parsed. -/
theorem serveMessage_message (F : FloatText) (env : Tts.Env) (h : Tts.Handler)
    (marshal : Object → String) (req : ExchangeRequest) :
    h.serveMessage F env (message marshal req) =
      if Http.maxFormSize < (utf8 (message marshal req).body).length then
        ((Tts.Response.error 400 "invalid_request" "failed to parse form").http F, h)
      else
        ((h.serveHTTP env (exchangeHttp marshal req)).1.http F,
          (h.serveHTTP env (exchangeHttp marshal req)).2) := by
  unfold Tts.Handler.serveMessage
  by_cases hsize : Http.maxFormSize < (utf8 (message marshal req).body).length
  · have hform := parseForm_message env.unicode marshal req
    rw [if_pos hsize] at hform ⊢
    have hrefused : h.serveHTTP env (Tts.Request.ofMessage env.unicode (message marshal req)) =
        (.error 400 "invalid_request" "failed to parse form", h) := by
      unfold Tts.Handler.serveHTTP Tts.Request.ofMessage
      simp only [hform]
      rfl
    rw [hrefused]
  · rw [if_neg hsize, serveHTTP_message env h marshal req hsize]

end Requests

section Answers

/-- A token that was issued is what the client reads. -/
theorem readAnswer_token (F : FloatText) (u : Unicode) (invalid : String → String)
    (accessToken issuedTokenType tokenType : String) :
    readAnswer F u invalid 200
        (structText F (Tts.tokenFields accessToken issuedTokenType tokenType)) =
      if accessToken = "" then .error "token exchange response has no access_token"
      else .ok accessToken := by
  have hread := unmarshalStruct_structText F u answerFields
    (Tts.tokenFields accessToken issuedTokenType tokenType) (by
      intro e he
      simp only [Tts.tokenFields, List.mem_cons, List.not_mem_nil, or_false] at he
      rcases he with rfl | rfl | rfl <;> simp [answerFields])
  unfold readAnswer
  rw [hread]
  rfl

/-- An error is reported with the code and the description it has. -/
theorem readAnswer_error (F : FloatText) (u : Unicode) (invalid : String → String) (status : Nat)
    (errCode description : String) (hstatus : status ≠ 200) (hcode : errCode ≠ "") :
    readAnswer F u invalid status (structText F (Tts.errorFields errCode description)) =
      .error ("token exchange failed (HTTP " ++ toString status ++ "): " ++ errCode ++ ": " ++
        description) := by
  have hread := unmarshalStruct_structText F u answerFields
    (Tts.errorFields errCode description) (by
      intro e he
      unfold Tts.errorFields at he
      rcases List.mem_cons.mp he with rfl | he
      · simp [answerFields]
      · split at he
        · cases he
        · rw [List.mem_singleton.mp he]
          simp [answerFields])
  have hfields : ((Tts.errorFields errCode description).reverse.lookup "error").getD "" = errCode ∧
      ((Tts.errorFields errCode description).reverse.lookup "error_description").getD "" =
        description := by
    unfold Tts.errorFields
    by_cases hempty : description = ""
    · rw [if_pos hempty, hempty]
      exact ⟨rfl, rfl⟩
    · rw [if_neg hempty]
      exact ⟨rfl, rfl⟩
  unfold readAnswer
  simp only [if_pos hstatus, hread, hfields.1, hfields.2, if_pos hcode]

/-- What the client makes of an answer is what the answer says. -/
theorem readAnswer_http (F : FloatText) (u : Unicode) (invalid : String → String)
    (answer : Tts.Response) (hproper : answer.ProperError) (marshal : Object → String)
    (req : ExchangeRequest) (htok : req.subjectToken ≠ "") (hscope : req.scope ≠ "") :
    exchangeOver F u invalid (fun _ => answer.http F) marshal req =
      exchange (fun _ => .ok answer) marshal req := by
  unfold exchangeOver exchange
  rw [if_neg htok, if_neg hscope, if_neg htok, if_neg hscope]
  cases answer with
  | token accessToken issuedTokenType tokenType =>
      exact readAnswer_token F u invalid accessToken issuedTokenType tokenType
  | error status errCode description =>
      exact readAnswer_error F u invalid status errCode description hproper.1 hproper.2
  | panic => rfl

end Answers

section Exchanges

variable (F : FloatText) (env : Tts.Env) (h : Tts.Handler) (invalid : String → String)
  (marshal : Object → String) (req : ExchangeRequest)

/-- A form that is read gives what the handler gives. -/
theorem exchangeOver_of_le (hsize : (utf8 (message marshal req).body).length ≤ Http.maxFormSize) :
    exchangeOver F env.unicode invalid (fun m => (h.serveMessage F env m).1) marshal req =
      exchange (overHandler env h) marshal req := by
  by_cases htok : req.subjectToken = ""
  · unfold exchangeOver exchange
    rw [if_pos htok, if_pos htok]
  by_cases hscope : req.scope = ""
  · unfold exchangeOver exchange
    rw [if_neg htok, if_pos hscope, if_neg htok, if_pos hscope]
  -- Only the answer to the message that is sent matters.
  have hsent : ∀ send : Http.Message → Option (Nat × String),
      exchangeOver F env.unicode invalid send marshal req =
        exchangeOver F env.unicode invalid (fun _ => send (message marshal req)) marshal req :=
    fun send => rfl
  rw [hsent, serveMessage_message, if_neg (not_lt.mpr hsize),
    readAnswer_http F env.unicode invalid _ (Tts.serveHTTP_proper env h _) marshal req htok hscope]
  rfl

/-- A form that is too long is refused. -/
theorem exchangeOver_of_lt (hsize : Http.maxFormSize < (utf8 (message marshal req).body).length)
    (htok : req.subjectToken ≠ "") (hscope : req.scope ≠ "") :
    exchangeOver F env.unicode invalid (fun m => (h.serveMessage F env m).1) marshal req =
      .error "token exchange failed (HTTP 400): invalid_request: failed to parse form" := by
  have hproper : (Tts.Response.error 400 "invalid_request" "failed to parse form").ProperError :=
    ⟨by decide, by decide⟩
  have hsent : ∀ send : Http.Message → Option (Nat × String),
      exchangeOver F env.unicode invalid send marshal req =
        exchangeOver F env.unicode invalid (fun _ => send (message marshal req)) marshal req :=
    fun send => rfl
  rw [hsent, serveMessage_message, if_pos hsize,
    readAnswer_http F env.unicode invalid _ hproper marshal req htok hscope]
  unfold exchange
  rw [if_neg htok, if_neg hscope]
  rfl

/-- An exchange over the wire gives what the handler gives for the values the client
    was given, whatever runes they have. The one exception is a form of more than ten
    megabytes, which is refused. -/
theorem exchange_over_wire :
    exchangeOver F env.unicode invalid (fun m => (h.serveMessage F env m).1) marshal req =
      if req.subjectToken ≠ "" ∧ req.scope ≠ "" ∧
          Http.maxFormSize < (utf8 (message marshal req).body).length then
        .error "token exchange failed (HTTP 400): invalid_request: failed to parse form"
      else exchange (overHandler env h) marshal req := by
  split
  · rename_i hall
    exact exchangeOver_of_lt F env h invalid marshal req hall.2.2 hall.1 hall.2.1
  · rename_i hnot
    by_cases hsize : (utf8 (message marshal req).body).length ≤ Http.maxFormSize
    · exact exchangeOver_of_le F env h invalid marshal req hsize
    · -- The client gives up before it sends anything.
      have hempty : req.subjectToken = "" ∨ req.scope = "" := by
        by_contra hne
        rw [not_or] at hne
        exact hnot ⟨hne.1, hne.2, not_le.mp hsize⟩
      unfold exchangeOver exchange
      by_cases htok : req.subjectToken = ""
      · rw [if_pos htok, if_pos htok]
      · have hscope := hempty.resolve_left htok
        rw [if_neg htok, if_pos hscope, if_neg htok, if_pos hscope]

end Exchanges

section Contexts

/-- Two contexts are the same up to the order of members. -/
def SameContext (a b : Option Object) : Prop :=
  a.map (fun o => canon (.obj o)) = b.map fun o => canon (.obj o)

/-- An object of a form is read as the object it was written for. -/
theorem parseObject_marshal (F : FloatText) (invalid : String → String)
    (form : List (String × String)) (key : String) (given : Option Object)
    (hform : Tts.formValue form key = (given.map fun o => marshal F (.obj o)).getD "")
    (hfits : ∀ o ∈ given, Fits F maxNestingDepth (.obj o)) :
    ∃ read, Tts.parseObject (unmarshalObject F invalid) form key = .ok read ∧
      SameContext read given := by
  unfold Tts.parseObject
  rw [hform]
  cases given with
  | none => exact ⟨none, rfl, rfl⟩
  | some o =>
      rcases unmarshalObject_marshal F invalid o (hfits o rfl) with ⟨o', hread, hcanon, _⟩
      have hne : marshal F (.obj o) ≠ "" :=
        (ExtAuth.Decoders.json F Unicode.ascii invalid).marshal_ne o
      refine ⟨some o', ?_, congrArg some hcanon⟩
      rw [Option.map_some, Option.getD_some, if_neg hne, hread]

/-- The request the handler reads off the wire. -/
theorem parseRequest_wire (F : FloatText) (invalid : String → String) (req : ExchangeRequest)
    (htok : req.subjectToken ≠ "") (hscope : req.scope ≠ "")
    (hdetails : ∀ o ∈ req.requestDetails, Fits F maxNestingDepth (.obj o))
    (hcontext : ∀ o ∈ req.requestContext, Fits F maxNestingDepth (.obj o)) :
    ∃ details context,
      Tts.parseRequest (unmarshalObject F invalid)
          (exchangeForm (fun o => marshal F (.obj o)) req) =
        .ok (readRequest req details context) ∧
      SameContext details req.requestDetails ∧ SameContext context req.requestContext := by
  rcases parseObject_marshal F invalid _ "request_details" req.requestDetails
    (formValue_details _ req) hdetails with ⟨details, hd, hsame⟩
  rcases parseObject_marshal F invalid _ "request_context" req.requestContext
    (formValue_context _ req) hcontext with ⟨context, hc, hsame'⟩
  exact ⟨details, context,
    parseRequest_exchangeForm _ _ req details context htok hscope hd hc, hsame, hsame'⟩

/-- The claims of a token obtained over the wire: the scope is the one asked for. A
    new token is for the subject of the token that was presented, and has the
    contexts the client gave, up to the order of members. A replacement has
    transaction, subject and contexts of the token it replaces. -/
theorem claims_over_wire (F : FloatText) (env : Tts.Env) (h : Tts.Handler)
    (invalid : String → String) (req : ExchangeRequest)
    (hunmarshal : env.unmarshal = unmarshalObject F invalid)
    (hdetails : ∀ o ∈ req.requestDetails, Fits F maxNestingDepth (.obj o))
    (hcontext : ∀ o ∈ req.requestContext, Fits F maxNestingDepth (.obj o)) (tok : String)
    (hok : exchangeOver F env.unicode invalid (fun m => (h.serveMessage F env m).1)
      (fun o => marshal F (.obj o)) req = .ok tok) :
    ∃ c, Token.claimsOf env.jwt tok = some c ∧ c.scope = req.scope ∧
      (sentType req ≠ Token.subjectTokenTypeTxnToken →
        (∃ info, Authn.Router.authenticate env.toEnv h.router req.subjectToken = .ok info ∧
          c.subject = info.subject) ∧
        SameContext c.transactionContext req.requestDetails ∧
        SameContext c.requesterContext req.requestContext) ∧
      (sentType req = Token.subjectTokenTypeTxnToken →
        ∃ p, Token.claimsOf env.jwt req.subjectToken = some p ∧
          Tts.isScopeSubset req.scope p.scope = true ∧ c.subject = p.subject ∧
          c.transactionContext = p.transactionContext ∧
          c.requesterContext = p.requesterContext ∧
          (p.transactionID ≠ "" → c.transactionID = p.transactionID)) := by
  have hread : exchange (overHandler env h) (fun o => marshal F (.obj o)) req = .ok tok := by
    by_cases hsize : (utf8 (message (fun o => marshal F (.obj o)) req).body).length ≤
        Http.maxFormSize
    · rwa [exchangeOver_of_le F env h invalid _ req hsize] at hok
    · have hlt := not_le.mp hsize
      unfold exchangeOver at hok
      rw [ite_error_eq_ok, ite_error_eq_ok] at hok
      have hrefused := exchangeOver_of_lt F env h invalid _ req hlt hok.1 hok.2.1
      unfold exchangeOver at hrefused
      rw [if_neg hok.1, if_neg hok.2.1] at hrefused
      rw [hrefused] at hok
      cases hok.2.2
  rcases exchange_ok env h _ req tok hread with ⟨_, htok, hscope, ity, ty, hresp⟩
  rcases parseRequest_wire F invalid req htok hscope hdetails hcontext with
    ⟨details, context, hparse, hsame, hsame'⟩
  rw [← hunmarshal] at hparse
  rw [serveHTTP_exchangeHttp env h _ req details context hparse] at hresp
  by_cases htxn : sentType req = Token.subjectTokenTypeTxnToken
  · rw [if_pos htxn] at hresp
    rcases Tts.handleReplacement_token env h _ _ tok ity ty hresp with
      ⟨existing, hexisting, hsub, hclaims⟩
    refine ⟨_, hclaims, rfl, fun hne => absurd htxn hne, fun _ => ?_⟩
    exact ⟨existing, hexisting, hsub, rfl, rfl, rfl, fun hne => if_neg hne⟩
  · rw [if_neg htxn] at hresp
    rcases Tts.issue_token env h _ _ tok ity ty hresp with ⟨info, hauth, _, hclaims⟩
    refine ⟨_, hclaims, rfl, fun _ => ⟨⟨info, hauth, rfl⟩, hsame, hsame'⟩, fun h => absurd h htxn⟩

section Sample

/-- A context with runes that both formats treat on their own. -/
def noteContext : Object :=
  [("note", .str "a&b=<c>")]

/-- An exchange that sends it. -/
def noteRequest : ExchangeRequest where
  subjectToken := "e30.e30.c2ln"
  subjectTokenType := ""
  scope := "read"
  requestDetails := some noteContext
  requestContext := none

/-- A library that knows the token with the context. -/
def noteEnv : Tts.Env :=
  { Tts.sampleEnv with
    jwt := JwtLib.ofTable [("e30.e30.c2ln", Tts.sampleSubject),
      ("sealed", Token.newJwt { Tts.sampleClaims "read" with
        transactionContext := some noteContext } "k1" 0 0 "")]
    unmarshal := unmarshalObject FloatText.plain fun _ => "invalid character" }

theorem noteRequest_exchanged :
    exchangeOver FloatText.plain noteEnv.unicode (fun _ => "invalid character")
      (fun m => (Tts.sampleHandler.serveMessage FloatText.plain noteEnv m).1)
      (fun o => marshal FloatText.plain (.obj o)) noteRequest = .ok "sealed" := by
  have hbound : ((exchangeForm (fun o => marshal FloatText.plain (.obj o)) noteRequest).map
      settingSize).sum ≤ Http.maxFormSize := by
    decide +kernel
  have hsize := (length_valuesEncode_le
    (exchangeForm (fun o => marshal FloatText.plain (.obj o)) noteRequest)).trans hbound
  rw [exchangeOver_of_le FloatText.plain noteEnv Tts.sampleHandler _ _ noteRequest hsize]
  decide +kernel

theorem noteRequest_fits : ∀ o ∈ noteRequest.requestDetails,
    Fits FloatText.plain maxNestingDepth (.obj o) := by
  intro o ho
  cases ho
  exact fits_strings FloatText.plain 9999 [("note", "a&b=<c>")]

theorem claims_over_wire_note :
    ∃ c, Token.claimsOf noteEnv.jwt "sealed" = some c ∧ c.scope = "read" ∧
      SameContext c.transactionContext (some noteContext) := by
  rcases claims_over_wire FloatText.plain noteEnv Tts.sampleHandler _ noteRequest rfl
    noteRequest_fits (fun o ho => by cases ho) "sealed" noteRequest_exchanged with
    ⟨c, hc, hscope, hnew, _⟩
  exact ⟨c, hc, hscope, (hnew (by decide)).2.1⟩

end Sample

end Contexts

end SdkTts

namespace ExtAuth

section Fields

/-- What a member of a body is sealed as: a string as it is, anything else as its
    text. -/
def fieldText (F : FloatText) : Option Json → String
  | none => ""
  | some (.str s) => s
  | some v => marshal F v

theorem canon_eq_str (v : Json) (s : String) (h : canon v = .str s) : v = .str s := by
  cases v with
  | str t =>
      rw [canon] at h
      exact h
  | null | bool _ | num _ | arr _ | obj _ =>
      rw [canon] at h
      cases h

/-- Values with the same canonical form are sealed alike. -/
theorem fieldText_congr (F : FloatText) (v v' : Json) (h : canon v' = canon v) :
    fieldText F (some v') = fieldText F (some v) := by
  have hmarshal : marshal F v' = marshal F v := by
    unfold marshal
    rw [h]
  cases v with
  | str s =>
      rw [canon_eq_str v' s (by rw [h, canon])]
  | null | bool _ | num _ | arr _ | obj _ =>
      cases v' with
      | str t =>
          rw [canon, canon] at h
          cases h
      | null | bool _ | num _ | arr _ | obj _ => exact hmarshal

/-- The field of a body that was written for an object. -/
theorem extract_body (F : FloatText) (u : Unicode) (invalid : String → String)
    (httpReq : EntryHttp) (field : String) (required : Bool) (o : Object)
    (hfits : Fits F maxNestingDepth (.obj o)) :
    extractTctxField u (Decoders.json F u invalid)
        { httpReq with body := marshal F (.obj o) }
        { source := "body", field := field, required := required } =
      .ok (fieldText F (o.lookup field)) := by
  rcases unmarshalObject_marshal F invalid o hfits with ⟨o', hread, _, hlookup⟩
  have hread' : (Decoders.json F u invalid).unmarshal (marshal F (.obj o)) = .ok (some o') := hread
  have hne : marshal F (.obj o) ≠ "" := (Decoders.json F u invalid).marshal_ne o
  unfold extractTctxField
  simp only [if_true, if_neg hne, hread', Option.getD_some, hlookup]
  cases hfield : o.lookup field with
  | none => rfl
  | some v =>
      rcases List.lookup_eq_some_iff.mp hfield with ⟨l₁, l₂, ho, _⟩
      have hmem : (field, v) ∈ o := by
        rw [ho]
        exact List.mem_append_right _ List.mem_cons_self
      have hback : ReadsBack v := by
        cases hfits with
        | obj _ _ hall => exact decode_toDoc_canon F _ v (hall (field, v) hmem)
      rcases hback with ⟨v', hv', hcanon⟩
      rw [← fieldText_congr F v v' hcanon, Option.bind_some, hv']
      cases v' with
      | str s => rfl
      | null | bool _ | num _ | arr _ | obj _ => rfl

/-- The field of a query that was written for a form. -/
theorem extract_query (F : FloatText) (u : Unicode) (invalid : String → String)
    (httpReq : EntryHttp) (field : String) (required : Bool) (path : String)
    (form : List (String × String)) (hpath : '?' ∉ path.toList) :
    extractTctxField u (Decoders.json F u invalid)
        { httpReq with path := path ++ "?" ++ valuesEncode form }
        { source := "query", field := field, required := required } =
      if maxQueryParams < form.length then
        .error "failed to parse query string: number of URL query parameters exceeded limit"
      else .ok ((form.lookup field).getD "") := by
  have hafter : afterFirst (path ++ "?" ++ valuesEncode form) '?' = some (valuesEncode form) := by
    rw [afterFirst_eq_some]
    exact ⟨path, hpath, by simp⟩
  have hparse : (Decoders.json F u invalid).parseQuery (valuesEncode form) =
      if maxQueryParams < form.length then .error "number of URL query parameters exceeded limit"
      else .ok (sortValues form) := parseQuery_valuesEncode u form
  unfold extractTctxField
  rw [if_neg (by decide : ¬"query" = "body"), if_pos rfl]
  simp only [hafter, hparse]
  by_cases hmany : maxQueryParams < form.length
  · rw [if_pos hmany, if_pos hmany]
    rfl
  · rw [if_neg hmany, if_neg hmany]
    simp only [lookup_sortValues]

/-- What the generation adapter extracts from a body or a query is what was put into
    it: the member of the object the body was written for, a string as it is and
    anything else as its canonical text, or the first value of the form the query was
    written for. A form of more values than a query may have is refused. -/
theorem extracted_as_written (F : FloatText) (u : Unicode) (invalid : String → String)
    (httpReq : EntryHttp) (field : String) (required : Bool) :
    (∀ o : Object, Fits F maxNestingDepth (.obj o) →
      extractTctxField u (Decoders.json F u invalid)
          { httpReq with body := marshal F (.obj o) }
          { source := "body", field := field, required := required } =
        .ok (fieldText F (o.lookup field))) ∧
    ∀ (path : String) (form : List (String × String)), '?' ∉ path.toList →
      extractTctxField u (Decoders.json F u invalid)
          { httpReq with path := path ++ "?" ++ valuesEncode form }
          { source := "query", field := field, required := required } =
        if maxQueryParams < form.length then
          .error "failed to parse query string: number of URL query parameters exceeded limit"
        else .ok ((form.lookup field).getD "") :=
  ⟨fun o => extract_body F u invalid httpReq field required o,
    fun path form => extract_query F u invalid httpReq field required path form⟩

end Fields

section Denials

/-- A response is a denial, or lets the request through. -/
def Decided (r : CheckResponse) : Prop :=
  (∃ headers, r.httpResponse = .okResponse headers) ∨
    ∃ code message, code ≠ .ok ∧ r = denied code message

theorem decided_denied (code : Code) (message : String) (hcode : code ≠ .ok) :
    Decided (denied code message) :=
  Or.inr ⟨code, message, hcode, rfl⟩

theorem decided_check (u : Unicode) (s : Server) (req : CheckRequest) :
    Decided (s.check u req) := by
  unfold Server.check
  split
  · exact decided_denied _ _ (by decide)
  · simp only []
    split
    · exact Or.inl ⟨[], rfl⟩
    · split
      · exact decided_denied _ _ (by decide)
      · split
        · exact decided_denied _ _ (by decide)
        · split
          · exact decided_denied _ _ (by decide)
          · split
            · exact Or.inl ⟨_, rfl⟩
            · exact Or.inl ⟨[], rfl⟩

theorem decided_extractFields (u : Unicode) (D : Decoders) (httpReq : EntryHttp)
    (mapped : List (String × V1alpha1.TctxFieldMapping)) (o : Object) (resp : CheckResponse)
    (h : extractFields u D httpReq mapped o = .error resp) : Decided resp := by
  induction mapped generalizing o with
  | nil =>
      unfold extractFields at h
      cases h
  | cons entry rest ih =>
      rcases entry with ⟨name, mapping⟩
      unfold extractFields at h
      split at h
      · split at h
        · cases h
          exact decided_denied _ _ (by decide)
        · exact ih o h
      · split at h
        · exact ih _ h
        · split at h
          · cases h
            exact decided_denied _ _ (by decide)
          · exact ih o h

theorem decided_generate (u : Unicode) (D : Decoders) (s : GenerationServer)
    (mapped : List (String × V1alpha1.TctxFieldMapping)) (req : EntryRequest) :
    Decided (s.check u D mapped req) := by
  unfold GenerationServer.check
  split
  · exact decided_denied _ _ (by decide)
  · simp only []
    split
    · exact Or.inl ⟨[], rfl⟩
    · split
      · exact decided_denied _ _ (by decide)
      · split
        · rename_i resp hfields
          exact decided_extractFields u D _ mapped _ resp hfields
        · split
          · exact decided_denied _ _ (by decide)
          · exact Or.inl ⟨_, rfl⟩

/-- A response that is a denial, with a body that says what its status says. -/
def ReportsStatus (F : FloatText) (u : Unicode) (r : CheckResponse) : Prop :=
  ∃ code message body fields, code ≠ .ok ∧ r.status = some (code, message) ∧
    denialBody F r = some body ∧ unmarshalStruct F u ["error", "message"] body = some fields ∧
    fields "error" = code.toString ∧ fields "message" = message

theorem reportsStatus_denied (F : FloatText) (u : Unicode) (code : Code) (message : String)
    (hcode : code ≠ .ok) : ReportsStatus F u (denied code message) := by
  have hread := unmarshalStruct_strings F u ["error", "message"]
    [("error", code.toString), ("message", message)] [] (by
      intro e he
      simp only [List.mem_cons, List.not_mem_nil, or_false] at he
      rcases he with rfl | rfl <;> simp) fun c hc => absurd hc List.not_mem_nil
  rw [List.append_nil] at hread
  exact ⟨code, message, _, _, hcode, rfl, rfl, hread, rfl, rfl⟩

/-- Both adapters let a request through or deny it with a body that is read as
    exactly the code and the message of the status, whatever the message quotes. -/
theorem denial_body_read (F : FloatText) (u : Unicode) :
    (∀ (s : Server) (req : CheckRequest),
      (∃ headers, (s.check u req).httpResponse = .okResponse headers) ∨
        ReportsStatus F u (s.check u req)) ∧
    ∀ (D : Decoders) (s : GenerationServer)
      (mapped : List (String × V1alpha1.TctxFieldMapping)) (req : EntryRequest),
      (∃ headers, (s.check u D mapped req).httpResponse = .okResponse headers) ∨
        ReportsStatus F u (s.check u D mapped req) := by
  have hdecided : ∀ r : CheckResponse, Decided r →
      (∃ headers, r.httpResponse = .okResponse headers) ∨ ReportsStatus F u r := by
    intro r hr
    rcases hr with hok | ⟨code, message, hcode, rfl⟩
    · exact Or.inl hok
    · exact Or.inr (reportsStatus_denied F u code message hcode)
  exact ⟨fun s req => hdecided _ (decided_check u s req),
    fun D s mapped req => hdecided _ (decided_generate u D s mapped req)⟩

end Denials

end ExtAuth

end Kontxt
