import Kontxt.Core.Client
import Kontxt.Theory.Delegation

/-!
# What a Client's Exchange Amounts To

The form a client posts is a well-formed request, so what the handler does with
it does not depend on how it was encoded. A client sends neither of the headers
a workload is identified by.

## Theorems

* `SdkTts.parseRequest_exchangeForm`: The form of an exchange parses.
* `SdkTts.exchange_ok`: A token the client returns is one the handler issued.
* `SdkTts.serveHTTP_exchangeHttp`: How the handler answers an exchange.
* `SdkTts.presented_exchangeHttp`: The token a replacement presents.
-/

namespace Kontxt

namespace SdkTts

open Go Lib

/-- The subject token type an exchange sends: access tokens are the default. -/
def sentType (req : ExchangeRequest) : String :=
  if req.subjectTokenType = "" then Token.subjectTokenTypeAccessToken else req.subjectTokenType

theorem sentType_ne (req : ExchangeRequest) : sentType req ≠ "" := by
  unfold sentType
  by_cases hempty : req.subjectTokenType = ""
  · rw [if_pos hempty]
    decide
  · rw [if_neg hempty]
    exact hempty

/-- The request the handler reads out of an exchange, given what the two
    objects decode to. -/
def readRequest (req : ExchangeRequest) (details context : Option Object) :
    Tts.TokenExchangeRequest where
  grantType := Token.grantType
  subjectToken := req.subjectToken
  subjectTokenType := sentType req
  requestedTokenType := Token.requestedTokenType
  audience := ""
  scope := req.scope
  requestDetails := details
  requestContext := context

theorem formValue_details (marshal : Object → String) (req : ExchangeRequest) :
    Tts.formValue (exchangeForm marshal req) "request_details"
      = (req.requestDetails.map marshal).getD "" := by
  unfold exchangeForm
  cases req.requestDetails with
  | none =>
      cases req.requestContext with
      | none => rfl
      | some _ => rfl
  | some _ => rfl

theorem formValue_context (marshal : Object → String) (req : ExchangeRequest) :
    Tts.formValue (exchangeForm marshal req) "request_context"
      = (req.requestContext.map marshal).getD "" := by
  unfold exchangeForm
  cases req.requestDetails with
  | none =>
      cases req.requestContext with
      | none => rfl
      | some _ => rfl
  | some _ =>
      cases req.requestContext with
      | none => rfl
      | some _ => rfl

theorem formValue_audience (marshal : Object → String) (req : ExchangeRequest) :
    Tts.formValue (exchangeForm marshal req) "audience" = "" := by
  unfold exchangeForm
  cases req.requestDetails with
  | none =>
      cases req.requestContext with
      | none => rfl
      | some _ => rfl
  | some _ =>
      cases req.requestContext with
      | none => rfl
      | some _ => rfl

/-- The form of an exchange parses to the request it was made from. -/
theorem parseRequest_exchangeForm (unmarshal : String → Except String (Option Object))
    (marshal : Object → String) (req : ExchangeRequest) (details context : Option Object)
    (htok : req.subjectToken ≠ "") (hscope : req.scope ≠ "")
    (hdetails : Tts.parseObject unmarshal (exchangeForm marshal req) "request_details"
      = .ok details)
    (hcontext : Tts.parseObject unmarshal (exchangeForm marshal req) "request_context"
      = .ok context) :
    Tts.parseRequest unmarshal (exchangeForm marshal req)
      = .ok (readRequest req details context) := by
  have hgrant : Tts.formValue (exchangeForm marshal req) "grant_type" = Token.grantType := rfl
  have hsub : Tts.formValue (exchangeForm marshal req) "subject_token" = req.subjectToken := rfl
  have htype : Tts.formValue (exchangeForm marshal req) "subject_token_type" = sentType req := rfl
  have hreq : Tts.formValue (exchangeForm marshal req) "requested_token_type"
      = Token.requestedTokenType := rfl
  have hsc : Tts.formValue (exchangeForm marshal req) "scope" = req.scope := rfl
  have haud := formValue_audience marshal req
  unfold Tts.parseRequest
  simp only [hgrant, hsub, htype, hreq, hsc, haud, hdetails, hcontext, ne_eq, not_true_eq_false,
    if_false, htok, hscope, sentType_ne req]
  rfl

/-- A token the client returns is one the handler answered with. -/
theorem exchange_ok (env : Tts.Env) (h : Tts.Handler) (marshal : Object → String)
    (req : ExchangeRequest) (tok : String)
    (hok : exchange (overHandler env h) marshal req = .ok tok) :
    tok ≠ "" ∧ req.subjectToken ≠ "" ∧ req.scope ≠ "" ∧
      ∃ ity ty, (h.serveHTTP env (exchangeHttp marshal req)).1 = .token tok ity ty := by
  unfold exchange at hok
  rw [ite_error_eq_ok, ite_error_eq_ok] at hok
  rcases hok with ⟨htok, hscope, hok⟩
  unfold overHandler at hok
  cases hresp : (h.serveHTTP env (exchangeHttp marshal req)).1 with
  | panic =>
      rw [hresp] at hok
      cases hok
  | error status errCode description =>
      rw [hresp] at hok
      cases hok
  | token accessToken ity ty =>
      rw [hresp] at hok
      simp only [ite_error_eq_ok, Except.ok.injEq] at hok
      rw [← hok.2]
      exact ⟨hok.1, htok, hscope, ity, ty, rfl⟩

/-- How the handler answers an exchange whose form parses. -/
theorem serveHTTP_exchangeHttp (env : Tts.Env) (h : Tts.Handler) (marshal : Object → String)
    (req : ExchangeRequest) (details context : Option Object)
    (hparse : Tts.parseRequest env.unmarshal (exchangeForm marshal req)
      = .ok (readRequest req details context)) :
    (h.serveHTTP env (exchangeHttp marshal req)).1
      = if sentType req = Token.subjectTokenTypeTxnToken then
          h.handleReplacement env (exchangeHttp marshal req) (readRequest req details context)
        else h.issue env (exchangeHttp marshal req) (readRequest req details context) := by
  have hpost : ¬(exchangeHttp marshal req).method ≠ "POST" := fun hne => hne rfl
  have htype : (readRequest req details context).subjectTokenType = sentType req := rfl
  unfold Tts.Handler.serveHTTP
  rw [if_neg hpost]
  simp only [exchangeHttp, hparse, htype]
  by_cases htxn : sentType req = Token.subjectTokenTypeTxnToken
  · rw [if_pos htxn, if_pos htxn]
  · rw [if_neg htxn, if_neg htxn]

/-- A replacement presents the token it was asked with. -/
theorem presented_exchangeHttp (marshal : Object → String) (req : ExchangeRequest)
    (htxn : req.subjectTokenType = Token.subjectTokenTypeTxnToken) :
    Tts.presented (exchangeHttp marshal req) = some req.subjectToken := by
  have htype : Tts.formValue (exchangeForm marshal req) "subject_token_type"
      = Token.subjectTokenTypeTxnToken := by
    have hne : req.subjectTokenType ≠ "" := by
      rw [htxn]
      decide
    have hsent : Tts.formValue (exchangeForm marshal req) "subject_token_type" = sentType req := rfl
    rw [hsent, sentType, if_neg hne, htxn]
  unfold Tts.presented exchangeHttp
  simp only [htype, if_true]
  rfl

/-- A client sends neither of the headers a workload is identified by. -/
theorem identifyWorkload_exchangeHttp (marshal : Object → String) (req : ExchangeRequest) :
    Tts.identifyWorkload (exchangeHttp marshal req) = "unknown" := by
  have hworkload : (exchangeHttp marshal req).headerGet "X-Kontxt-Workload" = "" := rfl
  have hauth : (exchangeHttp marshal req).headerGet "Authorization" = "" := rfl
  have hbearer : hasPrefix "" "Bearer " = false := by decide
  unfold Tts.identifyWorkload
  simp only [hworkload, hauth, hbearer, ne_eq, not_true_eq_false, Bool.false_eq_true, if_false]

end SdkTts

end Kontxt
