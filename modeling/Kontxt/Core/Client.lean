import Kontxt.Core.ExtAuth
import Kontxt.Core.Tts

/-!
# The Exchange Client

The client both adapters call the token service with. An exchange is one POST
of a form, whose optional objects are encoded as JSON, and the answer is a
token or one of the service's errors.

Sending is a parameter, so the network may fail; `overHandler` sends to a token
exchange handler and never fails on the way.

## Main definitions

* `SdkTts.ExchangeRequest`: The parameters of an exchange.
* `SdkTts.exchangeForm`: The form an exchange posts.
* `SdkTts.exchange`: One exchange.
* `SdkTts.overHandler`: Sending to a handler.
* `SdkTts.narrowingClient`: The verification adapter's client.
-/

namespace Kontxt

namespace SdkTts

open Go

/-- `ExchangeRequest`. The two objects are maps that may be nil. -/
structure ExchangeRequest where
  subjectToken : String
  subjectTokenType : String
  scope : String
  requestDetails : Option Object
  requestContext : Option Object
  deriving Repr, DecidableEq

/-- An optional object as a form value. -/
def objectValue (marshal : Object → String) (key : String) :
    Option Object → List (String × String)
  | some o => [(key, marshal o)]
  | none => []

/-- The form parameters of an exchange. -/
def exchangeForm (marshal : Object → String) (req : ExchangeRequest) : List (String × String) :=
  [("grant_type", Token.grantType), ("subject_token", req.subjectToken),
    ("subject_token_type",
      if req.subjectTokenType = "" then Token.subjectTokenTypeAccessToken
      else req.subjectTokenType),
    ("requested_token_type", Token.requestedTokenType), ("scope", req.scope)] ++
    objectValue marshal "request_details" req.requestDetails ++
    objectValue marshal "request_context" req.requestContext

/-- The request an exchange sends. -/
def exchangeHttp (marshal : Object → String) (req : ExchangeRequest) : Tts.Request where
  method := "POST"
  form := .ok (exchangeForm marshal req)
  header := [("Content-Type", "application/x-www-form-urlencoded")]

/-- `Exchange`. A handler that panics drops the connection. -/
def exchange (post : Tts.Request → Except String Tts.Response) (marshal : Object → String)
    (req : ExchangeRequest) : Except String String :=
  if req.subjectToken = "" then .error "subject_token is required"
  else if req.scope = "" then .error "scope is required"
  else
    match post (exchangeHttp marshal req) with
    | .error e => .error ("sending token exchange request: " ++ e)
    | .ok .panic => .error "sending token exchange request: EOF"
    | .ok (.error status errCode description) =>
      .error ("token exchange failed (HTTP " ++ toString status ++ "): " ++ errCode ++ ": " ++
        description)
    | .ok (.token accessToken _ _) =>
      if accessToken = "" then .error "token exchange response has no access_token"
      else .ok accessToken

/-- Sending to a handler. -/
def overHandler (env : Tts.Env) (h : Tts.Handler) (r : Tts.Request) :
    Except String Tts.Response :=
  .ok (h.serveHTTP env r).1

/-- The client of the verification adapter, which sends neither object. -/
def narrowingClient (env : Tts.Env) (h : Tts.Handler) (marshal : Object → String)
    (req : ExtAuth.ExchangeRequest) : Except String String :=
  exchange (overHandler env h) marshal
    { subjectToken := req.subjectToken
      subjectTokenType := req.subjectTokenType
      scope := req.scope
      requestDetails := none
      requestContext := none }

end SdkTts

end Kontxt
