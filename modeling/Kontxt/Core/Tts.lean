import Kontxt.Core.Authn
import Kontxt.Core.Issuance

/-!
# The Token Service

The token exchange handler: a new transaction token for a subject token some
authenticator accepts, or a replacement for a transaction token the service
issued itself. One call of `serveHTTP` gives the answer and the handler after
it, since authenticating may fetch keys. Time and the generated transaction
identifier are arguments.

A request is the parts the handler reads: method, the parsed form if it
parses, and the headers under their canonical names.

## Main definitions

* `Tts.LocalVerifier.verify`: Verifying a transaction token in-process.
* `Tts.Handler`: The state of the token exchange handler.
* `Tts.parseRequest`: Reading and checking the exchange parameters.
* `Tts.isScopeSubset`: The test a replacement's scope must pass.
* `Tts.Handler.issue`: The new-issuance path after parsing.
* `Tts.Handler.handleReplacement`: The replacement path.
* `Tts.Handler.serveHTTP`: The token exchange endpoint.
-/

namespace Kontxt

namespace Tts

open Go

/-- `localVerifier`; the key manager it shares with the handler is passed to
    each call. -/
structure LocalVerifier where
  audience : String
  deriving Repr, DecidableEq

section Verifier

variable (env : Authn.Env)

/-- `keyFunc`: the first published key with the token's key identifier. -/
def keyFunc (km : Keys.Manager) (t : Jwt) : Except String RsaPublicKey :=
  if isSigningMethodRSA t.header = false then
    .error ("unexpected signing method: " ++ t.header.str "alg")
  else
    let kid := t.header.str "kid"
    if kid = "" then .error "missing kid in token header"
    else
      match km.publicKeys.find? (fun pk => pk.kid == kid) with
      | none => .error ("unknown kid " ++ quote env.unicode kid)
      | some pk =>
        match pk.rsaPublicKey with
        | .error e => .error ("decoding key " ++ quote env.unicode kid ++ ": " ++ e)
        | .ok key => .ok key

/-- `Verify`. -/
def LocalVerifier.verify (v : LocalVerifier) (km : Keys.Manager) (tokenString : String) :
    Except String Token.Claims :=
  if tokenString = "" then .error "empty token"
  else
    match env.jwt.parse tokenString (keyFunc env km) (.withAudience v.audience) env.now with
    | .error e => .error ("token verification failed: " ++ e)
    | .ok parsed =>
      let typ := parsed.header.str "typ"
      if typ ≠ Token.typeHeader then
        .error ("invalid typ header: expected " ++ quote env.unicode Token.typeHeader ++
          ", got " ++ quote env.unicode typ)
      else .ok (Token.extractClaims parsed.claims)

end Verifier

/-- An HTTP request to the exchange endpoint. -/
structure Request where
  method : String
  form : Except String (List (String × String))
  header : List (String × String)

/-- `Header.Get` on canonical names: empty when absent. -/
def Request.headerGet (r : Request) (name : String) : String :=
  (r.header.lookup name).getD ""

/-- `TokenExchangeRequest`. -/
structure TokenExchangeRequest where
  grantType : String
  subjectToken : String
  subjectTokenType : String
  requestedTokenType : String
  audience : String
  scope : String
  requestDetails : Option Object
  requestContext : Option Object
  deriving Repr, DecidableEq

/-- What the handler writes: an exchange response, an error response, or
    nothing because the handler panicked. -/
inductive Response where
  | token (accessToken issuedTokenType tokenType : String)
  | error (status : Nat) (errCode description : String)
  | panic
  deriving Repr, DecidableEq

/-- `Handler`. Replacement needs a verifier, and rules are nil until set. -/
structure Handler where
  router : Authn.Router
  keyManager : Keys.Manager
  verifier : Option LocalVerifier
  issuer : String
  trustDomain : String
  lifetime : Int
  issuanceRules : Option (List IssuanceRule)

/-- `SetIssuanceRules`. The copies it makes are the same list here. -/
def Handler.setIssuanceRules (h : Handler) (rules : List IssuanceRule) : Handler :=
  { h with issuanceRules := some rules }

/-- `loadIssuanceRules`. -/
def Handler.loadIssuanceRules (h : Handler) : List IssuanceRule :=
  h.issuanceRules.getD []

/-- `FormValue`: the first value of a key, empty when absent. -/
def formValue (form : List (String × String)) (key : String) : String :=
  (form.lookup key).getD ""

/-- An optional JSON object parameter of the form. -/
def parseObject (unmarshal : String → Except String (Option Object))
    (form : List (String × String)) (key : String) : Except String (Option Object) :=
  if formValue form key = "" then .ok none
  else
    match unmarshal (formValue form key) with
    | .error e => .error ("invalid " ++ key ++ " JSON: " ++ e)
    | .ok m => .ok m

/-- `parseRequest`. Unmarshalling into a map gives nil for the text `null`. -/
def parseRequest (unmarshal : String → Except String (Option Object))
    (form : List (String × String)) : Except String TokenExchangeRequest :=
  let grantType := formValue form "grant_type"
  let subjectToken := formValue form "subject_token"
  let subjectTokenType := formValue form "subject_token_type"
  let requestedTokenType := formValue form "requested_token_type"
  let scope := formValue form "scope"
  if grantType ≠ Token.grantType then .error ("unsupported grant_type: " ++ grantType)
  else if subjectToken = "" then .error "subject_token is required"
  else if subjectTokenType = "" then .error "subject_token_type is required"
  else if requestedTokenType ≠ Token.requestedTokenType then
    .error ("unsupported requested_token_type: " ++ requestedTokenType)
  else if scope = "" then .error "scope is required"
  else do
    let details ← parseObject unmarshal form "request_details"
    let context ← parseObject unmarshal form "request_context"
    .ok { grantType := grantType
          subjectToken := subjectToken
          subjectTokenType := subjectTokenType
          requestedTokenType := requestedTokenType
          audience := formValue form "audience"
          scope := scope
          requestDetails := details
          requestContext := context }

/-- `identifyWorkload`. -/
def identifyWorkload (r : Request) : String :=
  if r.headerGet "X-Kontxt-Workload" ≠ "" then r.headerGet "X-Kontxt-Workload"
  else if hasPrefix (r.headerGet "Authorization") "Bearer " then "authenticated-workload"
  else "unknown"

/-- `isScopeSubset`. -/
def isScopeSubset (requested existing : String) : Bool :=
  (fields requested).all (fun s => (fields existing).contains s)

/-- What one exchange is given besides the request: the libraries, the network
    and the time, the JSON decoder for objects in the form, and the identifier
    generated if one is needed, which is never empty. -/
structure Env extends Authn.Env where
  unmarshal : String → Except String (Option Object)
  uuid : String
  uuid_ne : uuid ≠ ""

namespace Handler

variable (env : Env)

/-- `signAndRespond`. -/
def signAndRespond (h : Handler) (claims : Token.Claims) : Response :=
  let (signingKey, kid) := h.keyManager.signingKey
  match Token.new env.jwt claims signingKey kid h.lifetime env.now env.uuid with
  | .error _ => .error 500 "server_error" "failed to create transaction token"
  | .ok txToken => .token txToken Token.requestedTokenType "N_A"

/-- The claims of a new token. -/
def newClaims (h : Handler) (subject workloadID : String) (req : TokenExchangeRequest) :
    Token.Claims where
  issuer := h.issuer
  issuedAt := 0
  expiresAt := 0
  audience := h.trustDomain
  transactionID := ""
  subject := subject
  scope := req.scope
  requestingWorkload := workloadID
  transactionContext := req.requestDetails
  requesterContext := req.requestContext

/-- The claims of a replacement: transaction, subject and contexts are those of
    the token it replaces. -/
def replacementClaims (h : Handler) (existing : Token.Claims) (workloadID : String)
    (req : TokenExchangeRequest) : Token.Claims where
  issuer := h.issuer
  issuedAt := 0
  expiresAt := 0
  audience := h.trustDomain
  transactionID := existing.transactionID
  subject := existing.subject
  scope := req.scope
  requestingWorkload := workloadID
  transactionContext := existing.transactionContext
  requesterContext := existing.requesterContext

/-- What the rules of a new issuance are evaluated against. The workload's
    namespace is not filled in. -/
def issuanceContext (subject workloadID : String) (req : TokenExchangeRequest) :
    IssuanceContext where
  subject := subject
  scope := req.scope
  tctx := req.requestDetails
  rctx := req.requestContext
  workload := workloadID
  workloadNS := ""

/-- The new-issuance path of `ServeHTTP`, after parsing. -/
def issue (h : Handler) (r : Request) (req : TokenExchangeRequest) : Response :=
  match Authn.Router.authenticate env.toEnv h.router req.subjectToken with
  | .error .panic => .panic
  | .error (.error e) => .error 401 "invalid_token" e
  | .ok subjectInfo =>
    -- An empty rule set is not evaluated, which is the same as passing it.
    let workloadID := identifyWorkload r
    match evaluateIssuanceRules env.unicode h.loadIssuanceRules
        (issuanceContext subjectInfo.subject workloadID req) with
    | .error e => .error 403 "policy_denied" e
    | .ok () => h.signAndRespond env (h.newClaims subjectInfo.subject workloadID req)

/-- `handleReplacement`. -/
def handleReplacement (h : Handler) (r : Request) (req : TokenExchangeRequest) : Response :=
  match h.verifier with
  | none => .error 500 "server_error" "token replacement not configured (no verifier)"
  | some v =>
    match v.verify env.toEnv h.keyManager req.subjectToken with
    | .error e => .error 401 "invalid_token" ("existing TxToken verification failed: " ++ e)
    | .ok existingClaims =>
      if isScopeSubset req.scope existingClaims.scope = false then
        .error 403 "invalid_scope" ("requested scope " ++ quote env.unicode req.scope ++
          " is not a subset of existing scope " ++ quote env.unicode existingClaims.scope)
      else
        h.signAndRespond env (h.replacementClaims existingClaims (identifyWorkload r) req)

/-- `ServeHTTP`: the answer, and the handler after it. -/
def serveHTTP (h : Handler) (r : Request) : Response × Handler :=
  if r.method ≠ "POST" then (.error 405 "invalid_request" "method not allowed", h)
  else
    match r.form with
    | .error _ => (.error 400 "invalid_request" "failed to parse form", h)
    | .ok form =>
      match parseRequest env.unmarshal form with
      | .error e => (.error 400 "invalid_request" e, h)
      | .ok req =>
        if req.subjectTokenType = Token.subjectTokenTypeTxnToken then
          -- The verifier keeps no state, so the handler is as before.
          (h.handleReplacement env r req, h)
        else
          (h.issue env r req,
            { h with router := Authn.Router.after env.toEnv h.router req.subjectToken })

end Handler

end Tts

end Kontxt
