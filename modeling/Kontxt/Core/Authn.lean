import Kontxt.Core.Cel
import Kontxt.Core.Keys
import Kontxt.Go.Map

/-!
# Authenticating Subject Tokens

The router that picks an authenticator by a token's unverified issuer, and the
OIDC authenticator that verifies it: keys come from a cache that is filled from
the issuer's key set on a miss, then audience, CEL validation rules and claim
mappings follow. An authenticator changes when it fetches keys, so
authenticating returns the router as well.

The network and the decoding of JSON documents are parameters, `Net` and
`Docs`. A claim mapping asserts that its value is a string without checking,
and a failed assertion panics, so the result is a fault that is an error or a
panic.

## Main definitions

* `Authn.Net`: What fetching a URL gives.
* `Authn.Docs`: Decoding JSON documents.
* `Authn.Authenticator`: An OIDC authenticator.
* `Authn.newOIDCAuthenticator`: An authenticator from its configuration.
* `Authn.Authenticator.keyFunc`: Looking up, and if need be fetching, a key.
* `Authn.Authenticator.authenticate`: Verifying a subject token.
* `Authn.Env`: The surroundings of one authentication.
* `Authn.extractIssuer`: The unverified issuer of a token.
* `Authn.Router.authenticate`: Routing and verifying a subject token.
-/

namespace Kontxt

namespace Authn

open Go

/-- The reply to an HTTP GET. -/
structure Reply where
  statusCode : Nat
  body : String
  deriving Repr, DecidableEq

/-- What fetching a URL gives. -/
abbrev Net := String → Except String Reply

/-- `jwkKey`. -/
structure JwkKey where
  kty : String
  use : String
  kid : String
  alg : String
  n : String
  e : String
  deriving Repr, DecidableEq

/-- `oidcDiscovery`. -/
structure OidcDiscovery where
  issuer : String
  jwksURI : String
  deriving Repr, DecidableEq

/-- Decoding the JSON documents the authenticators read. -/
structure Docs where
  discovery : String → Except String OidcDiscovery
  jwks : String → Except String (List JwkKey)
  issuer : List Nat → Except String String

/-- `SubjectInfo`. -/
structure SubjectInfo where
  subject : String
  extra : GoMap String String

/-- How authenticating can fail. -/
inductive Fault where
  | error (message : String)
  | panic
  deriving Repr, DecidableEq

/-- `ClaimOrExpression`. -/
structure ClaimOrExpression where
  claim : String
  expression : String
  deriving Repr, DecidableEq

/-- `compiledRule`. -/
structure CompiledRule where
  program : Cel.Program Object
  message : String

/-- `compiledMapping`. -/
structure CompiledMapping where
  program : Cel.Program Object
  key : String

/-- `OIDCAuthenticator`, with its expressions compiled over the claims. -/
structure Authenticator where
  issuerURL : String
  discoveryURL : String
  audiences : List String
  validationRules : List CompiledRule
  subjectMapping : ClaimOrExpression
  subjectProgram : Option (Cel.Program Object)
  extraMappings : List CompiledMapping
  jwksURL : String
  keys : GoMap String RsaPublicKey

/-- `IssuerConfig`. The policy for matching audiences is read into a field that
    nothing reads, and is left out. -/
structure IssuerConfig where
  url : String
  discoveryURL : String
  audiences : List String
  deriving Repr, DecidableEq

/-- `ClaimValidationRule`. -/
structure ClaimValidationRule where
  expression : String
  message : String
  deriving Repr, DecidableEq

/-- `ExtraMapping`. -/
structure ExtraMapping where
  key : String
  valueExpression : String
  deriving Repr, DecidableEq

/-- `ClaimMappings`. -/
structure ClaimMappings where
  subject : ClaimOrExpression
  extra : List ExtraMapping
  deriving Repr, DecidableEq

/-- `AuthenticatorConfig`. -/
structure AuthenticatorConfig where
  issuer : IssuerConfig
  claimValidationRules : List ClaimValidationRule
  claimMappings : ClaimMappings
  deriving Repr, DecidableEq

section New

variable (u : Unicode) (env : Cel.Env Object)

/-- `compileValidationRules`, one iteration. -/
def compileValidationRule (rule : ClaimValidationRule) (i : Nat) : Except String CompiledRule :=
  match env rule.expression with
  | .error e =>
    .error ("compiling validation rule " ++ toString i ++ " (" ++ quote u rule.expression ++
      "): " ++ e)
  | .ok ast =>
    if ast.outputType ≠ .bool then
      .error ("validation rule " ++ toString i ++ " (" ++ quote u rule.expression ++
        "): expression must return bool, got " ++ ast.outputType.name)
    else
      match ast.program with
      | .error e => .error ("creating program for validation rule " ++ toString i ++ ": " ++ e)
      | .ok prg => .ok { program := prg, message := rule.message }

/-- `compileValidationRules`. -/
def compileValidationRules (rules : List ClaimValidationRule) :
    Except String (List CompiledRule) :=
  rules.zipIdx.mapM fun r => compileValidationRule u env r.1 r.2

/-- `compileSubjectMapping`. Without an expression there is no program. -/
def compileSubjectMapping (mapping : ClaimOrExpression) :
    Except String (Option (Cel.Program Object)) :=
  if mapping.expression = "" then .ok none
  else
    match env mapping.expression with
    | .error e =>
      .error ("compiling subject mapping expression " ++ quote u mapping.expression ++ ": " ++ e)
    | .ok ast =>
      -- A field of the claims is dynamic, so that type is let through as well.
      if ast.outputType ≠ .string ∧ ast.outputType ≠ .dyn then
        .error ("subject mapping expression " ++ quote u mapping.expression ++
          " must return string, got " ++ ast.outputType.name)
      else
        match ast.program with
        | .error e => .error ("creating program for subject mapping: " ++ e)
        | .ok prg => .ok (some prg)

/-- `compileExtraMappings`, one iteration. Any type will do. -/
def compileExtraMapping (m : ExtraMapping) (i : Nat) : Except String CompiledMapping :=
  match env m.valueExpression with
  | .error e =>
    .error ("compiling extra mapping " ++ toString i ++ " (" ++ quote u m.valueExpression ++
      "): " ++ e)
  | .ok ast =>
    match ast.program with
    | .error e => .error ("creating program for extra mapping " ++ toString i ++ ": " ++ e)
    | .ok prg => .ok { program := prg, key := m.key }

/-- `compileExtraMappings`. -/
def compileExtraMappings (mappings : List ExtraMapping) : Except String (List CompiledMapping) :=
  mappings.zipIdx.mapM fun m => compileExtraMapping u env m.1 m.2

/-- Where the discovery document is. -/
def IssuerConfig.discovery (issuer : IssuerConfig) : String :=
  if issuer.discoveryURL = "" then
    trimSuffix issuer.url "/" ++ "/.well-known/openid-configuration"
  else issuer.discoveryURL

end New

/-- `NewOIDCAuthenticator`, given what creating the CEL environment gives. -/
def newOIDCAuthenticator (u : Unicode) (newCELEnv : Except String (Cel.Env Object))
    (config : AuthenticatorConfig) : Except String Authenticator := do
  let env ← newCELEnv.mapError ("creating CEL environment: " ++ ·)
  let validationRules ← (compileValidationRules u env config.claimValidationRules).mapError
    ("compiling validation rules: " ++ ·)
  let subjectProgram ← (compileSubjectMapping u env config.claimMappings.subject).mapError
    ("compiling subject mapping: " ++ ·)
  let extraMappings ← (compileExtraMappings u env config.claimMappings.extra).mapError
    ("compiling extra mappings: " ++ ·)
  .ok
    { issuerURL := config.issuer.url
      discoveryURL := config.issuer.discovery
      audiences := config.issuer.audiences
      validationRules := validationRules
      subjectMapping := config.claimMappings.subject
      subjectProgram := subjectProgram
      extraMappings := extraMappings
      jwksURL := ""
      keys := ∅ }

/-- `evaluateValidationRules`, one iteration. -/
def evaluateValidationRule (claims : Object) (rule : CompiledRule) : Except String Unit :=
  match rule.program claims with
  | .error e => .error ("evaluating validation rule: " ++ e)
  | .ok (.bool true) => .ok ()
  | .ok (.bool false) => .error ("claim validation failed: " ++ rule.message)
  | .ok v => .error ("validation rule returned " ++ v.typeName ++ ", expected bool")

/-- `evaluateSubjectMapping`. -/
def evaluateSubjectMapping (u : Unicode) (mapping : ClaimOrExpression)
    (program : Option (Cel.Program Object)) (claims : Object) : Except Fault String :=
  if mapping.claim ≠ "" then
    match claims.lookup mapping.claim with
    | none => .error (.error ("subject claim " ++ quote u mapping.claim ++ " not found in token"))
    | some (.str s) => .ok s
    | some _ => .error (.error ("subject claim " ++ quote u mapping.claim ++ " is not a string"))
  else
    match program with
    | none => .error (.error "no subject mapping configured")
    | some p =>
      match p claims with
      | .error e => .error (.error ("evaluating subject mapping: " ++ e))
      | .ok v =>
        -- The assertion on the value is unchecked.
        match v.asString with
        | some s => .ok s
        | none => .error .panic

/-- `evaluateExtraMappings`. -/
def evaluateExtraMappings (u : Unicode) (claims : Object) (mappings : List CompiledMapping) :
    Except String (GoMap String String) :=
  mappings.foldlM (fun extra m =>
    match m.program claims with
    | .error e => .error ("evaluating extra mapping " ++ quote u m.key ++ ": " ++ e)
    | .ok v => .ok (extra.insert m.key v.shown)) ∅

section Fetch

variable (net : Net) (docs : Docs) (u : Unicode)

/-- A successful fetch, or the error the caller words for its document. -/
def fetch (what status url : String) : Except String String :=
  match net url with
  | .error e => .error ("fetching " ++ what ++ " from " ++ url ++ ": " ++ e)
  | .ok reply =>
    if reply.statusCode ≠ 200 then .error (status ++ toString reply.statusCode)
    else .ok reply.body

/-- `discoverJWKSURL`. -/
def Authenticator.discoverJWKSURL (a : Authenticator) : Except String String := do
  let body ← fetch net "OIDC discovery" "OIDC discovery endpoint returned status " a.discoveryURL
  match docs.discovery body with
  | .error e => .error ("decoding OIDC discovery: " ++ e)
  | .ok disco =>
    -- A document for another issuer would let its keys sign for this one.
    if disco.issuer ≠ a.issuerURL then
      .error ("OIDC discovery issuer " ++ quote u disco.issuer ++
        " does not match configured issuer " ++ quote u a.issuerURL)
    else if disco.jwksURI = "" then .error "OIDC discovery document has no jwks_uri"
    else .ok disco.jwksURI

/-- `jwkToRSAPublicKey`, the decoder of the loop below. -/
def jwkToRSAPublicKey (k : JwkKey) : Except String RsaPublicKey :=
  Keys.decodeKey k.n k.e

/-- Add the usable keys of a key set to the cache. Keys already cached stay. -/
def addKeys (keys : GoMap String RsaPublicKey) (jwks : List JwkKey) : GoMap String RsaPublicKey :=
  jwks.foldl (fun keys k =>
    if k.kty ≠ "RSA" ∨ k.use ≠ "sig" then keys
    else
      -- A key that cannot be read is skipped, not an error.
      match Keys.decodeKey k.n k.e with
      | .error _ => keys
      | .ok key => keys.insert k.kid key) keys

/-- Fetch the key set at a known URL. -/
def Authenticator.fetchKeys (a : Authenticator) : Except String Authenticator := do
  let body ← fetch net "JWKS" "JWKS endpoint returned status " a.jwksURL
  match docs.jwks body with
  | .error e => .error ("decoding JWKS: " ++ e)
  | .ok jwks => .ok { a with keys := addKeys a.keys jwks }

/-- `fetchJWKS`. A discovered URL is remembered even when the fetch after it
    fails. -/
def Authenticator.fetchJWKS (a : Authenticator) : Except String Unit × Authenticator :=
  let discovered : Except String Authenticator :=
    if a.jwksURL = "" then
      (a.discoverJWKSURL net docs u).map (fun url => { a with jwksURL := url })
    else .ok a
  match discovered with
  | .error e => (.error e, a)
  | .ok a =>
    match a.fetchKeys net docs with
    | .error e => (.error e, a)
    | .ok a => (.ok (), a)

/-- `keyFunc`: the cached key, else the key after fetching the key set. -/
def Authenticator.keyFunc (a : Authenticator) (t : Jwt) :
    Except String RsaPublicKey × Authenticator :=
  if isSigningMethodRSA t.header = false then
    (.error ("unexpected signing method: " ++ t.header.str "alg"), a)
  else
    match t.header.lookup "kid" with
    | some (.str kid) =>
      match a.keys.lookup kid with
      | some key => (.ok key, a)
      | none =>
        -- A key not in the cache may be new; the key set is fetched once for it.
        match a.fetchJWKS net docs u with
        | (.error e, a) => (.error ("fetching JWKS: " ++ e), a)
        | (.ok (), a) =>
          match a.keys.lookup kid with
          | some key => (.ok key, a)
          | none => (.error ("key " ++ quote u kid ++ " not found in JWKS"), a)
    | _ => (.error "missing kid in token header", a)

end Fetch

/-- `validateAudience`. Reading the audience of a claims set is the JWT
    library's. -/
def Authenticator.validateAudience (a : Authenticator)
    (getAudience : Object → Except String (List String)) (claims : Object) : Except String Unit :=
  match getAudience claims with
  | .error e => .error ("getting audience: " ++ e)
  | .ok aud =>
    if aud.any (fun tokenAud => a.audiences.contains tokenAud) then .ok ()
    else
      .error ("token audience [" ++ String.intercalate " " aud ++
        "] does not match any configured audience")

/-- What an authentication is given besides the token: the libraries, the
    network as it is for this request, and the time. -/
structure Env where
  jwt : JwtLib
  getAudience : Object → Except String (List String)
  net : Net
  docs : Docs
  unicode : Unicode
  now : Int

section Authenticate

variable (env : Env)

/-- The parse that verifies a subject token. -/
def Authenticator.parse (a : Authenticator) (tokenString : String) : Except String Jwt :=
  env.jwt.parse tokenString (fun t => (a.keyFunc env.net env.docs env.unicode t).1)
    (.withIssuer a.issuerURL) env.now

/-- The authenticator after that parse: its key function runs once, on a token
    that can be read. -/
def Authenticator.afterParse (a : Authenticator) (tokenString : String) : Authenticator :=
  match env.jwt.parseUnverified tokenString with
  | .error _ => a
  | .ok t => (a.keyFunc env.net env.docs env.unicode t).2

/-- The checks and mappings of `Authenticate` on verified claims. -/
def Authenticator.subjectInfo (a : Authenticator) (claims : Object) : Except Fault SubjectInfo := do
  -- Audience, rules, subject, extra: the first to fail is the error.
  (a.validateAudience env.getAudience claims).mapError Fault.error
  (a.validationRules.forM (evaluateValidationRule claims)).mapError Fault.error
  let subject ← (evaluateSubjectMapping env.unicode a.subjectMapping a.subjectProgram
    claims).mapError (fun
      | .error e => .error ("extracting subject: " ++ e)
      | .panic => .panic)
  let extra ← (evaluateExtraMappings env.unicode claims a.extraMappings).mapError
    (fun e => .error ("extracting extra mappings: " ++ e))
  .ok { subject := subject, extra := extra }

/-- `Authenticate`. -/
def Authenticator.authenticate (a : Authenticator) (tokenString : String) :
    Except Fault SubjectInfo :=
  match a.parse env tokenString with
  | .error e => .error (.error ("parsing/verifying token: " ++ e))
  | .ok t => a.subjectInfo env t.claims

/-- `extractIssuer`. -/
def extractIssuer (tokenString : String) : Except String String :=
  match split tokenString '.' with
  | [_, payload, _] =>
    match rawURLDecode payload with
    | .error e => .error ("decoding JWT payload: " ++ e)
    | .ok bytes =>
      match env.docs.issuer bytes with
      | .error e => .error ("parsing JWT payload: " ++ e)
      | .ok issuer => if issuer = "" then .error "token has no iss claim" else .ok issuer
  | parts => .error ("invalid JWT: expected 3 parts, got " ++ toString parts.length)

/-- `Router`: authenticators in the order they are tried. -/
abbrev Router := List Authenticator

/-- The first authenticator that matches an issuer. -/
def Router.matching (r : Router) (issuer : String) : Option Authenticator :=
  r.find? (fun a => issuer == a.issuerURL)

/-- `Authenticate` of the router. -/
def Router.authenticate (r : Router) (tokenString : String) : Except Fault SubjectInfo :=
  match extractIssuer env tokenString with
  | .error e => .error (.error ("extracting issuer from token: " ++ e))
  | .ok issuer =>
    match Router.matching r issuer with
    | none => .error (.error ("no authenticator found for issuer " ++ quote env.unicode issuer))
    | some a => a.authenticate env tokenString

/-- The router after authenticating: the authenticator that was tried may have
    fetched keys. -/
def Router.after (r : Router) (tokenString : String) : Router :=
  match extractIssuer env tokenString with
  | .error _ => r
  | .ok issuer => updateFirst issuer r
where
  /-- Replace the first authenticator that matches. -/
  updateFirst (issuer : String) : List Authenticator → List Authenticator
    | [] => []
    | a :: as =>
      if issuer == a.issuerURL then a.afterParse env tokenString :: as
      else a :: updateFirst issuer as

end Authenticate

end Authn

end Kontxt
