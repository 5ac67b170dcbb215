import Kontxt.Core.Rotation
import Kontxt.Core.RuleClient
import Kontxt.Core.Wire
import Kontxt.Go.JsonRecords

/-!
# The Token Service as a Process

The binary of the token service: its configuration, the server that is made from
it, the four endpoints, and the rule client that runs beside them when the process
was given the address of a controller. The handler of the server and the one the
rule client sets rules on are the same, so the process has one.

A process is run together with a verifier in some other service, which fetches the
key set from the process by its URL. The key set goes over the wire as text. The
run records the tokens requests were answered with, each with the time, and for
every message of the rule stream the map after it and the list handed on.

A path is one that the multiplexer finds clean. What the operating system and the
libraries give a process at its start is a `Platform`.

## Main definitions

* `Keys.keySetText`: The key set as the endpoint writes it.
* `Verify.readKeySet`, `Authn.readKeySet`: The key set as the two verifiers read it.
* `Tts.Config`, `Tts.loadConfig`: The configuration.
* `Tts.newServer`: The server for a configuration.
* `Tts.dispatch`: Which endpoint a request goes to.
* `Tts.Process`: The server and the rule client.
* `Tts.Process.serve`: The answer to a request.
* `Tts.Process.receive`: A message of the rule stream.
* `Tts.Deployment`, `Tts.deployments`: A process and a verifier, over time.
-/

namespace Kontxt

open Go Lib

namespace Keys

/-- The fields of a `PublicKey`, in their order. -/
def PublicKey.fields (pk : PublicKey) : List (String × String) :=
  [("kty", pk.kty), ("use", pk.use), ("alg", pk.alg), ("kid", pk.kid), ("n", pk.n), ("e", pk.e)]

/-- A `JWKSet` as `JWKSHandler` writes it. -/
def keySetText (F : FloatText) (keys : List PublicKey) : String :=
  recordsText F "keys" (keys.map PublicKey.fields)

end Keys

namespace Authn

/-- A key from the fields of its struct. -/
def JwkKey.ofFields (f : String → String) : JwkKey where
  kty := f "kty"
  use := f "use"
  kid := f "kid"
  alg := f "alg"
  n := f "n"
  e := f "e"

/-- A key set read into a struct whose keys have the given fields. -/
def readKeys (F : FloatText) (u : Unicode) (invalid : String → String) (names : List String)
    (body : String) : Except String (List JwkKey) :=
  match decodeRecords F u names "keys" body with
  | none => .error (invalid body)
  | some keys => .ok (keys.map JwkKey.ofFields)

/-- The fields of `jwkKey`. -/
def jwkFields : List String := ["kty", "use", "kid", "alg", "n", "e"]

/-- The key set as `fetchJWKS` of an authenticator reads it. -/
def readKeySet (F : FloatText) (u : Unicode) (invalid : String → String) (body : String) :
    Except String (List JwkKey) :=
  readKeys F u invalid jwkFields body

end Authn

namespace Verify

/-- The fields of a key in `fetchJWKS`. The algorithm is not one of them. -/
def jwkFields : List String := ["kty", "use", "kid", "n", "e"]

/-- The key set as `fetchJWKS` of the verifier reads it. -/
def readKeySet (F : FloatText) (u : Unicode) (invalid : String → String) (body : String) :
    Except String (List Authn.JwkKey) :=
  Authn.readKeys F u invalid jwkFields body

end Verify

namespace Tts

/-- `TokenDefaults`. -/
structure TokenDefaults where
  tokenLifetime : String
  keySize : Int
  deriving Repr, DecidableEq

/-- `Config`. -/
structure Config where
  trustDomain : String
  issuer : String
  subjectTokens : List Authn.AuthenticatorConfig
  defaults : TokenDefaults
  deriving Repr, DecidableEq

namespace Config

/-- `DefaultTokenLifetime`. A lifetime that cannot be parsed is the default, too. -/
def defaultTokenLifetime (parseDuration : String → Except String Int) (c : Config) : Int :=
  if c.defaults.tokenLifetime = "" then 15 * second
  else
    match parseDuration c.defaults.tokenLifetime with
    | .error _ => 15 * second
    | .ok d => d

/-- `DefaultKeySize`. -/
def defaultKeySize (c : Config) : Int :=
  if c.defaults.keySize = 0 then 2048 else c.defaults.keySize

end Config

/-- What a process is given at its start: the tables of runes, parsing durations, the
    hash, a fresh key of a size, whose exponent is always the same, and the CEL
    environment of the authenticators. -/
structure Platform where
  unicode : Unicode
  parseDuration : String → Except String Int
  sum256 : List Nat → Vector Nat 32
  generateKey : Int → Except String RsaPrivateKey
  newCELEnv : Except String (Cel.Env Object)
  generateKey_e : ∀ size key, generateKey size = .ok key →
    key.publicKey.e = Keys.generatedExponent

/-- `NewManager`. -/
def newManager (P : Platform) (keySize : Int) : Except String Keys.Manager :=
  match P.generateKey keySize with
  | .error e => .error ("generating initial key: " ++ e)
  | .ok key => .ok (.new (Keys.generateKey P.sum256 key))

/-- The loop over the configured authenticators. -/
def newAuthenticators (P : Platform) (configs : List Authn.AuthenticatorConfig) :
    Except String Authn.Router :=
  configs.zipIdx.mapM fun c =>
    (Authn.newOIDCAuthenticator P.unicode P.newCELEnv c.1).mapError fun e =>
      "creating authenticator " ++ toString c.2 ++ " (" ++ c.1.issuer.url ++ "): " ++ e

/-- `NewHandler`. -/
def newHandler (router : Authn.Router) (keyManager : Keys.Manager) (issuer trustDomain : String)
    (lifetime : Int) : Handler where
  router := router
  keyManager := keyManager
  verifier := none
  issuer := issuer
  trustDomain := trustDomain
  lifetime := lifetime
  issuanceRules := none

/-- `SetVerifier`. -/
def Handler.setVerifier (h : Handler) (v : LocalVerifier) : Handler :=
  { h with verifier := some v }

/-- `NewServer`, as the handler it makes; the key manager is the handler's. -/
def newServer (P : Platform) (cfg : Config) : Except String Handler := do
  let keyMgr ← (newManager P cfg.defaultKeySize).mapError ("creating key manager: " ++ ·)
  let router ← newAuthenticators P cfg.subjectTokens
  let handler := newHandler router keyMgr cfg.issuer cfg.trustDomain
    (cfg.defaultTokenLifetime P.parseDuration)
  .ok (handler.setVerifier { audience := cfg.trustDomain })

/-- The endpoints of the server. -/
inductive Endpoint where
  | token
  | jwks
  | healthz
  | readyz
  deriving Repr, DecidableEq

/-- The patterns the server registers: method, path and endpoint. -/
def patterns : List (String × String × Endpoint) :=
  [("POST", "/token_endpoint", .token), ("GET", "/.well-known/jwks.json", .jwks),
    ("GET", "/healthz", .healthz), ("GET", "/readyz", .readyz)]

/-- Whether a pattern takes a method. One for GET also takes HEAD. -/
def takesMethod (pattern method : String) : Bool :=
  pattern == method || (pattern == "GET" && method == "HEAD")

/-- Where the multiplexer sends a request, or what it answers itself. -/
def dispatch (method path : String) : Except (Nat × String) Endpoint :=
  match patterns.find? fun p => p.2.1 == path && takesMethod p.1 method with
  | some p => .ok p.2.2
  | none =>
    if patterns.any fun p => p.2.1 == path then .error (405, "Method Not Allowed\n")
    else .error (404, "404 page not found\n")

/-- The rule client of a process: the map of the open session, whether a rule set was
    applied, and whether a session is open. -/
structure RuleSync where
  rules : GoMap (String × String × String) Kontxt.IssuanceRule
  synced : Bool
  connected : Bool

/-- The rule client as such, with the setter for a handler. -/
def RuleSync.client (c : RuleSync) (h : Handler) : TtsClient where
  rules := c.rules
  setter := { handler := some h }
  synced := c.synced

/-- A process: the handler of its server, and its rule client if it has one. -/
structure Process where
  handler : Handler
  sync : Option RuleSync

namespace Process

/-- `main` once the server is made: no rule client without the address of a
    controller. -/
def start (handler : Handler) (controllerAddr : String) : Process where
  handler := handler
  sync :=
    if controllerAddr = "" then none
    else some { rules := ∅, synced := false, connected := false }

/-- What `/readyz` answers. Without a rule client there is no check. -/
def readiness (p : Process) : Nat × String :=
  match p.sync with
  | none => (200, "ready")
  | some c =>
    if c.synced = false then (503, "issuance rules not yet synced\n") else (200, "ready")

/-- The server leaves out the body of an answer to a HEAD request. -/
def written (method : String) (answer : Nat × String) : Nat × String :=
  if method = "HEAD" then (answer.1, "") else answer

/-- The answer to a request, if there is one, and the process after it. -/
def serve (F : FloatText) (env : Env) (p : Process) (path : String) (m : Http.Message) :
    Option (Nat × String) × Process :=
  match dispatch m.method path with
  | .error answer => (some (written m.method answer), p)
  | .ok .token =>
    let answer := p.handler.serveMessage F env m
    (answer.1, { p with handler := answer.2 })
  | .ok .jwks =>
    let reply := p.handler.keyManager.jwksHandler (Keys.keySetText F) m.method
    (some (written m.method (reply.statusCode, reply.body)), p)
  | .ok .healthz => (some (written m.method (200, "ok")), p)
  | .ok .readyz => (some (written m.method p.readiness), p)

/-- The handler's answer to a request that reaches it. -/
def answer (env : Env) (p : Process) (path : String) (m : Http.Message) : Option Response :=
  match dispatch m.method path with
  | .ok .token => some (p.handler.serveHTTP env (Request.ofMessage env.unicode m)).1
  | _ => none

/-- A message of the rule stream, for the map collected into the slice `flat`. -/
def receive (u : Unicode) (S : SortSlice) (newEnv : Except String (Cel.Env Activation))
    (p : Process) (c : RuleSync) (resp : Kontxt.Response Proto.IssuanceRule)
    (flat : List Kontxt.IssuanceRule) : Process :=
  let rules := issuanceStream.receive c.rules resp
  let client := ({ c with rules := rules }.client p.handler).install u S newEnv flat
  { handler := client.setter.handler.getD p.handler
    sync := some { c with rules := rules, synced := client.synced } }

end Process

/-- A GET request without anything in it. -/
def getMessage : Http.Message where
  method := "GET"
  query := ""
  header := []
  body := ""

/-- A verifier's surroundings in which the URL leads to the key set endpoint of the
    process. -/
structure Reaches (F : FloatText) (J : JwtLib) (p : Process) (url : String) (env : Authn.Env) :
    Prop where
  jwt : env.jwt = J
  docs : ∃ invalid, env.docs.jwks = Verify.readKeySet F env.unicode invalid
  net : ∀ e : Env, ∃ reply, env.net url = .ok reply ∧
    (p.serve F e "/.well-known/jwks.json" getMessage).1 = some (reply.statusCode, reply.body)

/-- The token of an answer. -/
def Response.accessToken : Response → Option String
  | .token accessToken _ _ => some accessToken
  | _ => none

/-- A process and a verifier; and the tokens requests were answered with, with the
    time, newest first, and the messages of the rule stream, newest first. -/
structure Deployment where
  process : Process
  verifier : Verify.Verifier
  issued : List (String × Int)
  log : List (GoMap (String × String × String) Kontxt.IssuanceRule × List Kontxt.IssuanceRule)

/-- What can happen: a request, a session of the rule client that begins or ends, a
    message in it, and a token that is verified elsewhere. -/
inductive DeploymentEvent where
  | request (env : Env) (path : String) (m : Http.Message)
  | connect
  | disconnect
  | message (resp : Kontxt.Response Proto.IssuanceRule)
  | verify (env : Authn.Env) (text : String)

namespace Deployment

/-- The tokens issued after a request. -/
def issuedAfter (d : Deployment) (env : Env) (path : String) (m : Http.Message) :
    List (String × Int) :=
  (((d.process.answer env path m).bind Response.accessToken).map fun tok =>
    (tok, env.now)).toList ++ d.issued

/-- One step. -/
inductive Step (F : FloatText) (J : JwtLib) (u : Unicode) (S : SortSlice)
    (newEnv : Except String (Cel.Env Activation)) :
    Deployment → DeploymentEvent → Deployment → Prop
  | request (d : Deployment) (env : Env) (path : String) (m : Http.Message)
      (hjwt : env.jwt = J) :
      Step F J u S newEnv d (.request env path m)
        { d with process := (d.process.serve F env path m).2, issued := d.issuedAfter env path m }
  | connect (d : Deployment) (c : RuleSync) (hc : d.process.sync = some c)
      (hconn : c.connected = false) :
      Step F J u S newEnv d .connect
        { d with
          process := { d.process with sync := some { c with rules := ∅, connected := true } } }
  | disconnect (d : Deployment) (c : RuleSync) (hc : d.process.sync = some c)
      (hconn : c.connected = true) :
      Step F J u S newEnv d .disconnect
        { d with process := { d.process with sync := some { c with connected := false } } }
  | message (d : Deployment) (c : RuleSync) (resp : Kontxt.Response Proto.IssuanceRule)
      (flat : List Kontxt.IssuanceRule) (hc : d.process.sync = some c)
      (hconn : c.connected = true) (hflat : Ranges (issuanceStream.receive c.rules resp) flat) :
      Step F J u S newEnv d (.message resp)
        { d with
          process := d.process.receive u S newEnv c resp flat
          log := (issuanceStream.receive c.rules resp, S.sort issuanceLess flat) :: d.log }
  | verify (d : Deployment) (env : Authn.Env) (text : String)
      (henv : Reaches F J d.process d.verifier.jwksURL env) :
      Step F J u S newEnv d (.verify env text)
        { d with verifier := d.verifier.afterVerify env text }

end Deployment

end Tts

end Kontxt
