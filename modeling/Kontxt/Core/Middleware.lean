import Kontxt.Core.ExtAuth
import Kontxt.Core.Verifier
import Kontxt.Go.JsonText
import Kontxt.Lib.System

/-!
# The Middleware and Chains of Calls

The two halves of the SDK a service is built with. On the way in, the middleware
verifies the token of a request and puts the claims and the token into the request's
context. On the way out, the transport takes the token from the context of a request
and puts it into the header, unless the service has set the header itself.

Together they make a mesh of services: requests come from outside or are sent by a
handler that is at work on an earlier one, an adapter in front of a service may
replace the token of a request by a narrower one, and a service that verifies the
token starts a handler. Contexts are values one above the other, and a request on
its way has none. A proxy puts the headers of the adapter's answer in place of those
the request has, and may deliver a request again.

## Main definitions

* `Http.Header.get`, `Http.Header.set`: Headers under their canonical names.
* `ExtAuth.Started`: An adapter as its binary runs it.
* `Middleware.Context`: The values of a context.
* `Middleware.verifyTxToken`: The middleware of a service.
* `Middleware.roundTrip`: What the transport sends.
* `Middleware.Mesh`: The requests on their way and the handlers at work.
* `Middleware.mesh`: Services that call each other, from their start on.
-/

namespace Kontxt

open Go Lib

namespace Http

/-- `http.Header`: the values of each header, under its canonical name. -/
abbrev Header := GoMap String (List String)

/-- A rune that may stand in the name of a header. -/
def isTokenRune (c : Char) : Bool :=
  c.isAlphanum || "!#$%&'*+-.^_`|~".toList.contains c

/-- Letters that start a word in upper case, and the others in lower case. -/
def capitalize : Bool → List Char → List Char
  | _, [] => []
  | upper, c :: cs => (if upper then c.toUpper else c.toLower) :: capitalize (c == '-') cs

/-- `CanonicalMIMEHeaderKey`. A name that is not one of a header stays as it is. -/
def canonicalName (s : String) : String :=
  if s.toList.all isTokenRune then String.ofList (capitalize true s.toList) else s

/-- `Header.Get`: the first value, or nothing. -/
def Header.get (h : Header) (name : String) : String :=
  (((h.lookup (canonicalName name)).getD []).head?).getD ""

/-- `Header.Set`: one value in place of any others. -/
def Header.set (h : Header) (name value : String) : Header :=
  h.insert (canonicalName name) [value]

end Http

namespace ExtAuth

/-- `NewServer`. -/
def newServer (verifier : String → Except String Token.Claims) : Server where
  verifier := verifier
  verificationRules := none
  ttsClient := none

/-- The adapter in verification mode as its binary runs it: made by `NewServer` for a
    verifier, whose cache changes from call to call, and given rules by the rule client. -/
inductive Started : Server → Prop
  | new (verifier : String → Except String Token.Claims) : Started (newServer verifier)
  | verified (s : Server) (verifier : String → Except String Token.Claims) :
      Started s → Started { s with verifier := verifier }
  | ruled (s : Server) (u : Unicode) (S : SortSlice)
      (newEnv : Except String (Cel.Env Celverify.Context)) (rules : List VerificationRule) :
      Started s → Started (s.setVerificationRules u S newEnv rules)

end ExtAuth

namespace Middleware

/-- A key of a context: a type, which no other package can name, and its value. -/
structure ContextKey where
  type : String
  name : String
  deriving Repr, DecidableEq

/-- `contextKey`. -/
def contextKey (name : String) : ContextKey where
  type := "middleware.contextKey"
  name := name

def claimsContextKey : ContextKey := contextKey "kontxt-claims"

def tokenContextKey : ContextKey := contextKey "kontxt-token"

/-- A value in a context: claims, a string, or something else. -/
inductive Value where
  | claims (c : Token.Claims)
  | str (s : String)
  | other

/-- `context.Context` as far as its values go, latest first. -/
abbrev Context := List (ContextKey × Value)

/-- `ClaimsFromContext`. No context stands for nil, as do no claims. -/
def claimsFromContext (ctx : Option Context) : Option Token.Claims :=
  match ctx with
  | none => none
  | some ctx =>
    match ctx.lookup claimsContextKey with
    | some (.claims c) => some c
    | _ => none

/-- `TokenFromContext`. -/
def tokenFromContext (ctx : Option Context) : String :=
  match ctx with
  | none => ""
  | some ctx =>
    match ctx.lookup tokenContextKey with
    | some (.str t) => t
    | _ => ""

/-- `withClaims`. -/
def withClaims (ctx : Option Context) (claims : Token.Claims) : Context :=
  (claimsContextKey, .claims claims) :: ctx.getD []

/-- `withToken`, which `WithToken` is. -/
def withToken (ctx : Option Context) (tokenString : String) : Context :=
  (tokenContextKey, .str tokenString) :: ctx.getD []

/-- A request at a service. -/
structure Request where
  method : String
  path : String
  header : Http.Header
  ctx : Context

/-- What the middleware does with a request: it refuses it, or hands it on. -/
inductive Verdict where
  | unauthorized (message : String)
  | next (r : Request)

/-- `VerifyTxToken`. -/
def verifyTxToken (env : Authn.Env) (v : Verify.Verifier) (r : Request) : Verdict :=
  let tokenString := r.header.get Token.headerName
  if tokenString = "" then .unauthorized "missing Txn-Token header"
  else
    match v.verify env tokenString with
    | .error e => .unauthorized e
    | .ok claims =>
      let ctx := withClaims (some r.ctx) claims
      let ctx := withToken (some ctx) tokenString
      .next { r with ctx := ctx }

/-- The members of a refusal, in the order of their names. -/
def verifyErrorFields (message : String) : List (String × String) :=
  [("error", "invalid_token"), ("message", message)]

/-- `writeVerifyError`: status and body of a refusal. -/
def writeVerifyError (F : FloatText) (message : String) : Nat × String :=
  (401, structText F (verifyErrorFields message))

/-- What the middleware itself answers. A request that is handed on is answered by the
    service behind it. -/
def Verdict.written (F : FloatText) : Verdict → Option (Nat × String)
  | .unauthorized message => some (writeVerifyError F message)
  | .next _ => none

/-- `RoundTrip`: the request the base transport is given. -/
def roundTrip (r : Request) : Request :=
  if r.header.get Token.headerName ≠ "" then r
  else
    let txToken := tokenFromContext (some r.ctx)
    -- The header of a clone is set; the request of the caller stays as it is.
    if txToken ≠ "" then { r with header := r.header.set Token.headerName txToken } else r

/-- A request on its way, with the handler that sent it, if a service did. -/
structure Flight where
  sender : Option Nat
  method : String
  path : String
  header : Http.Header

/-- A request as the service it is sent to gets it. -/
def Flight.request (f : Flight) : Request where
  method := f.method
  path := f.path
  header := f.header
  ctx := []

/-- A handler at work behind the middleware: the handler that called it, the first
    of the chain, and its context. -/
structure Handling where
  sender : Option Nat
  root : Nat
  ctx : Context

/-- The requests on their way and the handlers at work, by number. -/
structure Mesh where
  flights : Nat → Option Flight
  handlings : Nat → Option Handling

/-- What can happen: a request comes from outside, a handler sends one, an adapter
    lets one through, and a service starts a handler for one. -/
inductive Event where
  | arrive (m : Nat) (f : Flight)
  | send (m i : Nat) (r : Request)
  | check (m : Nat) (adapter : ExtAuth.Server) (req : ExtAuth.HttpRequest)
  | receive (i m : Nat) (env : Authn.Env) (v : Verify.Verifier)

/-- The proxy puts the headers of an answer in place of those of a request. -/
def applyHeaders (header : Http.Header) (resp : ExtAuth.CheckResponse) : Http.Header :=
  match resp.httpResponse with
  | .okResponse headers => headers.foldl (fun h e => h.set e.1 e.2) header
  | .deniedResponse _ _ => header

namespace Mesh

/-- A request is under way. -/
def fly (s : Mesh) (m : Nat) (f : Flight) : Mesh :=
  { s with flights := Function.update s.flights m (some f) }

/-- A handler starts. -/
def start (s : Mesh) (i : Nat) (h : Handling) : Mesh :=
  { s with handlings := Function.update s.handlings i (some h) }

/-- The first handler of the chain a new one belongs to. -/
def rootOf (s : Mesh) (i : Nat) (sender : Option Nat) : Nat :=
  match sender.bind s.handlings with
  | none => i
  | some h => h.root

/-- One step of the mesh. The adapter sees the token the service would see, and it
    and the services read tokens with the same library. -/
inductive Step (J : JwtLib) (u : Unicode) : Mesh → Event → Mesh → Prop
  | arrive (s : Mesh) (m : Nat) (f : Flight) (hfree : s.flights m = none)
      (houtside : f.sender = none) :
      Step J u s (.arrive m f) (s.fly m f)
  | send (s : Mesh) (m i : Nat) (r : Request) (h : Handling) (hfree : s.flights m = none)
      (hi : s.handlings i = some h) :
      Step J u s (.send m i r)
        (s.fly m { sender := some i, method := r.method, path := r.path,
                   header := (roundTrip r).header })
  | check (s : Mesh) (m : Nat) (adapter : ExtAuth.Server) (req : ExtAuth.HttpRequest) (f : Flight)
      (hf : s.flights m = some f)
      (hseen : ExtAuth.getHeader u req.headers Token.headerName = f.header.get Token.headerName)
      (hok : (adapter.check u { http := some req }).isOK = true) :
      Step J u s (.check m adapter req)
        (s.fly m { f with header := applyHeaders f.header (adapter.check u { http := some req }) })
  | receive (s : Mesh) (i m : Nat) (env : Authn.Env) (v : Verify.Verifier) (f : Flight)
      (r : Request) (hfree : s.handlings i = none) (hf : s.flights m = some f)
      (hjwt : env.jwt = J) (hnext : verifyTxToken env v f.request = .next r) :
      Step J u s (.receive i m env v)
        (s.start i { sender := f.sender, root := s.rootOf i f.sender, ctx := r.ctx })

end Mesh

/-- Services that call each other, from their start on. -/
def mesh (J : JwtLib) (u : Unicode) : System Mesh Event where
  init := fun s => s = { flights := fun _ => none, handlings := fun _ => none }
  step := Mesh.Step J u

end Middleware

end Kontxt
