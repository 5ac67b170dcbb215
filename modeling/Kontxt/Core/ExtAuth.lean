import Kontxt.Core.Cel
import Kontxt.Core.Rules
import Kontxt.Core.Token
import Kontxt.Go.Sort
import Mathlib.Data.List.AList
import Mathlib.Data.String.Basic

/-!
# The Verification Adapter

The ext-auth server in verification mode: `SetVerificationRules` compiles a
rule set, `Check` decides one request against it.

A request's headers are a Go map. Only `headersToCEL` iterates over it, once
per request, and lower-casing may make two keys collide, so the headers are a
list of entries with distinct keys whose order is the order of that loop; a
result for all such lists holds for every order. The verifier and the TTS
client are functions of the calls the server makes of them.

## Main definitions

* `Celverify.compile`: Compiling verification rules.
* `Celverify.evaluate`: Running compiled rules up to the first denial.
* `VerificationRuleSet`: A rule with its compiled programs.
* `compileVerificationRuleCEL`: Compiling one rule's expressions one by one.
* `ExtAuth.Server`: The verification server.
* `ExtAuth.Server.setVerificationRules`: Installing a rule set.
* `ExtAuth.Server.check`: The authorization decision.
-/

namespace Kontxt

open Go

namespace Celverify

/-- `Rule` is the input form of a verification CEL rule. -/
structure Rule where
  name : String
  cel : String
  message : String
  deriving Repr, DecidableEq

/-- `Context` holds the variables of a verification expression. -/
structure Context where
  txToken : Object
  request : Object
  deriving Repr, DecidableEq

/-- `Program` is a compiled verification CEL rule. -/
structure Program where
  name : String
  program : Cel.Program Context
  message : String

/-- `celverify.Compile`. -/
def compile (u : Unicode) (newEnv : Except String (Cel.Env Context)) (rules : List Rule) :
    Except String (List Program) :=
  Cel.compileRules u "verification" Rule.name Rule.cel
    (fun r p => { name := r.name, program := p, message := r.message }) newEnv rules

/-- One iteration of `celverify.Evaluate`. -/
def evaluateOne (u : Unicode) (ctx : Context) (p : Program) : Except String Unit :=
  match Cel.evalExpr u "verification" p.name p.program ctx with
  | .error e => .error e
  | .ok true => .ok ()
  | .ok false => .error ("verification denied by rule " ++ p.name ++ ": " ++ p.message)

/-- `celverify.Evaluate`. -/
def evaluate (u : Unicode) (programs : List Program) (ctx : Context) : Except String Unit :=
  programs.forM (evaluateOne u ctx)

end Celverify

/-- `verificationRuleSet` bundles a rule with its compiled programs. -/
structure VerificationRuleSet where
  rule : VerificationRule
  celPrograms : List Celverify.Program

/-- `compileVerificationRuleCEL`: each expression is compiled on its own, and
    one that fails is skipped. -/
def compileVerificationRuleCEL (u : Unicode) (newEnv : Except String (Cel.Env Celverify.Context))
    (r : VerificationRule) : List Celverify.Program :=
  r.celRules.flatMap fun c =>
    match Celverify.compile u newEnv [{ name := c.name, cel := c.cel, message := c.message }] with
    | .error _ => []
    | .ok programs => programs

/-- The comparison `SetVerificationRules` sorts by. -/
def verificationLess (a b : VerificationRule) : Bool :=
  if a.nameSpace ≠ b.nameSpace then decide (a.nameSpace < b.nameSpace)
  else decide (a.name < b.name)

namespace ExtAuth

/-- `ExchangeRequest`, as the TTS client takes it. -/
structure ExchangeRequest where
  subjectToken : String
  subjectTokenType : String
  scope : String
  deriving Repr, DecidableEq

/-- `Server`. The rule set is nil until rules are first set. -/
structure Server where
  verifier : String → Except String Token.Claims
  verificationRules : Option (List VerificationRuleSet)
  ttsClient : Option (ExchangeRequest → Except String String)

/-- The HTTP attributes of a `CheckRequest`. -/
structure HttpRequest where
  path : String
  method : String
  headers : AList (fun _ : String => String)

/-- A `CheckRequest`, whose HTTP attributes may be missing. -/
structure CheckRequest where
  http : Option HttpRequest

/-- The gRPC status codes the servers answer with. -/
inductive Code where
  | ok
  | invalidArgument
  | permissionDenied
  | unauthenticated
  | internal
  deriving Repr, DecidableEq

/-- The name a status code prints as. -/
def Code.toString : Code → String
  | .ok => "OK"
  | .invalidArgument => "InvalidArgument"
  | .permissionDenied => "PermissionDenied"
  | .unauthenticated => "Unauthenticated"
  | .internal => "Internal"

/-- The HTTP part of a `CheckResponse`. -/
inductive HttpResponse where
  | okResponse (headers : List (String × String))
  | deniedResponse (status : Nat) (body : Json)
  deriving Repr, DecidableEq

/-- `CheckResponse`. An absent status reads as `OK`. -/
structure CheckResponse where
  status : Option (Code × String)
  httpResponse : HttpResponse
  deriving Repr, DecidableEq

/-- Whether the proxy lets the request through: the status code is `OK`. -/
def CheckResponse.isOK (r : CheckResponse) : Bool :=
  (r.status.map Prod.fst).getD .ok == .ok

/-- `allowed`. -/
def allowed : CheckResponse :=
  { status := some (.ok, ""), httpResponse := .okResponse [] }

/-- `allowedWithHeaders`, which sets no status. -/
def allowedWithHeaders (headers : List (String × String)) : CheckResponse :=
  { status := none, httpResponse := .okResponse headers }

/-- `denied`. -/
def denied (code : Code) (message : String) : CheckResponse :=
  let httpCode :=
    match code with
    | .permissionDenied => 403
    | .invalidArgument => 400
    | _ => 401
  { status := some (code, message)
    httpResponse := .deniedResponse httpCode
      (.obj [("error", .str code.toString), ("message", .str message)]) }

/-- `getHeader`: the lower-cased name first, then the name as given. -/
def getHeader (u : Unicode) (headers : AList (fun _ : String => String)) (name : String) : String :=
  match headers.lookup (toLower u name) with
  | some v => v
  | none => (headers.lookup name).getD ""

/-- `matchPath`. -/
def matchPath (requestPath pattern : String) : Bool :=
  let requestPath := cutQuery requestPath
  requestPath == pattern || hasPrefix requestPath (pattern ++ "/")

/-- `scopeContains`. -/
def scopeContains (scopeString required : String) : Bool :=
  (fields scopeString).contains required

/-- `scopeIsBroader`. -/
def scopeIsBroader (broader narrower : String) : Bool :=
  (fields narrower).all (fun s => (fields broader).contains s) &&
    decide ((fields broader).length > (fields narrower).length)

/-- A context as a member of the claims map: nil and empty maps are both
    omitted. -/
def omitEmpty (name : String) (ctx : Option Object) : Object :=
  match ctx with
  | some (x :: xs) => [(name, .obj (x :: xs))]
  | _ => []

/-- `claimsToMap`: the claims as JSON shows them. -/
def claimsToMap (c : Token.Claims) : Object :=
  [("iss", .str c.issuer), ("iat", .num c.issuedAt), ("exp", .num c.expiresAt),
    ("aud", .str c.audience), ("txn", .str c.transactionID), ("sub", .str c.subject),
    ("scope", .str c.scope), ("req_wl", .str c.requestingWorkload)] ++
    omitEmpty "tctx" c.transactionContext ++ omitEmpty "rctx" c.requesterContext

/-- `headersToCEL`: later entries of the loop overwrite earlier ones. -/
def headersToCEL (u : Unicode) (headers : AList (fun _ : String => String)) : Object :=
  headers.entries.foldl (fun out e => out.set (toLower u e.1) (.str e.2)) []

/-- The activation `checkVerificationRules` builds for a request. -/
def celContext (u : Unicode) (claims : Token.Claims) (req : HttpRequest) : Celverify.Context where
  txToken := claimsToMap claims
  request := [("path", .str req.path), ("method", .str req.method),
    ("headers", .obj (headersToCEL u req.headers))]

/-- The check of one required tctx field. -/
def checkTctxField (u : Unicode) (claims : Token.Claims) (ruleName field : String) :
    Except String Unit :=
  match claims.transactionContext with
  | none =>
    .error ("tctx is nil but field " ++ quote u field ++ " is required (rule: " ++ ruleName ++ ")")
  | some tctx =>
    if hasKey (some tctx) field then .ok ()
    else .error ("required tctx field " ++ quote u field ++ " missing (rule: " ++ ruleName ++ ")")

/-- One iteration of the loop of `checkVerificationRules`. -/
def checkVerificationRule (u : Unicode) (claims : Token.Claims) (req : HttpRequest)
    (rs : VerificationRuleSet) : Except String Unit := do
  let rule := rs.rule
  if rule.requiredScope ≠ "" ∧ scopeContains claims.scope rule.requiredScope = false then
    .error ("token scope " ++ quote u claims.scope ++ " does not contain required scope " ++
      quote u rule.requiredScope ++ " (rule: " ++ rule.name ++ ")")
  else
    rule.requiredTctxFields.forM (checkTctxField u claims rule.name)
    -- The activation is built once for all rules; here it is built where it is
    -- used.
    if rs.celPrograms.length > 0 then Celverify.evaluate u rs.celPrograms (celContext u claims req)
    else .ok ()

namespace Server

/-- `SetVerificationRules`. -/
def setVerificationRules (u : Unicode) (S : SortSlice)
    (newEnv : Except String (Cel.Env Celverify.Context)) (s : Server)
    (rules : List VerificationRule) : Server :=
  { s with
    verificationRules := some ((S.sort verificationLess rules).map fun r =>
      { rule := r, celPrograms := compileVerificationRuleCEL u newEnv r }) }

/-- `loadVerificationRules`. -/
def loadVerificationRules (s : Server) : List VerificationRuleSet :=
  s.verificationRules.getD []

/-- `isExcluded`. -/
def isExcluded (u : Unicode) (s : Server) (path method : String) : Bool :=
  s.loadVerificationRules.any fun rs =>
    rs.rule.excludedEndpoints.any fun ep =>
      matchPath path ep.path && equalFold u method ep.method

/-- `checkVerificationRules`. -/
def checkVerificationRules (u : Unicode) (s : Server) (claims : Token.Claims)
    (req : HttpRequest) : Except String Unit :=
  s.loadVerificationRules.forM (checkVerificationRule u claims req)

/-- The scan of `autoNarrow` for the first rule that asks for a narrower
    token. -/
def narrowingRule (claims : Token.Claims) : List VerificationRuleSet → Option VerificationRule
  | [] => none
  | rs :: rest =>
    let rule := rs.rule
    if rule.autoNarrow = false ∨ rule.requiredScope = "" then narrowingRule claims rest
    else if claims.scope ≠ rule.requiredScope ∧
        scopeIsBroader claims.scope rule.requiredScope = true then
      some rule
    else narrowingRule claims rest

/-- `autoNarrow`: a replacement token, or the empty string to keep the
    original. -/
def autoNarrow (s : Server) (claims : Token.Claims) (originalToken : String) : String :=
  match s.ttsClient with
  | none => ""
  | some exchange =>
    match narrowingRule claims s.loadVerificationRules with
    | none => ""
    | some rule =>
      match exchange { subjectToken := originalToken
                       subjectTokenType := Token.subjectTokenTypeTxnToken
                       scope := rule.requiredScope } with
      | .error _ => ""
      | .ok narrowedToken => narrowedToken

/-- `Check`. -/
def check (u : Unicode) (s : Server) (req : CheckRequest) : CheckResponse :=
  match req.http with
  | none => denied .invalidArgument "missing HTTP request attributes"
  | some httpReq =>
    let txToken := getHeader u httpReq.headers Token.headerName
    -- Exclusion comes before the token is looked at.
    if s.isExcluded u httpReq.path httpReq.method then allowed
    else if txToken = "" then denied .unauthenticated "missing Txn-Token header"
    else
      match s.verifier txToken with
      | .error e => denied .unauthenticated ("TxToken verification failed: " ++ e)
      | .ok claims =>
        match s.checkVerificationRules u claims httpReq with
        | .error e => denied .permissionDenied e
        | .ok () =>
          -- Failing to narrow is logged and keeps the original token.
          let narrowedToken := s.autoNarrow claims txToken
          if narrowedToken ≠ "" then allowedWithHeaders [(Token.headerName, narrowedToken)]
          else allowed

end Server

end ExtAuth

end Kontxt
