import Kontxt.Core.Client
import Kontxt.Core.Generate
import Kontxt.Core.Identity

/-!
# The Generation Adapter

The ext-auth server in generation mode. A request that matches a generation
rule is exchanged for a transaction token: the subject is the bearer token or
the resolved workload, the transaction context is the rule's purpose and what
the rule's mapping extracts from the request, and the requester context says
where the request came from. A request no rule matches passes as it is.

The mapping is a Go map, so the loop over it comes in any order; `check` takes
the entries in the order the loop meets them. Reading JSON and query strings is
a parameter.

## Main definitions

* `ExtAuth.EntryRequest`: A request as generation mode reads it.
* `ExtAuth.Decoders`: Reading bodies and query strings.
* `ExtAuth.Decoders.framed`: Decoders for objects of strings.
* `ExtAuth.extractTctxField`: Extracting one field.
* `ExtAuth.extractFields`: The loop over the mapping.
* `ExtAuth.requestContext`: The requester context.
* `ExtAuth.entryExchange`: The exchange a request leads to.
* `ExtAuth.GenerationServer.check`: The decision on one request.
-/

namespace Kontxt

namespace ExtAuth

open Go

/-- The HTTP attributes generation mode reads: those of verification mode and
    the body. -/
structure EntryHttp extends HttpRequest where
  body : String

/-- The source of a request. A missing socket address and a missing address are
    the same. -/
structure Source where
  principal : String
  socketAddress : Option String

/-- The attributes of a `CheckRequest` generation mode reads. -/
structure EntryRequest where
  http : Option EntryHttp
  source : Option Source

/-- Every member of an object is a string. -/
def AllStrings (o : Object) : Prop :=
  ∀ e ∈ o, ∃ s, e.2 = .str s

/-- `json.Unmarshal` into a map, `json.Marshal` of a decoded value, and
    `url.ParseQuery`. An object of strings that is encoded and decoded has the
    members it had. -/
structure Decoders where
  unmarshal : String → Except String (Option Object)
  marshal : Json → String
  parseQuery : String → Except String (List (String × String))
  marshal_ne : ∀ o, marshal (.obj o) ≠ ""
  unmarshal_marshal : ∀ o, AllStrings o → ∃ o', unmarshal (marshal (.obj o)) = .ok (some o') ∧
    ∀ k, o'.lookup k = o.lookup k

section Framed

/-- A string with every rune marked and an end. -/
def frame (s : String) : List Char :=
  s.toList.flatMap (fun c => ['x', c]) ++ ['.']

/-- Reading strings back; `acc` holds what was read of the current one, last rune
    first. -/
def unframe : List Char → List Char → Option (List String)
  | [], _ => some []
  | '.' :: rest, acc => (unframe rest []).map (String.ofList acc.reverse :: ·)
  | 'x' :: c :: rest, acc => unframe rest (c :: acc)
  | _, _ => none

/-- Names and values, one after the other. -/
def framedMembers (o : Object) : List String :=
  o.flatMap fun e => [e.1, match e.2 with
    | .str s => s
    | _ => ""]

/-- Names and values as members. -/
def pairUp : List String → Object
  | k :: v :: rest => (k, .str v) :: pairUp rest
  | _ => []

theorem unframe_frame (s : String) (rest acc : List Char) :
    unframe (frame s ++ rest) acc =
      (unframe rest []).map (String.ofList (acc.reverse ++ s.toList) :: ·) := by
  unfold frame
  generalize s.toList = l
  induction l generalizing acc with
  | nil => simp only [List.flatMap_nil, List.nil_append, List.cons_append, unframe,
      List.append_nil]
  | cons c l ih =>
      simp only [List.flatMap_cons, List.cons_append, List.nil_append, unframe]
      rw [ih, List.reverse_cons, List.append_assoc, List.singleton_append]

theorem unframe_flatMap (l : List String) : unframe (l.flatMap frame) [] = some l := by
  induction l with
  | nil => rfl
  | cons s l ih =>
      rw [List.flatMap_cons, unframe_frame, ih, List.reverse_nil, List.nil_append,
        String.ofList_toList]
      rfl

theorem pairUp_framedMembers (o : Object) (ho : AllStrings o) : pairUp (framedMembers o) = o := by
  induction o with
  | nil => rfl
  | cons e o ih =>
      rcases e with ⟨k, v⟩
      rcases ho (k, v) List.mem_cons_self with ⟨s, rfl⟩
      have hrest := ih fun e he => ho e (List.mem_cons_of_mem _ he)
      exact congrArg ((k, Json.str s) :: ·) hrest

/-- Decoders for objects of strings, to run the model with. -/
def Decoders.framed : Decoders where
  unmarshal := fun s =>
    match s.toList with
    | 'o' :: rest =>
      match unframe rest [] with
      | some l => .ok (some (pairUp l))
      | none => .error "invalid character"
    | _ => .error "unexpected end of JSON input"
  marshal := fun v =>
    match v with
    | .obj o => String.ofList ('o' :: (framedMembers o).flatMap frame)
    | _ => "null"
  parseQuery := fun _ => .ok []
  marshal_ne := by
    intro o h
    cases String.ofList_injective h
  unmarshal_marshal := by
    intro o ho
    refine ⟨o, ?_, fun _ => rfl⟩
    simp only [String.toList_ofList, unframe_flatMap, pairUp_framedMembers o ho]

end Framed

/-- The subject token type of a resolved workload. -/
def subjectTokenTypeServiceAccount : String :=
  "urn:ietf:params:oauth:token-type:kubernetes-sa"

/-- `extractTctxField`. -/
def extractTctxField (u : Unicode) (D : Decoders) (httpReq : EntryHttp)
    (mapping : V1alpha1.TctxFieldMapping) : Except String String :=
  if mapping.source = "body" then
    if httpReq.body = "" then .ok ""
    else
      match D.unmarshal httpReq.body with
      | .error e => .error ("failed to parse request body as JSON: " ++ e)
      | .ok parsed =>
        match (parsed.getD []).lookup mapping.field with
        | none => .ok ""
        | some (.str v) => .ok v
        | some v => .ok (D.marshal v)
  else if mapping.source = "query" then
    match afterFirst httpReq.path '?' with
    | none => .ok ""
    | some rawQuery =>
      match D.parseQuery rawQuery with
      | .error e => .error ("failed to parse query string: " ++ e)
      | .ok query => .ok ((query.lookup mapping.field).getD "")
  else if mapping.source = "header" then
    .ok (getHeader u httpReq.headers (toLower u mapping.field))
  else if mapping.source = "path" then
    -- Path parameters are not extracted.
    .ok ""
  else .error ("unknown tctxMapping source: " ++ quote u mapping.source)

/-- The loop over the mapping: a field that cannot be extracted or is empty is
    left out, unless it is required. -/
def extractFields (u : Unicode) (D : Decoders) (httpReq : EntryHttp) :
    List (String × V1alpha1.TctxFieldMapping) → Object → Except CheckResponse Object
  | [], requestDetails => .ok requestDetails
  | (fieldName, mapping) :: rest, requestDetails =>
    match extractTctxField u D httpReq mapping with
    | .error e =>
      if mapping.required = true then
        .error (denied .invalidArgument
          ("required tctx field " ++ quote u fieldName ++ " extraction failed: " ++ e))
      else extractFields u D httpReq rest requestDetails
    | .ok val =>
      if val ≠ "" then
        extractFields u D httpReq rest (requestDetails.set fieldName (.str val))
      else if mapping.required = true then
        .error (denied .invalidArgument
          ("required tctx field " ++ quote u fieldName ++ " is missing"))
      else extractFields u D httpReq rest requestDetails

/-- `extractSourceAddress`. -/
def extractSourceAddress (req : EntryRequest) : String :=
  (req.source.bind Source.socketAddress).getD ""

/-- The requester context of an exchange. -/
def requestContext (authHeader sourceAddr : String) : Object :=
  (if sourceAddr ≠ "" then [("req_ip", .str sourceAddr)] else []) ++
    [("authn", .str (if authHeader ≠ "" then "oidc" else "kubernetes-sa"))]

/-- The exchange a request that matches a rule leads to. -/
def entryExchange (rule : GenerationRule) (subject : String × String) (requestDetails : Object)
    (authHeader sourceAddr : String) : SdkTts.ExchangeRequest where
  subjectToken := subject.1
  subjectTokenType := subject.2
  scope := rule.scope
  requestDetails := some requestDetails
  requestContext := some (requestContext authHeader sourceAddr)

/-- `GenerationServer`. -/
structure GenerationServer where
  ttsClient : SdkTts.ExchangeRequest → Except String String
  identityResolver : IdentityResolver
  generationRules : List GenerationRule

namespace GenerationServer

/-- `SetGenerationRules`. -/
def setGenerationRules (s : GenerationServer) (rules : List GenerationRule) :
    GenerationServer :=
  { s with generationRules := rules }

/-- The subject token of a request and its type: the bearer token, or the
    workload the request comes from. -/
def subjectToken (u : Unicode) (s : GenerationServer) (req : EntryRequest) (authHeader : String) :
    Except String (String × String) :=
  if authHeader ≠ "" ∧ hasPrefix authHeader "Bearer " = true then
    .ok (trimPrefix authHeader "Bearer ", Token.subjectTokenTypeAccessToken)
  else
    match s.identityResolver.resolve u ((req.source.map Source.principal).getD "")
        (extractSourceAddress req) with
    | .error e => .error e
    | .ok identity => .ok (identity.subject, subjectTokenTypeServiceAccount)

/-- `Check`, given the entries of the mapping of the rule that matches, in the
    order the loop meets them. -/
def check (u : Unicode) (D : Decoders) (s : GenerationServer)
    (mapped : List (String × V1alpha1.TctxFieldMapping)) (req : EntryRequest) : CheckResponse :=
  match req.http with
  | none => denied .invalidArgument "missing HTTP request attributes"
  | some httpReq =>
    match findMatchingRule u s.generationRules httpReq.path httpReq.method with
    | none => allowed
    | some rule =>
      let authHeader := getHeader u httpReq.headers "Authorization"
      match s.subjectToken u req authHeader with
      | .error e => denied .unauthenticated ("failed to resolve workload identity: " ++ e)
      | .ok subject =>
        match extractFields u D httpReq mapped [("purpose", .str rule.purpose)] with
        | .error resp => resp
        | .ok requestDetails =>
          match s.ttsClient (entryExchange rule subject requestDetails authHeader
              (extractSourceAddress req)) with
          | .error e => denied .internal ("token exchange failed: " ++ e)
          | .ok txToken => allowedWithHeaders [(Token.headerName, txToken)]

end GenerationServer

end ExtAuth

end Kontxt
