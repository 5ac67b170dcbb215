import Kontxt.Core.GenerationServer
import Kontxt.Go.JsonText

/-!
# Exchanges on the Wire

The texts that go between the exchange client and the token service: the form a
client posts, how the server reads the form of a request, the JSON bodies of the
handler's answers and of a denial, and how the client reads an answer. The rest of
the model speaks of forms and answers as such; here they are the texts.

A body is text. The server reads at most ten megabytes of a form.

## Main definitions

* `Http.Message`, `Http.parseForm`: A request as it is sent, and `ParseForm` of it.
* `Tts.Response.http`: An answer of the handler as status and body.
* `Tts.Handler.serveMessage`: The endpoint from text to text.
* `SdkTts.message`: The request an exchange sends.
* `SdkTts.readAnswer`: What the client makes of status and body.
* `SdkTts.exchangeOver`: One exchange over a connection.
* `ExtAuth.denialBody`: The body of a denial.
* `ExtAuth.Decoders.json`: The decoders of the generation adapter.
-/

namespace Kontxt

open Go

namespace Http

/-- An HTTP request as it is sent: the query of its URL, its headers under their
    canonical names, and its body. -/
structure Message where
  method : String
  query : String
  header : List (String × String)
  body : String
  deriving Repr, DecidableEq

/-- `maxFormSize`. -/
def maxFormSize : Nat := 10 * 2 ^ 20

/-- `strings.TrimSpace`. -/
def trimSpace (s : String) : String :=
  String.ofList ((s.toList.dropWhile isSpace).reverse.dropWhile isSpace).reverse

/-- `mime.ParseMediaType` of a content type whose parameters are well formed. -/
def mediaType (u : Unicode) (contentType : String) : String :=
  trimSpace (toLower u (cut contentType ';').1)

/-- `parsePostForm`: no values when the body is not a form. -/
def parsePostForm (u : Unicode) (m : Message) : Except String (List (String × String)) :=
  if mediaType u ((m.header.lookup "Content-Type").getD "application/octet-stream") =
      "application/x-www-form-urlencoded" then
    if maxFormSize < (utf8 m.body).length then .error "http: POST too large"
    else parseQuery u m.body
  else .ok []

/-- `ParseForm`: the values of the body come before those of the query. Both are
    parsed, and the error of the body goes first. -/
def parseForm (u : Unicode) (m : Message) : Except String (List (String × String)) := do
  let post ←
    if m.method = "POST" ∨ m.method = "PUT" ∨ m.method = "PATCH" then parsePostForm u m else .ok []
  let query ← parseQuery u m.query
  .ok (post ++ query)

end Http

namespace Tts

/-- A request as the handler reads it. -/
def Request.ofMessage (u : Unicode) (m : Http.Message) : Request where
  method := m.method
  form := Http.parseForm u m
  header := m.header

/-- The fields of a `TokenExchangeResponse`. -/
def tokenFields (accessToken issuedTokenType tokenType : String) : List (String × String) :=
  [("access_token", accessToken), ("issued_token_type", issuedTokenType),
    ("token_type", tokenType)]

/-- The fields of an `ErrorResponse`: an empty description is left out. -/
def errorFields (errCode description : String) : List (String × String) :=
  ("error", errCode) :: if description = "" then [] else [("error_description", description)]

/-- An answer as status and body. A handler that panics answers nothing. -/
def Response.http (F : FloatText) : Response → Option (Nat × String)
  | .token accessToken issuedTokenType tokenType =>
    some (200, structText F (tokenFields accessToken issuedTokenType tokenType))
  | .error status errCode description =>
    some (status, structText F (errorFields errCode description))
  | .panic => none

/-- The endpoint from text to text. -/
def Handler.serveMessage (F : FloatText) (env : Env) (h : Handler) (m : Http.Message) :
    Option (Nat × String) × Handler :=
  let answer := h.serveHTTP env (Request.ofMessage env.unicode m)
  (answer.1.http F, answer.2)

end Tts

namespace SdkTts

/-- The request an exchange sends. -/
def message (marshal : Object → String) (req : ExchangeRequest) : Http.Message where
  method := "POST"
  query := ""
  header := [("Content-Type", "application/x-www-form-urlencoded")]
  body := valuesEncode (exchangeForm marshal req)

/-- The fields of an `exchangeResponse`. -/
def answerFields : List String :=
  ["access_token", "issued_token_type", "token_type", "error", "error_description"]

/-- What the client makes of status and body. -/
def readAnswer (F : FloatText) (u : Unicode) (invalid : String → String) (status : Nat)
    (body : String) : Except String String :=
  let failed := "token exchange failed (HTTP " ++ toString status ++ "): "
  if status ≠ 200 then
    match unmarshalStruct F u answerFields body with
    | some resp =>
      if resp "error" ≠ "" then
        .error (failed ++ resp "error" ++ ": " ++ resp "error_description")
      else .error (failed ++ body)
    | none => .error (failed ++ body)
  else
    match unmarshalStruct F u answerFields body with
    | none => .error ("decoding token exchange response: " ++ invalid body)
    | some resp =>
      if resp "access_token" = "" then .error "token exchange response has no access_token"
      else .ok (resp "access_token")

/-- `Exchange` over a connection that answers or is dropped. -/
def exchangeOver (F : FloatText) (u : Unicode) (invalid : String → String)
    (send : Http.Message → Option (Nat × String)) (marshal : Object → String)
    (req : ExchangeRequest) : Except String String :=
  if req.subjectToken = "" then .error "subject_token is required"
  else if req.scope = "" then .error "scope is required"
  else
    match send (message marshal req) with
    | none => .error "sending token exchange request: EOF"
    | some (status, body) => readAnswer F u invalid status body

end SdkTts

namespace ExtAuth

/-- The body of a response, if it is a denial. -/
def denialBody (F : FloatText) (r : CheckResponse) : Option String :=
  match r.httpResponse with
  | .okResponse _ => none
  | .deniedResponse _ body => some (String.ofList (writeJson F body))

/-- An object of strings can be written. -/
theorem fits_of_allStrings (F : FloatText) (o : Object) (h : AllStrings o) :
    Fits F maxNestingDepth (.obj o) := by
  refine Fits.obj (maxNestingDepth - 1) o fun e he => ?_
  rcases h e he with ⟨s, hs⟩
  rw [hs]
  exact .str _ s

/-- Strings are read as they were written. -/
theorem bind_decode_of_allStrings (o : Object) (h : AllStrings o) (k : String) :
    ((o.lookup k).bind fun v => decode (toDoc (canon v))) = o.lookup k := by
  cases hk : o.lookup k with
  | none => rfl
  | some v =>
      rcases List.lookup_eq_some_iff.mp hk with ⟨l₁, l₂, ho, _⟩
      have hmem : (k, v) ∈ o := by
        rw [ho]
        exact List.mem_append_right _ List.mem_cons_self
      rcases h (k, v) hmem with ⟨s, rfl⟩
      rw [Option.bind_some, canon, toDoc, decode]

/-- The decoders of the generation adapter. -/
def Decoders.json (F : FloatText) (u : Unicode) (invalid : String → String) : Decoders where
  unmarshal := unmarshalObject F invalid
  marshal := Go.marshal F
  parseQuery := Go.parseQuery u
  marshal_ne := by
    intro o h
    have hlist := congrArg String.toList h
    rw [Go.marshal, String.toList_ofList, canon, writeJson] at hlist
    cases hlist
  unmarshal_marshal := by
    intro o ho
    rcases unmarshalObject_marshal F invalid o (fits_of_allStrings F o ho) with
      ⟨o', hread, _, hlookup⟩
    exact ⟨o', hread, fun k => by rw [hlookup, bind_decode_of_allStrings o ho]⟩

end ExtAuth

end Kontxt
