import Kontxt.Core.Tts
import Kontxt.Lib.Checks
import Kontxt.Theory.Cel

/-!
# What an Exchange Issues

Everything known about a token the handler answers with. A token comes from
one of two paths, and for each path there is one record of what must have
happened for the token to come out: `NewIssue` and `Replace`. `serveHTTP_token`
says there is no third way. Later results start from these records and never
unfold the handler again.

The claims of a token are read from the token itself, by the JWT library and
`extractClaims`. `claimsOf_new` relates them to the claims that were signed:
they are the same, except for the times, which come from the clock, and the
transaction identifier, which is generated when the claims had none.

## Main definitions

* `Token.claimsOf`: The claims a token carries.
* `Token.signedClaims`: The claims `token.New` signs.
* `Tts.NewIssue`: A token came from the new-issuance path.
* `Tts.Replace`: A token came from the replacement path.

## Theorems

* `JwtLib.parse_eq_ok`: When a token is parsed.
* `Token.claimsOf_new`: A token carries the claims that were signed.
* `Tts.parseRequest_ok`: What a parsed request says about the form.
* `Tts.serveHTTP_token`: A token comes from one of the two paths.
* `Tts.verify_ok`: An accepted token is judged by the claims it carries.
* `Tts.evaluateIssuanceRules_eq_ok`: Rules pass when each that applies is true.
-/

namespace Kontxt

open Go Lib

/-- A token is parsed when it can be read, the key function knows its key, and
    it verifies under that key. -/
theorem JwtLib.parse_eq_ok (J : JwtLib) (tok : String) (keyFunc : Jwt → Except String RsaPublicKey)
    (opt : ParserOption) (now : Int) (t : Jwt) :
    J.parse tok keyFunc opt now = .ok t ↔
      J.parseUnverified tok = .ok t ∧
        ∃ key, keyFunc t = .ok key ∧ J.verify tok key opt now = .ok () := by
  unfold JwtLib.parse
  cases hread : J.parseUnverified tok with
  | error e => simp only [reduceCtorEq, false_and]
  | ok t' =>
      simp only [Except.ok.injEq]
      cases hkey : keyFunc t' with
      | error e =>
          simp only [reduceCtorEq, false_iff, not_and, not_exists]
          intro ht key hkey'
          rw [← ht, hkey] at hkey'
          cases hkey'
      | ok key =>
          simp only []
          cases hver : J.verify tok key opt now with
          | error e =>
              simp only [reduceCtorEq, false_iff, not_and, not_exists]
              intro ht key' hkey' hver'
              rw [← ht, hkey] at hkey'
              rw [← Except.ok.inj hkey', hver] at hver'
              cases hver'
          | ok _ =>
              simp only [Except.ok.injEq]
              exact ⟨fun ht => ⟨ht, key, ht ▸ hkey, hver⟩, fun h => h.1⟩

section OfSigned

variable (table : List (String × Jwt × RsaPublicKey))

/-- A library of finitely many tokens signs those of its table. -/
theorem JwtLib.lookup_of_signedString (t : Jwt) (key : RsaPrivateKey) (s : String)
    (h : (JwtLib.ofSigned table).signedString t key = .ok s) :
    table.lookup s = some (t, key.publicKey) := by
  simp only [JwtLib.ofSigned] at h
  cases hfind : table.find? (fun e => table.lookup e.1 = some (t, key.publicKey)) with
  | none =>
      rw [hfind] at h
      cases h
  | some e =>
      rw [hfind] at h
      have hfound := List.find?_some hfind
      rw [← Except.ok.inj h]
      exact of_decide_eq_true hfound

/-- It reads the tokens of its table. -/
theorem JwtLib.ofSigned_read_iff (s : String) (t : Jwt) :
    (JwtLib.ofSigned table).parseUnverified s = .ok t ↔
      ∃ key, table.lookup s = some (t, key) := by
  simp only [JwtLib.ofSigned]
  cases table.lookup s with
  | none => simp only [reduceCtorEq, exists_false]
  | some e => simp only [Except.ok.injEq, Option.some.injEq, Prod.ext_iff, exists_and_left,
      exists_eq', and_true]

/-- It verifies them under the key of the table, with the checks of the
    expiration time and the option. -/
theorem JwtLib.ofSigned_verify_iff (s : String) (key : RsaPublicKey) (opt : ParserOption)
    (now : Int) :
    (JwtLib.ofSigned table).verify s key opt now = .ok () ↔
      ∃ t, table.lookup s = some (t, key) ∧ t.expired now = false ∧
        opt.holds t.claims = true := by
  simp only [JwtLib.ofSigned]
  cases table.lookup s with
  | none => simp only [reduceCtorEq, false_and, exists_false]
  | some e =>
      rcases e with ⟨t, signer⟩
      simp only [ite_error_eq_ok, ne_eq, not_not, Bool.not_eq_true, Option.some.injEq,
        Prod.mk.injEq]
      constructor
      · intro hver
        rcases hver with ⟨hkey, hexp, hholds⟩
        refine ⟨t, ⟨rfl, hkey⟩, hexp, ?_⟩
        by_contra hopt
        rw [if_neg hopt] at hholds
        cases hholds
      · intro hentry
        rcases hentry with ⟨t', ⟨rfl, hkey⟩, hexp, hholds⟩
        exact ⟨hkey, hexp, if_pos hholds⟩

end OfSigned

namespace Token

/-- The claims a token carries, read without verifying it. -/
def claimsOf (J : JwtLib) (tokenString : String) : Option Claims :=
  match J.parseUnverified tokenString with
  | .error _ => none
  | .ok t => some (extractClaims t.claims)

/-- A token that parses carries the claims it parses to. -/
theorem claimsOf_of_parse (J : JwtLib) (tok : String) (keyFunc : Jwt → Except String RsaPublicKey)
    (opt : ParserOption) (now : Int) (t : Jwt) (h : J.parse tok keyFunc opt now = .ok t) :
    claimsOf J tok = some (extractClaims t.claims) := by
  unfold claimsOf
  rw [((JwtLib.parse_eq_ok J tok keyFunc opt now t).mp h).1]

/-- The claims `token.New` signs: the times are the clock's, and a missing
    transaction identifier is generated. -/
def signedClaims (claims : Claims) (lifetime now : Int) (uuid : String) : Claims :=
  { claims with
    issuedAt := unix now
    expiresAt := unix (now + lifetime)
    transactionID := if claims.transactionID = "" then uuid else claims.transactionID }

theorem int_num (m : Object) (k : String) (n : Int) (h : m.lookup k = some (.num n)) :
    m.int k = n := by
  unfold Object.int
  rw [h]
  simp only [Rat.num_intCast, Rat.den_intCast, Nat.cast_one, Int.tdiv_one]

/-- Reading back the claims of a JWT that `token.New` builds. Contexts are kept
    as they were, whether nil, empty or filled. -/
theorem extractClaims_newJwt (claims : Claims) (kid : String) (lifetime now : Int)
    (uuid : String) :
    extractClaims (newJwt claims kid lifetime now uuid).claims
      = signedClaims claims lifetime now uuid := by
  -- The times are stored as numbers and read back through a conversion; all
  -- other claims are strings or the contexts themselves.
  have hiat := int_num (newJwt claims kid lifetime now uuid).claims "iat" (unix now) rfl
  have hexp := int_num (newJwt claims kid lifetime now uuid).claims "exp"
    (unix (now + lifetime)) rfl
  rcases claims with ⟨iss, iat, exp, aud, txn, sub, scope, wl, tctx, rctx⟩
  unfold extractClaims signedClaims
  rw [hiat, hexp]
  cases tctx with
  | none =>
      cases rctx with
      | none => rfl
      | some _ => rfl
  | some _ =>
      cases rctx with
      | none => rfl
      | some _ => rfl

/-- A token is signed when the required claims are there and the library signs
    its JWT. -/
theorem new_eq_ok (J : JwtLib) (claims : Claims) (key : RsaPrivateKey) (kid : String)
    (lifetime now : Int) (uuid tok : String) :
    new J claims key kid lifetime now uuid = .ok tok ↔
      validateRequired claims = .ok () ∧
        J.signedString (newJwt claims kid lifetime now uuid) key = .ok tok := by
  unfold new
  cases validateRequired claims with
  | error e => simp only [reduceCtorEq, false_and]
  | ok _ => simp only [true_and]

/-- A token carries the claims that were signed. -/
theorem claimsOf_new (J : JwtLib) (claims : Claims) (key : RsaPrivateKey) (kid : String)
    (lifetime now : Int) (uuid tok : String)
    (h : new J claims key kid lifetime now uuid = .ok tok) :
    claimsOf J tok = some (signedClaims claims lifetime now uuid) := by
  rw [new_eq_ok] at h
  -- Signed tokens parse to what was signed: the one law assumed of the library.
  have hparse := J.parse_signed _ key tok h.2
  unfold claimsOf
  rw [hparse]
  simp only [extractClaims_newJwt]

end Token

namespace Tts

/-- What must have happened for the new-issuance path to answer with `tok`. -/
structure NewIssue (env : Env) (h : Handler) (r : Request) (form : List (String × String))
    (req : TokenExchangeRequest) (tok : String) : Prop where
  form_ok : r.form = .ok form
  parsed : parseRequest env.unmarshal form = .ok req
  not_txn : req.subjectTokenType ≠ Token.subjectTokenTypeTxnToken
  issued : ∃ info, Authn.Router.authenticate env.toEnv h.router req.subjectToken = .ok info ∧
    evaluateIssuanceRules env.unicode h.loadIssuanceRules
      (Handler.issuanceContext info.subject (identifyWorkload r) req) = .ok () ∧
    Token.claimsOf env.jwt tok = some (Token.signedClaims
      (h.newClaims info.subject (identifyWorkload r) req) h.lifetime env.now env.uuid)

/-- What must have happened for the replacement path to answer with `tok`. -/
structure Replace (env : Env) (h : Handler) (r : Request) (form : List (String × String))
    (req : TokenExchangeRequest) (tok : String) : Prop where
  form_ok : r.form = .ok form
  parsed : parseRequest env.unmarshal form = .ok req
  txn : req.subjectTokenType = Token.subjectTokenTypeTxnToken
  replaced : ∃ existing, Token.claimsOf env.jwt req.subjectToken = some existing ∧
    isScopeSubset req.scope existing.scope = true ∧
    Token.claimsOf env.jwt tok = some (Token.signedClaims
      (h.replacementClaims existing (identifyWorkload r) req) h.lifetime env.now env.uuid)

/-- The handler answers with the token `token.New` signs with the current
    key. -/
theorem signAndRespond_eq_token (env : Env) (h : Handler) (claims : Token.Claims)
    (tok ity ty : String) :
    h.signAndRespond env claims = .token tok ity ty ↔
      Token.new env.jwt claims h.keyManager.signingKey.1 h.keyManager.signingKey.2 h.lifetime
        env.now env.uuid = .ok tok ∧ ity = Token.requestedTokenType ∧ ty = "N_A" := by
  unfold Handler.signAndRespond
  simp only []
  cases Token.new env.jwt claims h.keyManager.signingKey.1 h.keyManager.signingKey.2
      h.lifetime env.now env.uuid with
  | error e => simp only [reduceCtorEq, false_and]
  | ok txToken => simp only [Response.token.injEq, Except.ok.injEq, eq_comm]

theorem signAndRespond_token (env : Env) (h : Handler) (claims : Token.Claims)
    (tok ity ty : String) (hresp : h.signAndRespond env claims = .token tok ity ty) :
    Token.claimsOf env.jwt tok
      = some (Token.signedClaims claims h.lifetime env.now env.uuid) :=
  Token.claimsOf_new _ _ _ _ _ _ _ _ ((signAndRespond_eq_token env h claims tok ity ty).mp hresp).1

/-- A token the verifier accepts is judged by the claims it carries. -/
theorem verify_ok (env : Authn.Env) (v : LocalVerifier) (km : Keys.Manager) (tok : String)
    (claims : Token.Claims) (h : v.verify env km tok = .ok claims) :
    Token.claimsOf env.jwt tok = some claims := by
  unfold LocalVerifier.verify at h
  rw [ite_error_eq_ok] at h
  rcases h with ⟨_, h⟩
  cases hparse : env.jwt.parse tok (keyFunc env km) (.withAudience v.audience) env.now with
  | error e =>
      rw [hparse] at h
      cases h
  | ok t =>
      rw [hparse] at h
      simp only [ite_error_eq_ok, Except.ok.injEq] at h
      -- The claims returned are those of the parsed token, whatever key and
      -- options it was checked with.
      rw [Token.claimsOf_of_parse env.jwt tok _ _ _ t hparse, h.2]

/-- What a parsed request says about the form it came from. -/
theorem parseRequest_ok (unmarshal : String → Except String (Option Object))
    (form : List (String × String)) (req : TokenExchangeRequest)
    (h : parseRequest unmarshal form = .ok req) :
    req.scope = formValue form "scope" ∧ req.subjectToken = formValue form "subject_token" ∧
      req.subjectTokenType = formValue form "subject_token_type" := by
  unfold parseRequest at h
  simp only [ite_error_eq_ok, bind_eq_ok, Except.ok.injEq] at h
  -- Five required values and two optional objects, and then the request.
  rcases h with ⟨_, _, _, _, _, details, _, context, _, rfl⟩
  exact ⟨rfl, rfl, rfl⟩

/-- The new-issuance path answers with a token only where it signs one, for a
    subject it authenticated and after the rules passed. -/
theorem issue_signs (env : Env) (h : Handler) (r : Request) (req : TokenExchangeRequest)
    (tok ity ty : String) (hresp : h.issue env r req = .token tok ity ty) :
    ∃ info, Authn.Router.authenticate env.toEnv h.router req.subjectToken = .ok info ∧
      evaluateIssuanceRules env.unicode h.loadIssuanceRules
        (Handler.issuanceContext info.subject (identifyWorkload r) req) = .ok () ∧
      h.signAndRespond env (h.newClaims info.subject (identifyWorkload r) req)
        = .token tok ity ty := by
  unfold Handler.issue at hresp
  cases hauth : Authn.Router.authenticate env.toEnv h.router req.subjectToken with
  | error fault =>
      rw [hauth] at hresp
      -- Neither an error nor a panic of the router is a token.
      cases fault with
      | error e => cases hresp
      | panic => cases hresp
  | ok info =>
      rw [hauth] at hresp
      simp only [] at hresp
      cases hrules : evaluateIssuanceRules env.unicode h.loadIssuanceRules
          (Handler.issuanceContext info.subject (identifyWorkload r) req) with
      | error e =>
          rw [hrules] at hresp
          cases hresp
      | ok _ =>
          rw [hrules] at hresp
          exact ⟨info, rfl, hrules, hresp⟩

theorem issue_token (env : Env) (h : Handler) (r : Request) (req : TokenExchangeRequest)
    (tok ity ty : String) (hresp : h.issue env r req = .token tok ity ty) :
    ∃ info, Authn.Router.authenticate env.toEnv h.router req.subjectToken = .ok info ∧
      evaluateIssuanceRules env.unicode h.loadIssuanceRules
        (Handler.issuanceContext info.subject (identifyWorkload r) req) = .ok () ∧
      Token.claimsOf env.jwt tok = some (Token.signedClaims
        (h.newClaims info.subject (identifyWorkload r) req) h.lifetime env.now env.uuid) := by
  rcases issue_signs env h r req tok ity ty hresp with ⟨info, hauth, hrules, hsigned⟩
  exact ⟨info, hauth, hrules, signAndRespond_token env h _ tok ity ty hsigned⟩

/-- The replacement path answers with a token only where it signs one, for a
    token it verified and a scope within that token's. -/
theorem handleReplacement_signs (env : Env) (h : Handler) (r : Request)
    (req : TokenExchangeRequest) (tok ity ty : String)
    (hresp : h.handleReplacement env r req = .token tok ity ty) :
    ∃ existing, Token.claimsOf env.jwt req.subjectToken = some existing ∧
      isScopeSubset req.scope existing.scope = true ∧
      h.signAndRespond env (h.replacementClaims existing (identifyWorkload r) req)
        = .token tok ity ty := by
  unfold Handler.handleReplacement at hresp
  cases hv : h.verifier with
  | none =>
      rw [hv] at hresp
      cases hresp
  | some v =>
      rw [hv] at hresp
      simp only [] at hresp
      cases hver : v.verify env.toEnv h.keyManager req.subjectToken with
      | error e =>
          rw [hver] at hresp
          cases hresp
      | ok existing =>
          rw [hver] at hresp
          simp only [] at hresp
          cases hsub : isScopeSubset req.scope existing.scope with
          | false =>
              -- The request asks for more than the presented token has.
              rw [hsub, if_pos rfl] at hresp
              cases hresp
          | true =>
              rw [hsub, if_neg (fun hc => Bool.noConfusion hc)] at hresp
              exact ⟨existing, verify_ok env.toEnv v h.keyManager _ existing hver, hsub, hresp⟩

theorem handleReplacement_token (env : Env) (h : Handler) (r : Request)
    (req : TokenExchangeRequest) (tok ity ty : String)
    (hresp : h.handleReplacement env r req = .token tok ity ty) :
    ∃ existing, Token.claimsOf env.jwt req.subjectToken = some existing ∧
      isScopeSubset req.scope existing.scope = true ∧
      Token.claimsOf env.jwt tok = some (Token.signedClaims
        (h.replacementClaims existing (identifyWorkload r) req) h.lifetime env.now env.uuid) := by
  rcases handleReplacement_signs env h r req tok ity ty hresp with ⟨existing, hex, hsub, hsigned⟩
  exact ⟨existing, hex, hsub, signAndRespond_token env h _ tok ity ty hsigned⟩

/-- A request that is answered with a token was parsed, and took the path its
    subject token type names. -/
theorem serveHTTP_paths (env : Env) (h : Handler) (r : Request) (tok ity ty : String)
    (hresp : (h.serveHTTP env r).1 = .token tok ity ty) :
    ∃ form req, r.form = .ok form ∧ parseRequest env.unmarshal form = .ok req ∧
      (req.subjectTokenType ≠ Token.subjectTokenTypeTxnToken ∧
          h.issue env r req = .token tok ity ty ∨
        req.subjectTokenType = Token.subjectTokenTypeTxnToken ∧
          h.handleReplacement env r req = .token tok ity ty) := by
  unfold Handler.serveHTTP at hresp
  by_cases hpost : r.method ≠ "POST"
  · rw [if_pos hpost] at hresp
    cases hresp
  · rw [if_neg hpost] at hresp
    cases hform : r.form with
    | error e =>
        rw [hform] at hresp
        cases hresp
    | ok form =>
        rw [hform] at hresp
        simp only [] at hresp
        cases hparse : parseRequest env.unmarshal form with
        | error e =>
            rw [hparse] at hresp
            cases hresp
        | ok req =>
            rw [hparse] at hresp
            simp only [] at hresp
            refine ⟨form, req, rfl, hparse, ?_⟩
            by_cases htxn : req.subjectTokenType = Token.subjectTokenTypeTxnToken
            · rw [if_pos htxn] at hresp
              exact Or.inr ⟨htxn, hresp⟩
            · rw [if_neg htxn] at hresp
              exact Or.inl ⟨htxn, hresp⟩

/-- A token comes from the new-issuance path or from the replacement path. -/
theorem serveHTTP_token (env : Env) (h : Handler) (r : Request) (tok ity ty : String)
    (hresp : (h.serveHTTP env r).1 = .token tok ity ty) :
    ∃ form req, NewIssue env h r form req tok ∨ Replace env h r form req tok := by
  rcases serveHTTP_paths env h r tok ity ty hresp with ⟨form, req, hform, hparse, hpath⟩
  refine ⟨form, req, ?_⟩
  rcases hpath with ⟨htxn, hissue⟩ | ⟨htxn, hreplace⟩
  · exact Or.inl ⟨hform, hparse, htxn, issue_token env h r req tok ity ty hissue⟩
  · exact Or.inr ⟨hform, hparse, htxn, handleReplacement_token env h r req tok ity ty hreplace⟩

/-- Serving a request leaves everything but the router's key caches alone. -/
theorem serveHTTP_handler (env : Env) (h : Handler) (r : Request) :
    ∃ router, (h.serveHTTP env r).2 = { h with router := router } := by
  unfold Handler.serveHTTP
  by_cases hpost : r.method ≠ "POST"
  · rw [if_pos hpost]
    exact ⟨h.router, rfl⟩
  · rw [if_neg hpost]
    cases r.form with
    | error e => exact ⟨h.router, rfl⟩
    | ok form =>
        simp only []
        cases parseRequest env.unmarshal form with
        | error e => exact ⟨h.router, rfl⟩
        | ok req =>
            simp only []
            by_cases htxn : req.subjectTokenType = Token.subjectTokenTypeTxnToken
            · rw [if_pos htxn]
              exact ⟨h.router, rfl⟩
            · rw [if_neg htxn]
              exact ⟨_, rfl⟩

theorem evaluateIssuanceRule_eq_ok (u : Unicode) (ictx : IssuanceContext) (rule : IssuanceRule) :
    evaluateIssuanceRule u ictx rule = .ok () ↔
      (ruleAppliesToNamespace rule.targetNamespaces ictx.workloadNS = true →
        rule.program ictx.activation = .ok (.bool true)) := by
  rw [← Cel.evalExpr_eq_ok u "issuance" rule.name rule.program ictx.activation true]
  unfold evaluateIssuanceRule
  cases happ : ruleAppliesToNamespace rule.targetNamespaces ictx.workloadNS with
  | false => simp only [if_true, Bool.false_eq_true, false_implies]
  | true =>
      simp only [Bool.true_eq_false, if_false, true_implies]
      cases hv : Cel.evalExpr u "issuance" rule.name rule.program ictx.activation with
      | error e => simp only [reduceCtorEq]
      | ok b =>
          cases b with
          | true => simp only
          | false => simp only [reduceCtorEq, Except.ok.injEq, Bool.false_eq_true]

/-- Rules pass exactly when each one that applies is true. -/
theorem evaluateIssuanceRules_eq_ok (u : Unicode) (rules : List IssuanceRule)
    (ictx : IssuanceContext) :
    evaluateIssuanceRules u rules ictx = .ok () ↔
      ∀ rule ∈ rules, ruleAppliesToNamespace rule.targetNamespaces ictx.workloadNS = true →
        rule.program ictx.activation = .ok (.bool true) := by
  unfold evaluateIssuanceRules
  rw [forM_eq_ok]
  simp only [evaluateIssuanceRule_eq_ok]

theorem isScopeSubset_iff (requested existing : String) :
    isScopeSubset requested existing = true ↔ ∀ s ∈ fields requested, s ∈ fields existing := by
  unfold isScopeSubset
  simp only [List.all_eq_true, List.contains_iff_mem]

section Sample

/-- A subject token of user `alice` with the scope `read`. -/
def sampleSubject : Jwt where
  header := [("alg", .str "RS256"), ("kid", .str "idp-1")]
  claims := [("iss", .str "idp"), ("sub", .str "alice"), ("aud", .str "kontxt"),
    ("scope", .str "read")]

def sampleKey : RsaPrivateKey where
  publicKey := { n := 3233, e := 17 }
  d := 413

/-- A service that trusts one identity provider, whose key it has cached. -/
def sampleHandler : Handler where
  router := [{
    issuerURL := "idp"
    discoveryURL := "idp/.well-known/openid-configuration"
    audiences := ["kontxt"]
    validationRules := []
    subjectMapping := { claim := "sub", expression := "" }
    subjectProgram := none
    extraMappings := []
    jwksURL := ""
    keys := Finmap.singleton "idp-1" sampleKey.publicKey }]
  keyManager := { current := { privateKey := sampleKey, kid := "k1" }, previous := none }
  verifier := some { audience := "kontxt" }
  issuer := "tts"
  trustDomain := "kontxt"
  lifetime := 0
  issuanceRules := none

/-- The claims of a token for `alice`. -/
def sampleClaims (scope : String) : Token.Claims where
  issuer := "tts"
  issuedAt := 0
  expiresAt := 0
  audience := "kontxt"
  transactionID := "t-1"
  subject := "alice"
  scope := scope
  requestingWorkload := "unknown"
  transactionContext := none
  requesterContext := none

/-- A JWT library that knows the subject token, a token for two scopes and a
    token for one of them, at time zero. -/
def sampleEnv : Env where
  jwt := JwtLib.ofTable [("e30.e30.c2ln", sampleSubject),
    ("root", Token.newJwt (sampleClaims "read write") "k1" 0 0 ""),
    ("child", Token.newJwt (sampleClaims "read") "k1" 0 0 "")]
  getAudience := fun claims => .ok [claims.str "aud"]
  net := fun _ => .error "no such host"
  docs :=
    { discovery := fun _ => .error "unexpected end of JSON input"
      jwks := fun _ => .error "unexpected end of JSON input"
      issuer := fun _ => .ok "idp" }
  unicode := Unicode.ascii
  now := 0
  unmarshal := fun _ => .error "unexpected end of JSON input"
  uuid := "t-1"
  uuid_ne := by decide

def sampleRequest (subjectTokenType subjectToken scope : String) : Request where
  method := "POST"
  form := .ok [("grant_type", Token.grantType), ("subject_token", subjectToken),
    ("subject_token_type", subjectTokenType),
    ("requested_token_type", Token.requestedTokenType), ("scope", scope)]
  header := []

/-- The request that is answered with the token for two scopes. -/
def sampleIssue : Request :=
  sampleRequest "urn:ietf:params:oauth:token-type:access_token" "e30.e30.c2ln" "read write"

/-- The request that replaces it by the token for one. -/
def sampleReplace : Request :=
  sampleRequest Token.subjectTokenTypeTxnToken "root" "read"

theorem sampleIssue_token : (sampleHandler.serveHTTP sampleEnv sampleIssue).1 =
    .token "root" Token.requestedTokenType "N_A" := by
  decide +kernel

end Sample

end Tts

end Kontxt
