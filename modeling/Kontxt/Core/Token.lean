import Kontxt.Go.Json

/-!
# Transaction Tokens

The claims of a transaction token and `token.New`, which signs them.

Signing and parsing are the JWT library's, and enter as `JwtLib`. Its fields
are the three calls the repository makes: signing a header and claims, reading
a token without verifying it, and verifying a token against a key. `JwtLib.parse`
puts the last two together the way the library's `Parse` does, asking the
caller's key function for the key in between. The one law says that what was
signed is what is read back. It is the assumption that JSON objects survive
encoding and decoding; an `Object` stands for a map by the list of its members.

## Main definitions

* `JwtLib`: The JWT library.
* `JwtLib.ofTable`: A library for finitely many tokens.
* `JwtLib.parse`: Parsing and verifying a token.
* `JwtLib.ChecksExpiry`: Verification refuses expired tokens.
* `JwtLib.withExpiry`: A library that also refuses expired tokens.
* `JwtLib.ChecksIssuer`: When verification for an issuer accepts a token.
* `JwtLib.ofSigned`: A library for finitely many tokens and their keys.
* `Token.Claims`: The claims of a transaction token.
* `Token.validateRequired`: The claims a token cannot be issued without.
* `Token.new`: Signing a transaction token.
* `Token.extractClaims`: Reading the claims back out of a JWT.
* `JwtLib.Signatures`: What the library's signatures are good for.
-/

namespace Kontxt

open Go

/-- An RSA public key. -/
structure RsaPublicKey where
  n : Nat
  e : Int
  deriving Repr, DecidableEq

/-- An RSA private key. -/
structure RsaPrivateKey where
  publicKey : RsaPublicKey
  d : Nat
  deriving Repr, DecidableEq

/-- A parsed JWT. -/
structure Jwt where
  header : Object
  claims : Object
  deriving Repr, DecidableEq

/-- The parser options the repository passes. -/
inductive ParserOption where
  | withAudience (aud : String)
  | withIssuer (iss : String)
  deriving Repr, DecidableEq

/-- The JWT library. Verification covers the signature and the registered
    claims, so it takes the current time. -/
structure JwtLib where
  signedString : Jwt → RsaPrivateKey → Except String String
  parseUnverified : String → Except String Jwt
  verify : String → RsaPublicKey → ParserOption → Int → Except String Unit
  parse_signed : ∀ (t : Jwt) (key : RsaPrivateKey) (s : String),
    signedString t key = .ok s → parseUnverified s = .ok t

/-- A library that knows finitely many tokens, to run the model with. -/
def JwtLib.ofTable (table : List (String × Jwt)) : JwtLib where
  signedString := fun t _ =>
    match table.find? (fun e => table.lookup e.1 = some t) with
    | some e => .ok e.1
    | none => .error "key is invalid"
  parseUnverified := fun s =>
    match table.lookup s with
    | some t => .ok t
    | none => .error "token is malformed"
  verify := fun s _ _ _ =>
    if (table.lookup s).isSome then .ok () else .error "token signature is invalid"
  parse_signed := by
    intro t key s h
    cases hfind : table.find? (fun e => table.lookup e.1 = some t) with
    | none =>
        rw [hfind] at h
        cases h
    | some e =>
        rw [hfind] at h
        have hfound := List.find?_some hfind
        have hlookup := of_decide_eq_true hfound
        rw [← Except.ok.inj h, hlookup]

/-- `jwt.Parse`: read the token, ask the key function for its key, verify. -/
def JwtLib.parse (J : JwtLib) (tokenString : String) (keyFunc : Jwt → Except String RsaPublicKey)
    (opt : ParserOption) (now : Int) : Except String Jwt :=
  match J.parseUnverified tokenString with
  | .error e => .error e
  | .ok t =>
    match keyFunc t with
    | .error e => .error ("token is unverifiable: error while executing keyfunc: " ++ e)
    | .ok key =>
      match J.verify tokenString key opt now with
      | .error e => .error e
      | .ok () => .ok t

/-- `time.Second`, in nanoseconds. -/
def second : Int := 1000000000

/-- Verification refuses a token from its expiration time on. A token without
    an expiration time does not expire, and the library reads the number zero
    as none. -/
def JwtLib.ChecksExpiry (J : JwtLib) : Prop :=
  ∀ (s : String) (t : Jwt) (key : RsaPublicKey) (opt : ParserOption) (now : Int),
    J.parseUnverified s = .ok t → J.verify s key opt now = .ok () → t.claims.int "exp" ≠ 0 →
    now < second * t.claims.int "exp"

/-- The library with the check of the expiration time added, to run the model
    with a clock. -/
def JwtLib.withExpiry (J : JwtLib) : JwtLib where
  signedString := J.signedString
  parseUnverified := J.parseUnverified
  verify := fun s key opt now =>
    match J.parseUnverified s with
    | .error e => .error e
    | .ok t =>
      if t.claims.int "exp" ≠ 0 ∧ second * t.claims.int "exp" ≤ now then .error "token is expired"
      else J.verify s key opt now
  parse_signed := J.parse_signed

/-- Verification under a key accepts a token that can be read, for an issuer
    that is not empty, exactly when its signature verifies under the key, it is
    currently valid and its `iss` claim is the issuer. -/
def JwtLib.ChecksIssuer (J : JwtLib) (Signed : String → RsaPublicKey → Prop)
    (Valid : Jwt → Int → Prop) : Prop :=
  ∀ (s : String) (t : Jwt) (key : RsaPublicKey) (iss : String) (now : Int),
    J.parseUnverified s = .ok t → iss ≠ "" →
    (J.verify s key (.withIssuer iss) now = .ok () ↔
      Signed s key ∧ Valid t now ∧ t.claims.str "iss" = iss)

/-- What a parser option asks of claims with at most one audience. An empty issuer asks
    nothing, while an empty audience is never met: the library refuses claims whose
    audience is empty once one is asked for. -/
def ParserOption.holds (claims : Object) : ParserOption → Bool
  | .withAudience aud => claims.str "aud" != "" && claims.str "aud" == aud
  | .withIssuer iss => iss == "" || claims.str "iss" == iss

/-- A token has an expiration time that has passed. -/
def Jwt.expired (t : Jwt) (now : Int) : Bool :=
  t.claims.int "exp" != 0 && decide (second * t.claims.int "exp" ≤ now)

/-- A library that knows finitely many tokens, each with the key that verifies
    it, and makes the checks of the options and the expiration time. -/
def JwtLib.ofSigned (table : List (String × Jwt × RsaPublicKey)) : JwtLib where
  signedString := fun t key =>
    match table.find? (fun e => table.lookup e.1 = some (t, key.publicKey)) with
    | some e => .ok e.1
    | none => .error "key is invalid"
  parseUnverified := fun s =>
    match table.lookup s with
    | some e => .ok e.1
    | none => .error "token is malformed"
  verify := fun s key opt now =>
    match table.lookup s with
    | none => .error "token is malformed"
    | some e =>
      if e.2 ≠ key then .error "token signature is invalid"
      else if e.1.expired now then .error "token is expired"
      else if opt.holds e.1.claims then .ok ()
      else .error "token has invalid claims"
  parse_signed := by
    intro t key s h
    cases hfind : table.find? (fun e => table.lookup e.1 = some (t, key.publicKey)) with
    | none =>
        rw [hfind] at h
        cases h
    | some e =>
        rw [hfind] at h
        have hfound := List.find?_some hfind
        have hlookup := of_decide_eq_true hfound
        rw [← Except.ok.inj h, hlookup]

/-- Whether the algorithm named in a header is one the library implements with
    `*jwt.SigningMethodRSA`. -/
def isSigningMethodRSA (header : Object) : Bool :=
  ["RS256", "RS384", "RS512"].contains (header.str "alg")

namespace Token

def headerName : String := "Txn-Token"

def typeHeader : String := "txntoken+jwt"

def grantType : String := "urn:ietf:params:oauth:grant-type:token-exchange"

def requestedTokenType : String := "urn:ietf:params:oauth:token-type:txn_token"

def subjectTokenTypeAccessToken : String := "urn:ietf:params:oauth:token-type:access_token"

def subjectTokenTypeTxnToken : String := "urn:ietf:params:oauth:token-type:txn_token"

/-- The claims of a transaction token. The two contexts are maps that may be
    nil. -/
structure Claims where
  issuer : String
  issuedAt : Int
  expiresAt : Int
  audience : String
  transactionID : String
  subject : String
  scope : String
  requestingWorkload : String
  transactionContext : Option Object
  requesterContext : Option Object
  deriving Repr, DecidableEq

/-- `validateRequired`. -/
def validateRequired (claims : Claims) : Except String Unit :=
  if claims.issuer = "" then .error "issuer (iss) is required"
  else if claims.audience = "" then .error "audience (aud) is required"
  else if claims.subject = "" then .error "subject (sub) is required"
  else if claims.scope = "" then .error "scope is required"
  else if claims.requestingWorkload = "" then
    .error "requesting workload (req_wl) is required"
  else .ok ()

/-- A time in nanoseconds as a Unix timestamp. -/
def unix (ns : Int) : Int :=
  ns / 1000000000

/-- A context as a JWT member, absent when the map is nil. -/
def contextMember (name : String) : Option Object → Object
  | some ctx => [(name, .obj ctx)]
  | none => []

/-- The JWT that `token.New` signs at time `now`. `uuid` is the identifier it
    generates when the claims carry none. -/
def newJwt (claims : Claims) (kid : String) (lifetime now : Int) (uuid : String) : Jwt where
  header := [("alg", .str "RS256"), ("typ", .str typeHeader), ("kid", .str kid)]
  claims :=
    -- A replacement brings its identifier, a new token gets one.
    let txn := if claims.transactionID = "" then uuid else claims.transactionID
    [("iss", .str claims.issuer), ("iat", .num (unix now)), ("exp", .num (unix (now + lifetime))),
      ("aud", .str claims.audience), ("txn", .str txn), ("sub", .str claims.subject),
      ("scope", .str claims.scope), ("req_wl", .str claims.requestingWorkload)] ++
      contextMember "tctx" claims.transactionContext ++
      contextMember "rctx" claims.requesterContext

/-- `token.New`. -/
def new (J : JwtLib) (claims : Claims) (key : RsaPrivateKey) (kid : String) (lifetime now : Int)
    (uuid : String) : Except String String :=
  match validateRequired claims with
  | .error e => .error e
  | .ok () => J.signedString (newJwt claims kid lifetime now uuid) key

/-- `extractClaims`. -/
def extractClaims (mc : Object) : Claims where
  issuer := mc.str "iss"
  issuedAt := mc.int "iat"
  expiresAt := mc.int "exp"
  audience := mc.str "aud"
  transactionID := mc.str "txn"
  subject := mc.str "sub"
  scope := mc.str "scope"
  requestingWorkload := mc.str "req_wl"
  transactionContext := mc.obj "tctx"
  requesterContext := mc.obj "rctx"

end Token

/-- What the library's signatures are good for, where `Signed s key` says that
    the signature of a text is one made with the private half of a key. A signed
    text is signed by its key and by no other, a text that verifies is signed,
    and a signed token of `token.New` verifies for its audience until it
    expires. -/
structure JwtLib.Signatures (J : JwtLib) (Signed : String → RsaPublicKey → Prop) : Prop where
  signs : ∀ t key s, J.signedString t key = .ok s → s ≠ "" ∧ Signed s key.publicKey
  own : ∀ s key key', Signed s key → Signed s key' → key = key'
  verified : ∀ s key opt now, J.verify s key opt now = .ok () → Signed s key
  accepts : ∀ claims kid lifetime issued uuid s key now,
    J.parseUnverified s = .ok (Token.newJwt claims kid lifetime issued uuid) → Signed s key →
    claims.audience ≠ "" → (Token.newJwt claims kid lifetime issued uuid).expired now = false →
    J.verify s key (.withAudience claims.audience) now = .ok ()

end Kontxt
