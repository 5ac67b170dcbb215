import Kontxt.Core.Authn

/-!
# The Token Verifier

The verifier services and the adapter check transaction tokens with. It takes
keys from the token service's published key set, which it fetches when a token
names a key it does not have. Unlike an authenticator's cache, a fetch replaces
all cached keys. Verifying may change the cache, so the verifier after a call is
a function of its own.

## Main definitions

* `Verify.Verifier`: The state of a verifier.
* `Verify.Verifier.fetchJWKS`: Replacing the cached keys.
* `Verify.Verifier.keyFunc`: Looking up, and if need be fetching, a key.
* `Verify.Verifier.verify`: Verifying a transaction token.
* `Verify.Verifier.refetches`: Whether verifying a token fetches the key set.
-/

namespace Kontxt

namespace Verify

open Go

/-- `Verifier`. -/
structure Verifier where
  jwksURL : String
  audience : String
  keys : GoMap String RsaPublicKey

namespace Verifier

/-- `New`. -/
def new (jwksURL audience : String) : Verifier where
  jwksURL := jwksURL
  audience := audience
  keys := ∅

variable (env : Authn.Env)

/-- `fetchJWKS`. A key set that is fetched replaces every cached key. -/
def fetchJWKS (v : Verifier) : Except String Verifier := do
  let body ← Authn.fetch env.net "JWKS" "JWKS endpoint returned status " v.jwksURL
  match env.docs.jwks body with
  | .error e => .error ("decoding JWKS: " ++ e)
  | .ok jwks => .ok { v with keys := Authn.addKeys ∅ jwks }

/-- `keyFunc`. -/
def keyFunc (v : Verifier) (t : Jwt) : Except String RsaPublicKey × Verifier :=
  if isSigningMethodRSA t.header = false then
    (.error ("unexpected signing method: " ++ t.header.str "alg"), v)
  else
    let kid := t.header.str "kid"
    if kid = "" then (.error "missing kid in token header", v)
    else
      match v.keys.lookup kid with
      | some key => (.ok key, v)
      | none =>
        match v.fetchJWKS env with
        | .error e => (.error ("fetching JWKS: " ++ e), v)
        | .ok v =>
          match v.keys.lookup kid with
          | some key => (.ok key, v)
          | none =>
            (.error ("key " ++ quote env.unicode kid ++ " not found in JWKS at " ++ v.jwksURL), v)

/-- `Verify`. -/
def verify (v : Verifier) (tokenString : String) : Except String Token.Claims :=
  if tokenString = "" then .error "empty token"
  else
    match env.jwt.parse tokenString (fun t => (v.keyFunc env t).1) (.withAudience v.audience)
        env.now with
    | .error e => .error ("token verification failed: " ++ e)
    | .ok parsed =>
      let typ := parsed.header.str "typ"
      if typ ≠ Token.typeHeader then
        .error ("invalid typ header: expected " ++ quote env.unicode Token.typeHeader ++
          ", got " ++ quote env.unicode typ)
      else .ok (Token.extractClaims parsed.claims)

/-- The verifier after `Verify`: its key function runs once, on a token that
    can be read. -/
def afterVerify (v : Verifier) (tokenString : String) : Verifier :=
  if tokenString = "" then v
  else
    match env.jwt.parseUnverified tokenString with
    | .error _ => v
    | .ok t => (v.keyFunc env t).2

/-- Whether `Verify` fetches the key set: the token can be read and names a key
    that is not cached. -/
def refetches (v : Verifier) (tokenString : String) : Bool :=
  tokenString ≠ "" &&
    match env.jwt.parseUnverified tokenString with
    | .error _ => false
    | .ok t =>
      isSigningMethodRSA t.header && t.header.str "kid" ≠ "" &&
        (v.keys.lookup (t.header.str "kid")).isNone

end Verifier

end Verify

end Kontxt
