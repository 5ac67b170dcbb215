import Kontxt.Core.Authn
import Kontxt.Lib.System

/-!
# An Authenticator over Time

An OIDC authenticator and the key sets its provider serves. The authenticator
fetches when a token names a key it has not cached, so what it knows depends on
which tokens came when. A run is a sequence of calls of `Authenticate`, each with
a token and with surroundings of its own: the provider may serve another document
every time, or none.

The run records the documents that were fetched, last one first. The code does
not: it keeps the keys it made of them.

## Main definitions

* `Authn.Authenticator.document`: The document a fetch gets.
* `Authn.Authenticator.fetchedFor`: The document the key function fetches.
* `Authn.Trust`: An authenticator and the documents it has fetched.
* `Authn.Trust.system`: Sequences of calls.
-/

namespace Kontxt

namespace Authn

open Go Lib

section Fetch

variable (net : Net) (docs : Docs) (u : Unicode)

/-- The document a fetch of the key set gets, if it succeeds. -/
def Authenticator.document (a : Authenticator) : Option (List JwkKey) := do
  let url ← if a.jwksURL = "" then (a.discoverJWKSURL net docs u).toOption else some a.jwksURL
  let body ← (fetch net "JWKS" "JWKS endpoint returned status " url).toOption
  (docs.jwks body).toOption

/-- The document the key function fetches for a token, if it fetches one. -/
def Authenticator.fetchedFor (a : Authenticator) (t : Jwt) : Option (List JwkKey) :=
  if isSigningMethodRSA t.header = false then none
  else
    match t.header.lookup "kid" with
    | some (.str kid) => if (a.keys.lookup kid).isSome then none else a.document net docs u
    | _ => none

end Fetch

/-- An authenticator and the documents it has fetched, last one first. -/
structure Trust where
  authenticator : Authenticator
  fetched : List (List JwkKey)

namespace Trust

variable (env : Env)

/-- After the key function was asked for the key of a token. -/
def ask (s : Trust) (t : Jwt) : Trust where
  authenticator := (s.authenticator.keyFunc env.net env.docs env.unicode t).2
  fetched := (s.authenticator.fetchedFor env.net env.docs env.unicode t).toList ++ s.fetched

/-- After a call of `Authenticate`, which asks for the key of a token that can be
    read. -/
def authenticate (s : Trust) (tokenString : String) : Trust :=
  match env.jwt.parseUnverified tokenString with
  | .error _ => s
  | .ok t => s.ask env t

/-- Sequences of calls, from an authenticator that has fetched nothing. -/
def system : System Trust (Env × String) where
  init := fun s => s.authenticator.keys = ∅ ∧ s.fetched = []
  step := fun s call s' => s' = s.authenticate call.1 call.2

end Trust

end Authn

end Kontxt
