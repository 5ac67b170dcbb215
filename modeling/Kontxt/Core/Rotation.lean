import Kontxt.Core.Tts
import Kontxt.Core.Verifier
import Kontxt.Lib.System

/-!
# Key Rotation

A key manager at work, with one verifier that takes its keys from the manager's
key set endpoint. The manager signs tokens and rotates its key at any time; the
verifier verifies any text at any time, one call after the other, and fetches the
key set when a token names a key it does not have.

What the code gets from elsewhere is given to the events: a rotation is given the
key `rsa.GenerateKey` returned, and a verification the surroundings of the call,
in which a fetch is answered by the endpoint. JSON enters with the reply, which
the verifier decodes to the keys the endpoint encoded. The identifier of a key is
a hash of its modulus, and two keys with the same one are assumed not to be
generated.

The run records the entries generated so far, the tokens signed with their
entries, and the entries that were published when the verifier last fetched.

## Main definitions

* `Keys.computeKid`: The identifier of a key.
* `Keys.Manager.jwksHandler`: The key set endpoint.
* `Keys.Serves`: Surroundings in which a fetch is answered by the endpoint.
* `Keys.KeyRun`: The manager, the verifier and what happened.
* `Keys.keyRuns`: The manager and the verifier from their start on.
-/

namespace Kontxt

namespace Keys

open Go Lib

/-- `fmt.Sprintf("%x", b)` of bytes. -/
def hexBytes (bytes : List Nat) : String :=
  String.ofList (bytes.flatMap fun b => [Nat.digitChar (b / 16), Nat.digitChar (b % 16)])

/-- `computeKid`: the first eight bytes of the modulus's hash. -/
def computeKid (sum256 : List Nat → Vector Nat 32) (pub : RsaPublicKey) : String :=
  hexBytes ((sum256 (bigBytes pub.n)).toList.take 8)

/-- `generateKey`, with the key `rsa.GenerateKey` returned. -/
def generateKey (sum256 : List Nat → Vector Nat 32) (key : RsaPrivateKey) : KeyEntry where
  privateKey := key
  kid := computeKid sum256 key.publicKey

/-- The exponent of every key `rsa.GenerateKey` returns. -/
def generatedExponent : Int := 65537

namespace Manager

/-- `NewManager`, with the generated entry. -/
def new (entry : KeyEntry) : Manager where
  current := entry
  previous := none

/-- The entries whose keys are published. -/
def entries (m : Manager) : List KeyEntry :=
  m.current :: m.previous.toList

/-- `JWKSHandler`, with the JSON encoding of the key set. Encoding strings does
    not fail. -/
def jwksHandler (encode : List PublicKey → String) (m : Manager) (method : String) :
    Authn.Reply :=
  if method ≠ "GET" then { statusCode := 405, body := "method not allowed\n" }
  else { statusCode := 200, body := encode m.publicKeys }

end Manager

/-- A published key as a verifier decodes it. -/
def PublicKey.jwkKey (pk : PublicKey) : Authn.JwkKey where
  kty := pk.kty
  use := pk.use
  kid := pk.kid
  alg := pk.alg
  n := pk.n
  e := pk.e

/-- A fetch from the URL is answered by the manager's endpoint, and the key set
    in the reply decodes to what was encoded. -/
def Serves (env : Authn.Env) (m : Manager) (url : String) : Prop :=
  ∃ encode, env.net url = .ok (m.jwksHandler encode "GET") ∧
    env.docs.jwks (encode m.publicKeys) = .ok (m.publicKeys.map PublicKey.jwkKey)

/-- A token and the entry whose key and identifier it was signed with. -/
structure Issued where
  text : String
  jwt : Jwt
  entry : KeyEntry

/-- The manager and the verifier; and the entries generated, newest first, the
    tokens signed, newest first, and the entries the verifier fetched last. -/
structure KeyRun where
  manager : Manager
  verifier : Verify.Verifier
  generated : List KeyEntry
  issued : List Issued
  fetched : List KeyEntry

/-- What can happen. -/
inductive KeyEvent where
  | rotate (key : RsaPrivateKey)
  | sign (claims : Token.Claims) (lifetime now : Int) (uuid : String)
  | verify (env : Authn.Env) (text : String)

namespace KeyRun

/-- A new manager and a new verifier. -/
def new (entry : KeyEntry) (jwksURL audience : String) : KeyRun where
  manager := .new entry
  verifier := .new jwksURL audience
  generated := [entry]
  issued := []
  fetched := []

/-- `Rotate`. -/
def rotate (s : KeyRun) (entry : KeyEntry) : KeyRun :=
  { s with manager := s.manager.rotate entry, generated := entry :: s.generated }

/-- `token.New` with the manager's `SigningKey`. -/
def sign (s : KeyRun) (text : String) (jwt : Jwt) : KeyRun :=
  { s with issued := { text := text, jwt := jwt, entry := s.manager.current } :: s.issued }

/-- `Verify`. -/
def verify (s : KeyRun) (env : Authn.Env) (text : String) : KeyRun :=
  { s with
    verifier := s.verifier.afterVerify env text
    fetched := if s.verifier.refetches env text then s.manager.entries else s.fetched }

/-- One step of the manager or the verifier. -/
inductive Step (J : JwtLib) (sum256 : List Nat → Vector Nat 32) :
    KeyRun → KeyEvent → KeyRun → Prop
  | rotate (s : KeyRun) (key : RsaPrivateKey) (hexp : key.publicKey.e = generatedExponent)
      (hfresh : computeKid sum256 key.publicKey ∉ s.generated.map KeyEntry.kid) :
      Step J sum256 s (.rotate key) (s.rotate (generateKey sum256 key))
  | sign (s : KeyRun) (claims : Token.Claims) (lifetime now : Int) (uuid text : String)
      (hnew : Token.new J claims s.manager.signingKey.1 s.manager.signingKey.2 lifetime now uuid
        = .ok text) :
      Step J sum256 s (.sign claims lifetime now uuid)
        (s.sign text (Token.newJwt claims s.manager.signingKey.2 lifetime now uuid))
  | verify (s : KeyRun) (env : Authn.Env) (text : String) (hjwt : env.jwt = J)
      (hserves : Serves env s.manager s.verifier.jwksURL) :
      Step J sum256 s (.verify env text) (s.verify env text)

end KeyRun

/-- A manager and a verifier of its tokens, from their start on. -/
def keyRuns (J : JwtLib) (sum256 : List Nat → Vector Nat 32) : System KeyRun KeyEvent where
  init := fun s => ∃ key jwksURL audience, key.publicKey.e = generatedExponent ∧
    s = KeyRun.new (generateKey sum256 key) jwksURL audience
  step := KeyRun.Step J sum256

end Keys

end Kontxt
