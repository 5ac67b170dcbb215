import Kontxt.Core.Rotation

/-!
# Key Lookups Side by Side

Both verifiers of signatures look a key up in a cache, fetch the issuer's key set
when it is not there, and look again. Many requests do this at the same time on
one cache. A lock guards the map and nothing else, so a call is cut where it holds
no lock: after the first look, around each request it makes, and between storing a
key set and looking again. What other calls do in between is seen.

The two caches differ in what storing does. The SDK's verifier replaces the cached
keys, and the OIDC authenticator adds to them. The authenticator also discovers the
URL of the key set when it has none, and writes it to a field that no lock guards;
reads and writes of that field are taken to happen at once.

The calls are numbered, and the network answers anything it may have answered at
the moment of a request.

## Main definitions

* `KeyCache.Kind`: What differs between the two caches.
* `KeyCache.Phase`, `KeyCache.Call`: Where a call of `keyFunc` is.
* `KeyCache.State`: A cache and the calls on it.
* `KeyCache.calls`: The calls on a cache, in any order of steps.
* `KeyCache.State.advance`: The next step of a call, in given surroundings.
* `KeyCache.State.alone`: A call that no other comes between.
* `Verify.Verifier.cacheKind`, `Authn.Authenticator.cacheKind`: The two caches.
* `Keys.SharedRun`, `Keys.sharedRuns`: A verifier's calls while the manager rotates.
-/

namespace Kontxt

open Go Lib

namespace KeyCache

/-- What differs between the two caches: whether stored keys are added to those that
    are there, whether the URL of the key set may have to be discovered, how a
    token's header names a key, and the error when the key is not found. -/
structure Kind where
  keeps : Bool
  discovers : Bool
  kidOf : Jwt → Except String String
  notFound : String → String

/-- Where a call of `keyFunc` is: between two of the points where it touches what it
    shares with others. -/
inductive Phase where
  | missed
  | discovering
  | located (url : String)
  | fetched (jwks : List Authn.JwkKey)
  | stored
  | answered (result : Except String RsaPublicKey)

/-- A call, with the key identifier it looks for. -/
structure Call where
  kid : String
  phase : Phase

/-- A cache and the calls on it. -/
structure State where
  jwksURL : String
  keys : GoMap String RsaPublicKey
  calls : Nat → Option Call

/-- What a call does: it looks for the token's key, reads the URL of the key set,
    discovers it, fetches the key set, stores it, or looks again. -/
inductive Event where
  | look (i : Nat) (t : Jwt)
  | readURL (i : Nat)
  | discover (i : Nat) (outcome : Except String String)
  | fetch (i : Nat) (url : String) (outcome : Except String (List Authn.JwkKey))
  | store (i : Nat) (jwks : List Authn.JwkKey)
  | lookAgain (i : Nat)

/-- The call an event is of. -/
def Event.call : Event → Nat
  | .look i _ => i
  | .readURL i => i
  | .discover i _ => i
  | .fetch i _ _ => i
  | .store i _ => i
  | .lookAgain i => i

namespace State

variable (K : Kind)

/-- A call moves on. -/
def put (s : State) (i : Nat) (kid : String) (phase : Phase) : State :=
  { s with calls := Function.update s.calls i (some { kid := kid, phase := phase }) }

/-- `keyFunc` up to its first look into the cache. -/
def look (s : State) (i : Nat) (t : Jwt) : State :=
  match K.kidOf t with
  | .error e => s.put i "" (.answered (.error e))
  | .ok kid =>
    match s.keys.lookup kid with
    | some key => s.put i kid (.answered (.ok key))
    | none => s.put i kid .missed

/-- `fetchJWKS` reads the URL of the key set. -/
def readURL (s : State) (i : Nat) (kid : String) : State :=
  if K.discovers = true ∧ s.jwksURL = "" then s.put i kid .discovering
  else s.put i kid (.located s.jwksURL)

/-- `discoverJWKSURL` returned. -/
def discover (s : State) (i : Nat) (kid : String) (outcome : Except String String) : State :=
  match outcome with
  | .error e => s.put i kid (.answered (.error ("fetching JWKS: " ++ e)))
  | .ok url => { s.put i kid (.located url) with jwksURL := url }

/-- The request for the key set returned. -/
def fetch (s : State) (i : Nat) (kid : String) (outcome : Except String (List Authn.JwkKey)) :
    State :=
  match outcome with
  | .error e => s.put i kid (.answered (.error ("fetching JWKS: " ++ e)))
  | .ok jwks => s.put i kid (.fetched jwks)

/-- The keys after a key set was stored. -/
def storedKeys (keys : GoMap String RsaPublicKey) (jwks : List Authn.JwkKey) :
    GoMap String RsaPublicKey :=
  Authn.addKeys (if K.keeps = true then keys else ∅) jwks

/-- `fetchJWKS` stores the keys under the lock. -/
def store (s : State) (i : Nat) (kid : String) (jwks : List Authn.JwkKey) : State :=
  { s.put i kid .stored with keys := storedKeys K s.keys jwks }

/-- What a look into the cache answers. -/
def answer (s : State) (kid : String) : Except String RsaPublicKey :=
  match s.keys.lookup kid with
  | some key => .ok key
  | none => .error (K.notFound kid)

/-- `keyFunc` looks again. -/
def lookAgain (s : State) (i : Nat) (kid : String) : State :=
  s.put i kid (.answered (s.answer K kid))

end State

/-- One step of one call. -/
inductive Step (K : Kind) : State → Event → State → Prop
  | look (s : State) (i : Nat) (t : Jwt) (h : s.calls i = none) :
      Step K s (.look i t) (s.look K i t)
  | readURL (s : State) (i : Nat) (kid : String)
      (h : s.calls i = some { kid := kid, phase := .missed }) :
      Step K s (.readURL i) (s.readURL K i kid)
  | discover (s : State) (i : Nat) (kid : String) (outcome : Except String String)
      (h : s.calls i = some { kid := kid, phase := .discovering }) :
      Step K s (.discover i outcome) (s.discover i kid outcome)
  | fetch (s : State) (i : Nat) (kid url : String)
      (outcome : Except String (List Authn.JwkKey))
      (h : s.calls i = some { kid := kid, phase := .located url }) :
      Step K s (.fetch i url outcome) (s.fetch i kid outcome)
  | store (s : State) (i : Nat) (kid : String) (jwks : List Authn.JwkKey)
      (h : s.calls i = some { kid := kid, phase := .fetched jwks }) :
      Step K s (.store i jwks) (s.store K i kid jwks)
  | lookAgain (s : State) (i : Nat) (kid : String)
      (h : s.calls i = some { kid := kid, phase := .stored }) :
      Step K s (.lookAgain i) (s.lookAgain K i kid)

/-- The calls on a cache that starts empty, in any order of steps. -/
def calls (K : Kind) (jwksURL : String) : System State Event where
  init := fun s => s = { jwksURL := jwksURL, keys := ∅, calls := fun _ => none }
  step := Step K

/-- The key set a request gives. -/
def fetchSet (net : Authn.Net) (docs : Authn.Docs) (url : String) :
    Except String (List Authn.JwkKey) := do
  let body ← Authn.fetch net "JWKS" "JWKS endpoint returned status " url
  (docs.jwks body).mapError ("decoding JWKS: " ++ ·)

/-- The next step of a call when the network answers as given. -/
def State.advance (K : Kind) (discovered : Except String String)
    (fetched : String → Except String (List Authn.JwkKey)) (s : State) (i : Nat) : State :=
  match s.calls i with
  | none => s
  | some c =>
    match c.phase with
    | .missed => s.readURL K i c.kid
    | .discovering => s.discover i c.kid discovered
    | .located url => s.fetch i c.kid (fetched url)
    | .fetched jwks => s.store K i c.kid jwks
    | .stored => s.lookAgain K i c.kid
    | .answered _ => s

/-- A call from its first look to its answer, with no step of another in between. Five
    steps are enough. -/
def State.alone (K : Kind) (discovered : Except String String)
    (fetched : String → Except String (List Authn.JwkKey)) (s : State) (i : Nat) (t : Jwt) :
    State :=
  (fun s => s.advance K discovered fetched i)^[5] (s.look K i t)

end KeyCache

/-- The cache of the SDK's verifier. -/
def Verify.Verifier.cacheKind (u : Unicode) (v : Verify.Verifier) : KeyCache.Kind where
  keeps := false
  discovers := false
  kidOf := fun t =>
    if isSigningMethodRSA t.header = false then
      .error ("unexpected signing method: " ++ t.header.str "alg")
    else if t.header.str "kid" = "" then .error "missing kid in token header"
    else .ok (t.header.str "kid")
  notFound := fun kid => "key " ++ quote u kid ++ " not found in JWKS at " ++ v.jwksURL

/-- The cache of an OIDC authenticator. An empty identifier is looked for. -/
def Authn.Authenticator.cacheKind (u : Unicode) : KeyCache.Kind where
  keeps := true
  discovers := true
  kidOf := fun t =>
    if isSigningMethodRSA t.header = false then
      .error ("unexpected signing method: " ++ t.header.str "alg")
    else
      match t.header.lookup "kid" with
      | some (.str kid) => .ok kid
      | _ => .error "missing kid in token header"
  notFound := fun kid => "key " ++ quote u kid ++ " not found in JWKS"

namespace Keys

/-- A manager, and the calls on a verifier's cache; and the entries generated,
    newest first. -/
structure SharedRun where
  manager : Manager
  generated : List KeyEntry
  cache : KeyCache.State

/-- What can happen: a rotation, or a step of a call. -/
inductive SharedEvent where
  | rotate (key : RsaPrivateKey)
  | call (e : KeyCache.Event)

/-- A request that gives a key set is answered by the manager's endpoint. -/
def AnsweredBy (m : Manager) : KeyCache.Event → Prop
  | .fetch _ _ (.ok jwks) => jwks = m.publicKeys.map PublicKey.jwkKey
  | _ => True

/-- One step of the manager or of a call. -/
inductive SharedRun.Step (K : KeyCache.Kind) (sum256 : List Nat → Vector Nat 32) :
    SharedRun → SharedEvent → SharedRun → Prop
  | rotate (s : SharedRun) (key : RsaPrivateKey) (hexp : key.publicKey.e = generatedExponent)
      (hfresh : computeKid sum256 key.publicKey ∉ s.generated.map KeyEntry.kid) :
      Step K sum256 s (.rotate key)
        { s with
          manager := s.manager.rotate (generateKey sum256 key)
          generated := generateKey sum256 key :: s.generated }
  | call (s : SharedRun) (e : KeyCache.Event) (cache : KeyCache.State)
      (hanswers : AnsweredBy s.manager e) (hstep : KeyCache.Step K s.cache e cache) :
      Step K sum256 s (.call e) { s with cache := cache }

/-- A verifier's calls while the manager rotates, from their start on. -/
def sharedRuns (K : KeyCache.Kind) (sum256 : List Nat → Vector Nat 32) (jwksURL : String) :
    System SharedRun SharedEvent where
  init := fun s => ∃ key, key.publicKey.e = generatedExponent ∧
    s = { manager := .new (generateKey sum256 key)
          generated := [generateKey sum256 key]
          cache := { jwksURL := jwksURL, keys := ∅, calls := fun _ => none } }
  step := SharedRun.Step K sum256

end Keys

end Kontxt
