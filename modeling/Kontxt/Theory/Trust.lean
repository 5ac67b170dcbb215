import Kontxt.Core.Trust
import Kontxt.Theory.Keys
import Kontxt.Theory.Routing

/-!
# Keys That Were Withdrawn

Whether an authenticator goes on trusting a key its provider has withdrawn. A
fetch adds the keys of a document to the cache and removes none, so the cache
holds, for every identifier, the key of the last fetched document that has a
usable one. That is the invariant, and `trustsLast_iff` follows: the key function
keeps to the last document exactly when every identifier with a usable key in an
earlier document still has one in the last.

An identifier the last document dropped stays in the cache for good, since a
fetch is only made for an identifier that is not cached. The verifier of the SDK
is different: it replaces its keys with every fetch.

## Main definitions

* `Authn.cacheOf`: The cache after documents were fetched.
* `Authn.Trust.TrustsLast`: Only keys of the last document are returned.
* `Authn.NoneWithdrawn`: No identifier of an earlier document was dropped.

## Theorems

* `Authn.fetchJWKS_cases`: What a fetch does.
* `Authn.Trust.keys_eq_cacheOf`: The cache in every run.
* `Authn.withdrawn_keys_iff`: When only keys of the last document are trusted.
* `Authn.withdrawn_key_accepted`: A token under a key that was withdrawn.
-/

namespace Kontxt

namespace Authn

open Go Lib

section Documents

/-- The cache after documents were fetched, last one first. -/
def cacheOf : List (List JwkKey) → GoMap String RsaPublicKey
  | [] => ∅
  | jwks :: older => addKeys (cacheOf older) jwks

theorem lookup_cacheOf_cons (jwks : List JwkKey) (older : List (List JwkKey)) (kid : String) :
    (cacheOf (jwks :: older)).lookup kid =
      (documentKey jwks kid).or ((cacheOf older).lookup kid) :=
  lookup_addKeys (cacheOf older) jwks kid

/-- An identifier is cached exactly when some document had a key for it. -/
theorem lookup_cacheOf_isSome_iff (fetched : List (List JwkKey)) (kid : String) :
    ((cacheOf fetched).lookup kid).isSome = true ↔
      ∃ jwks ∈ fetched, (documentKey jwks kid).isSome = true := by
  induction fetched with
  | nil => simp [cacheOf]
  | cons jwks older ih =>
      rw [lookup_cacheOf_cons, Option.isSome_or, Bool.or_eq_true, ih]
      simp

end Documents

section Fetching

variable (net : Net) (docs : Docs) (u : Unicode)

/-- What the provider serves at a known URL. -/
def Authenticator.served (a : Authenticator) : Option (List JwkKey) :=
  (fetch net "JWKS" "JWKS endpoint returned status " a.jwksURL).toOption.bind fun body =>
    (docs.jwks body).toOption

/-- A fetch at a known URL adds the keys of what is served, or fails. -/
theorem fetchKeys_cases (a : Authenticator) :
    (∃ jwks, a.served net docs = some jwks ∧
      a.fetchKeys net docs = .ok { a with keys := addKeys a.keys jwks }) ∨
    (a.served net docs = none ∧ ∃ e, a.fetchKeys net docs = .error e) := by
  unfold Authenticator.fetchKeys Authenticator.served
  cases fetch net "JWKS" "JWKS endpoint returned status " a.jwksURL with
  | error e => exact Or.inr ⟨rfl, e, rfl⟩
  | ok body =>
      cases hjwks : docs.jwks body with
      | error e => exact Or.inr (by simp [bind, Except.bind, Except.toOption, hjwks])
      | ok jwks => exact Or.inl (by simp [bind, Except.bind, Except.toOption, hjwks])

/-- A fetch gets a document and adds its keys, or fails and leaves the keys as
    they are. -/
theorem fetchJWKS_cases (a : Authenticator) :
    (∃ jwks a', a.document net docs u = some jwks ∧ a.fetchJWKS net docs u = (.ok (), a') ∧
      a'.keys = addKeys a.keys jwks) ∨
    (∃ e a', a.document net docs u = none ∧ a.fetchJWKS net docs u = (.error e, a') ∧
      a'.keys = a.keys) := by
  unfold Authenticator.document Authenticator.fetchJWKS
  by_cases hurl : a.jwksURL = ""
  · simp only [if_pos hurl]
    cases a.discoverJWKSURL net docs u with
    | error e => exact Or.inr ⟨e, a, rfl, rfl, rfl⟩
    | ok url =>
        rcases fetchKeys_cases net docs { a with jwksURL := url } with
          ⟨jwks, hserved, hok⟩ | ⟨hserved, e, herror⟩
        · refine Or.inl ⟨jwks, { a with jwksURL := url, keys := addKeys a.keys jwks }, hserved, ?_,
            rfl⟩
          simp only [Except.map, hok]
        · refine Or.inr ⟨e, { a with jwksURL := url }, hserved, ?_, rfl⟩
          simp only [Except.map, herror]
  · simp only [if_neg hurl]
    rcases fetchKeys_cases net docs a with ⟨jwks, hserved, hok⟩ | ⟨hserved, e, herror⟩
    · refine Or.inl ⟨jwks, { a with keys := addKeys a.keys jwks }, hserved, ?_, rfl⟩
      simp only [hok]
    · refine Or.inr ⟨e, a, hserved, ?_, rfl⟩
      simp only [herror]

end Fetching

section Runs

variable (env : Env)

/-- What asking for the key of a token does: nothing is fetched and the cache
    stays, or a document is fetched and its keys are added. -/
theorem ask_cases (s : Trust) (t : Jwt) :
    ((s.ask env t).fetched = s.fetched ∧
      (s.ask env t).authenticator.keys = s.authenticator.keys) ∨
    (∃ jwks, s.authenticator.fetchedFor env.net env.docs env.unicode t = some jwks ∧
      (s.ask env t).fetched = jwks :: s.fetched ∧
      (s.ask env t).authenticator.keys = addKeys s.authenticator.keys jwks) := by
  unfold Trust.ask Authenticator.fetchedFor Authenticator.keyFunc
  cases isSigningMethodRSA t.header with
  | false => exact Or.inl ⟨rfl, rfl⟩
  | true =>
      simp only [Bool.true_eq_false, if_false]
      cases t.header.lookup "kid" with
      | none => exact Or.inl ⟨rfl, rfl⟩
      | some v =>
          cases v with
          | str kid =>
              simp only []
              cases hcached : s.authenticator.keys.lookup kid with
              | some key => exact Or.inl ⟨rfl, rfl⟩
              | none =>
                  rcases fetchJWKS_cases env.net env.docs env.unicode s.authenticator with
                    ⟨jwks, a', hdoc, hfetch, hkeys⟩ | ⟨e, a', hdoc, hfetch, hkeys⟩
                  · refine Or.inr ⟨jwks, ?_⟩
                    simp only [hfetch, hdoc]
                    -- Found or not, the authenticator keeps what was fetched.
                    cases a'.keys.lookup kid with
                    | none => exact ⟨rfl, rfl, hkeys⟩
                    | some key => exact ⟨rfl, rfl, hkeys⟩
                  · refine Or.inl ?_
                    simp only [hfetch, hdoc]
                    exact ⟨rfl, hkeys⟩
          -- An identifier that is no string ends the call at once.
          | null => exact Or.inl ⟨rfl, rfl⟩
          | bool b => exact Or.inl ⟨rfl, rfl⟩
          | num n => exact Or.inl ⟨rfl, rfl⟩
          | arr xs => exact Or.inl ⟨rfl, rfl⟩
          | obj members => exact Or.inl ⟨rfl, rfl⟩

namespace Trust

/-- One call keeps the cache that of the documents fetched. -/
theorem keys_authenticate (s : Trust) (tokenString : String)
    (hs : s.authenticator.keys = cacheOf s.fetched) :
    (s.authenticate env tokenString).authenticator.keys =
      cacheOf (s.authenticate env tokenString).fetched := by
  unfold authenticate
  cases env.jwt.parseUnverified tokenString with
  | error e => exact hs
  | ok t =>
      simp only []
      rcases ask_cases env s t with ⟨hfetched, hkeys⟩ | ⟨jwks, _, hfetched, hkeys⟩
      · rw [hfetched, hkeys, hs]
      · rw [hfetched, hkeys, hs]
        rfl

/-- In every run the cache is that of the documents fetched. -/
theorem keys_eq_cacheOf (s : Trust) (hr : system.Reachable s) :
    s.authenticator.keys = cacheOf s.fetched := by
  refine System.invariant (fun s => s.authenticator.keys = cacheOf s.fetched) ?_ ?_ s hr
  · intro s hinit
    rw [hinit.1, hinit.2]
    rfl
  · intro s call s' hs hstep
    rw [hstep]
    exact keys_authenticate call.1 s call.2 hs

/-- Only keys of the document fetched last are returned, by a call that may fetch
    one itself. -/
def TrustsLast (s : Trust) : Prop :=
  ∀ env t kid key, t.header.lookup "kid" = some (.str kid) →
    (s.authenticator.keyFunc env.net env.docs env.unicode t).1 = .ok key →
    ∃ last older, (s.ask env t).fetched = last :: older ∧ documentKey last kid = some key

end Trust

/-- Every identifier with a usable key in an earlier document has one in the
    last. -/
def NoneWithdrawn (last : List JwkKey) (older : List (List JwkKey)) : Prop :=
  ∀ jwks ∈ older, ∀ kid, (documentKey jwks kid).isSome = true →
    (documentKey last kid).isSome = true

/-- A key that is in the cache is returned without a fetch. -/
theorem keyFunc_cached (s : Trust) (t : Jwt) (kid : String) (key : RsaPublicKey)
    (hrsa : isSigningMethodRSA t.header = true)
    (hkid : t.header.lookup "kid" = some (.str kid))
    (hcached : s.authenticator.keys.lookup kid = some key) :
    (s.authenticator.keyFunc env.net env.docs env.unicode t).1 = .ok key ∧
      (s.ask env t).fetched = s.fetched := by
  unfold Trust.ask Authenticator.keyFunc Authenticator.fetchedFor
  simp [hrsa, hkid, hcached]

/-- A key that had to be fetched is one of the document fetched for it. -/
theorem keyFunc_fetched (s : Trust) (t : Jwt) (kid : String) (key : RsaPublicKey)
    (hrsa : isSigningMethodRSA t.header = true)
    (hkid : t.header.lookup "kid" = some (.str kid))
    (hcached : s.authenticator.keys.lookup kid = none)
    (hkey : (s.authenticator.keyFunc env.net env.docs env.unicode t).1 = .ok key) :
    ∃ jwks, (s.ask env t).fetched = jwks :: s.fetched ∧ documentKey jwks kid = some key := by
  rcases (keyFunc_eq_ok env s.authenticator t key).mp hkey with ⟨_, kid', hkid', hhas⟩
  cases hkid.symm.trans hkid'
  rcases hhas with hfound | ⟨_, a', hfetch, hfound⟩
  · rw [hcached] at hfound
    cases hfound
  · rcases fetchJWKS_cases env.net env.docs env.unicode s.authenticator with
      ⟨jwks, a'', hdoc, hfetch', hkeys⟩ | ⟨e, a'', _, hfetch', _⟩
    · cases hfetch.symm.trans hfetch'
      refine ⟨jwks, ?_, ?_⟩
      · unfold Trust.ask Authenticator.fetchedFor
        simp [hrsa, hkid, hcached, hdoc]
      · rw [hkeys, lookup_addKeys, hcached, Option.or_none] at hfound
        exact hfound
    · cases hfetch.symm.trans hfetch'

/-- A token that names a key. -/
def tokenFor (kid : String) : Jwt where
  header := [("alg", .str "RS256"), ("kid", .str kid)]
  claims := []

/-- If no identifier was dropped, what is cached is a key of the last document. -/
theorem documentKey_of_noneWithdrawn (last : List JwkKey) (older : List (List JwkKey))
    (hkept : NoneWithdrawn last older) (kid : String) (key : RsaPublicKey)
    (hcached : (cacheOf (last :: older)).lookup kid = some key) :
    documentKey last kid = some key := by
  rw [lookup_cacheOf_cons] at hcached
  cases hdoc : documentKey last kid with
  | some key' =>
      rw [hdoc, Option.some_or] at hcached
      exact hcached
  | none =>
      -- An identifier some document had a key for has one in the last.
      rw [hdoc, Option.none_or] at hcached
      have hsome : ((cacheOf older).lookup kid).isSome = true := by
        rw [hcached]
        rfl
      rcases (lookup_cacheOf_isSome_iff older kid).mp hsome with ⟨jwks, hjwks, hold⟩
      have hkeeps := hkept jwks hjwks kid hold
      rw [hdoc] at hkeeps
      cases hkeeps

/-- After a fetch, only keys of the last document are returned exactly when no
    identifier was dropped. -/
theorem trustsLast_iff (s : Trust) (hs : s.authenticator.keys = cacheOf s.fetched)
    (last : List JwkKey) (older : List (List JwkKey)) (hfetched : s.fetched = last :: older) :
    s.TrustsLast ↔ NoneWithdrawn last older := by
  rw [hfetched] at hs
  constructor
  · intro htrusts jwks hjwks kid hkey
    by_contra hdropped
    rw [Bool.not_eq_true, Option.isSome_eq_false_iff, Option.isNone_iff_eq_none] at hdropped
    -- The earlier key is still cached, and returned for a token that names it.
    rcases Option.isSome_iff_exists.mp ((lookup_cacheOf_isSome_iff older kid).mpr
      ⟨jwks, hjwks, hkey⟩) with ⟨key, hold⟩
    have hcached : s.authenticator.keys.lookup kid = some key := by
      rw [hs, lookup_cacheOf_cons, hdropped, Option.none_or, hold]
    rcases keyFunc_cached Tts.sampleEnv.toEnv s (tokenFor kid) kid key rfl rfl hcached with
      ⟨hreturned, hnothing⟩
    rcases htrusts _ (tokenFor kid) kid key rfl hreturned with ⟨last', older', hsame, hdoc⟩
    rw [hnothing, hfetched] at hsame
    cases hsame
    rw [hdropped] at hdoc
    cases hdoc
  · intro hkept env t kid key hkid hkey
    have hrsa := ((keyFunc_eq_ok env s.authenticator t key).mp hkey).1
    cases hcached : s.authenticator.keys.lookup kid with
    | none =>
        -- The call fetches, and its own document is then the last.
        rcases keyFunc_fetched env s t kid key hrsa hkid hcached hkey with ⟨jwks, hask, hdoc⟩
        exact ⟨jwks, s.fetched, hask, hdoc⟩
    | some key' =>
        rcases keyFunc_cached env s t kid key' hrsa hkid hcached with ⟨hreturned, hnothing⟩
        cases hkey.symm.trans hreturned
        rw [hs] at hcached
        exact ⟨last, older, hnothing.trans hfetched,
          documentKey_of_noneWithdrawn last older hkept kid key hcached⟩

/-- A token that is accepted was verified under the key that was returned for
    it. -/
theorem authenticate_verified (a : Authenticator) (tok : String) (info : SubjectInfo)
    (h : a.authenticate env tok = .ok info) :
    ∃ t kid key, env.jwt.parseUnverified tok = .ok t ∧
      t.header.lookup "kid" = some (.str kid) ∧
      (a.keyFunc env.net env.docs env.unicode t).1 = .ok key ∧
      env.jwt.verify tok key (.withIssuer a.issuerURL) env.now = .ok () := by
  unfold Authenticator.authenticate at h
  cases hparse : a.parse env tok with
  | error e =>
      rw [hparse] at h
      cases h
  | ok t =>
      rcases (JwtLib.parse_eq_ok _ _ _ _ _ t).mp hparse with ⟨hread, key, hkey, hverify⟩
      rcases (keyFunc_eq_ok env a t key).mp hkey with ⟨_, kid, hkid, _⟩
      exact ⟨t, kid, key, hread, hkid, hkey, hverify⟩

end Runs

/-- When only keys of the last document are trusted. In every run of an
    authenticator that has fetched a key set: the key function returns, for any
    token in any surroundings, only the key the last fetched document has for the
    token's identifier, exactly when every identifier with a usable key in an
    earlier document has one in the last. Where that holds, every token that is
    accepted was verified under such a key. -/
theorem withdrawn_keys_iff (s : Trust) (hr : Trust.system.Reachable s) (last : List JwkKey)
    (older : List (List JwkKey)) (hfetched : s.fetched = last :: older) :
    (s.TrustsLast ↔ NoneWithdrawn last older) ∧
    (NoneWithdrawn last older → ∀ env tok info,
      s.authenticator.authenticate env tok = .ok info →
      ∃ t kid key last' older', env.jwt.parseUnverified tok = .ok t ∧
        t.header.lookup "kid" = some (.str kid) ∧
        (s.authenticate env tok).fetched = last' :: older' ∧ documentKey last' kid = some key ∧
        env.jwt.verify tok key (.withIssuer s.authenticator.issuerURL) env.now = .ok ()) := by
  have htrusts := trustsLast_iff s (Trust.keys_eq_cacheOf s hr) last older hfetched
  refine ⟨htrusts, ?_⟩
  intro hkept env tok info haccepted
  rcases authenticate_verified env s.authenticator tok info haccepted with
    ⟨t, kid, key, hread, hkid, hkey, hverify⟩
  rcases htrusts.mpr hkept env t kid key hkid hkey with ⟨last', older', hask, hdoc⟩
  refine ⟨t, kid, key, last', older', hread, hkid, ?_, hdoc, hverify⟩
  unfold Trust.authenticate
  rw [hread]
  exact hask

section Sample

/-- An RSA signing key of a document. -/
def signingKey (kid : String) : JwkKey where
  kty := "RSA"
  use := "sig"
  kid := kid
  alg := "RS256"
  n := "AQAB"
  e := "AQAB"

/-- A subject token under a key. -/
def subjectFor (kid : String) : Jwt where
  header := [("alg", .str "RS256"), ("kid", .str kid)]
  claims := [("iss", .str "idp"), ("sub", .str "alice"), ("aud", .str "kontxt")]

/-- Surroundings in which the provider serves one key. -/
def serving (kid : String) : Env where
  jwt := JwtLib.ofTable [("one", subjectFor "k1"), ("two", subjectFor "k2")]
  getAudience := fun claims => .ok [claims.str "aud"]
  net := fun _ => .ok { statusCode := 200, body := kid }
  docs :=
    { discovery := fun _ => .error "unexpected end of JSON input"
      jwks := fun body => .ok [signingKey body]
      issuer := fun _ => .ok "idp" }
  unicode := Unicode.ascii
  now := 0

/-- An authenticator that has fetched nothing. -/
def freshTrust : Trust where
  authenticator :=
    { issuerURL := "idp"
      discoveryURL := "idp/.well-known/openid-configuration"
      audiences := ["kontxt"]
      validationRules := []
      subjectMapping := { claim := "sub", expression := "" }
      subjectProgram := none
      extraMappings := []
      jwksURL := "idp/keys"
      keys := ∅ }
  fetched := []

/-- After a token under the first key. -/
def trustFirst : Trust :=
  freshTrust.authenticate (serving "k1") "one"

/-- The provider has replaced the key, and a token under the new one has come. -/
def trustSecond : Trust :=
  Trust.authenticate (serving "k2") trustFirst "two"

/-- Surroundings in which the provider serves a new key beside the old one. -/
def servingBoth : Env :=
  { serving "k2" with
    docs := { (serving "k2").docs with jwks := fun _ => .ok [signingKey "k2", signingKey "k1"] } }

/-- A token under the new key has come while both are served. -/
def trustBoth : Trust :=
  Trust.authenticate servingBoth trustFirst "two"

theorem trustFirst_reachable : Trust.system.Reachable trustFirst := by
  have hinit : Trust.system.Reachable freshTrust := System.Reachable.init _ ⟨rfl, rfl⟩
  exact hinit.next (serving "k1", "one") _ rfl

theorem trustSecond_reachable : Trust.system.Reachable trustSecond :=
  trustFirst_reachable.next (serving "k2", "two") _ rfl

theorem trustBoth_reachable : Trust.system.Reachable trustBoth :=
  trustFirst_reachable.next (servingBoth, "two") _ rfl

end Sample

/-- The second document keeps the key of the first one, so it is the last one that is
    trusted. -/
theorem withdrawn_keys_first :
    trustBoth.fetched = [[signingKey "k2", signingKey "k1"], [signingKey "k1"]] ∧
      trustBoth.TrustsLast := by
  have hfetched : trustBoth.fetched = [[signingKey "k2", signingKey "k1"], [signingKey "k1"]] := by
    decide
  refine ⟨hfetched, (withdrawn_keys_iff trustBoth trustBoth_reachable _ _ hfetched).1.mpr ?_⟩
  intro jwks hjwks kid hkid
  rw [List.mem_singleton.mp hjwks] at hkid
  by_cases hfirst : "k1" = kid
  · rw [← hfirst]
    decide
  · have hnone : documentKey [signingKey "k1"] kid = none := by
      simp [documentKey, signingKey, hfirst]
    rw [hnone] at hkid
    cases hkid

/-- The last document has a new key only, and a token under the old one is still
    accepted. -/
theorem withdrawn_key_accepted :
    Trust.system.Reachable trustSecond ∧
    trustSecond.fetched = [[signingKey "k2"], [signingKey "k1"]] ∧
    documentKey [signingKey "k2"] "k1" = none ∧
    ((trustSecond.authenticator.authenticate (serving "k2") "one").toOption.map
      SubjectInfo.subject) = some "alice" ∧
    (Trust.authenticate (serving "k2") trustSecond "one").fetched = trustSecond.fetched :=
  ⟨trustSecond_reachable, by decide, by decide, by decide,
    by decide⟩

end Authn

end Kontxt
