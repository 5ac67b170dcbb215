import Kontxt.Core.Rotation
import Kontxt.Theory.Exchange
import Kontxt.Theory.Keys

/-!
# Verifying Across Rotations

Which tokens the two verifiers accept while the manager rotates its keys.

The manager's entries are the two newest it ever generated, and identifiers are
distinct among all of them. So an identifier determines an entry, and looking a
key up by identifier is looking the entry up, wherever the keys came from: the
local verifier finds it among the published keys, and a cache that was filled
from an older key set can be missing an entry but cannot have another key under
its identifier. A miss makes the verifier fetch, and what it fetches has the two
newest entries. That is why a stale cache never refuses a token signed with one
of them.

A verifier accepts only what one of the keys it looks at has signed. For the
local verifier those are the two newest, so a token signed with an older key is
refused. A cache keeps a key as long as nothing makes it fetch, so for the other
verifier they are the entries that were published when it last fetched.

## Main definitions

* `Keys.cacheOf`: The cache a fetch of some entries leaves.
* `Keys.RotationInv`: The entries, the tokens and the cache of a run.
* `Keys.checkToken`: What both verifiers do with the key function they have.
* `Keys.RotationSound`: What holds of the verifiers at every point of a run.

## Theorems

* `Keys.lookup_cacheOf`: A cache finds exactly the entries fetched.
* `Keys.rotationInv_step`: A step keeps the invariant.
* `Keys.keyFunc_entries`: The local verifier finds the newest entries.
* `Keys.keyFunc_cached`: So does the other, whatever its cache.
* `Keys.checkToken_made`: A token made with an entry is accepted under its key.
* `Keys.localVerify_retired`: The local verifier refuses older keys.
* `Keys.verify_fetched`: The other accepts only what its last fetch brought.
* `Keys.rotation_sound`: Tokens across rotations.
-/

namespace Kontxt

namespace Keys

open Go Lib

section Entries

theorem hexBytes_ne (bytes : List Nat) (h : bytes ≠ []) : hexBytes bytes ≠ "" := by
  intro hempty
  have hlist := congrArg String.toList hempty
  cases bytes with
  | nil => exact h rfl
  | cons b bs =>
      unfold hexBytes at hlist
      rw [String.toList_ofList, List.flatMap_cons] at hlist
      exact absurd hlist (List.cons_ne_nil _ _)

/-- The identifier of a key is never empty. -/
theorem computeKid_ne (sum256 : List Nat → Vector Nat 32) (pub : RsaPublicKey) :
    computeKid sum256 pub ≠ "" := by
  refine hexBytes_ne _ (fun hnil => ?_)
  have hlen := congrArg List.length hnil
  rw [List.length_take, Vector.length_toList] at hlen
  exact absurd hlen (by decide)

theorem inRange_generateKey (sum256 : List Nat → Vector Nat 32) (key : RsaPrivateKey)
    (hexp : key.publicKey.e = generatedExponent) : InRange (generateKey sum256 key) := by
  have he : (generateKey sum256 key).privateKey.publicKey.e = 65537 := hexp
  unfold InRange
  rw [he]
  omega

theorem publicKeys_eq_map (m : Manager) : m.publicKeys = m.entries.map newPublicKey := by
  unfold Manager.publicKeys Manager.entries
  cases m.previous with
  | none => rfl
  | some entry => rfl

/-- Among entries with distinct identifiers an identifier determines the
    entry. -/
theorem eq_of_kid (es : List KeyEntry) (hnodup : (es.map KeyEntry.kid).Nodup) (e e' : KeyEntry)
    (he : e ∈ es) (he' : e' ∈ es) (hkid : e.kid = e'.kid) : e = e' :=
  List.inj_on_of_nodup_map hnodup he he' hkid

/-- Looking a key up by the identifier of an entry finds the entry's key. -/
theorem find_publicKeys (es : List KeyEntry) (hnodup : (es.map KeyEntry.kid).Nodup)
    (e : KeyEntry) (he : e ∈ es) :
    (es.map newPublicKey).find? (fun pk => pk.kid == e.kid) = some (newPublicKey e) := by
  induction es with
  | nil => exact absurd he List.not_mem_nil
  | cons a es ih =>
      rw [List.map_cons, List.nodup_cons] at hnodup
      rw [List.map_cons]
      by_cases hkid : a.kid = e.kid
      · -- The first key with the identifier is the only one.
        have hae : a = e := by
          rcases List.mem_cons.mp he with heq | htail
          · exact heq.symm
          · exact absurd (hkid ▸ List.mem_map_of_mem htail) hnodup.1
        rw [hae, List.find?_cons_of_pos]
        exact beq_self_eq_true _
      · have htail : e ∈ es := by
          rcases List.mem_cons.mp he with heq | htail
          · exact absurd (congrArg KeyEntry.kid heq.symm) hkid
          · exact htail
        rw [List.find?_cons_of_neg, ih hnodup.2 htail]
        exact fun hbeq => hkid (eq_of_beq hbeq)

/-- The cache a fetch of some entries leaves. -/
def cacheOf (es : List KeyEntry) : GoMap String RsaPublicKey :=
  Authn.addKeys ∅ (es.map fun e => (newPublicKey e).jwkKey)

/-- A published key is one a verifier can use. -/
theorem usableKey_newPublicKey (entry : KeyEntry) (hrange : InRange entry) :
    Authn.usableKey (newPublicKey entry).jwkKey = some entry.privateKey.publicKey := by
  have hdecode : decodeKey (newPublicKey entry).jwkKey.n (newPublicKey entry).jwkKey.e
      = .ok entry.privateKey.publicKey := rsaPublicKey_newPublicKey entry hrange
  have hsig : ¬((newPublicKey entry).jwkKey.kty ≠ "RSA" ∨
      (newPublicKey entry).jwkKey.use ≠ "sig") := by
    intro hother
    rcases hother with hkty | huse
    · exact hkty rfl
    · exact huse rfl
  unfold Authn.usableKey
  rw [if_neg hsig, hdecode]
  rfl

/-- The document of some entries has exactly their keys. -/
theorem documentKey_published (es : List KeyEntry) (hrange : ∀ e ∈ es, InRange e)
    (hnodup : (es.map KeyEntry.kid).Nodup) (kid : String) (key : RsaPublicKey) :
    Authn.documentKey (es.map fun e => (newPublicKey e).jwkKey) kid = some key ↔
      ∃ e ∈ es, e.kid = kid ∧ e.privateKey.publicKey = key := by
  have hfound : ∀ key', Authn.documentKey (es.map fun e => (newPublicKey e).jwkKey) kid =
      some key' → ∃ e ∈ es, e.kid = kid ∧ e.privateKey.publicKey = key' := by
    intro key' h
    rcases Authn.mem_of_documentKey _ kid key' h with ⟨k, hk, hkid, husable⟩
    rcases List.mem_map.mp hk with ⟨e, he, rfl⟩
    rw [usableKey_newPublicKey e (hrange e he)] at husable
    exact ⟨e, he, hkid, Option.some.inj husable⟩
  refine ⟨hfound key, fun hentry => ?_⟩
  rcases hentry with ⟨e, he, hkid, hkey⟩
  have hsome : (Authn.documentKey (es.map fun e => (newPublicKey e).jwkKey) kid).isSome = true := by
    rw [Authn.documentKey_isSome_iff]
    refine ⟨_, List.mem_map_of_mem he, hkid, ?_⟩
    rw [usableKey_newPublicKey e (hrange e he), Option.isSome_some]
  -- Some entry with the identifier is found, and there is only one.
  rcases Option.isSome_iff_exists.mp hsome with ⟨key', hkey'⟩
  rcases hfound key' hkey' with ⟨e', he', hkid', hsame⟩
  rw [hkey', ← hsame, ← hkey, eq_of_kid es hnodup e' e he' he (hkid'.trans hkid.symm)]

/-- A cache finds exactly the keys of the entries fetched. -/
theorem lookup_cacheOf (es : List KeyEntry) (hrange : ∀ e ∈ es, InRange e)
    (hnodup : (es.map KeyEntry.kid).Nodup) (kid : String) (key : RsaPublicKey) :
    (cacheOf es).lookup kid = some key ↔
      ∃ e ∈ es, e.kid = kid ∧ e.privateKey.publicKey = key := by
  unfold cacheOf
  rw [Authn.lookup_addKeys, Finmap.lookup_empty, Option.or_none]
  exact documentKey_published es hrange hnodup kid key

end Entries

section Verifiers

variable (env : Authn.Env) (m : Manager)

/-- A fetch that the endpoint answers leaves the cache of the manager's
    entries. -/
theorem fetchJWKS_serves (v : Verify.Verifier) (hserves : Serves env m v.jwksURL) :
    v.fetchJWKS env = .ok { v with keys := cacheOf m.entries } := by
  rcases hserves with ⟨encode, hnet, hdocs⟩
  have hbody : Authn.fetch env.net "JWKS" "JWKS endpoint returned status " v.jwksURL
      = .ok (encode m.publicKeys) := by
    unfold Authn.fetch
    rw [hnet]
    rfl
  have hkeys : m.publicKeys.map PublicKey.jwkKey
      = m.entries.map fun e => (newPublicKey e).jwkKey := by
    rw [publicKeys_eq_map, List.map_map]
    rfl
  unfold Verify.Verifier.fetchJWKS
  simp only [hbody, bind, Except.bind, hdocs, hkeys]
  rfl

/-- A token whose key can be looked for: it names an RSA method and a key. -/
def NamesKey (t : Jwt) : Prop :=
  isSigningMethodRSA t.header = true ∧ t.header.str "kid" ≠ ""

theorem keyFunc_unnamed (v : Verify.Verifier) (t : Jwt) (h : ¬NamesKey t) :
    ∃ e, v.keyFunc env t = (.error e, v) := by
  unfold Verify.Verifier.keyFunc
  cases hrsa : isSigningMethodRSA t.header with
  | false => exact ⟨_, if_pos rfl⟩
  | true =>
      have hkid : t.header.str "kid" = "" := by
        by_contra hkid
        exact h ⟨hrsa, hkid⟩
      rw [if_neg (by decide)]
      exact ⟨_, if_pos hkid⟩

/-- A cached key is used as it is. -/
theorem keyFunc_hit (v : Verify.Verifier) (t : Jwt) (h : NamesKey t) (key : RsaPublicKey)
    (hlookup : v.keys.lookup (t.header.str "kid") = some key) :
    v.keyFunc env t = (.ok key, v) := by
  unfold Verify.Verifier.keyFunc
  simp only [h.1, h.2, hlookup, Bool.true_eq_false, if_false]

/-- A missing key is looked for among the manager's entries, which are cached
    from then on. -/
theorem keyFunc_miss (v : Verify.Verifier) (hserves : Serves env m v.jwksURL) (t : Jwt)
    (h : NamesKey t) (hlookup : v.keys.lookup (t.header.str "kid") = none) :
    (v.keyFunc env t).2 = { v with keys := cacheOf m.entries } ∧
      ∀ key, (v.keyFunc env t).1 = .ok key ↔
        (cacheOf m.entries).lookup (t.header.str "kid") = some key := by
  have hfetch := fetchJWKS_serves env m v hserves
  -- Only what the cache has under the identifier matters from here.
  generalize cacheOf m.entries = cache at hfetch ⊢
  unfold Verify.Verifier.keyFunc
  simp only [h.1, h.2, hlookup, Bool.true_eq_false, if_false, hfetch]
  cases cache.lookup (t.header.str "kid") with
  | none => simp only [reduceCtorEq, implies_true, and_self]
  | some found => simp only [Except.ok.injEq, Option.some.injEq, implies_true, and_self]

/-- The key a verifier uses is in its cache afterwards. -/
theorem lookup_of_keyFunc (v : Verify.Verifier) (hserves : Serves env m v.jwksURL) (t : Jwt)
    (key : RsaPublicKey) (hkey : (v.keyFunc env t).1 = .ok key) :
    (v.keyFunc env t).2.keys.lookup (t.header.str "kid") = some key := by
  by_cases hnames : NamesKey t
  · cases hlookup : v.keys.lookup (t.header.str "kid") with
    | none =>
        rcases keyFunc_miss env m v hserves t hnames hlookup with ⟨hcache, hfound⟩
        have hentry := (hfound key).mp hkey
        simp only [hcache, hentry]
    | some found =>
        rw [keyFunc_hit env v t hnames found hlookup] at hkey ⊢
        exact hlookup.trans (congrArg some (Except.ok.inj hkey))
  · rcases keyFunc_unnamed env v t hnames with ⟨e, he⟩
    rw [he] at hkey
    cases hkey

/-- The verifier after a call with a text that can be read. -/
theorem afterVerify_of_read (v : Verify.Verifier) (text : String) (t : Jwt) (hne : text ≠ "")
    (hread : env.jwt.parseUnverified text = .ok t) :
    v.afterVerify env text = (v.keyFunc env t).2 := by
  unfold Verify.Verifier.afterVerify
  rw [if_neg hne, hread]

/-- A call changes the cache only by fetching. -/
theorem keys_afterVerify (v : Verify.Verifier) (hserves : Serves env m v.jwksURL) (text : String) :
    (v.afterVerify env text).keys
      = if v.refetches env text then cacheOf m.entries else v.keys := by
  unfold Verify.Verifier.afterVerify Verify.Verifier.refetches
  by_cases htext : text = ""
  · simp only [htext, if_true, ne_eq, not_true_eq_false, decide_false, Bool.false_and,
      Bool.false_eq_true, if_false]
  · cases hread : env.jwt.parseUnverified text with
    | error e => simp only [htext, if_false, Bool.and_false, Bool.false_eq_true]
    | ok t =>
        simp only [htext, if_false, ne_eq, not_false_eq_true, decide_true, Bool.true_and]
        by_cases hnames : NamesKey t
        · cases hlookup : v.keys.lookup (t.header.str "kid") with
          | none =>
              rw [(keyFunc_miss env m v hserves t hnames hlookup).1]
              simp only [hnames.1, hnames.2, not_false_eq_true, decide_true, Option.isNone_none,
                Bool.and_self, if_true]
          | some found =>
              rw [keyFunc_hit env v t hnames found hlookup]
              simp only [Option.isNone_some, Bool.and_false, Bool.false_eq_true, if_false]
        · rcases keyFunc_unnamed env v t hnames with ⟨e, he⟩
          rw [he, if_neg]
          intro hall
          simp only [Bool.and_eq_true, decide_eq_true_eq] at hall
          exact hnames hall.1

end Verifiers

variable {J : JwtLib} {sum256 : List Nat → Vector Nat 32} {Signed : String → RsaPublicKey → Prop}

/-- A token of `token.New`, signed with the key and the identifier of its
    entry. -/
def Issued.Made (J : JwtLib) (tok : Issued) : Prop :=
  ∃ claims lifetime now uuid, tok.jwt = Token.newJwt claims tok.entry.kid lifetime now uuid ∧
    Token.new J claims tok.entry.privateKey tok.entry.kid lifetime now uuid = .ok tok.text

/-- After a rotation the published entries are the new one and the newest
    before it. -/
theorem entries_rotate (m : Manager) (entry : KeyEntry) (generated : List KeyEntry)
    (hwindow : m.entries = generated.take 2) :
    (m.rotate entry).entries = (entry :: generated).take 2 := by
  cases generated with
  | nil => cases hwindow
  | cons g gs =>
      have hcurrent : m.current = g := (List.cons.inj hwindow).1
      rw [← hcurrent]
      rfl

/-- The manager has the two newest entries, identifiers are distinct, tokens were
    signed with their entries, and the cache holds the entries fetched last. -/
structure RotationInv (J : JwtLib) (sum256 : List Nat → Vector Nat 32) (s : KeyRun) : Prop where
  window : s.manager.entries = s.generated.take 2
  distinct : (s.generated.map KeyEntry.kid).Nodup
  generated : ∀ e ∈ s.generated, ∃ key, key.publicKey.e = generatedExponent ∧
    e = generateKey sum256 key
  issued : ∀ tok ∈ s.issued, tok.Made J
  fetched : s.fetched.Sublist s.generated
  cache : s.verifier.keys = cacheOf s.fetched

theorem RotationInv.entries_sublist {s : KeyRun} (hinv : RotationInv J sum256 s) :
    s.manager.entries.Sublist s.generated := by
  rw [hinv.window]
  exact List.take_sublist 2 _

theorem rotationInv_new (key : RsaPrivateKey) (hexp : key.publicKey.e = generatedExponent)
    (jwksURL audience : String) :
    RotationInv J sum256 (KeyRun.new (generateKey sum256 key) jwksURL audience) where
  window := rfl
  distinct := List.nodup_singleton _
  generated := fun _ he => ⟨key, hexp, List.mem_singleton.mp he⟩
  issued := fun _ htok => absurd htok List.not_mem_nil
  fetched := List.nil_sublist _
  cache := rfl

theorem rotationInv_step (s s' : KeyRun) (e : KeyEvent) (hinv : RotationInv J sum256 s)
    (hstep : KeyRun.Step J sum256 s e s') : RotationInv J sum256 s' := by
  cases hstep with
  | rotate key hexp hfresh =>
      -- A rotation moves the window and leaves the verifier with an older cache.
      refine ⟨?_, ?_, ?_, hinv.issued, hinv.fetched.cons _, hinv.cache⟩
      · exact entries_rotate s.manager _ s.generated hinv.window
      · exact List.nodup_cons.mpr ⟨hfresh, hinv.distinct⟩
      · intro e he
        rcases List.mem_cons.mp he with rfl | hold
        · exact ⟨key, hexp, rfl⟩
        · exact hinv.generated e hold
  | sign claims lifetime now uuid text hnew =>
      refine { hinv with issued := fun tok htok => ?_ }
      rcases List.mem_cons.mp htok with rfl | hold
      · exact ⟨claims, lifetime, now, uuid, rfl, hnew⟩
      · exact hinv.issued tok hold
  | verify env text hjwt hserves =>
      -- A call that fetches replaces the whole cache by the current window.
      have hkeys := keys_afterVerify env s.manager s.verifier hserves text
      refine ⟨hinv.window, hinv.distinct, hinv.generated, hinv.issued, ?_, ?_⟩
      · unfold KeyRun.verify
        simp only []
        split
        · exact hinv.entries_sublist
        · exact hinv.fetched
      · unfold KeyRun.verify
        simp only [hkeys]
        split
        · rfl
        · exact hinv.cache

theorem rotationInv_reachable (s : KeyRun) (hr : (keyRuns J sum256).Reachable s) :
    RotationInv J sum256 s := by
  refine System.invariant (RotationInv J sum256) (fun s hs => ?_)
    (fun s e s' => rotationInv_step s s' e) s hr
  rcases hs with ⟨key, jwksURL, audience, hexp, rfl⟩
  exact rotationInv_new key hexp jwksURL audience

section Reachable

variable {s : KeyRun}

theorem RotationInv.inRange (hinv : RotationInv J sum256 s) (e : KeyEntry)
    (he : e ∈ s.generated) : InRange e := by
  rcases hinv.generated e he with ⟨key, hexp, rfl⟩
  exact inRange_generateKey sum256 key hexp

theorem RotationInv.kid_ne (hinv : RotationInv J sum256 s) (e : KeyEntry)
    (he : e ∈ s.generated) : e.kid ≠ "" := by
  rcases hinv.generated e he with ⟨key, _, rfl⟩
  exact computeKid_ne sum256 key.publicKey

/-- A key determines its entry, since the identifier is computed from it. -/
theorem RotationInv.eq_of_key (hinv : RotationInv J sum256 s) (e e' : KeyEntry)
    (he : e ∈ s.generated) (he' : e' ∈ s.generated)
    (hkey : e.privateKey.publicKey = e'.privateKey.publicKey) : e = e' := by
  refine eq_of_kid s.generated hinv.distinct e e' he he' ?_
  rcases hinv.generated e he with ⟨key, _, rfl⟩
  rcases hinv.generated e' he' with ⟨key', _, rfl⟩
  exact congrArg (computeKid sum256) hkey

theorem RotationInv.nodup_entries (hinv : RotationInv J sum256 s) :
    (s.manager.entries.map KeyEntry.kid).Nodup :=
  hinv.distinct.sublist (hinv.entries_sublist.map KeyEntry.kid)

/-- A cache of entries of the run finds exactly their keys. -/
theorem RotationInv.lookup_iff (hinv : RotationInv J sum256 s) (es : List KeyEntry)
    (hsub : es.Sublist s.generated) (kid : String) (key : RsaPublicKey) :
    (cacheOf es).lookup kid = some key ↔
      ∃ e ∈ es, e.kid = kid ∧ e.privateKey.publicKey = key :=
  lookup_cacheOf es (fun e he => hinv.inRange e (hsub.subset he))
    (hinv.distinct.sublist (hsub.map KeyEntry.kid)) kid key

/-- The local verifier finds the key of a published entry. -/
theorem keyFunc_entries (hinv : RotationInv J sum256 s) (env : Authn.Env) (t : Jwt)
    (e : KeyEntry) (he : e ∈ s.manager.entries) (hnames : Names t e.kid) :
    Tts.keyFunc env s.manager t = .ok e.privateKey.publicKey := by
  have hrange := hinv.inRange e (hinv.entries_sublist.subset he)
  refine keyFunc_of_find env s.manager t e hnames hrange ?_
  rw [publicKeys_eq_map]
  exact find_publicKeys s.manager.entries hinv.nodup_entries e he

/-- The other verifier finds it too, cached or fetched. -/
theorem keyFunc_cached (hinv : RotationInv J sum256 s) (env : Authn.Env)
    (hserves : Serves env s.manager s.verifier.jwksURL) (t : Jwt) (e : KeyEntry)
    (he : e ∈ s.manager.entries) (hnames : Names t e.kid) :
    (s.verifier.keyFunc env t).1 = .ok e.privateKey.publicKey := by
  have hgen := hinv.entries_sublist.subset he
  have hkey : NamesKey t := ⟨hnames.rsa, hnames.named ▸ hnames.nonempty⟩
  cases hlookup : s.verifier.keys.lookup (t.header.str "kid") with
  | none =>
      refine ((keyFunc_miss env s.manager s.verifier hserves t hkey hlookup).2 _).mpr ?_
      rw [hinv.lookup_iff _ hinv.entries_sublist]
      exact ⟨e, he, hnames.named.symm, rfl⟩
  | some key =>
      rw [keyFunc_hit env s.verifier t hkey key hlookup]
      rw [hinv.cache, hinv.lookup_iff _ hinv.fetched] at hlookup
      rcases hlookup with ⟨e', he', hkid, rfl⟩
      -- However old the cache is, the identifier still means the same entry.
      rw [eq_of_kid s.generated hinv.distinct e' e (hinv.fetched.subset he') hgen
        (hkid.trans hnames.named)]

/-- The local verifier uses only keys of published entries. -/
theorem mem_of_keyFunc (hinv : RotationInv J sum256 s) (env : Authn.Env) (t : Jwt)
    (key : RsaPublicKey) (hkey : Tts.keyFunc env s.manager t = .ok key) :
    ∃ e ∈ s.manager.entries, e.privateKey.publicKey = key := by
  unfold Tts.keyFunc at hkey
  simp only [ite_error_eq_ok] at hkey
  rcases hkey with ⟨_, _, hkey⟩
  cases hfind : s.manager.publicKeys.find? (fun pk => pk.kid == t.header.str "kid") with
  | none =>
      rw [hfind] at hkey
      cases hkey
  | some pk =>
      have hmem := List.mem_of_find?_eq_some hfind
      rw [publicKeys_eq_map] at hmem
      rcases List.mem_map.mp hmem with ⟨e, he, rfl⟩
      have hread := rsaPublicKey_newPublicKey e
        (hinv.inRange e (hinv.entries_sublist.subset he))
      rw [hfind] at hkey
      simp only [hread, Except.ok.injEq] at hkey
      exact ⟨e, he, hkey⟩

end Reachable

/-- What both verifiers do with the key function they have. -/
def checkToken (env : Authn.Env) (keyFunc : Jwt → Except String RsaPublicKey) (audience : String)
    (text : String) : Except String Token.Claims :=
  if text = "" then .error "empty token"
  else
    match env.jwt.parse text keyFunc (.withAudience audience) env.now with
    | .error e => .error ("token verification failed: " ++ e)
    | .ok parsed =>
      let typ := parsed.header.str "typ"
      if typ ≠ Token.typeHeader then
        .error ("invalid typ header: expected " ++ quote env.unicode Token.typeHeader ++
          ", got " ++ quote env.unicode typ)
      else .ok (Token.extractClaims parsed.claims)

theorem localVerify_eq (env : Authn.Env) (v : Tts.LocalVerifier) (m : Manager) (text : String) :
    v.verify env m text = checkToken env (Tts.keyFunc env m) v.audience text :=
  rfl

theorem verify_eq (env : Authn.Env) (v : Verify.Verifier) (text : String) :
    v.verify env text = checkToken env (fun t => (v.keyFunc env t).1) v.audience text :=
  rfl

/-- A token is accepted when it can be read, its key is known, it verifies under
    the key and is a transaction token. -/
theorem checkToken_eq_ok (env : Authn.Env) (keyFunc : Jwt → Except String RsaPublicKey)
    (audience text : String) (claims : Token.Claims) :
    checkToken env keyFunc audience text = .ok claims ↔
      text ≠ "" ∧ ∃ t key, env.jwt.parseUnverified text = .ok t ∧ keyFunc t = .ok key ∧
        env.jwt.verify text key (.withAudience audience) env.now = .ok () ∧
        t.header.str "typ" = Token.typeHeader ∧ Token.extractClaims t.claims = claims := by
  unfold checkToken
  rw [ite_error_eq_ok]
  refine and_congr_right (fun _ => ?_)
  constructor
  · intro hok
    cases hparse : env.jwt.parse text keyFunc (.withAudience audience) env.now with
    | error e =>
        rw [hparse] at hok
        cases hok
    | ok t =>
        rw [hparse] at hok
        simp only [ite_error_eq_ok, Except.ok.injEq, ne_eq, not_not] at hok
        rcases (JwtLib.parse_eq_ok _ _ _ _ _ t).mp hparse with ⟨hread, key, hkey, hver⟩
        exact ⟨t, key, hread, hkey, hver, hok.1, hok.2⟩
  · intro haccept
    rcases haccept with ⟨t, key, hread, hkey, hver, htyp, hclaims⟩
    have hparse := (JwtLib.parse_eq_ok env.jwt text keyFunc (.withAudience audience) env.now
      t).mpr ⟨hread, key, hkey, hver⟩
    simp only [hparse, htyp, ne_eq, not_true_eq_false, if_false, hclaims]

theorem names_newJwt (claims : Token.Claims) (kid : String) (lifetime now : Int) (uuid : String)
    (hkid : kid ≠ "") : Names (Token.newJwt claims kid lifetime now uuid) kid where
  rsa := by
    have halg : (Token.newJwt claims kid lifetime now uuid).header.str "alg" = "RS256" := rfl
    unfold isSigningMethodRSA
    rw [halg]
    decide
  named := rfl
  nonempty := hkid

theorem audience_ne (claims : Token.Claims) (h : Token.validateRequired claims = .ok ()) :
    claims.audience ≠ "" := by
  unfold Token.validateRequired at h
  simp only [ite_error_eq_ok] at h
  exact h.2.1

/-- A token made with an entry is accepted for its audience, until it expires, by
    a verifier that finds the entry's key. -/
theorem checkToken_made (hJ : J.Signatures Signed) (env : Authn.Env) (hjwt : env.jwt = J)
    (tok : Issued) (hmade : tok.Made J) (hexp : tok.jwt.expired env.now = false)
    (keyFunc : Jwt → Except String RsaPublicKey)
    (hkey : keyFunc tok.jwt = .ok tok.entry.privateKey.publicKey) (audience : String)
    (haud : audience = tok.jwt.claims.str "aud") :
    checkToken env keyFunc audience tok.text = .ok (Token.extractClaims tok.jwt.claims) := by
  rcases hmade with ⟨claims, lifetime, now, uuid, hshape, hnew⟩
  rw [Token.new_eq_ok, ← hshape] at hnew
  have hsigned := hJ.signs _ _ _ hnew.2
  have hread := J.parse_signed _ _ _ hnew.2
  have haudience : claims.audience = audience := by
    rw [haud, hshape]
    rfl
  have hver : J.verify tok.text tok.entry.privateKey.publicKey (.withAudience audience) env.now
      = .ok () := by
    rw [hshape] at hread hexp
    rw [← haudience]
    exact hJ.accepts _ _ _ _ _ _ _ _ hread hsigned.2 (audience_ne claims hnew.1) hexp
  rw [checkToken_eq_ok, hjwt]
  refine ⟨hsigned.1, tok.jwt, _, hread, hkey, hver, ?_, rfl⟩
  rw [hshape]
  rfl

theorem mem_entries (m : Manager) (e : KeyEntry)
    (h : e = m.current ∨ m.previous = some e) : e ∈ m.entries := by
  unfold Manager.entries
  rcases h with rfl | hprevious
  · exact List.mem_cons_self
  · rw [hprevious]
    exact List.mem_cons_of_mem _ (List.mem_singleton_self e)

theorem names_of_made {s : KeyRun} (hinv : RotationInv J sum256 s) (tok : Issued)
    (hmade : tok.Made J) (he : tok.entry ∈ s.manager.entries) : Names tok.jwt tok.entry.kid := by
  rcases hmade with ⟨claims, lifetime, now, uuid, hshape, _⟩
  rw [hshape]
  exact names_newJwt claims _ lifetime now uuid
    (hinv.kid_ne tok.entry (hinv.entries_sublist.subset he))

theorem published_of_inv {s : KeyRun} (hinv : RotationInv J sum256 s) :
    s.manager.signingKey.2 ∈ s.manager.publicKeys.map PublicKey.kid ∧
      s.manager.publicKeys.length ≤ 2 ∧ (s.manager.publicKeys.map PublicKey.kid).Nodup := by
  have hkids : s.manager.publicKeys.map PublicKey.kid = s.manager.entries.map KeyEntry.kid := by
    rw [publicKeys_eq_map, List.map_map]
    rfl
  rw [hkids]
  refine ⟨?_, ?_, hinv.nodup_entries⟩
  · exact List.mem_map_of_mem (mem_entries s.manager s.manager.current (Or.inl rfl))
  · rw [publicKeys_eq_map, List.length_map, hinv.window, List.length_take]
    omega

/-- The local verifier refuses what a retired key signed. -/
theorem localVerify_retired {s : KeyRun} (hinv : RotationInv J sum256 s)
    (hJ : J.Signatures Signed) (env : Authn.Env) (hjwt : env.jwt = J) (e : KeyEntry)
    (he : e ∈ s.generated.drop 2) (text : String)
    (hsigned : Signed text e.privateKey.publicKey) (v : Tts.LocalVerifier)
    (claims : Token.Claims) : v.verify env s.manager text ≠ .ok claims := by
  intro hok
  rw [localVerify_eq, checkToken_eq_ok, hjwt] at hok
  rcases hok with ⟨_, t, key, _, hkey, hver, _⟩
  rcases mem_of_keyFunc hinv env t key hkey with ⟨e', he', rfl⟩
  -- The key that verified it is the one that signed it, so it is not retired.
  have hsame := hJ.own text _ _ hsigned (hJ.verified _ _ _ _ hver)
  have heq := hinv.eq_of_key e e' (List.mem_of_mem_drop he)
    (hinv.entries_sublist.subset he') hsame
  rw [hinv.window, ← heq] at he'
  exact List.disjoint_take_drop (List.Nodup.of_map _ hinv.distinct) (Nat.le_refl 2) he' he

/-- The other verifier accepts only what one of the entries signed that its last
    fetch brought. -/
theorem verify_fetched {s : KeyRun} (hinv : RotationInv J sum256 s) (hJ : J.Signatures Signed)
    (env : Authn.Env) (hjwt : env.jwt = J) (hserves : Serves env s.manager s.verifier.jwksURL)
    (text : String) (claims : Token.Claims) (hok : s.verifier.verify env text = .ok claims) :
    ∃ e ∈ (s.verify env text).fetched, e ∈ s.generated ∧
      Signed text e.privateKey.publicKey := by
  have hnext := rotationInv_step s _ _ hinv (KeyRun.Step.verify s env text hjwt hserves)
  rw [verify_eq, checkToken_eq_ok] at hok
  rcases hok with ⟨hne, t, key, hread, hkey, hver, _⟩
  -- The key was in the cache when the call returned.
  have hlookup : (s.verify env text).verifier.keys.lookup (t.header.str "kid") = some key := by
    unfold KeyRun.verify
    rw [afterVerify_of_read env s.verifier text t hne hread]
    exact lookup_of_keyFunc env s.manager s.verifier hserves t key hkey
  rw [hnext.cache, hnext.lookup_iff _ hnext.fetched] at hlookup
  rcases hlookup with ⟨e, he, _, rfl⟩
  exact ⟨e, he, hnext.fetched.subset he, hJ.verified _ _ _ _ (hjwt ▸ hver)⟩

/-- What holds of the two verifiers at every point of a run. -/
structure RotationSound (J : JwtLib) (Signed : String → RsaPublicKey → Prop) (s : KeyRun) :
    Prop where
  published : s.manager.signingKey.2 ∈ s.manager.publicKeys.map PublicKey.kid ∧
    s.manager.publicKeys.length ≤ 2 ∧ (s.manager.publicKeys.map PublicKey.kid).Nodup
  accepted : ∀ tok ∈ s.issued,
    (tok.entry = s.manager.current ∨ s.manager.previous = some tok.entry) →
    ∀ env, env.jwt = J → tok.jwt.expired env.now = false →
      (∀ v : Tts.LocalVerifier, v.audience = tok.jwt.claims.str "aud" →
        v.verify env s.manager tok.text = .ok (Token.extractClaims tok.jwt.claims)) ∧
      (s.verifier.audience = tok.jwt.claims.str "aud" →
        Serves env s.manager s.verifier.jwksURL →
        s.verifier.verify env tok.text = .ok (Token.extractClaims tok.jwt.claims))
  retired : ∀ e ∈ s.generated.drop 2, ∀ text, Signed text e.privateKey.publicKey →
    ∀ env, env.jwt = J → ∀ (v : Tts.LocalVerifier) claims,
      v.verify env s.manager text ≠ .ok claims
  fetched : ∀ env text claims, env.jwt = J → Serves env s.manager s.verifier.jwksURL →
    s.verifier.verify env text = .ok claims →
    ∃ e ∈ (s.verify env text).fetched, e ∈ s.generated ∧ Signed text e.privateKey.publicKey

/-- In every run of a key manager and a verifier: the signing key's identifier is
    published, among at most two that are distinct; a token signed with the
    current or the previous key is accepted by the local verifier and by the
    other, whatever it has cached, for its audience and until it expires, with
    the same claims; the local verifier refuses what an older key signed; and the
    other accepts only what one of the keys signed that were published when it
    last fetched. -/
theorem rotation_sound (J : JwtLib) (sum256 : List Nat → Vector Nat 32)
    (Signed : String → RsaPublicKey → Prop) (hJ : J.Signatures Signed) (s : KeyRun)
    (hr : (keyRuns J sum256).Reachable s) : RotationSound J Signed s := by
  have hinv := rotationInv_reachable s hr
  refine ⟨published_of_inv hinv, ?_, ?_, ?_⟩
  · intro tok htok hentry env hjwt hexp
    have hmade := hinv.issued tok htok
    have he := mem_entries s.manager tok.entry hentry
    have hnames := names_of_made hinv tok hmade he
    refine ⟨fun v haud => ?_, fun haud hserves => ?_⟩
    · rw [localVerify_eq]
      exact checkToken_made hJ env hjwt tok hmade hexp _
        (keyFunc_entries hinv env tok.jwt tok.entry he hnames) v.audience haud
    · rw [verify_eq]
      exact checkToken_made hJ env hjwt tok hmade hexp _
        (keyFunc_cached hinv env hserves tok.jwt tok.entry he hnames) s.verifier.audience haud
  · intro e he text hsigned env hjwt v claims
    exact localVerify_retired hinv hJ env hjwt e he text hsigned v claims
  · intro env text claims hjwt hserves
    exact verify_fetched hinv hJ env hjwt hserves text claims

/-- The library for finitely many tokens signs as assumed. -/
theorem signatures_ofSigned (table : List (String × Jwt × RsaPublicKey))
    (hempty : table.lookup "" = none) :
    (JwtLib.ofSigned table).Signatures (fun s key => ∃ t, table.lookup s = some (t, key)) where
  signs := by
    intro t key s hs
    have hlookup := JwtLib.lookup_of_signedString table t key s hs
    refine ⟨fun hs => ?_, t, hlookup⟩
    rw [hs, hempty] at hlookup
    cases hlookup
  own := by
    intro s key key' hkey hkey'
    rcases hkey with ⟨t, ht⟩
    rcases hkey' with ⟨t', ht'⟩
    exact (Prod.mk.inj (Option.some.inj (ht.symm.trans ht'))).2
  verified := by
    intro s key opt now hver
    rcases (JwtLib.ofSigned_verify_iff table s key opt now).mp hver with ⟨t, ht, _⟩
    exact ⟨t, ht⟩
  accepts := by
    intro claims kid lifetime issued uuid s key now hread hsigned hne hexp
    rcases (JwtLib.ofSigned_read_iff table s _).mp hread with ⟨signer, hlookup⟩
    rcases hsigned with ⟨t, ht⟩
    have hkey : signer = key :=
      (Prod.mk.inj (Option.some.inj (hlookup.symm.trans ht))).2
    have haud : (Token.newJwt claims kid lifetime issued uuid).claims.str "aud"
        = claims.audience := rfl
    rw [hkey] at hlookup
    refine (JwtLib.ofSigned_verify_iff table s key _ now).mpr ⟨_, hlookup, hexp, ?_⟩
    simp only [ParserOption.holds, haud, beq_self_eq_true, bne_iff_ne, ne_eq, hne,
      not_false_eq_true, Bool.and_true]

/-- The hashes of two moduli. -/
def sampleHash (bytes : List Nat) : Vector Nat 32 :=
  if bytes = [12, 161] then
    #v[226, 230, 215, 155, 63, 155, 169, 228, 64, 62, 61, 200, 231, 26, 39, 200,
      138, 111, 72, 104, 87, 122, 20, 48, 249, 230, 9, 111, 92, 150, 143, 252]
  else
    #v[177, 227, 63, 91, 14, 246, 28, 243, 211, 177, 255, 193, 118, 11, 240, 201,
      44, 243, 102, 109, 243, 52, 37, 206, 103, 124, 14, 186, 242, 148, 222, 35]

def firstKey : RsaPrivateKey where
  publicKey := { n := 3233, e := 65537 }
  d := 2753

def secondKey : RsaPrivateKey where
  publicKey := { n := 2773, e := 65537 }
  d := 2629

/-- A token signed with the first key, good for fifteen seconds. -/
def rotatedJwt : Jwt :=
  Token.newJwt (Tts.sampleClaims "read") "e2e6d79b3f9ba9e4" (15 * second) 0 ""

def rotatedLib : JwtLib :=
  JwtLib.ofSigned [("token", rotatedJwt, firstKey.publicKey)]

/-- The surroundings of a call at ten seconds, when the second key is current. -/
def rotatedEnv (m : Manager) : Authn.Env :=
  { Tts.sampleEnv.toEnv with
    jwt := rotatedLib
    net := fun _ => .ok (m.jwksHandler (fun _ => "keys") "GET")
    docs := { Tts.sampleEnv.docs with
      jwks := fun _ => .ok (m.publicKeys.map PublicKey.jwkKey) }
    now := 10 * second }

/-- A token signed before a rotation is accepted after it, by both verifiers. -/
theorem rotation_sound_sample :
    ∃ s tok, (keyRuns rotatedLib sampleHash).Reachable s ∧ tok ∈ s.issued ∧
      s.manager.previous = some tok.entry ∧
      (Tts.LocalVerifier.mk "kontxt").verify (rotatedEnv s.manager) s.manager tok.text
        = .ok (Token.extractClaims tok.jwt.claims) ∧
      s.verifier.verify (rotatedEnv s.manager) tok.text
        = .ok (Token.extractClaims tok.jwt.claims) := by
  have hstart : (keyRuns rotatedLib sampleHash).Reachable
      (KeyRun.new (generateKey sampleHash firstKey) "https://tts/jwks" "kontxt") :=
    System.Reachable.init _ ⟨firstKey, _, _, rfl, rfl⟩
  have hnew : Token.new rotatedLib (Tts.sampleClaims "read") firstKey
      (computeKid sampleHash firstKey.publicKey) (15 * second) 0 "" = .ok "token" := by
    decide
  have hsigned := hstart.next _ _ (KeyRun.Step.sign _ _ _ _ _ _ hnew)
  have hfresh : computeKid sampleHash secondKey.publicKey
      ∉ [computeKid sampleHash firstKey.publicKey] := by decide
  have hrotated := hsigned.next _ _ (KeyRun.Step.rotate _ secondKey rfl hfresh)
  have hexp : (Token.newJwt (Tts.sampleClaims "read") (computeKid sampleHash firstKey.publicKey)
      (15 * second) 0 "").expired (10 * second) = false := by decide
  have hsound := rotation_sound rotatedLib sampleHash _ (signatures_ofSigned _ rfl) _ hrotated
  have haccepted := hsound.accepted _ List.mem_cons_self (Or.inr rfl) (rotatedEnv
    ((Manager.new (generateKey sampleHash firstKey)).rotate (generateKey sampleHash secondKey)))
    rfl hexp
  exact ⟨_, _, hrotated, List.mem_cons_self, rfl, haccepted.1 _ rfl,
    haccepted.2 rfl ⟨fun _ => "keys", rfl, rfl⟩⟩

end Keys

end Kontxt
