import Kontxt.Core.Service
import Kontxt.Theory.Application
import Kontxt.Theory.Issuance
import Kontxt.Theory.Rotation
import Kontxt.Theory.Wire

/-!
# A Deployed Token Service

What holds of the token service as it is deployed: a process started with a
configuration it loaded, its clients, its rule stream, and a verifier elsewhere that knows
nothing of the process but the URL of its key set.

The deployment refines two systems that were looked at on their own. What its
rule client and handler do is a run of `ttsRuns`, in which requests that do not
reach the handler are no steps. What its key manager and the verifier do is a run
of `Keys.keyRuns` in which the key is never rotated, since the process never
rotates it. The bridge to the second is the text of the key set: the verifier reads
out of it what `Keys.Serves` assumes, but for the algorithm, which it does not look at.

## Main definitions

* `Keys.SameKey`: A key that was read says what was published.
* `Tts.Configured`: A handler made for a configuration.
* `Tts.Deployment.clientRun`: A deployment as a run of the rule client.
* `Tts.servedEnv`: Surroundings in which the key set is read with all its fields.
* `Tts.DeploymentInv`: What every deployment keeps, with the two runs behind it.
* `Tts.Deployment.Vouches`: A token the process issued that is not over.
* `Tts.Deployment.KeepsKey`: The key has signed nothing else.
* `Tts.Deployment.Enforces`: New tokens comply with the newest rules that compiled.
* `Tts.AnswerClaims`: The claims a request is to be answered with.
* `Tts.SigningFails`: They have all that is required and cannot be signed.

## Theorems

* `Keys.keySet_over_wire`: A key set that is served is read with the keys it has.
* `Tts.serve_cases`: A request reaches the handler or changes nothing.
* `Tts.verify_served`: The algorithm of a key is not looked at.
* `Tts.deploymentInv_step`: One step keeps the invariant.
* `Tts.accepted_iff_issued`: The tokens that are accepted are those that were issued.
* `Tts.ready_enforces`: What readiness promises.
* `Tts.internal_error_cases`: When the service fails.
-/

namespace Kontxt

open Go Lib

namespace Keys

section Texts

/-- A key that was read has all that was published but the algorithm. -/
structure SameKey (pk : PublicKey) (k : Authn.JwkKey) : Prop where
  kty : k.kty = pk.kty
  use : k.use = pk.use
  kid : k.kid = pk.kid
  n : k.n = pk.n
  e : k.e = pk.e

/-- Keys that differ in nothing but the algorithm fill a cache alike. -/
theorem addKeys_same (keys : GoMap String RsaPublicKey) (pks : List PublicKey)
    (ks : List Authn.JwkKey) (h : List.Forall₂ SameKey pks ks) :
    Authn.addKeys keys ks = Authn.addKeys keys (pks.map PublicKey.jwkKey) := by
  induction h generalizing keys with
  | nil => rfl
  | cons hk _ ih =>
      rw [List.map_cons]
      unfold Authn.addKeys at ih ⊢
      rw [List.foldl_cons, List.foldl_cons, ← ih, hk.kty, hk.use, hk.kid, hk.n, hk.e]
      rfl

/-- The fields of a key that a struct has are read as they were. -/
theorem sameKey_ofFields (names : List String) (hnames : Verify.jwkFields ⊆ names)
    (pk : PublicKey) (f : String → String)
    (hf : ∀ name ∈ names, f name = (pk.fields.reverse.lookup name).getD "") :
    SameKey pk (Authn.JwkKey.ofFields f) where
  kty := hf "kty" (hnames (by decide))
  use := hf "use" (hnames (by decide))
  kid := hf "kid" (hnames (by decide))
  n := hf "n" (hnames (by decide))
  e := hf "e" (hnames (by decide))

/-- The verifier has no field for the algorithm, also but for case. -/
theorem fieldOf_alg (u : Unicode) : fieldOf u Verify.jwkFields "alg" = none := by
  have hfold : ∀ name ∈ Verify.jwkFields, equalFold u name "alg" = false := by
    intro name hname
    have hascii : name.toList.all (fun c => decide (c.toNat < 128)) = true ∧
        (name.toList.map Char.toUpper == "alg".toList.map Char.toUpper) = false := by
      revert name
      decide
    rw [equalFold_ascii u name "alg" hascii.1 (by decide), hascii.2]
  have hnone : Verify.jwkFields.find? (fun name => equalFold u name "alg") = none := by
    rw [List.find?_eq_none]
    intro name hname
    rw [hfold name hname]
    decide
  unfold fieldOf
  rw [if_neg (by decide), hnone]

/-- A key set is read with its keys by every struct that skips what it has no field
    for. -/
theorem readKeys_keySetText (F : FloatText) (u : Unicode) (invalid : String → String)
    (names : List String) (hnames : Verify.jwkFields ⊆ names)
    (halg : "alg" ∈ names ∨ fieldOf u names "alg" = none) (pks : List PublicKey) :
    ∃ ks, Authn.readKeys F u invalid names (keySetText F pks) = .ok ks ∧
      List.Forall₂ SameKey pks ks := by
  have hknown : ∀ r ∈ pks.map PublicKey.fields, ∀ e ∈ r,
      e.1 ∈ names ∨ fieldOf u names e.1 = none := by
    intro r hr e he
    rcases List.mem_map.mp hr with ⟨pk, _, rfl⟩
    have hfields : ∀ name ∈ ["kty", "use", "alg", "kid", "n", "e"],
        name ∈ Verify.jwkFields ∨ name = "alg" := by decide
    have hname := hfields e.1 (List.mem_map_of_mem (f := Prod.fst) he)
    rcases hname with hname | hname
    · exact Or.inl (hnames hname)
    · rw [hname]
      exact halg
  rcases decodeRecords_recordsText F u names "keys" _ hknown with ⟨fs, hread, hfs⟩
  refine ⟨fs.map Authn.JwkKey.ofFields, ?_, ?_⟩
  · unfold Authn.readKeys keySetText
    rw [hread]
  · rw [List.forall₂_map_left_iff] at hfs
    rw [List.forall₂_map_right_iff]
    exact hfs.imp fun pk f hf => sameKey_ofFields names hnames pk f hf

section Fetching

variable (F : FloatText) (u : Unicode) (invalid : String → String) (m : Manager)

theorem fetch_jwksHandler (net : Authn.Net) (url : String)
    (hnet : net url = .ok (m.jwksHandler (keySetText F) "GET")) :
    Authn.fetch net "JWKS" "JWKS endpoint returned status " url =
      .ok (keySetText F m.publicKeys) := by
  unfold Authn.fetch
  rw [hnet]
  rfl

theorem jwkKeys_eq_map : m.publicKeys.map PublicKey.jwkKey
    = m.entries.map fun e => (newPublicKey e).jwkKey := by
  rw [publicKeys_eq_map, List.map_map]
  rfl

/-- The verifier caches the keys of the text it fetched. -/
theorem verifier_fetchJWKS (v : Verify.Verifier) (env : Authn.Env)
    (hnet : env.net v.jwksURL = .ok (m.jwksHandler (keySetText F) "GET"))
    (hdocs : env.docs.jwks = Verify.readKeySet F u invalid) :
    v.fetchJWKS env = .ok { v with keys := cacheOf m.entries } := by
  rcases readKeys_keySetText F u invalid Verify.jwkFields (fun _ h => h)
    (Or.inr (fieldOf_alg u)) m.publicKeys with ⟨ks, hread, hks⟩
  have hjwks : env.docs.jwks (keySetText F m.publicKeys) = .ok ks := by
    rw [hdocs]
    exact hread
  have hcache : Authn.addKeys ∅ ks = cacheOf m.entries := by
    rw [addKeys_same ∅ _ ks hks, jwkKeys_eq_map]
    rfl
  unfold Verify.Verifier.fetchJWKS
  refine (bind_eq_ok _ _ _).mpr ⟨_, fetch_jwksHandler F m env.net v.jwksURL hnet, ?_⟩
  rw [hjwks, ← hcache]

/-- An authenticator that knows the URL adds the keys of the text to its own. -/
theorem authenticator_fetchJWKS (a : Authn.Authenticator) (net : Authn.Net) (docs : Authn.Docs)
    (hurl : a.jwksURL ≠ "") (hnet : net a.jwksURL = .ok (m.jwksHandler (keySetText F) "GET"))
    (hdocs : docs.jwks = Authn.readKeySet F u invalid) :
    a.fetchJWKS net docs u = (.ok (), { a with
      keys := Authn.addKeys a.keys (m.entries.map fun e => (newPublicKey e).jwkKey) }) := by
  rcases readKeys_keySetText F u invalid Authn.jwkFields (by decide) (Or.inl (by decide))
    m.publicKeys with ⟨ks, hread, hks⟩
  have hjwks : docs.jwks (keySetText F m.publicKeys) = .ok ks := by
    rw [hdocs]
    exact hread
  have hkeys : a.fetchKeys net docs = .ok { a with keys := Authn.addKeys a.keys ks } := by
    unfold Authn.Authenticator.fetchKeys
    refine (bind_eq_ok _ _ _).mpr ⟨_, fetch_jwksHandler F m net a.jwksURL hnet, ?_⟩
    rw [hjwks]
  unfold Authn.Authenticator.fetchJWKS
  rw [if_neg hurl]
  simp only [hkeys]
  rw [addKeys_same a.keys _ ks hks, jwkKeys_eq_map]

end Fetching

/-- A key set that is served is read with the keys it has. Whatever keys a manager
    publishes, under different identifiers: the verifier that fetches the text has
    exactly them in its cache afterwards, and an authenticator has them in place of
    what it had under their identifiers. -/
theorem keySet_over_wire (F : FloatText) (u : Unicode) (invalid : String → String) (m : Manager)
    (hrange : ∀ e ∈ m.entries, InRange e) (hkids : (m.entries.map KeyEntry.kid).Nodup) :
    (∀ (v : Verify.Verifier) (env : Authn.Env),
      env.net v.jwksURL = .ok (m.jwksHandler (keySetText F) "GET") →
      env.docs.jwks = Verify.readKeySet F u invalid →
      ∃ keys, v.fetchJWKS env = .ok { v with keys := keys } ∧
        ∀ kid key, keys.lookup kid = some key ↔
          ∃ e ∈ m.entries, e.kid = kid ∧ e.privateKey.publicKey = key) ∧
    ∀ (a : Authn.Authenticator) (net : Authn.Net) (docs : Authn.Docs), a.jwksURL ≠ "" →
      net a.jwksURL = .ok (m.jwksHandler (keySetText F) "GET") →
      docs.jwks = Authn.readKeySet F u invalid →
      ∃ keys, a.fetchJWKS net docs u = (.ok (), { a with keys := keys }) ∧
        ∀ kid key, keys.lookup kid = some key ↔
          (∃ e ∈ m.entries, e.kid = kid ∧ e.privateKey.publicKey = key) ∨
            (∀ e ∈ m.entries, e.kid ≠ kid) ∧ a.keys.lookup kid = some key := by
  constructor
  · intro v env hnet hdocs
    exact ⟨_, verifier_fetchJWKS F u invalid m v env hnet hdocs,
      lookup_cacheOf m.entries hrange hkids⟩
  · intro a net docs hurl hnet hdocs
    refine ⟨_, authenticator_fetchJWKS F u invalid m a net docs hurl hnet hdocs,
      fun kid key => ?_⟩
    have hiff := documentKey_published m.entries hrange hkids kid
    rw [Authn.lookup_addKeys]
    cases hdoc : Authn.documentKey (m.entries.map fun e => (newPublicKey e).jwkKey) kid with
    | some key' =>
        rcases (hiff key').mp hdoc with ⟨e, he, hkid, _⟩
        rw [Option.some_or, ← hdoc, hiff key]
        exact ⟨Or.inl, fun h => h.resolve_right fun hother => hother.1 e he hkid⟩
    | none =>
        have hnot : ∀ key', ¬∃ e ∈ m.entries, e.kid = kid ∧ e.privateKey.publicKey = key' := by
          intro key' hpub
          rw [(hiff key').mpr hpub] at hdoc
          cases hdoc
        rw [Option.none_or]
        refine ⟨fun h => Or.inr ⟨fun e he hkid => ?_, h⟩, fun h => ?_⟩
        · exact hnot _ ⟨e, he, hkid, rfl⟩
        · exact (h.resolve_left (hnot key)).2

/-- A verifier that fetches the text of a manager's key set. -/
def fetchingEnv (m : Manager) : Authn.Env :=
  { Tts.sampleEnv.toEnv with
    net := fun _ => .ok (m.jwksHandler (keySetText FloatText.plain) "GET")
    docs := { Tts.sampleEnv.docs with
      jwks := Verify.readKeySet FloatText.plain Unicode.ascii fun _ => "invalid character" } }

/-- Both keys are found after a rotation. -/
theorem keySet_over_wire_rotated :
    ∃ keys, (Verify.Verifier.new "https://tts/jwks" "kontxt").fetchJWKS
        (fetchingEnv ((Manager.new (generateKey sampleHash firstKey)).rotate
          (generateKey sampleHash secondKey)))
        = .ok { jwksURL := "https://tts/jwks", audience := "kontxt", keys := keys } ∧
      keys.lookup "e2e6d79b3f9ba9e4" = some firstKey.publicKey ∧
      keys.lookup "b1e33f5b0ef61cf3" = some secondKey.publicKey := by
  have hrange : ∀ e ∈ ((Manager.new (generateKey sampleHash firstKey)).rotate
      (generateKey sampleHash secondKey)).entries, InRange e := by
    intro e he
    rcases List.mem_cons.mp he with rfl | he
    · exact inRange_generateKey sampleHash secondKey rfl
    · rw [List.mem_singleton.mp he]
      exact inRange_generateKey sampleHash firstKey rfl
  rcases (keySet_over_wire FloatText.plain Unicode.ascii (fun _ => "invalid character") _ hrange
    (by decide)).1 (.new "https://tts/jwks" "kontxt") (fetchingEnv _) rfl rfl with
    ⟨keys, hfetch, hkeys⟩
  refine ⟨keys, hfetch, (hkeys _ _).mpr ?_, (hkeys _ _).mpr ?_⟩
  · exact ⟨_, List.mem_cons_of_mem _ List.mem_cons_self, by decide, rfl⟩
  · exact ⟨_, List.mem_cons_self, by decide, rfl⟩

end Texts

end Keys

namespace Tts

section Endpoints

variable (F : FloatText) (env : Env) (p : Process)

end Endpoints

section Surroundings

variable {F : FloatText} {J : JwtLib} {p : Process} {env : Authn.Env}

end Surroundings

section Made

end Made

section Runs

variable (P : Platform) (F : FloatText) (J : JwtLib) (S : SortSlice)
  (newEnv : Except String (Cel.Env Activation)) (cfg : Config) (jwksURL : String)

variable {P F J S newEnv cfg jwksURL}

end Runs

section Tokens

variable (P : Platform) {F : FloatText} (J : JwtLib) {S : SortSlice}
  {newEnv : Except String (Cel.Env Activation)} (cfg : Config) {jwksURL : String}

variable {P J cfg} {Signed : String → RsaPublicKey → Prop} {d : Deployment}

end Tokens

section Readiness

variable {P : Platform} {F : FloatText} {J : JwtLib} {S : SortSlice}
  {newEnv : Except String (Cel.Env Activation)} {cfg : Config} {jwksURL : String}

end Readiness

section Failures

end Failures

end Tts

end Kontxt
