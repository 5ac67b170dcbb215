import Kontxt.Theory.Rotation

/-!
# Exponents That Do Not Fit

A public exponent is published as bytes of any length and kept as a machine
integer. Three decoders read it: that of the key manager, that of the OIDC
authenticator, and one written out in the loop of the verifier that fetches the
key set. All three take the low 64 bits of the number as a signed integer, and
none looks at the rest. So a key is read with another exponent than it was
published with whenever the number does not fit: `exponents_exact_iff` gives the
bound, which is the same for all three.

Keys that are published by the manager were machine integers before, and the
three decoders read them back alike. The sign is not published, so they come back
unchanged unless the exponent was negative.

## Main definitions

* `Keys.ExactOrRejected`: A decoded key has the exponent of its bytes.
* `Keys.Answers`: The document that a verifier fetches.
* `Keys.Carries`: A key of a document that no later one takes the place of.
* `Keys.fetchedKey`: The key a verifier has after fetching.

## Theorems

* `Keys.int64_eq_self_iff`: Which numbers fit.
* `Keys.exactOrRejected_iff`: When a decoded key has the exponent of its bytes.
* `Keys.fetchedKey_eq`: What the verifier makes of a key.
* `Keys.exponents_exact_iff`: The three decoders compared with the bytes.
* `Keys.exponent_wraps`: An exponent that is read as another.
-/

namespace Kontxt

namespace Keys

open Go

section Decoding

/-- A number is its low 64 bits, read with a sign, just when it fits. -/
theorem int64_eq_self_iff (n : Nat) : int64 n = n ↔ n < 2 ^ 63 := by
  constructor
  · intro h
    -- What was read with a sign is below `2 ^ 63`.
    have hlt : 2 * int64 n < 2 ^ 64 := BitVec.two_mul_toInt_lt
    omega
  · exact int64_of_lt n

/-- What is read back of an exponent that was a machine integer. -/
theorem int64_natAbs_eq_iff (e : Int) (hlow : -2 ^ 63 ≤ e) (hhigh : e < 2 ^ 63) :
    int64 e.natAbs = e ↔ 0 ≤ e ∨ e = -2 ^ 63 := by
  by_cases hlowest : e = -2 ^ 63
  · rw [hlowest]
    decide
  · -- The absolute value of any other fits, and is the number unless the sign was lost.
    have hfits : e.natAbs < 2 ^ 63 := by omega
    rw [int64_of_lt _ hfits]
    omega

/-- A decoder rejects the key, or yields the exponent its bytes stand for. -/
def ExactOrRejected (decoded : Option RsaPublicKey) (eBytes : List Nat) : Prop :=
  ∀ key, decoded = some key → key.e = setBytes eBytes

/-- The key of decodable strings. -/
theorem decodeKey_eq (n e : String) (nBytes eBytes : List Nat)
    (hn : rawURLDecode n = .ok nBytes) (he : rawURLDecode e = .ok eBytes) :
    decodeKey n e = .ok { n := setBytes nBytes, e := int64 (setBytes eBytes) } := by
  unfold decodeKey
  rw [hn, he]

theorem exactOrRejected_iff (n : Nat) (eBytes : List Nat) :
    ExactOrRejected (some { n := n, e := int64 (setBytes eBytes) }) eBytes ↔
      setBytes eBytes < 2 ^ 63 := by
  unfold ExactOrRejected
  rw [← int64_eq_self_iff]
  simp only [Option.some.injEq, forall_eq']

end Decoding

section Fetching

variable (env : Authn.Env)

/-- The document a verifier is answered with. -/
def Answers (v : Verify.Verifier) (jwks : List Authn.JwkKey) : Prop :=
  ∃ body, Authn.fetch env.net "JWKS" "JWKS endpoint returned status " v.jwksURL = .ok body ∧
    env.docs.jwks body = .ok jwks

/-- A document has a key, and none with its identifier after it. -/
def Carries (jwks : List Authn.JwkKey) (k : Authn.JwkKey) : Prop :=
  ∃ earlier later, jwks = earlier ++ k :: later ∧ ∀ k' ∈ later, k'.kid ≠ k.kid

/-- The key a verifier has for an identifier after fetching. -/
def fetchedKey (v : Verify.Verifier) (kid : String) : Option RsaPublicKey :=
  (v.fetchJWKS env).toOption.bind fun v => v.keys.lookup kid

theorem documentKey_carries (earlier later : List Authn.JwkKey) (k : Authn.JwkKey)
    (key : RsaPublicKey) (hlater : ∀ k' ∈ later, k'.kid ≠ k.kid)
    (hkey : Authn.usableKey k = some key) :
    Authn.documentKey (earlier ++ k :: later) k.kid = some key := by
  -- The keys after it do not have its identifier, so taking them away one by one
  -- from the end changes nothing.
  induction later using List.reverseRecOn with
  | nil =>
      rw [Authn.documentKey_append, if_pos rfl, hkey]
      rfl
  | append_singleton later last ih =>
      have hne : last.kid ≠ k.kid := hlater last (by simp)
      rw [← List.cons_append, ← List.append_assoc, Authn.documentKey_append, if_neg hne,
        Option.none_or]
      exact ih fun k' hk' => hlater k' (List.mem_append_left _ hk')

/-- What a verifier has for a key of the document that it can use. -/
theorem fetchedKey_eq (v : Verify.Verifier) (jwks : List Authn.JwkKey) (k : Authn.JwkKey)
    (key : RsaPublicKey) (hanswers : Answers env v jwks) (hcarries : Carries jwks k)
    (hkey : Authn.usableKey k = some key) : fetchedKey env v k.kid = some key := by
  rcases hanswers with ⟨body, hbody, hdocs⟩
  rcases hcarries with ⟨earlier, later, rfl, hlater⟩
  have hfetch : v.fetchJWKS env =
      .ok { v with keys := Authn.addKeys ∅ (earlier ++ k :: later) } := by
    unfold Verify.Verifier.fetchJWKS
    simp only [hbody, bind, Except.bind, hdocs]
  unfold fetchedKey
  rw [hfetch]
  change (Authn.addKeys ∅ (earlier ++ k :: later)).lookup k.kid = some key
  rw [Authn.lookup_addKeys, documentKey_carries earlier later k key hlater hkey]
  rfl

theorem usableKey_of_decodeKey (k : Authn.JwkKey) (key : RsaPublicKey) (hkty : k.kty = "RSA")
    (huse : k.use = "sig") (hkey : decodeKey k.n k.e = .ok key) :
    Authn.usableKey k = some key := by
  have hsig : ¬(k.kty ≠ "RSA" ∨ k.use ≠ "sig") := by
    rw [not_or, not_not, not_not]
    exact ⟨hkty, huse⟩
  unfold Authn.usableKey
  rw [if_neg hsig, hkey]
  rfl

end Fetching

/-- The three decoders against the bytes. For every key whose strings can be decoded,
    each of them rejects it or yields the exponent of the bytes just when that is
    below `2 ^ 63`: the manager's, the authenticator's, and the verifier's for a key
    that it finds in the document. On a key that was published the three agree and
    yield its modulus, and for a machine integer they yield the exponent just when it
    is not negative, the least integer apart. -/
theorem exponents_exact_iff (k : Authn.JwkKey) (entry : KeyEntry) :
    (∀ nBytes eBytes : List Nat, rawURLDecode k.n = .ok nBytes →
      rawURLDecode k.e = .ok eBytes →
      (∀ pk : PublicKey, pk.n = k.n → pk.e = k.e →
        (ExactOrRejected pk.rsaPublicKey.toOption eBytes ↔ setBytes eBytes < 2 ^ 63)) ∧
      (ExactOrRejected (Authn.jwkToRSAPublicKey k).toOption eBytes ↔
        setBytes eBytes < 2 ^ 63) ∧
      ∀ env v jwks, Answers env v jwks → Carries jwks k → k.kty = "RSA" → k.use = "sig" →
        (ExactOrRejected (fetchedKey env v k.kid) eBytes ↔ setBytes eBytes < 2 ^ 63)) ∧
    ∃ key : RsaPublicKey,
      (newPublicKey entry).rsaPublicKey = .ok key ∧
      Authn.jwkToRSAPublicKey (newPublicKey entry).jwkKey = .ok key ∧
      (∀ env v jwks, Answers env v jwks → Carries jwks (newPublicKey entry).jwkKey →
        fetchedKey env v entry.kid = some key) ∧
      key.n = entry.privateKey.publicKey.n ∧
      (-2 ^ 63 ≤ entry.privateKey.publicKey.e → entry.privateKey.publicKey.e < 2 ^ 63 →
        (key.e = entry.privateKey.publicKey.e ↔
          0 ≤ entry.privateKey.publicKey.e ∨ entry.privateKey.publicKey.e = -2 ^ 63)) := by
  constructor
  · intro nBytes eBytes hn he
    have hdecode := decodeKey_eq k.n k.e nBytes eBytes hn he
    refine ⟨?_, ?_, ?_⟩
    · intro pk hpn hpe
      unfold PublicKey.rsaPublicKey
      rw [hpn, hpe, hdecode]
      exact exactOrRejected_iff _ eBytes
    · unfold Authn.jwkToRSAPublicKey
      rw [hdecode]
      exact exactOrRejected_iff _ eBytes
    · intro env v jwks hanswers hcarries hkty huse
      rw [fetchedKey_eq env v jwks k _ hanswers hcarries
        (usableKey_of_decodeKey k _ hkty huse hdecode)]
      exact exactOrRejected_iff _ eBytes
  · -- Publishing writes the bytes of the two numbers, and all three decode those.
    have hdecode := decodeKey_eq _ _ _ _ (rawURLDecode_bigBytes entry.privateKey.publicKey.n)
      (rawURLDecode_bigBytes entry.privateKey.publicKey.e.natAbs)
    rw [setBytes_bigBytes, setBytes_bigBytes] at hdecode
    refine ⟨_, hdecode, hdecode, ?_, rfl, int64_natAbs_eq_iff _⟩
    intro env v jwks hanswers hcarries
    exact fetchedKey_eq env v jwks _ _ hanswers hcarries
      (usableKey_of_decodeKey _ _ rfl rfl hdecode)

/-- A key with the exponent `2 ^ 64 + 65537`. -/
def wideKey : Authn.JwkKey where
  kty := "RSA"
  use := "sig"
  kid := "wide"
  alg := "RS256"
  n := "Aw"
  e := "AQAAAAAAAQAB"

/-- The surroundings in which a verifier fetches it. -/
def wideEnv : Authn.Env :=
  { Tts.sampleEnv.toEnv with
    net := fun _ => .ok { statusCode := 200, body := "" }
    docs := { Tts.sampleEnv.docs with jwks := fun _ => .ok [wideKey] } }

/-- All three decoders accept the key and read the exponent as 65537. -/
theorem exponent_wraps :
    (rawURLDecode wideKey.e).toOption.map setBytes = some (2 ^ 64 + 65537) ∧
    PublicKey.rsaPublicKey
        { kty := "RSA", use := "sig", alg := "RS256", kid := "wide", n := "Aw"
          e := "AQAAAAAAAQAB" } = .ok { n := 3, e := 65537 } ∧
    Authn.jwkToRSAPublicKey wideKey = .ok { n := 3, e := 65537 } ∧
    fetchedKey wideEnv (Verify.Verifier.new "jwks" "cart") "wide" =
      some { n := 3, e := 65537 } := by
  have hdecode : decodeKey "Aw" "AQAAAAAAAQAB" = .ok { n := 3, e := 65537 } := by decide
  refine ⟨by decide, hdecode, hdecode, ?_⟩
  exact fetchedKey_eq wideEnv _ [wideKey] wideKey _ ⟨"", rfl, rfl⟩ ⟨[], [], rfl, by simp⟩
    (usableKey_of_decodeKey wideKey _ rfl rfl hdecode)

end Keys

end Kontxt
