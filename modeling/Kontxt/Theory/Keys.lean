import Kontxt.Core.Tts

/-!
# Published Keys

A key travels from the manager that signs with it to a verifier as two strings
of a key set. Reading them back gives the key, up to one thing: the exponent is
read as a signed 64-bit integer, so it has to be one. Exponents in use are far
below that, and `InRange` records it.

The verifier of the token service looks a key up by its identifier among the
published ones, the current key first. It uses the first key that has the
identifier, once a token names one and an RSA method.

Other verifiers keep a cache. Each document they fetch is added to it key by key,
so for every identifier the last usable key of the document is what counts, and
what was cached before is left where the document has none.

## Main definitions

* `Authn.usableKey`: The public key of an RSA signing key that can be read.
* `Authn.documentKey`: A document's key for an identifier.
* `Keys.InRange`: An exponent that is read back unchanged.
* `Keys.Names`: A token header that names a key.

## Theorems

* `Authn.lookup_addKeys`: A document's keys go before what was cached.
* `Authn.documentKey_isSome_iff`: When a document has a key for an identifier.
* `Keys.int64_of_lt`: Reading an exponent that fits.
* `Keys.rsaPublicKey_newPublicKey`: A published key reads back.
* `Keys.keyFunc_of_find`: The verifier uses the first key with the identifier.
-/

namespace Kontxt

open Go

namespace Authn

section Documents

/-- The public key of an RSA signing key that can be read. -/
def usableKey (k : JwkKey) : Option RsaPublicKey :=
  if k.kty ≠ "RSA" ∨ k.use ≠ "sig" then none else (Keys.decodeKey k.n k.e).toOption

/-- A document's key for an identifier: the last usable one. -/
def documentKey (jwks : List JwkKey) (kid : String) : Option RsaPublicKey :=
  jwks.reverse.findSome? fun k => if k.kid = kid then usableKey k else none

theorem documentKey_append (jwks : List JwkKey) (k : JwkKey) (kid : String) :
    documentKey (jwks ++ [k]) kid =
      (if k.kid = kid then usableKey k else none).or (documentKey jwks kid) := by
  unfold documentKey
  rw [List.reverse_append, List.reverse_singleton, List.singleton_append, List.findSome?_cons]
  cases (if k.kid = kid then usableKey k else none) with
  | none => rfl
  | some key => rfl

/-- A document's key for an identifier is one of its usable keys. -/
theorem mem_of_documentKey (jwks : List JwkKey) (kid : String) (key : RsaPublicKey)
    (h : documentKey jwks kid = some key) :
    ∃ k ∈ jwks, k.kid = kid ∧ usableKey k = some key := by
  rcases List.exists_of_findSome?_eq_some h with ⟨k, hk, hkey⟩
  by_cases hkid : k.kid = kid
  · rw [if_pos hkid] at hkey
    exact ⟨k, List.mem_reverse.mp hk, hkid, hkey⟩
  · rw [if_neg hkid] at hkey
    cases hkey

/-- A document has a key for an identifier exactly when one of its keys is usable
    and has the identifier. -/
theorem documentKey_isSome_iff (jwks : List JwkKey) (kid : String) :
    (documentKey jwks kid).isSome = true ↔
      ∃ k ∈ jwks, k.kid = kid ∧ (usableKey k).isSome = true := by
  constructor
  · intro h
    rcases Option.isSome_iff_exists.mp h with ⟨key, hkey⟩
    rcases mem_of_documentKey jwks kid key hkey with ⟨k, hk, hkid, husable⟩
    exact ⟨k, hk, hkid, Option.isSome_of_mem husable⟩
  · intro h
    rcases h with ⟨k, hk, hkid, hkey⟩
    unfold documentKey
    rw [List.findSome?_isSome_iff]
    refine ⟨k, List.mem_reverse.mpr hk, ?_⟩
    rw [if_pos hkid]
    exact hkey

/-- What adding one key does. -/
theorem addKeys_append (keys : GoMap String RsaPublicKey) (jwks : List JwkKey) (k : JwkKey) :
    addKeys keys (jwks ++ [k]) =
      (usableKey k).elim (addKeys keys jwks) ((addKeys keys jwks).insert k.kid) := by
  unfold addKeys usableKey
  rw [List.foldl_append, List.foldl_cons, List.foldl_nil]
  by_cases hskip : k.kty ≠ "RSA" ∨ k.use ≠ "sig"
  · rw [if_pos hskip, if_pos hskip]
    rfl
  · rw [if_neg hskip, if_neg hskip]
    cases Keys.decodeKey k.n k.e with
    | error e => rfl
    | ok key => rfl

/-- A document's keys go before what was cached. -/
theorem lookup_addKeys (keys : GoMap String RsaPublicKey) (jwks : List JwkKey) (kid : String) :
    (addKeys keys jwks).lookup kid = (documentKey jwks kid).or (keys.lookup kid) := by
  -- The loop goes on at the end of the document, and the last usable key wins.
  induction jwks using List.reverseRecOn with
  | nil => rfl
  | append_singleton jwks k ih =>
      rw [addKeys_append, documentKey_append]
      cases usableKey k with
      | none =>
          rw [Option.elim_none, ite_self, Option.none_or]
          exact ih
      | some key =>
          rw [Option.elim_some]
          by_cases hkid : k.kid = kid
          · rw [if_pos hkid, ← hkid, Finmap.lookup_insert]
            rfl
          · rw [if_neg hkid, Option.none_or, Finmap.lookup_insert_of_ne _ fun h => hkid h.symm]
            exact ih

end Documents

end Authn

namespace Keys

/-- The exponent of an entry's key is a signed 64-bit integer, not negative. -/
def InRange (entry : KeyEntry) : Prop :=
  0 ≤ entry.privateKey.publicKey.e ∧ entry.privateKey.publicKey.e < 2 ^ 63

theorem int64_of_lt (n : Nat) (hn : n < 2 ^ 63) : int64 n = n := by
  have hnat : (BitVec.ofNat 64 n).toNat = n := by
    rw [BitVec.toNat_ofNat]
    omega
  -- Below half of the modulus the sign bit is clear.
  have hhalf : 2 * (BitVec.ofNat 64 n).toNat < 2 ^ 64 := by
    rw [hnat]
    omega
  unfold int64
  rw [BitVec.toInt_eq_toNat_of_lt hhalf, hnat]

theorem rawURLDecode_bigBytes (n : Nat) :
    rawURLDecode (rawURLEncode (bigBytes n)) = .ok (bigBytes n) :=
  rawURLDecode_encode (bigBytes n) (fun b hb => bigBytes_lt n b hb)

/-- A published key reads back as the key that was published. -/
theorem rsaPublicKey_newPublicKey (entry : KeyEntry) (hrange : InRange entry) :
    (newPublicKey entry).rsaPublicKey = .ok entry.privateKey.publicKey := by
  rcases hrange with ⟨hpos, hlt⟩
  -- The sign is not published, so it must not matter.
  have habs : ((entry.privateKey.publicKey.e.natAbs : Nat) : Int) = entry.privateKey.publicKey.e :=
    Int.natAbs_of_nonneg hpos
  have hbound : entry.privateKey.publicKey.e.natAbs < 2 ^ 63 := by omega
  unfold PublicKey.rsaPublicKey decodeKey newPublicKey
  simp only [rawURLDecode_bigBytes, setBytes_bigBytes, int64_of_lt _ hbound, habs]

/-- A token header that names an RSA method and a key identifier. -/
structure Names (t : Jwt) (kid : String) : Prop where
  rsa : isSigningMethodRSA t.header = true
  named : t.header.str "kid" = kid
  nonempty : kid ≠ ""

/-- The key function finds the first published key with the identifier and
    reads it. -/
theorem keyFunc_of_find (env : Authn.Env) (m : Manager) (t : Jwt) (entry : KeyEntry)
    (hnames : Names t entry.kid) (hrange : InRange entry)
    (hfind : m.publicKeys.find? (fun pk => pk.kid == entry.kid) = some (newPublicKey entry)) :
    Tts.keyFunc env m t = .ok entry.privateKey.publicKey := by
  unfold Tts.keyFunc
  simp only [hnames.rsa, Bool.true_eq_false, if_false, hnames.named, hnames.nonempty, hfind,
    rsaPublicKey_newPublicKey entry hrange]

end Keys

end Kontxt
