import Kontxt.Core.KeyCache
import Kontxt.Theory.Rotation

/-!
# Lookups That Overlap

What the two caches guarantee when many calls use them at once.

Every key a call answers with came out of a key set that was fetched from the
configured URL or from one that discovery named for the right issuer; no order of
steps mixes in anything else. While the token service rotates its keys, a cache that
is replaced is at every moment the keys of one published set, so it never trusts
more than two keys, and an identifier always stands for the entry it was made for.

Overlapping calls can still disturb each other. A call looks again in what was
stored last, not in what it stored itself. A cache that is added to still has what
the call stored, so the call finds its key; a cache that is replaced may meanwhile
hold a key set another call fetched earlier, and then a key that was just fetched
is reported as not found. That needs a reply from before a rotation that is stored
after it: once none is under way, lookups find what is published in every order. A
call that no other comes between does what `keyFunc` does as one step.

## Main definitions

* `KeyCache.documents`: The key sets stored in a run.
* `KeyCache.CallInv`: An invariant of a cache and the calls on it, from what is trusted.
* `Authn.Served`: The key sets an authenticator may take keys from.
* `Keys.SharedInv`: The cache and the calls while the manager rotates.
* `Keys.Settled`: No reply with an older key set is under way.

## Theorems

* `KeyCache.callInv_step`: A step keeps the invariant, if the network answers as trusted.
* `KeyCache.keys_run`: The cache is what the stored key sets make it.
* `KeyCache.lookAgain_found_iff`: When a call finds the key it fetched.
* `KeyCache.alone_is_keyFunc`: A call alone is `keyFunc`.
* `Authn.keys_from_trusted`: Where the authenticator's keys come from.
* `Keys.shared_rotation_sound`: Overlapping lookups while the manager rotates.
* `Keys.settled_call_finds`: When a lookup finds a published key for certain.
-/

namespace Kontxt

open Go Lib

namespace KeyCache

section Steps

variable {K : Kind}

@[simp] theorem State.put_calls (s : State) (i : Nat) (kid : String) (phase : Phase) :
    (s.put i kid phase).calls i = some { kid := kid, phase := phase } :=
  Function.update_self ..

theorem State.put_calls_ne (s : State) (i j : Nat) (kid : String) (phase : Phase) (hj : j ≠ i) :
    (s.put i kid phase).calls j = s.calls j :=
  Function.update_of_ne hj ..

@[simp] theorem State.put_keys (s : State) (i : Nat) (kid : String) (phase : Phase) :
    (s.put i kid phase).keys = s.keys :=
  rfl

@[simp] theorem State.put_jwksURL (s : State) (i : Nat) (kid : String) (phase : Phase) :
    (s.put i kid phase).jwksURL = s.jwksURL :=
  rfl

/-- The key set an event stores. -/
def Event.document : Event → Option (List Authn.JwkKey)
  | .store _ jwks => some jwks
  | _ => none

/-- The key sets stored in a run, first to last. -/
def documents (es : List Event) : List (List Authn.JwkKey) :=
  es.filterMap Event.document

/-- Storing is what changes the keys. -/
theorem keys_step (s s' : State) (e : Event) (h : Step K s e s') :
    s'.keys = (e.document.toList).foldl (State.storedKeys K) s.keys := by
  cases h with
  | look i t hcall =>
      unfold State.look
      split
      · rfl
      · split <;> rfl
  | readURL i kid hcall =>
      unfold State.readURL
      split <;> rfl
  | discover i kid outcome hcall =>
      unfold State.discover
      split <;> rfl
  | fetch i kid url outcome hcall =>
      unfold State.fetch
      split <;> rfl
  | store i kid jwks hcall => rfl
  | lookAgain i kid hcall => rfl

/-- A step moves the call it is of, and no other. -/
theorem calls_step (s s' : State) (e : Event) (h : Step K s e s') (j : Nat) (hj : j ≠ e.call) :
    s'.calls j = s.calls j := by
  cases h with
  | look i t hcall =>
      unfold State.look
      split
      · exact s.put_calls_ne i j _ _ hj
      · split <;> exact s.put_calls_ne i j _ _ hj
  | readURL i kid hcall =>
      unfold State.readURL
      split <;> exact s.put_calls_ne i j _ _ hj
  | discover i kid outcome hcall =>
      unfold State.discover
      split <;> exact s.put_calls_ne i j _ _ hj
  | fetch i kid url outcome hcall =>
      unfold State.fetch
      split <;> exact s.put_calls_ne i j _ _ hj
  | store i kid jwks hcall => exact s.put_calls_ne i j _ _ hj
  | lookAgain i kid hcall => exact s.put_calls_ne i j _ _ hj

end Steps

section Invariants

/-- What is trusted: the URLs key sets are fetched from, the key sets, the cached
    keys, and the keys that are answered for an identifier. What is found in trusted
    keys may be answered, and storing a trusted key set leaves trusted keys. -/
structure Trusted (K : Kind) where
  url : String → Prop
  set : List Authn.JwkKey → Prop
  keys : GoMap String RsaPublicKey → Prop
  answer : String → RsaPublicKey → Prop
  lookup : ∀ m kid key, keys m → m.lookup kid = some key → answer kid key
  store : ∀ m jwks, keys m → set jwks → keys (State.storedKeys K m jwks)

/-- What a call holds is trusted. -/
def Trusted.call {K : Kind} (T : Trusted K) (c : Call) : Prop :=
  (∀ url, c.phase = .located url → T.url url) ∧ (∀ jwks, c.phase = .fetched jwks → T.set jwks) ∧
    ∀ key, c.phase = .answered (.ok key) → T.answer c.kid key

/-- The network names only trusted URLs, and serves only trusted key sets there. -/
def Trusted.network {K : Kind} (T : Trusted K) : Event → Prop
  | .discover _ (.ok url) => T.url url
  | .fetch _ url (.ok jwks) => T.url url → T.set jwks
  | _ => True

/-- The URL is trusted or still to be discovered, and the keys and what the calls
    hold are trusted. -/
structure CallInv {K : Kind} (T : Trusted K) (s : State) : Prop where
  url : T.url s.jwksURL ∨ K.discovers = true ∧ s.jwksURL = ""
  keys : T.keys s.keys
  calls : ∀ i c, s.calls i = some c → T.call c

variable {K : Kind} {T : Trusted K}

/-- A call that moves on to something trusted keeps the invariant. -/
theorem CallInv.put {s : State} (h : CallInv T s) (i : Nat) (kid : String) (phase : Phase)
    (hcall : T.call { kid := kid, phase := phase }) : CallInv T (s.put i kid phase) := by
  refine ⟨h.url, h.keys, fun j c hc => ?_⟩
  rcases of_update_eq_some _ _ _ _ _ hc with ⟨_, heq⟩ | hold
  · cases heq
    exact hcall
  · exact h.calls j c hold

/-- A phase that holds nothing is trusted. -/
theorem Trusted.call_of_empty (kid : String) (phase : Phase)
    (hempty : (∀ url, phase ≠ .located url) ∧ (∀ jwks, phase ≠ .fetched jwks) ∧
      ∀ key, phase ≠ .answered (.ok key)) : T.call { kid := kid, phase := phase } :=
  ⟨fun url h => absurd h (hempty.1 url), fun jwks h => absurd h (hempty.2.1 jwks),
    fun key h => absurd h (hempty.2.2 key)⟩

theorem Trusted.call_error (kid e : String) :
    T.call { kid := kid, phase := .answered (.error e) } :=
  call_of_empty kid _ ⟨by simp, by simp, by simp⟩

theorem Trusted.call_found (kid : String) (key : RsaPublicKey) (h : T.answer kid key) :
    T.call { kid := kid, phase := .answered (.ok key) } := by
  refine ⟨by simp, by simp, fun key' h' => ?_⟩
  cases h'
  exact h

theorem Trusted.call_located (kid url : String) (h : T.url url) :
    T.call { kid := kid, phase := .located url } := by
  refine ⟨fun url' h' => ?_, by simp, by simp⟩
  cases h'
  exact h

/-- A step keeps the invariant, if the network answers as it is trusted to. -/
theorem callInv_step (s s' : State) (e : Event) (hinv : CallInv T s) (hnet : T.network e)
    (h : Step K s e s') : CallInv T s' := by
  cases h with
  | look i t hcall =>
      unfold State.look
      split
      · exact hinv.put i _ _ (Trusted.call_error ..)
      · split
        · rename_i key hkey
          exact hinv.put i _ _ (Trusted.call_found _ key (T.lookup _ _ key hinv.keys hkey))
        · exact hinv.put i _ _ (Trusted.call_of_empty _ _ ⟨by simp, by simp, by simp⟩)
  | readURL i kid hcall =>
      unfold State.readURL
      split
      · exact hinv.put i _ _ (Trusted.call_of_empty _ _ ⟨by simp, by simp, by simp⟩)
      · rename_i hknown
        -- A URL that is not to be discovered is one that is trusted.
        exact hinv.put i _ _ (Trusted.call_located _ _ (hinv.url.resolve_right hknown))
  | discover i kid outcome hcall =>
      cases outcome with
      | error err => exact hinv.put i _ _ (Trusted.call_error ..)
      | ok url =>
          have hput := hinv.put i kid _ (Trusted.call_located kid url hnet)
          exact ⟨Or.inl hnet, hput.keys, hput.calls⟩
  | fetch i kid url outcome hcall =>
      cases outcome with
      | error err => exact hinv.put i _ _ (Trusted.call_error ..)
      | ok jwks =>
          have hset : T.set jwks := hnet ((hinv.calls i _ hcall).1 url rfl)
          refine hinv.put i _ _ ⟨by simp, fun jwks' h' => ?_, by simp⟩
          cases h'
          exact hset
  | store i kid jwks hcall =>
      have hset : T.set jwks := (hinv.calls i _ hcall).2.1 jwks rfl
      have hput := hinv.put i kid .stored (Trusted.call_of_empty _ _ ⟨by simp, by simp, by simp⟩)
      exact ⟨hput.url, T.store _ _ hinv.keys hset, hput.calls⟩
  | lookAgain i kid hcall =>
      unfold State.lookAgain State.answer
      split
      · rename_i key hkey
        exact hinv.put i _ _ (Trusted.call_found _ key (T.lookup _ _ key hinv.keys hkey))
      · exact hinv.put i _ _ (Trusted.call_error ..)

end Invariants

section Overlap

variable (K : Kind)

/-- The cache is what the key sets stored in a run make it. -/
theorem keys_run (url : String) (s s' : State) (es : List Event)
    (hrun : (calls K url).Run s es s') :
    s'.keys = (documents es).foldl (State.storedKeys K) s.keys := by
  refine System.Run.induct (fun _ => True)
    (fun es s' => s'.keys = (documents es).foldl (State.storedKeys K) s.keys) hrun
    (fun _ _ => trivial) rfl ?_
  intro es e s₁ s₂ hkeys _ hstep
  have hdocs : documents (es ++ [e]) = documents es ++ e.document.toList := by
    unfold documents
    rw [List.filterMap_append]
    cases hdoc : e.document with
    | none => simp [hdoc]
    | some jwks => simp [hdoc]
  rw [keys_step s₁ s₂ e hstep, hkeys, hdocs, List.foldl_append]

/-- Other calls leave a call where it is. -/
theorem calls_run (url : String) (s s' : State) (es : List Event) (i : Nat)
    (hrun : (calls K url).Run s es s') (hothers : ∀ e ∈ es, e.call ≠ i) :
    s'.calls i = s.calls i := by
  refine System.Run.induct (fun e => e.call ≠ i) (fun _ s' => s'.calls i = s.calls i) hrun hothers
    rfl ?_
  intro es e s₁ s₂ hcalls hother hstep
  rw [calls_step s₁ s₂ e hstep i hother.symm, hcalls]

/-- What is found in a cache that is replaced is in the last key set. -/
theorem lookup_replaced (hkeeps : K.keeps = false) (jwks : List Authn.JwkKey)
    (docs : List (List Authn.JwkKey)) (m : GoMap String RsaPublicKey) (kid : String) :
    ((jwks :: docs).foldl (State.storedKeys K) m).lookup kid =
      Authn.documentKey ((jwks :: docs).getLast (List.cons_ne_nil _ _)) kid := by
  have hstored : ∀ m jwks, State.storedKeys K m jwks = Authn.addKeys ∅ jwks := by
    intro m jwks
    unfold State.storedKeys
    rw [hkeeps, if_neg Bool.false_ne_true]
  induction docs generalizing jwks m with
  | nil =>
      rw [List.foldl_cons, List.foldl_nil, hstored, Authn.lookup_addKeys, List.getLast_singleton,
        Finmap.lookup_empty, Option.or_none]
  | cons d docs ih =>
      rw [List.foldl_cons, ih, List.getLast_cons (List.cons_ne_nil _ _)]

/-- What is not found in a cache that is added to was never there and is in none of
    the key sets. -/
theorem lookup_kept (hkeeps : K.keeps = true) (docs : List (List Authn.JwkKey))
    (m : GoMap String RsaPublicKey) (kid : String) :
    (docs.foldl (State.storedKeys K) m).lookup kid = none ↔
      m.lookup kid = none ∧ ∀ d ∈ docs, Authn.documentKey d kid = none := by
  induction docs generalizing m with
  | nil => simp
  | cons d docs ih =>
      have hstored : State.storedKeys K m d = Authn.addKeys m d := by
        unfold State.storedKeys
        rw [hkeeps, if_pos rfl]
      rw [List.foldl_cons, ih, hstored, Authn.lookup_addKeys, Option.or_eq_none_iff,
        List.forall_mem_cons]
      tauto

/-- When a call finds the key it looks for after it stored a key set: other calls may
    have stored any number of key sets in between. In a cache that is added to, the
    call misses a key only if its own key set has not got it either. In a cache that
    is replaced, it answers with the key of the key set stored last, if that has one,
    whatever was in its own. -/
theorem lookAgain_found_iff (url : String) (s s' : State) (i : Nat) (kid : String)
    (jwks : List Authn.JwkKey) (es : List Event)
    (hrun : (calls K url).Run (s.store K i kid jwks) es s') (hothers : ∀ e ∈ es, e.call ≠ i) :
    Step K s' (.lookAgain i) (s'.lookAgain K i kid) ∧
      (s'.lookAgain K i kid).calls i = some { kid := kid, phase := .answered (s'.answer K kid) } ∧
      (K.keeps = true → (s'.answer K kid = .error (K.notFound kid) ↔
        s.keys.lookup kid = none ∧ ∀ d ∈ jwks :: documents es, Authn.documentKey d kid = none)) ∧
      (K.keeps = false →
        (s'.answer K kid = .error (K.notFound kid) ↔
          Authn.documentKey ((jwks :: documents es).getLast (List.cons_ne_nil _ _)) kid = none) ∧
        ∀ key, s'.answer K kid = .ok key ↔
          Authn.documentKey ((jwks :: documents es).getLast (List.cons_ne_nil _ _)) kid =
            some key) := by
  have hcall : s'.calls i = some { kid := kid, phase := .stored } := by
    rw [calls_run K url _ s' es i hrun hothers]
    exact s.put_calls i kid .stored
  have hkeys : s'.keys = (jwks :: documents es).foldl (State.storedKeys K) s.keys :=
    keys_run K url _ s' es hrun
  have hmissed : s'.answer K kid = .error (K.notFound kid) ↔ s'.keys.lookup kid = none := by
    unfold State.answer
    cases s'.keys.lookup kid with
    | none => simp
    | some key => simp
  have hfound : ∀ key, s'.answer K kid = .ok key ↔ s'.keys.lookup kid = some key := by
    intro key
    unfold State.answer
    cases s'.keys.lookup kid with
    | none => simp
    | some key' => simp
  refine ⟨.lookAgain s' i kid hcall, s'.put_calls i kid _, fun hkeeps => ?_,
    fun hkeeps => ⟨?_, fun key => ?_⟩⟩
  · rw [hmissed, hkeys, lookup_kept K hkeeps]
  · rw [hmissed, hkeys, lookup_replaced K hkeeps]
  · rw [hfound, hkeys, lookup_replaced K hkeeps]

end Overlap

/-- A key set's key of the modulus 2773. -/
def sampleJwk (kid : String) : Authn.JwkKey where
  kty := "RSA"
  use := "sig"
  kid := kid
  alg := "RS256"
  n := "CtU"
  e := "AQAB"

/-- The cache of a new verifier. -/
def sampleKind : Kind :=
  (Verify.Verifier.new "https://tts/jwks" "kontxt").cacheKind Unicode.ascii

/-- Two calls have fetched: the first before a rotation, the second after it. -/
def overtaken : State where
  jwksURL := "https://tts/jwks"
  keys := ∅
  calls := fun i =>
    if i = 0 then some { kid := "old", phase := .fetched [sampleJwk "old"] }
    else some { kid := "new", phase := .fetched [sampleJwk "new", sampleJwk "old"] }

/-- The first call stores last, and the second misses the key it fetched. -/
theorem lookAgain_overtaken :
    ∃ s', (calls sampleKind "https://tts/jwks").Run
        (overtaken.store sampleKind 1 "new" [sampleJwk "new", sampleJwk "old"])
        [.store 0 [sampleJwk "old"]] s' ∧
      Authn.documentKey [sampleJwk "new", sampleJwk "old"] "new"
        = some { n := 2773, e := 65537 } ∧
      s'.answer sampleKind "new" = .error (sampleKind.notFound "new") := by
  have hrun : (calls sampleKind "https://tts/jwks").Run
      (overtaken.store sampleKind 1 "new" [sampleJwk "new", sampleJwk "old"])
      ([] ++ [.store 0 [sampleJwk "old"]]) _ :=
    .snoc [] _ _ _ .nil (.store _ 0 "old" [sampleJwk "old"] rfl)
  have hothers : ∀ e ∈ [Event.store 0 [sampleJwk "old"]], e.call ≠ 1 := by
    intro e he
    rw [List.mem_singleton.mp he]
    exact Nat.zero_ne_one
  have hfound := lookAgain_found_iff sampleKind "https://tts/jwks" overtaken _ 1 "new" _ _ hrun
    hothers
  exact ⟨_, hrun, by decide, (hfound.2.2.2 rfl).1.mpr (by decide)⟩

section Alone

/-- A call, alone: what it answers, and the URL and the keys it leaves. -/
structure Leaves (s : State) (i : Nat) (result : Except String RsaPublicKey) (jwksURL : String)
    (keys : GoMap String RsaPublicKey) : Prop where
  answered : ∃ kid, s.calls i = some { kid := kid, phase := .answered result }
  jwksURL : s.jwksURL = jwksURL
  keys : s.keys = keys

variable (K : Kind) (discovered : Except String String)
  (fetched : String → Except String (List Authn.JwkKey))

/-- A call that has answered stays as it is. -/
theorem iterate_answered (s : State) (i : Nat) (kid : String) (result : Except String RsaPublicKey)
    (h : s.calls i = some { kid := kid, phase := .answered result }) (n : Nat) :
    (fun s : State => s.advance K discovered fetched i)^[n] s = s := by
  have hfix : s.advance K discovered fetched i = s := by
    unfold State.advance
    rw [h]
  exact Function.iterate_fixed hfix n

theorem advance_missed (s : State) (i : Nat) (kid : String) :
    (s.put i kid .missed).advance K discovered fetched i =
      (s.put i kid .missed).readURL K i kid := by
  unfold State.advance
  rw [State.put_calls]

theorem put_put (s : State) (i : Nat) (kid kid' : String) (phase phase' : Phase) :
    (s.put i kid phase).put i kid' phase' = s.put i kid' phase' := by
  unfold State.put
  rw [Function.update_idem]

/-- From a URL on, a call fetches, stores and looks again. -/
theorem iterate_located (s : State) (i : Nat) (kid url : String) (n : Nat) (hn : 3 ≤ n)
    (h : s.calls i = some { kid := kid, phase := .located url }) :
    (∀ e, fetched url = .error e →
      Leaves ((fun s : State => s.advance K discovered fetched i)^[n] s) i
        (.error ("fetching JWKS: " ++ e)) s.jwksURL s.keys) ∧
    ∀ jwks, fetched url = .ok jwks →
      Leaves ((fun s : State => s.advance K discovered fetched i)^[n] s) i
        (State.answer K { s with keys := State.storedKeys K s.keys jwks } kid) s.jwksURL
        (State.storedKeys K s.keys jwks) := by
  obtain ⟨m, rfl⟩ : ∃ m, n = m + 3 := ⟨n - 3, by omega⟩
  have hfirst : s.advance K discovered fetched i = s.fetch i kid (fetched url) := by
    unfold State.advance
    rw [h]
  rw [Function.iterate_add_apply]
  constructor
  · intro e he
    have hstate : (fun s : State => s.advance K discovered fetched i)^[3] s =
        s.put i kid (.answered (.error ("fetching JWKS: " ++ e))) := by
      rw [Function.iterate_succ_apply, hfirst, he]
      exact iterate_answered K discovered fetched _ i kid _ (s.put_calls i kid _) 2
    rw [hstate, iterate_answered K discovered fetched _ i kid _ (s.put_calls i kid _) m]
    exact ⟨⟨kid, s.put_calls i kid _⟩, rfl, rfl⟩
  · intro jwks hjwks
    have hstate : (fun s : State => s.advance K discovered fetched i)^[3] s =
        ((s.fetch i kid (.ok jwks)).store K i kid jwks).lookAgain K i kid := by
      rw [Function.iterate_succ_apply, hfirst, hjwks, Function.iterate_succ_apply]
      have hstore : (s.fetch i kid (.ok jwks)).advance K discovered fetched i =
          (s.fetch i kid (.ok jwks)).store K i kid jwks := by
        unfold State.advance State.fetch
        simp only [State.put_calls]
      rw [hstore, Function.iterate_succ_apply]
      have hagain : ((s.fetch i kid (.ok jwks)).store K i kid jwks).advance K discovered fetched i =
          ((s.fetch i kid (.ok jwks)).store K i kid jwks).lookAgain K i kid := by
        unfold State.advance
        rw [show ((s.fetch i kid (.ok jwks)).store K i kid jwks).calls i =
          some { kid := kid, phase := .stored } from State.put_calls _ i kid .stored]
      rw [hagain]
      rfl
    have hanswered : (((s.fetch i kid (.ok jwks)).store K i kid jwks).lookAgain K i kid).calls i =
        some ⟨kid, .answered (((s.fetch i kid (.ok jwks)).store K i kid jwks).answer K kid)⟩ :=
      State.put_calls _ i kid _
    rw [hstate, iterate_answered K discovered fetched _ i kid _ hanswered m]
    exact ⟨⟨kid, hanswered⟩, rfl, rfl⟩

/-- A look that is answered at once ends the call. -/
theorem alone_of_answered (s : State) (i : Nat) (t : Jwt) (kid : String)
    (result : Except String RsaPublicKey)
    (h : s.look K i t = s.put i kid (.answered result)) :
    Leaves (s.alone K discovered fetched i t) i result s.jwksURL s.keys := by
  unfold State.alone
  rw [h, iterate_answered K discovered fetched _ i kid result (s.put_calls i kid _) 5]
  exact ⟨⟨kid, s.put_calls i kid _⟩, rfl, rfl⟩

/-- A miss with a URL at hand. -/
theorem alone_of_known (s : State) (i : Nat) (t : Jwt) (kid : String)
    (hmiss : s.look K i t = s.put i kid .missed)
    (hknown : ¬(K.discovers = true ∧ s.jwksURL = "")) :
    s.alone K discovered fetched i t =
      (fun s : State => s.advance K discovered fetched i)^[4]
        (s.put i kid (.located s.jwksURL)) := by
  have hread : (s.put i kid .missed).readURL K i kid = s.put i kid (.located s.jwksURL) := by
    unfold State.readURL
    rw [State.put_jwksURL, if_neg hknown, put_put]
  unfold State.alone
  rw [hmiss, Function.iterate_succ_apply, advance_missed, hread]

/-- A miss with a URL to discover. -/
theorem alone_of_unknown (s : State) (i : Nat) (t : Jwt) (kid : String)
    (hmiss : s.look K i t = s.put i kid .missed)
    (hunknown : K.discovers = true ∧ s.jwksURL = "") :
    s.alone K discovered fetched i t =
      (fun s : State => s.advance K discovered fetched i)^[3]
        ((s.put i kid .discovering).discover i kid discovered) := by
  have hread : (s.put i kid .missed).readURL K i kid = s.put i kid .discovering := by
    unfold State.readURL
    rw [State.put_jwksURL, if_pos hunknown, put_put]
  have hdiscover : (s.put i kid .discovering).advance K discovered fetched i =
      (s.put i kid .discovering).discover i kid discovered := by
    unfold State.advance
    rw [State.put_calls]
  unfold State.alone
  rw [hmiss, Function.iterate_succ_apply, advance_missed, hread, Function.iterate_succ_apply,
    hdiscover]

/-- The key set a verifier fetches and stores. -/
theorem fetchJWKS_eq (env : Authn.Env) (v : Verify.Verifier) :
    v.fetchJWKS env = (fetchSet env.net env.docs v.jwksURL).map fun jwks =>
      { v with keys := Authn.addKeys ∅ jwks } := by
  unfold Verify.Verifier.fetchJWKS fetchSet
  cases Authn.fetch env.net "JWKS" "JWKS endpoint returned status " v.jwksURL with
  | error e => rfl
  | ok body =>
      cases hjwks : env.docs.jwks body with
      | error e =>
          simp only [bind, Except.bind, hjwks]
          rfl
      | ok jwks =>
          simp only [bind, Except.bind, hjwks]
          rfl

/-- A call of the SDK's verifier that no other comes between answers what `keyFunc`
    answers, and leaves the keys it leaves. -/
theorem alone_verifier (env : Authn.Env) (v : Verify.Verifier) (s : State) (i : Nat) (t : Jwt)
    (discovered : Except String String) (hurl : s.jwksURL = v.jwksURL) (hkeys : s.keys = v.keys) :
    Leaves (s.alone (v.cacheKind env.unicode) discovered (fetchSet env.net env.docs) i t) i
      (v.keyFunc env t).1 v.jwksURL (v.keyFunc env t).2.keys := by
  unfold Verify.Verifier.keyFunc
  by_cases hrsa : isSigningMethodRSA t.header = false
  · rw [if_pos hrsa, ← hurl, ← hkeys]
    refine alone_of_answered _ _ _ s i t "" _ ?_
    unfold State.look Verify.Verifier.cacheKind
    simp only [if_pos hrsa]
  rw [if_neg hrsa]
  by_cases hkid : t.header.str "kid" = ""
  · simp only [if_pos hkid]
    rw [← hurl, ← hkeys]
    refine alone_of_answered _ _ _ s i t "" _ ?_
    unfold State.look Verify.Verifier.cacheKind
    simp only [if_neg hrsa, if_pos hkid]
  simp only [if_neg hkid]
  have hkind : (v.cacheKind env.unicode).kidOf t = .ok (t.header.str "kid") := by
    unfold Verify.Verifier.cacheKind
    simp only [if_neg hrsa, if_neg hkid]
  cases hlookup : v.keys.lookup (t.header.str "kid") with
  | some key =>
      simp only []
      rw [← hurl, ← hkeys]
      refine alone_of_answered _ _ _ s i t (t.header.str "kid") _ ?_
      unfold State.look
      rw [hkind, hkeys]
      simp only [hlookup]
  | none =>
      have hmiss : s.look (v.cacheKind env.unicode) i t = s.put i (t.header.str "kid") .missed := by
        unfold State.look
        rw [hkind, hkeys]
        simp only [hlookup]
      rw [alone_of_known _ _ _ s i t _ hmiss (by simp [Verify.Verifier.cacheKind])]
      have hends := iterate_located (v.cacheKind env.unicode) discovered
        (fetchSet env.net env.docs) (s.put i (t.header.str "kid") (.located s.jwksURL)) i
        (t.header.str "kid") s.jwksURL 4 (by decide) (s.put_calls i _ _)
      rw [State.put_jwksURL, State.put_keys, hurl, hkeys] at hends
      rw [fetchJWKS_eq, hurl]
      cases hset : fetchSet env.net env.docs v.jwksURL with
      | error e => exact hends.1 e hset
      | ok jwks =>
          have hleaves := hends.2 jwks hset
          simp only [Except.map]
          unfold State.answer at hleaves
          have hstored : State.storedKeys (v.cacheKind env.unicode) v.keys jwks =
              Authn.addKeys ∅ jwks := rfl
          rw [hstored] at hleaves
          simp only [] at hleaves
          cases hfound : (Authn.addKeys ∅ jwks).lookup (t.header.str "kid") with
          | some key =>
              rw [hfound] at hleaves
              exact hleaves
          | none =>
              rw [hfound] at hleaves
              exact hleaves

/-- The key set an authenticator fetches and stores. -/
theorem fetchKeys_eq (net : Authn.Net) (docs : Authn.Docs) (a : Authn.Authenticator) :
    a.fetchKeys net docs = (fetchSet net docs a.jwksURL).map fun jwks =>
      { a with keys := Authn.addKeys a.keys jwks } := by
  unfold Authn.Authenticator.fetchKeys fetchSet
  cases Authn.fetch net "JWKS" "JWKS endpoint returned status " a.jwksURL with
  | error e => rfl
  | ok body =>
      cases hjwks : docs.jwks body with
      | error e =>
          simp only [bind, Except.bind, hjwks]
          rfl
      | ok jwks =>
          simp only [bind, Except.bind, hjwks]
          rfl

/-- What an authenticator does at a URL it has. -/
def afterFetch (net : Authn.Net) (docs : Authn.Docs) (u : Unicode) (a : Authn.Authenticator)
    (kid : String) : Except String RsaPublicKey × Authn.Authenticator :=
  match a.fetchKeys net docs with
  | .error e => (.error ("fetching JWKS: " ++ e), a)
  | .ok a =>
    match a.keys.lookup kid with
    | some key => (.ok key, a)
    | none => (.error ("key " ++ quote u kid ++ " not found in JWKS"), a)

/-- From a URL on, a call of an authenticator alone does that. -/
theorem iterate_authenticator (net : Authn.Net) (docs : Authn.Docs) (u : Unicode)
    (a : Authn.Authenticator) (discovered : Except String String) (s : State) (i : Nat)
    (kid : String) (n : Nat) (hn : 3 ≤ n)
    (h : s.calls i = some { kid := kid, phase := .located a.jwksURL })
    (hurl : s.jwksURL = a.jwksURL) (hkeys : s.keys = a.keys) :
    Leaves ((fun s : State => s.advance (Authn.Authenticator.cacheKind u) discovered
        (fetchSet net docs) i)^[n] s) i (afterFetch net docs u a kid).1
      (afterFetch net docs u a kid).2.jwksURL (afterFetch net docs u a kid).2.keys := by
  have hends := iterate_located (Authn.Authenticator.cacheKind u) discovered (fetchSet net docs) s i
    kid a.jwksURL n hn h
  rw [hurl, hkeys] at hends
  unfold afterFetch
  rw [fetchKeys_eq]
  cases hset : fetchSet net docs a.jwksURL with
  | error e => exact hends.1 e hset
  | ok jwks =>
      have hleaves := hends.2 jwks hset
      have hstored : State.storedKeys (Authn.Authenticator.cacheKind u) a.keys jwks =
          Authn.addKeys a.keys jwks := rfl
      unfold State.answer at hleaves
      rw [hstored] at hleaves
      simp only [Except.map] at hleaves ⊢
      cases hfound : (Authn.addKeys a.keys jwks).lookup kid with
      | some key =>
          rw [hfound] at hleaves
          exact hleaves
      | none =>
          rw [hfound] at hleaves
          exact hleaves

/-- `keyFunc` of an authenticator after a miss, at a URL it has. -/
theorem keyFunc_known (net : Authn.Net) (docs : Authn.Docs) (u : Unicode)
    (a : Authn.Authenticator) (t : Jwt) (kid : String)
    (hrsa : ¬isSigningMethodRSA t.header = false) (hkid : t.header.lookup "kid" = some (.str kid))
    (hmiss : a.keys.lookup kid = none) (hurl : a.jwksURL ≠ "") :
    a.keyFunc net docs u t = afterFetch net docs u a kid := by
  unfold Authn.Authenticator.keyFunc Authn.Authenticator.fetchJWKS afterFetch
  rw [if_neg hrsa, hkid]
  simp only [hmiss, if_neg hurl]
  cases a.fetchKeys net docs with
  | error e => rfl
  | ok b => rfl

/-- `keyFunc` of an authenticator after a miss, at a URL it discovers. -/
theorem keyFunc_discovered (net : Authn.Net) (docs : Authn.Docs) (u : Unicode)
    (a : Authn.Authenticator) (t : Jwt) (kid url : String)
    (hrsa : ¬isSigningMethodRSA t.header = false) (hkid : t.header.lookup "kid" = some (.str kid))
    (hmiss : a.keys.lookup kid = none) (hurl : a.jwksURL = "")
    (hdisc : a.discoverJWKSURL net docs u = .ok url) :
    a.keyFunc net docs u t = afterFetch net docs u { a with jwksURL := url } kid := by
  unfold Authn.Authenticator.keyFunc Authn.Authenticator.fetchJWKS afterFetch
  rw [if_neg hrsa, hkid]
  simp only [hmiss, if_pos hurl, hdisc, Except.map]
  cases Authn.Authenticator.fetchKeys net docs { a with jwksURL := url } with
  | error e => rfl
  | ok b => rfl

/-- `keyFunc` of an authenticator after a miss, when discovery fails. -/
theorem keyFunc_undiscovered (net : Authn.Net) (docs : Authn.Docs) (u : Unicode)
    (a : Authn.Authenticator) (t : Jwt) (kid e : String)
    (hrsa : ¬isSigningMethodRSA t.header = false) (hkid : t.header.lookup "kid" = some (.str kid))
    (hmiss : a.keys.lookup kid = none) (hurl : a.jwksURL = "")
    (hdisc : a.discoverJWKSURL net docs u = .error e) :
    a.keyFunc net docs u t = (.error ("fetching JWKS: " ++ e), a) := by
  unfold Authn.Authenticator.keyFunc Authn.Authenticator.fetchJWKS
  rw [if_neg hrsa, hkid]
  simp only [hmiss, if_pos hurl, hdisc, Except.map]

/-- A call of an authenticator that no other comes between answers what `keyFunc`
    answers, and leaves the URL and the keys it leaves. -/
theorem alone_authenticator (net : Authn.Net) (docs : Authn.Docs) (u : Unicode)
    (a : Authn.Authenticator) (s : State) (i : Nat) (t : Jwt) (hurl : s.jwksURL = a.jwksURL)
    (hkeys : s.keys = a.keys) :
    Leaves (s.alone (Authn.Authenticator.cacheKind u) (a.discoverJWKSURL net docs u)
        (fetchSet net docs) i t) i (a.keyFunc net docs u t).1 (a.keyFunc net docs u t).2.jwksURL
      (a.keyFunc net docs u t).2.keys := by
  by_cases hrsa : isSigningMethodRSA t.header = false
  · unfold Authn.Authenticator.keyFunc
    rw [if_pos hrsa, ← hurl, ← hkeys]
    refine alone_of_answered _ _ _ s i t "" _ ?_
    unfold State.look Authn.Authenticator.cacheKind
    simp only [if_pos hrsa]
  by_cases hnamed : ∃ kid, t.header.lookup "kid" = some (.str kid)
  · rcases hnamed with ⟨kid, hkid⟩
    have hkind : (Authn.Authenticator.cacheKind u).kidOf t = .ok kid := by
      unfold Authn.Authenticator.cacheKind
      simp only [if_neg hrsa, hkid]
    cases hlookup : a.keys.lookup kid with
    | some key =>
        unfold Authn.Authenticator.keyFunc
        rw [if_neg hrsa, hkid]
        simp only [hlookup]
        rw [← hurl, ← hkeys]
        refine alone_of_answered _ _ _ s i t kid _ ?_
        unfold State.look
        rw [hkind, hkeys]
        simp only [hlookup]
    | none =>
        have hmiss : s.look (Authn.Authenticator.cacheKind u) i t = s.put i kid .missed := by
          unfold State.look
          rw [hkind, hkeys]
          simp only [hlookup]
        by_cases hempty : a.jwksURL = ""
        · rw [alone_of_unknown _ _ _ s i t kid hmiss ⟨rfl, hurl.trans hempty⟩]
          cases hdisc : a.discoverJWKSURL net docs u with
          | error e =>
              rw [keyFunc_undiscovered net docs u a t kid e hrsa hkid hlookup hempty hdisc]
              have hanswered := State.put_calls (s.put i kid .discovering) i kid
                (.answered (.error ("fetching JWKS: " ++ e)))
              simp only [State.discover]
              rw [iterate_answered _ _ _ _ i kid _ hanswered 3]
              exact ⟨⟨kid, hanswered⟩, hurl, hkeys⟩
          | ok url =>
              rw [keyFunc_discovered net docs u a t kid url hrsa hkid hlookup hempty hdisc]
              exact iterate_authenticator net docs u { a with jwksURL := url } _ _ i kid 3
                (by decide) (State.put_calls _ i kid _) rfl hkeys
        · have hknown : ¬((Authn.Authenticator.cacheKind u).discovers = true ∧ s.jwksURL = "") :=
            fun h => hempty (hurl.symm.trans h.2)
          rw [keyFunc_known net docs u a t kid hrsa hkid hlookup hempty,
            alone_of_known _ _ _ s i t kid hmiss hknown]
          refine iterate_authenticator net docs u a _ _ i kid 4 (by decide) ?_ hurl hkeys
          rw [State.put_calls, hurl]
  · -- The header has no identifier, or one that is not a string.
    have herror : a.keyFunc net docs u t = (.error "missing kid in token header", a) := by
      unfold Authn.Authenticator.keyFunc
      rw [if_neg hrsa]
      split
      · rename_i kid hkid
        exact absurd ⟨kid, hkid⟩ hnamed
      · rfl
    rw [herror, ← hurl, ← hkeys]
    refine alone_of_answered _ _ _ s i t "" _ ?_
    unfold State.look Authn.Authenticator.cacheKind
    simp only [if_neg hrsa]
    split
    · rename_i e he
      split at he
      · cases he
      · cases he
        rfl
    · rename_i kid hkid
      split at hkid
      · rename_i kid' hkid'
        exact absurd ⟨kid', hkid'⟩ hnamed
      · cases hkid

/-- What `advance` does is a step of the call, or nothing when the call has answered. -/
theorem advance_step (url : String) (s : State) (i : Nat) :
    s.advance K discovered fetched i = s ∨
      ∃ e, e.call = i ∧ (calls K url).step s e (s.advance K discovered fetched i) := by
  unfold State.advance
  cases hcall : s.calls i with
  | none => exact Or.inl rfl
  | some c =>
      rcases c with ⟨kid, phase⟩
      cases phase with
      | missed => exact Or.inr ⟨.readURL i, rfl, .readURL s i kid hcall⟩
      | discovering => exact Or.inr ⟨.discover i discovered, rfl, .discover s i kid _ hcall⟩
      | located url' =>
          exact Or.inr ⟨.fetch i url' (fetched url'), rfl, .fetch s i kid url' _ hcall⟩
      | fetched jwks => exact Or.inr ⟨.store i jwks, rfl, .store s i kid jwks hcall⟩
      | stored => exact Or.inr ⟨.lookAgain i, rfl, .lookAgain s i kid hcall⟩
      | answered result => exact Or.inl rfl

/-- A call alone is a run of steps of that call. -/
theorem alone_run (url : String) (s : State) (i : Nat) (t : Jwt) (h : s.calls i = none) :
    ∃ es, (calls K url).Run s es (s.alone K discovered fetched i t) ∧ ∀ e ∈ es, e.call = i := by
  have hlook : (calls K url).Run s [.look i t] (s.look K i t) :=
    .snoc [] s _ _ .nil (.look s i t h)
  unfold State.alone
  generalize 5 = n
  induction n with
  | zero => exact ⟨_, hlook, fun e he => by rw [List.mem_singleton.mp he]; rfl⟩
  | succ n ih =>
      rcases ih with ⟨es, hrun, hes⟩
      rw [Function.iterate_succ_apply']
      rcases advance_step K discovered fetched url
        ((fun s : State => s.advance K discovered fetched i)^[n] (s.look K i t)) i with
        hsame | ⟨e, he, hstep⟩
      · rw [hsame]
        exact ⟨es, hrun, hes⟩
      · refine ⟨es ++ [e], .snoc es _ e _ hrun hstep, fun e' he' => ?_⟩
        rcases List.mem_append.mp he' with he' | he'
        · exact hes e' he'
        · rw [List.mem_singleton.mp he', he]

/-- A cache on which a call has not started, whatever other calls do. -/
def idle (jwksURL : String) (keys : GoMap String RsaPublicKey) (others : Nat → Option Call)
    (i : Nat) : State where
  jwksURL := jwksURL
  keys := keys
  calls := Function.update others i none

/-- Both verifiers, with any other calls under way: a call that no other comes between
    is a run of its own steps that ends with what `keyFunc` answers and leaves what
    `keyFunc` leaves. -/
theorem alone_is_keyFunc (env : Authn.Env) (others : Nat → Option Call) (i : Nat) (t : Jwt) :
    (∀ (v : Verify.Verifier) (discovered : Except String String),
      let s := idle v.jwksURL v.keys others i
      let s' := s.alone (v.cacheKind env.unicode) discovered (fetchSet env.net env.docs) i t
      Leaves s' i (v.keyFunc env t).1 v.jwksURL (v.keyFunc env t).2.keys ∧
        ∃ es, (calls (v.cacheKind env.unicode) v.jwksURL).Run s es s' ∧ ∀ e ∈ es, e.call = i) ∧
    ∀ a : Authn.Authenticator,
      let s := idle a.jwksURL a.keys others i
      let s' := s.alone (Authn.Authenticator.cacheKind env.unicode)
        (a.discoverJWKSURL env.net env.docs env.unicode) (fetchSet env.net env.docs) i t
      let after := a.keyFunc env.net env.docs env.unicode t
      Leaves s' i after.1 after.2.jwksURL after.2.keys ∧
        ∃ es, (calls (Authn.Authenticator.cacheKind env.unicode) a.jwksURL).Run s es s' ∧
          ∀ e ∈ es, e.call = i := by
  constructor
  · intro v discovered
    exact ⟨alone_verifier env v _ i t discovered rfl rfl,
      alone_run _ _ _ v.jwksURL _ i t (Function.update_self ..)⟩
  · intro a
    exact ⟨alone_authenticator env.net env.docs env.unicode a _ i t rfl rfl,
      alone_run _ _ _ a.jwksURL _ i t (Function.update_self ..)⟩

end Alone

end KeyCache

namespace Authn

open KeyCache

/-- A URL that a discovery document names, fetched in given surroundings: the document
    is for the issuer the authenticator is configured for. -/
def Named (env : Env) (a : Authenticator) (url : String) : Prop :=
  ∃ body disco, fetch env.net "OIDC discovery" "OIDC discovery endpoint returned status "
      a.discoveryURL = .ok body ∧ env.docs.discovery body = .ok disco ∧
    disco.issuer = a.issuerURL ∧ disco.jwksURI = url ∧ url ≠ ""

theorem named_of_discoverJWKSURL (env : Env) (a : Authenticator) (u : Unicode) (url : String)
    (h : a.discoverJWKSURL env.net env.docs u = .ok url) : Named env a url := by
  unfold Authenticator.discoverJWKSURL at h
  rw [bind_eq_ok] at h
  rcases h with ⟨body, hbody, h⟩
  cases hdisco : env.docs.discovery body with
  | error e =>
      rw [hdisco] at h
      cases h
  | ok disco =>
      rw [hdisco] at h
      simp only [ite_error_eq_ok, Except.ok.injEq] at h
      rcases h with ⟨hissuer, huri, hurl⟩
      exact ⟨body, disco, hbody, hdisco, not_not.mp hissuer, hurl, hurl ▸ huri⟩

/-- The requests of a call are answered in surroundings that occur. -/
def Within (W : Env → Prop) (a : Authenticator) : Event → Prop
  | .discover _ outcome =>
    ∃ env, W env ∧ outcome = a.discoverJWKSURL env.net env.docs env.unicode
  | .fetch _ url outcome => ∃ env, W env ∧ outcome = fetchSet env.net env.docs url
  | _ => True

/-- A URL an authenticator may take keys from. -/
def MayFetch (W : Env → Prop) (a : Authenticator) (url : String) : Prop :=
  url ≠ "" ∧ url = a.jwksURL ∨ ∃ env, W env ∧ Named env a url

/-- A key set that was served at such a URL. -/
def Served (W : Env → Prop) (a : Authenticator) (jwks : List JwkKey) : Prop :=
  ∃ url env, MayFetch W a url ∧ W env ∧ fetchSet env.net env.docs url = .ok jwks

/-- What an authenticator trusts. -/
def trusted (W : Env → Prop) (a : Authenticator) (u : Unicode) :
    Trusted (Authenticator.cacheKind u) where
  url := MayFetch W a
  set := Served W a
  keys := fun m => ∀ kid key, m.lookup kid = some key →
    ∃ jwks, Served W a jwks ∧ documentKey jwks kid = some key
  answer := fun kid key => ∃ jwks, Served W a jwks ∧ documentKey jwks kid = some key
  lookup := fun m kid key hm h => hm kid key h
  store := by
    intro m jwks hm hjwks kid key h
    unfold State.storedKeys at h
    rw [lookup_addKeys, Option.or_eq_some_iff] at h
    rcases h with h | ⟨_, h⟩
    · exact ⟨jwks, hjwks, h⟩
    · exact hm kid key h

theorem network_of_within (W : Env → Prop) (a : Authenticator) (u : Unicode) (e : Event)
    (h : Within W a e) : (trusted W a u).network e := by
  cases e with
  | discover i outcome =>
      rcases h with ⟨env, henv, rfl⟩
      cases hdisc : a.discoverJWKSURL env.net env.docs env.unicode with
      | error e => trivial
      | ok url => exact Or.inr ⟨env, henv, named_of_discoverJWKSURL env a _ url hdisc⟩
  | fetch i url outcome =>
      rcases h with ⟨env, henv, rfl⟩
      cases hset : fetchSet env.net env.docs url with
      | error e => trivial
      | ok jwks => exact fun hurl => ⟨url, env, hurl, henv, hset⟩
  | look i t => trivial
  | readURL i => trivial
  | store i jwks => trivial
  | lookAgain i => trivial

/-- In every order of overlapping calls, a key an authenticator's call answers with is
    the key under the token's identifier in a key set that was served at the
    configured URL, or at one that a discovery document for the configured issuer
    named. The same holds of every cached key. -/
theorem keys_from_trusted (W : Env → Prop) (a : Authenticator) (u : Unicode) (s : State)
    (hr : ((calls (Authenticator.cacheKind u) a.jwksURL).restrict
      fun _ e => Within W a e).Reachable s) :
    (∀ i c key, s.calls i = some c → c.phase = .answered (.ok key) →
      ∃ jwks, Served W a jwks ∧ documentKey jwks c.kid = some key) ∧
    ∀ kid key, s.keys.lookup kid = some key →
      ∃ jwks, Served W a jwks ∧ documentKey jwks kid = some key := by
  have hinv : CallInv (trusted W a u) s := by
    refine System.invariant (CallInv (trusted W a u)) ?_ ?_ s hr
    · rintro s rfl
      refine ⟨?_, ?_, fun i c hc => by cases hc⟩
      · by_cases hempty : a.jwksURL = ""
        · exact Or.inr ⟨rfl, hempty⟩
        · exact Or.inl (Or.inl ⟨hempty, rfl⟩)
      · intro kid key h
        rw [Finmap.lookup_empty] at h
        cases h
    · intro s e s' hinv hstep
      exact callInv_step s s' e hinv (network_of_within W a u e hstep.1) hstep.2
  exact ⟨fun i c key hc hkey => (hinv.calls i c hc).2.2 key hkey, hinv.keys⟩

/-- A provider that answers discovery and serves one key. -/
def providerEnv : Env :=
  { Tts.sampleEnv.toEnv with
    net := fun url => .ok { statusCode := 200, body := url }
    docs := { Tts.sampleEnv.docs with
      discovery := fun _ => .ok { issuer := "https://idp", jwksURI := "https://idp/keys" }
      jwks := fun _ => .ok [sampleJwk "k1"] } }

/-- An authenticator that has to discover the URL. -/
def discovering : Authenticator where
  issuerURL := "https://idp"
  discoveryURL := "https://idp/.well-known/openid-configuration"
  audiences := ["kontxt"]
  validationRules := []
  subjectMapping := { claim := "sub", expression := "" }
  subjectProgram := none
  extraMappings := []
  jwksURL := ""
  keys := ∅

/-- A call that discovers the URL and fetches has cached the key of the provider. -/
theorem keys_from_discovered :
    ∃ s, ((calls (Authenticator.cacheKind Unicode.ascii) discovering.jwksURL).restrict
        fun _ e => Within (· = providerEnv) discovering e).Reachable s ∧
      s.keys.lookup "k1" = some { n := 2773, e := 65537 } ∧
      ∃ jwks, Served (· = providerEnv) discovering jwks ∧
        documentKey jwks "k1" = some { n := 2773, e := 65537 } := by
  let t : Jwt := { header := [("alg", .str "RS256"), ("kid", .str "k1")], claims := [] }
  have hinit : ((calls (Authenticator.cacheKind Unicode.ascii) discovering.jwksURL).restrict
      fun _ e => Within (· = providerEnv) discovering e).Reachable _ :=
    .init _ rfl
  have hlook := hinit.next_restrict (.look 0 t) _ trivial (.look _ 0 t rfl)
  have hread := hlook.next_restrict (.readURL 0) _ trivial (.readURL _ 0 "k1" rfl)
  have hdiscover := hread.next_restrict (.discover 0 (.ok "https://idp/keys")) _
    ⟨providerEnv, rfl, rfl⟩ (.discover _ 0 "k1" _ rfl)
  have hfetch := hdiscover.next_restrict (.fetch 0 "https://idp/keys" (.ok [sampleJwk "k1"])) _
    ⟨providerEnv, rfl, rfl⟩ (.fetch _ 0 "k1" _ _ rfl)
  have hstore := hfetch.next_restrict (.store 0 [sampleJwk "k1"]) _ trivial
    (.store _ 0 "k1" _ rfl)
  have hkey : (addKeys ∅ [sampleJwk "k1"]).lookup "k1" = some { n := 2773, e := 65537 } := by
    rw [lookup_addKeys, Finmap.lookup_empty, Option.or_none]
    decide
  exact ⟨_, hstore, hkey, (keys_from_trusted _ discovering _ _ hstore).2 "k1" _ hkey⟩

end Authn

namespace Keys

open KeyCache

/-- The key set the endpoint serves for some entries. -/
def documentOf (es : List KeyEntry) : List Authn.JwkKey :=
  es.map fun e => (newPublicKey e).jwkKey

theorem document_publicKeys (m : Manager) :
    m.publicKeys.map PublicKey.jwkKey = documentOf m.entries := by
  rw [publicKeys_eq_map, List.map_map]
  rfl

/-- The entries that were published together at some time: two neighbours in the
    order of generation, or the first alone. -/
def Published (generated es : List KeyEntry) : Prop :=
  ∃ n, es = (generated.drop n).take 2

theorem Published.cons {generated es : List KeyEntry} (h : Published generated es)
    (entry : KeyEntry) : Published (entry :: generated) es := by
  rcases h with ⟨n, hn⟩
  exact ⟨n + 1, hn⟩

theorem Published.sublist {generated es : List KeyEntry} (h : Published generated es) :
    es.Sublist generated := by
  rcases h with ⟨n, rfl⟩
  exact (List.take_sublist 2 _).trans (List.drop_sublist n _)

/-- The entries of a manager at work: their exponents are in range and their
    identifiers distinct and not empty. -/
structure Distinct (generated : List KeyEntry) : Prop where
  inRange : ∀ e ∈ generated, InRange e
  named : ∀ e ∈ generated, e.kid ≠ ""
  nodup : (generated.map KeyEntry.kid).Nodup

theorem Distinct.lookup_cacheOf {generated es : List KeyEntry} (h : Distinct generated)
    (hes : es.Sublist generated) (kid : String) (key : RsaPublicKey) :
    (cacheOf es).lookup kid = some key ↔ ∃ e ∈ es, e.kid = kid ∧ e.privateKey.publicKey = key :=
  Keys.lookup_cacheOf es (fun e he => h.inRange e (hes.subset he)) (h.nodup.sublist (hes.map _))
    kid key

/-- What a verifier that replaces its keys trusts while the manager rotates. An empty
    cache is that of no entries. -/
def trusted (K : Kind) (hkeeps : K.keeps = false) (generated : List KeyEntry)
    (hdistinct : Distinct generated) : Trusted K where
  url := fun _ => True
  set := fun jwks => ∃ es, Published generated es ∧ jwks = documentOf es
  keys := fun m => ∃ es, Published generated es ∧ m = cacheOf es
  answer := fun kid key => ∃ e ∈ generated, e.kid = kid ∧ e.privateKey.publicKey = key
  lookup := by
    rintro m kid key ⟨es, hes, rfl⟩ hkey
    rcases (hdistinct.lookup_cacheOf hes.sublist kid key).mp hkey with ⟨e, he, hentry⟩
    exact ⟨e, hes.sublist.subset he, hentry⟩
  store := by
    rintro m jwks _ ⟨es, hes, rfl⟩
    refine ⟨es, hes, ?_⟩
    unfold State.storedKeys cacheOf documentOf
    rw [hkeeps, if_neg Bool.false_ne_true]

/-- The manager has the two newest entries, the entries are distinct, and the cache
    and the calls hold what was published. -/
structure SharedInv (K : Kind) (hkeeps : K.keeps = false) (s : SharedRun) : Prop where
  window : s.manager.entries = s.generated.take 2
  distinct : Distinct s.generated
  calls : CallInv (trusted K hkeeps s.generated distinct) s.cache

variable {K : Kind} {hkeeps : K.keeps = false} {sum256 : List Nat → Vector Nat 32}

/-- What was published stays so when an entry is generated. -/
theorem callInv_cons (generated : List KeyEntry) (entry : KeyEntry)
    (hdistinct : Distinct generated) (hdistinct' : Distinct (entry :: generated)) (s : State)
    (h : CallInv (trusted K hkeeps generated hdistinct) s) :
    CallInv (trusted K hkeeps (entry :: generated) hdistinct') s := by
  refine ⟨Or.inl trivial, ?_, fun i c hc => ⟨fun _ _ => trivial, ?_, ?_⟩⟩
  · rcases h.keys with ⟨es, hes, hkeys⟩
    exact ⟨es, hes.cons entry, hkeys⟩
  · intro jwks hphase
    rcases (h.calls i c hc).2.1 jwks hphase with ⟨es, hes, hjwks⟩
    exact ⟨es, hes.cons entry, hjwks⟩
  · intro key hphase
    rcases (h.calls i c hc).2.2 key hphase with ⟨e, he, hentry⟩
    exact ⟨e, List.mem_cons_of_mem _ he, hentry⟩

theorem sharedInv_init (jwksURL : String) (s : SharedRun)
    (h : (sharedRuns K sum256 jwksURL).init s) : SharedInv K hkeeps s := by
  rcases h with ⟨key, hexp, rfl⟩
  have hdistinct : Distinct [generateKey sum256 key] := by
    refine ⟨fun e he => ?_, fun e he => ?_, List.nodup_singleton _⟩
    · rw [List.mem_singleton.mp he]
      exact inRange_generateKey sum256 key hexp
    · rw [List.mem_singleton.mp he]
      exact computeKid_ne sum256 key.publicKey
  exact ⟨rfl, hdistinct, Or.inl trivial, ⟨[], ⟨1, rfl⟩, rfl⟩, fun i c hc => by cases hc⟩

theorem sharedInv_step (s s' : SharedRun) (e : SharedEvent) (hinv : SharedInv K hkeeps s)
    (hstep : SharedRun.Step K sum256 s e s') : SharedInv K hkeeps s' := by
  cases hstep with
  | rotate key hexp hfresh =>
      have hdistinct : Distinct (generateKey sum256 key :: s.generated) := by
        refine ⟨fun e he => ?_, fun e he => ?_, List.nodup_cons.mpr ⟨hfresh, hinv.distinct.nodup⟩⟩
        · rcases List.mem_cons.mp he with rfl | he
          · exact inRange_generateKey sum256 key hexp
          · exact hinv.distinct.inRange e he
        · rcases List.mem_cons.mp he with rfl | he
          · exact computeKid_ne sum256 key.publicKey
          · exact hinv.distinct.named e he
      exact ⟨entries_rotate s.manager _ s.generated hinv.window, hdistinct,
        callInv_cons s.generated _ hinv.distinct hdistinct s.cache hinv.calls⟩
  | call e cache hanswers hstep =>
      refine ⟨hinv.window, hinv.distinct, callInv_step s.cache cache e hinv.calls ?_ hstep⟩
      -- Only a request that gives a key set says anything about what is published.
      cases e with
      | fetch i url outcome =>
          cases outcome with
          | error err => trivial
          | ok jwks =>
              intro _
              refine ⟨s.manager.entries, ⟨0, hinv.window⟩, ?_⟩
              rw [← document_publicKeys]
              exact hanswers
      | discover i outcome =>
          cases outcome with
          | error err => trivial
          | ok url => trivial
      | look i t => trivial
      | readURL i => trivial
      | store i jwks => trivial
      | lookAgain i => trivial

theorem sharedInv_of_reachable (hkeeps : K.keeps = false) (jwksURL : String) (s : SharedRun)
    (hr : (sharedRuns K sum256 jwksURL).Reachable s) : SharedInv K hkeeps s :=
  System.invariant (SharedInv K hkeeps) (sharedInv_init jwksURL)
    (fun s e s' hinv hstep => sharedInv_step s s' e hinv hstep) s hr

/-- In every order of rotations and overlapping lookups, a cache that is replaced is
    that of entries which were published together, at most two, and a call that
    answers with a key answers with that of the one entry its identifier was made
    for. -/
theorem shared_rotation_sound (K : Kind) (sum256 : List Nat → Vector Nat 32) (jwksURL : String)
    (hkeeps : K.keeps = false) (s : SharedRun)
    (hr : (sharedRuns K sum256 jwksURL).Reachable s) :
    (∃ n, s.cache.keys = cacheOf ((s.generated.drop n).take 2) ∧
      ∀ kid key, s.cache.keys.lookup kid = some key ↔
        ∃ e ∈ (s.generated.drop n).take 2, e.kid = kid ∧ e.privateKey.publicKey = key) ∧
    ∀ i c key, s.cache.calls i = some c → c.phase = .answered (.ok key) →
      ∃ e ∈ s.generated, e.kid = c.kid ∧ e.privateKey.publicKey = key ∧
        ∀ e' ∈ s.generated, e'.kid = c.kid → e' = e := by
  have hinv : SharedInv K hkeeps s := sharedInv_of_reachable hkeeps jwksURL s hr
  constructor
  · rcases hinv.calls.keys with ⟨es, ⟨n, rfl⟩, hkeys⟩
    refine ⟨n, hkeys, fun kid key => ?_⟩
    rw [hkeys]
    exact hinv.distinct.lookup_cacheOf (Published.sublist ⟨n, rfl⟩) kid key
  · intro i c key hc hphase
    rcases (hinv.calls.calls i c hc).2.2 key hphase with ⟨e, he, hkid, hkey⟩
    exact ⟨e, he, hkid, hkey, fun e' he' hkid' =>
      eq_of_kid s.generated hinv.distinct.nodup e' e he' he (hkid'.trans hkid.symm)⟩

/-- A manager with its first key, and a verifier with an empty cache. -/
def sharedStart : SharedRun where
  manager := .new (generateKey sampleHash firstKey)
  generated := [generateKey sampleHash firstKey]
  cache := { jwksURL := "https://tts/jwks", keys := ∅, calls := fun _ => none }

/-- The manager and a verifier of its tokens, with two keys. -/
def sampleShared : System SharedRun SharedEvent :=
  sharedRuns sampleKind sampleHash "https://tts/jwks"

theorem sharedStart_reachable : sampleShared.Reachable sharedStart :=
  .init _ ⟨firstKey, rfl, rfl⟩

/-- A token signed with the second key. -/
def secondJwt : Jwt :=
  Token.newJwt (Tts.sampleClaims "read") "b1e33f5b0ef61cf3" (15 * second) 0 ""

/-- The key set before the rotation. -/
def oldSet : List Authn.JwkKey :=
  documentOf [generateKey sampleHash firstKey]

/-- The key set after it. -/
def newSet : List Authn.JwkKey :=
  documentOf [generateKey sampleHash secondKey, generateKey sampleHash firstKey]

/-- A lookup up to its reply. -/
def replied (i : Nat) (t : Jwt) (jwks : List Authn.JwkKey) : List SharedEvent :=
  [.call (.look i t), .call (.readURL i), .call (.fetch i "https://tts/jwks" (.ok jwks))]

/-- A lookup that misses its key gets the key set that is published. -/
theorem replied_run (s : SharedRun) (i : Nat) (t : Jwt) (kid : String)
    (hkid : sampleKind.kidOf t = .ok kid) (hfree : s.cache.calls i = none)
    (hmissed : s.cache.keys.lookup kid = none) (hurl : s.cache.jwksURL = "https://tts/jwks") :
    sampleShared.Run s (replied i t (documentOf s.manager.entries))
      { s with cache := s.cache.put i kid (.fetched (documentOf s.manager.entries)) } := by
  have hlook : s.cache.look sampleKind i t = s.cache.put i kid .missed := by
    unfold State.look
    rw [hkid]
    simp only [hmissed]
  have hread : (s.cache.put i kid .missed).readURL sampleKind i kid =
      s.cache.put i kid (.located "https://tts/jwks") := by
    have hknown : ¬(sampleKind.discovers = true ∧ (s.cache.put i kid .missed).jwksURL = "") :=
      fun h => absurd h.1 (by decide)
    unfold State.readURL
    rw [if_neg hknown, put_put]
    exact congrArg (fun url => s.cache.put i kid (.located url)) hurl
  let s₁ : SharedRun := { s with cache := s.cache.put i kid .missed }
  let s₂ : SharedRun := { s with cache := s.cache.put i kid (.located "https://tts/jwks") }
  have h₁ : sampleShared.step s (.call (.look i t)) s₁ := by
    have hstep := KeyCache.Step.look (K := sampleKind) s.cache i t hfree
    rw [hlook] at hstep
    exact .call s _ _ trivial hstep
  have h₂ : sampleShared.step s₁ (.call (.readURL i)) s₂ := by
    have hstep := KeyCache.Step.readURL (K := sampleKind) s₁.cache i kid (s.cache.put_calls ..)
    rw [hread] at hstep
    exact .call s₁ _ _ trivial hstep
  have h₃ : sampleShared.step s₂
      (.call (.fetch i "https://tts/jwks" (.ok (documentOf s.manager.entries))))
      { s with cache := s.cache.put i kid (.fetched (documentOf s.manager.entries)) } := by
    have hstep := KeyCache.Step.fetch (K := sampleKind) s₂.cache i kid "https://tts/jwks"
      (.ok (documentOf s.manager.entries)) (s.cache.put_calls ..)
    rw [State.fetch, put_put] at hstep
    exact .call s₂ _ _ (document_publicKeys s.manager).symm hstep
  exact ((System.Run.nil.snoc _ _ _ _ h₁).snoc _ _ _ _ h₂).snoc _ _ _ _ h₃

/-- A lookup of the first key has its reply when the manager rotates. A lookup of the second
    one is replied to after that, and then the first lookup stores the old key set. -/
def overlap : List SharedEvent :=
  replied 0 rotatedJwt oldSet ++ [.rotate secondKey] ++ replied 1 secondJwt newSet ++
    [.call (.store 0 oldSet)]

/-- The old key set is cached, and the new one is under way. -/
def overlapped : SharedRun where
  manager := sharedStart.manager.rotate (generateKey sampleHash secondKey)
  generated := generateKey sampleHash secondKey :: sharedStart.generated
  cache := ((sharedStart.cache.put 0 "e2e6d79b3f9ba9e4" (.fetched oldSet)).put 1
    "b1e33f5b0ef61cf3" (.fetched newSet)).store sampleKind 0 "e2e6d79b3f9ba9e4" oldSet

theorem overlap_run : sampleShared.Run sharedStart overlap overlapped := by
  let s₁ : SharedRun :=
    { sharedStart with cache := sharedStart.cache.put 0 "e2e6d79b3f9ba9e4" (.fetched oldSet) }
  let s₂ : SharedRun :=
    { s₁ with
      manager := sharedStart.manager.rotate (generateKey sampleHash secondKey)
      generated := generateKey sampleHash secondKey :: sharedStart.generated }
  let s₃ : SharedRun := { s₂ with cache := s₂.cache.put 1 "b1e33f5b0ef61cf3" (.fetched newSet) }
  have h₁ : sampleShared.Run sharedStart (replied 0 rotatedJwt oldSet) s₁ :=
    replied_run sharedStart 0 rotatedJwt _ (by decide) rfl (Finmap.lookup_empty _) rfl
  have h₂ : sampleShared.step s₁ (.rotate secondKey) s₂ := .rotate s₁ secondKey rfl (by decide)
  have h₃ : sampleShared.Run s₂ (replied 1 secondJwt newSet) s₃ :=
    replied_run s₂ 1 secondJwt _ (by decide) rfl (Finmap.lookup_empty _) rfl
  have h₄ : sampleShared.step s₃ (.call (.store 0 oldSet)) overlapped :=
    .call s₃ _ _ trivial (.store s₃.cache 0 "e2e6d79b3f9ba9e4" oldSet rfl)
  exact ((h₁.snoc _ _ _ _ h₂).append h₃).snoc _ _ _ _ h₄

/-- Another lookup of the second key is replied to, and both store the new key set. -/
def later : List SharedEvent :=
  replied 2 secondJwt newSet ++
    [.call (.store 1 newSet), .call (.store 2 newSet), .call (.lookAgain 2)]

theorem later_run : ∃ s, sampleShared.Run overlapped later s ∧
    s.manager = overlapped.manager ∧
    s.cache.calls 2 = some
      { kid := "b1e33f5b0ef61cf3", phase := .answered (.ok secondKey.publicKey) } := by
  have hmissed : overlapped.cache.keys.lookup "b1e33f5b0ef61cf3" = none := by
    have hkeys : overlapped.cache.keys = Authn.addKeys ∅ oldSet := rfl
    rw [hkeys, Authn.lookup_addKeys, Finmap.lookup_empty, Option.or_none]
    decide
  let s₁ : SharedRun :=
    { overlapped with cache := overlapped.cache.put 2 "b1e33f5b0ef61cf3" (.fetched newSet) }
  let s₂ : SharedRun :=
    { s₁ with cache := s₁.cache.store sampleKind 1 "b1e33f5b0ef61cf3" newSet }
  let s₃ : SharedRun :=
    { s₂ with cache := s₂.cache.store sampleKind 2 "b1e33f5b0ef61cf3" newSet }
  have h₁ : sampleShared.Run overlapped (replied 2 secondJwt newSet) s₁ :=
    replied_run overlapped 2 secondJwt _ (by decide) rfl hmissed rfl
  have h₂ : sampleShared.step s₁ (.call (.store 1 newSet)) s₂ :=
    .call s₁ _ _ trivial (.store s₁.cache 1 "b1e33f5b0ef61cf3" newSet rfl)
  have h₃ : sampleShared.step s₂ (.call (.store 2 newSet)) s₃ :=
    .call s₂ _ _ trivial (.store s₂.cache 2 "b1e33f5b0ef61cf3" newSet rfl)
  have h₄ : sampleShared.step s₃ (.call (.lookAgain 2)) _ :=
    .call s₃ _ _ trivial (.lookAgain s₃.cache 2 "b1e33f5b0ef61cf3" rfl)
  have hanswer : s₃.cache.answer sampleKind "b1e33f5b0ef61cf3" = .ok secondKey.publicKey := by
    have hkeys : s₃.cache.keys = Authn.addKeys ∅ newSet := rfl
    have hkey : (Authn.addKeys ∅ newSet).lookup "b1e33f5b0ef61cf3" = some secondKey.publicKey := by
      rw [Authn.lookup_addKeys, Finmap.lookup_empty, Option.or_none]
      decide
    unfold State.answer
    rw [hkeys, hkey]
  refine ⟨_, ((h₁.snoc _ _ _ _ h₂).snoc _ _ _ _ h₃).snoc _ _ _ _ h₄, rfl, ?_⟩
  refine (State.put_calls ..).trans ?_
  rw [hanswer]

theorem overlapped_reachable : sampleShared.Reachable overlapped :=
  overlap_run.reachable sharedStart_reachable

/-- After a rotation between overlapping lookups, the last one found the key of the second
    entry. -/
theorem shared_rotation_overlap :
    ∃ s, sampleShared.Run sharedStart (overlap ++ later) s ∧
      (∃ n, s.cache.keys = cacheOf ((s.generated.drop n).take 2)) ∧
      ∃ c, s.cache.calls 2 = some c ∧ c.phase = .answered (.ok secondKey.publicKey) ∧
        ∃ e ∈ s.generated, e.kid = c.kid ∧ e.privateKey.publicKey = secondKey.publicKey := by
  rcases later_run with ⟨s, hrun, _, hcall⟩
  have hr : sampleShared.Reachable s := hrun.reachable overlapped_reachable
  rcases shared_rotation_sound sampleKind sampleHash "https://tts/jwks" rfl s hr with
    ⟨⟨n, hcache, _⟩, hanswers⟩
  rcases hanswers 2 _ secondKey.publicKey hcall rfl with ⟨e, he, hkid, hkey, _⟩
  exact ⟨s, overlap_run.append hrun, ⟨n, hcache⟩, _, hcall, rfl, e, he, hkid, hkey⟩

/-- No reply with an older key set is under way. -/
def Settled (m : Manager) (s : State) : Prop :=
  ∀ i c jwks, s.calls i = some c → c.phase = .fetched jwks → jwks = documentOf m.entries

/-- How far a call has come that looks for one of the published keys: having stored, it
    looks into the published keys, and it answers with the key unless a request
    failed. -/
structure Finds (m : Manager) (s : State) (c : KeyCache.Call) : Prop where
  stored : c.phase = .stored → s.keys = cacheOf m.entries
  answered : ∀ result, c.phase = .answered result → ∀ e ∈ m.entries, e.kid = c.kid →
    result = .ok e.privateKey.publicKey ∨ ∃ err, result = .error ("fetching JWKS: " ++ err)

/-- Nothing older is under way, and the calls that started since find what they look
    for. -/
structure SettledInv (m : Manager) (started : Nat → Prop) (s : State) : Prop where
  settled : Settled m s
  finds : ∀ i c, started i → s.calls i = some c → Finds m s c

variable {m : Manager} {started : Nat → Prop}

/-- A call that moves on, and leaves the keys as they are. -/
theorem SettledInv.put {s : State} (h : SettledInv m started s) (i : Nat) (kid : String)
    (phase : KeyCache.Phase) (hset : ∀ jwks, phase = .fetched jwks → jwks = documentOf m.entries)
    (hfinds : started i → Finds m s { kid := kid, phase := phase }) :
    SettledInv m started (s.put i kid phase) := by
  constructor
  · intro j c jwks hc hphase
    rcases of_update_eq_some _ _ _ _ _ hc with ⟨_, heq⟩ | hold
    · cases heq
      exact hset jwks hphase
    · exact h.settled j c jwks hold hphase
  · intro j c hj hc
    rcases of_update_eq_some _ _ _ _ _ hc with ⟨hij, heq⟩ | hold
    · cases heq
      exact ⟨(hfinds (hij ▸ hj)).stored, (hfinds (hij ▸ hj)).answered⟩
    · exact ⟨(h.finds j c hj hold).stored, (h.finds j c hj hold).answered⟩

/-- A call that has neither stored nor answered has nothing to show yet. -/
theorem finds_of_pending (s : State) (kid : String) (phase : KeyCache.Phase)
    (hstored : phase ≠ .stored) (hanswered : ∀ result, phase ≠ .answered result) :
    Finds m s { kid := kid, phase := phase } :=
  ⟨fun h => absurd h hstored, fun result h => absurd h (hanswered result)⟩

theorem finds_of_failed (s : State) (kid err : String) :
    Finds m s { kid := kid, phase := .answered (.error ("fetching JWKS: " ++ err)) } := by
  refine ⟨by simp, fun result h e _ _ => Or.inr ⟨err, ?_⟩⟩
  cases h
  rfl

theorem SharedInv.mem_generated {s : SharedRun} (hinv : SharedInv K hkeeps s) (e : KeyEntry)
    (he : e ∈ s.manager.entries) : e ∈ s.generated := by
  rw [hinv.window] at he
  exact List.mem_of_mem_take he

/-- A key found under the identifier of a published entry is the entry's. -/
theorem finds_of_lookup {s : SharedRun} (hinv : SharedInv K hkeeps s) (kid : String)
    (key : RsaPublicKey) (hkey : s.cache.keys.lookup kid = some key) :
    Finds s.manager s.cache { kid := kid, phase := .answered (.ok key) } := by
  refine ⟨by simp, fun result h e he hkid => Or.inl ?_⟩
  cases h
  rcases (trusted K hkeeps s.generated hinv.distinct).lookup _ kid key hinv.calls.keys hkey with
    ⟨e', he', hkid', rfl⟩
  rw [eq_of_kid s.generated hinv.distinct.nodup e e' (hinv.mem_generated e he) he'
    (hkid.trans hkid'.symm)]

/-- A step of a call keeps it so, until the manager rotates. -/
theorem settledInv_step (s : SharedRun) (cache : State) (e : Event) (hinv : SharedInv K hkeeps s)
    (h : SettledInv s.manager started s.cache) (hanswers : AnsweredBy s.manager e)
    (hstep : KeyCache.Step K s.cache e cache) : SettledInv s.manager started cache := by
  cases hstep with
  | look i t hcall =>
      unfold State.look
      split
      · -- No entry has the empty identifier.
        refine h.put i _ _ (by simp) fun _ => ⟨by simp, fun _ _ e he hkid => ?_⟩
        exact absurd hkid (hinv.distinct.named e (hinv.mem_generated e he))
      · split
        · rename_i key hkey
          exact h.put i _ _ (by simp) fun _ => finds_of_lookup hinv _ key hkey
        · exact h.put i _ _ (by simp) fun _ => finds_of_pending _ _ _ (by simp) (by simp)
  | readURL i kid hcall =>
      unfold State.readURL
      split <;> exact h.put i _ _ (by simp) fun _ => finds_of_pending _ _ _ (by simp) (by simp)
  | discover i kid outcome hcall =>
      cases outcome with
      | error err => exact h.put i _ _ (by simp) fun _ => finds_of_failed _ _ err
      | ok url =>
          have hput := h.put i kid (.located url) (by simp)
            fun _ => finds_of_pending _ _ _ (by simp) (by simp)
          exact ⟨hput.settled, fun j c hj hc =>
            ⟨(hput.finds j c hj hc).stored, (hput.finds j c hj hc).answered⟩⟩
  | fetch i kid url outcome hcall =>
      cases outcome with
      | error err => exact h.put i _ _ (by simp) fun _ => finds_of_failed _ _ err
      | ok jwks =>
          refine h.put i _ _ (fun jwks' hphase => ?_)
            fun _ => finds_of_pending _ _ _ (by simp) (by simp)
          cases hphase
          rw [← document_publicKeys]
          exact hanswers
  | store i kid jwks hcall =>
      -- What is stored was fetched, so it is what is published.
      have hkeys : (s.cache.store K i kid jwks).keys = cacheOf s.manager.entries := by
        rw [h.settled i _ jwks hcall rfl]
        show State.storedKeys K s.cache.keys _ = _
        unfold State.storedKeys cacheOf documentOf
        rw [hkeeps, if_neg Bool.false_ne_true]
      constructor
      · intro j c jwks' hc hphase
        rcases of_update_eq_some _ _ _ _ _ hc with ⟨_, heq⟩ | hold
        · cases heq
          cases hphase
        · exact h.settled j c jwks' hold hphase
      · intro j c hj hc
        refine ⟨fun _ => hkeys, ?_⟩
        rcases of_update_eq_some _ _ _ _ _ hc with ⟨_, heq⟩ | hold
        · cases heq
          simp
        · exact (h.finds j c hj hold).answered
  | lookAgain i kid hcall =>
      refine h.put i _ _ (by simp) fun hi => ?_
      have hkeys : s.cache.keys = cacheOf s.manager.entries := (h.finds i _ hi hcall).stored rfl
      have hsub : s.manager.entries.Sublist s.generated := by
        rw [hinv.window]
        exact List.take_sublist 2 _
      refine ⟨by simp, fun result hphase e he hkid => Or.inl ?_⟩
      cases hphase
      unfold State.answer
      rw [hkeys, (hinv.distinct.lookup_cacheOf hsub kid _).mpr ⟨e, he, hkid, rfl⟩]

/-- Once no reply with an older key set is under way, and until the next rotation, a
    lookup that starts finds either of the two published keys, in every order of
    overlapping lookups and whatever the cache held, unless a request of its own
    fails. -/
theorem settled_call_finds (K : Kind) (sum256 : List Nat → Vector Nat 32) (jwksURL : String)
    (hkeeps : K.keeps = false) (s s' : SharedRun) (es : List SharedEvent)
    (hr : (sharedRuns K sum256 jwksURL).Reachable s) (hsettled : Settled s.manager s.cache)
    (hrun : (sharedRuns K sum256 jwksURL).Run s es s')
    (hnoRotation : ∀ e ∈ es, ∀ key, e ≠ .rotate key) (i : Nat) (c : KeyCache.Call)
    (result : Except String RsaPublicKey) (hnew : s.cache.calls i = none)
    (hcall : s'.cache.calls i = some c) (hanswered : c.phase = .answered result)
    (entry : KeyEntry) (hentry : entry ∈ s'.manager.entries) (hkid : entry.kid = c.kid) :
    result = .ok entry.privateKey.publicKey ∨
      ∃ err, result = .error ("fetching JWKS: " ++ err) := by
  -- The calls that start after the cache has settled are those that were not there.
  have hinv : SharedInv K hkeeps s' ∧
      SettledInv s'.manager (fun j => s.cache.calls j = none) s'.cache := by
    refine System.Run.induct (fun e => ∀ key, e ≠ .rotate key)
      (fun _ s' => SharedInv K hkeeps s' ∧
        SettledInv s'.manager (fun j => s.cache.calls j = none) s'.cache) hrun hnoRotation ?_ ?_
    · refine ⟨sharedInv_of_reachable hkeeps jwksURL s hr, hsettled, fun j c hj hc => ?_⟩
      rw [hj] at hc
      cases hc
    · intro es e s₁ s₂ hinv hno hstep
      refine ⟨sharedInv_step s₁ s₂ e hinv.1 hstep, ?_⟩
      cases hstep with
      | rotate key hexp hfresh => exact absurd rfl (hno key)
      | call e cache hanswers hstep =>
          exact settledInv_step s₁ cache e hinv.1 hinv.2 hanswers hstep
  exact (hinv.2.finds i c hnew hcall).answered result hanswered entry hentry hkid

/-- With the old key set stored and a reply with the new one under way, nothing older is
    under way, and a lookup that starts then finds the second key. -/
theorem settled_call_overlap :
    Settled overlapped.manager overlapped.cache ∧
    ∃ s', sampleShared.Run overlapped later s' ∧ ∃ c result,
      s'.cache.calls 2 = some c ∧ c.phase = .answered result ∧
      (result = .ok secondKey.publicKey ∨ ∃ err, result = .error ("fetching JWKS: " ++ err)) := by
  have hsettled : Settled overlapped.manager overlapped.cache := by
    -- The call that has stored is none, and of the others one has a reply.
    intro i c jwks hc hphase
    rcases (update_eq_some_iff _ _ _ _ _).mp hc with ⟨_, heq⟩ | ⟨hi, hc⟩
    · cases heq
      cases hphase
    rcases (update_eq_some_iff _ _ _ _ _).mp hc with ⟨_, heq⟩ | ⟨_, hc⟩
    · cases heq
      cases hphase
      rfl
    rcases (update_eq_some_iff _ _ _ _ _).mp hc with ⟨hi', _⟩ | ⟨_, hc⟩
    · exact absurd hi' hi
    · cases hc
  rcases later_run with ⟨s', hrun, hmanager, hcall⟩
  have hno : ∀ e ∈ later, ∀ key, e ≠ .rotate key := by
    intro e he key hrotate
    rw [hrotate] at he
    simp [later, replied] at he
  have hentry : generateKey sampleHash secondKey ∈ s'.manager.entries := by
    rw [hmanager]
    exact List.mem_cons_self
  exact ⟨hsettled, s', hrun, _, _, hcall, rfl, settled_call_finds sampleKind sampleHash
    "https://tts/jwks" rfl overlapped s' later overlapped_reachable hsettled hrun hno 2 _ _ rfl
    hcall rfl (generateKey sampleHash secondKey) hentry (by decide)⟩

end Keys

end Kontxt
