import Kontxt.Core.Middleware
import Kontxt.Theory.Narrowing
import Mathlib.Logic.Relation

/-!
# Along a Chain of Calls

What a chain of services does to the transaction it works on.

A handler finds in its context the token its request came with and the claims of
that token, and what it sends on from that context carries the same token. An adapter
on the way may put a narrower token in its place, and nothing else changes it. So
every handler of a chain works with a token that comes from the first one by
narrowing: it belongs to the same transaction, subject and contexts, and has no scope
that the first token had not.

This needs every handler to leave the token to the transport. A handler that sets the
header or puts another token into the context decides for itself what is sent.

The binary of the adapter gives it no client of a token service, so with adapters as
the binary runs them the token stays the first one. The invariant is stated for any
way in which adapters may change tokens, and both results are cases of it.

## Main definitions

* `Middleware.Derived`: A context made from another, with its token.
* `Middleware.Connected`: An adapter that is connected to a token service.
* `Middleware.Propagates`: An event that leaves tokens to transport and adapters.
* `Middleware.Narrowed`: A token that an exchange gives for a narrower scope.
* `Middleware.Lesser`: Claims with no more authority in one transaction.
* `Middleware.Carries`: The token and the claims of a handler.
* `Middleware.ChainInv`: Every chain carries its first token, as adapters changed it.

## Theorems

* `Middleware.roundTrip_derived`: The transport sends the token of the context.
* `Middleware.verifyTxToken_refused`: What a caller without a good token reads.
* `Middleware.narrowed_lesser`: A narrowed token has no more authority.
* `Middleware.applyHeaders_check`: What the adapter leaves in the header.
* `Middleware.chainInv_step`, `Middleware.chainInv_reachable`: Steps keep the invariant.
* `Middleware.chain_lesser`: Along a chain authority only shrinks.
* `Middleware.chain_unchanged`: With the binary's adapters tokens stay as they are.
-/

namespace Kontxt

open Go Lib

namespace Http

@[simp] theorem Header.get_set (h : Header) (name value : String) :
    (h.set name value).get name = value := by
  unfold Header.get Header.set
  rw [Finmap.lookup_insert]
  rfl

end Http

namespace Middleware

section Contexts

@[simp] theorem tokenFromContext_withToken (ctx : Option Context) (t : String) :
    tokenFromContext (some (withToken ctx t)) = t := by
  simp only [tokenFromContext, withToken, List.lookup_cons_self]

@[simp] theorem claimsFromContext_withToken (ctx : Context) (t : String) :
    claimsFromContext (some (withToken (some ctx) t)) = claimsFromContext (some ctx) := by
  have hkey : (claimsContextKey == tokenContextKey) = false := by decide
  simp only [claimsFromContext, withToken, List.lookup_cons, hkey, Option.getD_some]

@[simp] theorem claimsFromContext_withClaims (ctx : Option Context) (c : Token.Claims) :
    claimsFromContext (some (withClaims ctx c)) = some c := by
  simp only [claimsFromContext, withClaims, List.lookup_cons_self]

/-- A context made from another by values under other keys than the token's. -/
def Derived (ctx ctx' : Context) : Prop :=
  ∃ more : Context, ctx' = more ++ ctx ∧ ∀ e ∈ more, e.1 ≠ tokenContextKey

theorem tokenFromContext_derived (ctx ctx' : Context) (h : Derived ctx ctx') :
    tokenFromContext (some ctx') = tokenFromContext (some ctx) := by
  rcases h with ⟨more, rfl, hother⟩
  have hnone : more.lookup tokenContextKey = none := by
    rw [List.lookup_eq_none_iff]
    exact fun e he => bne_iff_ne.mpr (hother e he).symm
  simp only [tokenFromContext, List.lookup_append, hnone, Option.none_or]

/-- The transport sends the token of the context a request was made from. -/
theorem roundTrip_derived (r : Request) (ctx : Context)
    (hheader : r.header.get Token.headerName = "") (hctx : Derived ctx r.ctx)
    (htoken : tokenFromContext (some ctx) ≠ "") :
    (roundTrip r).header.get Token.headerName = tokenFromContext (some ctx) := by
  unfold roundTrip
  rw [if_neg (not_not.mpr hheader), tokenFromContext_derived ctx r.ctx hctx]
  simp only [if_pos htoken]
  exact r.header.get_set _ _

/-- A refusal is read with the code and the message it was written with. -/
theorem writeVerifyError_read (F : FloatText) (u : Unicode) (message : String) :
    ∃ fields, unmarshalStruct F u ["error", "message"] (writeVerifyError F message).2 =
        some fields ∧ fields "error" = "invalid_token" ∧ fields "message" = message := by
  refine ⟨_, unmarshalStruct_structText F u _ (verifyErrorFields message) ?_, rfl, rfl⟩
  intro e he
  exact List.mem_map_of_mem he

/-- The middleware refuses a request exactly when it has no token or one that does not
    verify, and the caller reads which. -/
theorem verifyTxToken_refused (F : FloatText) (u : Unicode) (env : Authn.Env)
    (v : Verify.Verifier) (r : Request) (message : String) :
    (verifyTxToken env v r = .unauthorized message ↔
      (r.header.get Token.headerName = "" ∧ message = "missing Txn-Token header") ∨
      (r.header.get Token.headerName ≠ "" ∧
        v.verify env (r.header.get Token.headerName) = .error message)) ∧
    ∀ answer, (verifyTxToken env v r).written F = some answer →
      answer.1 = 401 ∧ ∃ fields reason, verifyTxToken env v r = .unauthorized reason ∧
        unmarshalStruct F u ["error", "message"] answer.2 = some fields ∧
        fields "error" = "invalid_token" ∧ fields "message" = reason := by
  constructor
  · unfold verifyTxToken
    by_cases hempty : r.header.get Token.headerName = ""
    · simp only [hempty, if_true, Verdict.unauthorized.injEq, true_and, ne_eq,
        not_true_eq_false, false_and, or_false]
      exact eq_comm
    · cases hverify : v.verify env (r.header.get Token.headerName) with
      | error e => simp [hempty, hverify]
      | ok claims => simp [hempty, hverify]
  · intro answer h
    cases hverdict : verifyTxToken env v r with
    | unauthorized reason =>
        rw [hverdict] at h
        rcases writeVerifyError_read F u reason with ⟨fields, hread⟩
        rw [← Option.some.inj h]
        exact ⟨rfl, fields, reason, rfl, hread⟩
    | next r' =>
        rw [hverdict] at h
        cases h

/-- A request that is handed on had a token that was verified, and its context has
    the token and the claims. -/
theorem verifyTxToken_next (env : Authn.Env) (v : Verify.Verifier) (r r' : Request)
    (h : verifyTxToken env v r = .next r') :
    ∃ claims, r.header.get Token.headerName ≠ "" ∧
      Token.claimsOf env.jwt (r.header.get Token.headerName) = some claims ∧
      tokenFromContext (some r'.ctx) = r.header.get Token.headerName ∧
      claimsFromContext (some r'.ctx) = some claims := by
  unfold verifyTxToken at h
  by_cases hempty : r.header.get Token.headerName = ""
  · rw [if_pos hempty] at h
    cases h
  · rw [if_neg hempty] at h
    cases hverify : v.verify env (r.header.get Token.headerName) with
    | error e =>
        rw [hverify] at h
        cases h
    | ok claims =>
        rw [hverify] at h
        cases h
        exact ⟨claims, hempty, (Verify.verify_claims env v _ claims hverify).2, by simp, by simp⟩

end Contexts

section Narrowing

/-- Some token service gives the second token for the first one and a scope. -/
def Narrowed (J : JwtLib) (tok tok' : String) : Prop :=
  ∃ (env : Tts.Env) (h : Tts.Handler) (marshal : Object → String) (scope : String),
    env.jwt = J ∧ SdkTts.exchange (SdkTts.overHandler env h) marshal
      (ExtAuth.narrowing tok scope) = .ok tok'

/-- The second claims have no scope the first have not, and belong to the same
    transaction if there is one. -/
structure Lesser (c₀ c : Token.Claims) : Prop where
  scopes : Tts.ScopesWithin c c₀
  same : c₀.transactionID ≠ "" → Tts.SameTransaction c₀ c

theorem Lesser.refl (c : Token.Claims) : Lesser c c :=
  ⟨fun _ hx => hx, fun _ => ⟨rfl, rfl, rfl, rfl⟩⟩

theorem Lesser.trans {c₀ c₁ c₂ : Token.Claims} (h : Lesser c₀ c₁) (h' : Lesser c₁ c₂) :
    Lesser c₀ c₂ := by
  refine ⟨fun x hx => h.scopes x (h'.scopes x hx), fun htxn => ?_⟩
  have hsame := h.same htxn
  -- The transaction has a name at every token on the way.
  have hsame' := h'.same (hsame.txn ▸ htxn)
  exact ⟨hsame'.txn.trans hsame.txn, hsame'.sub.trans hsame.sub, hsame'.tctx.trans hsame.tctx,
    hsame'.rctx.trans hsame.rctx⟩

/-- A narrowed token has no more authority than the token it was given for. -/
theorem narrowed_lesser (J : JwtLib) (tok tok' : String) (claims : Token.Claims)
    (hclaims : Token.claimsOf J tok = some claims) (h : Narrowed J tok tok') :
    ∃ claims', Token.claimsOf J tok' = some claims' ∧ Lesser claims claims' := by
  rcases h with ⟨env, handler, marshal, scope, rfl, hex⟩
  rcases SdkTts.exchange_ok env handler marshal _ tok' hex with ⟨_, _, _, ity, ty, hresp⟩
  have hpresented := SdkTts.presented_exchangeHttp marshal (ExtAuth.narrowing tok scope) rfl
  rcases Tts.replace_of_presented env handler _ tok tok' ity ty hpresented hresp with
    ⟨form, req, hrep, hsub, _⟩
  rcases hrep.replaced with ⟨existing, hexisting, hsubset, hnew⟩
  have hsame : existing = claims := by
    rw [hsub, hclaims] at hexisting
    exact (Option.some.inj hexisting).symm
  rw [hsame] at hsubset hnew
  refine ⟨_, hnew, (Tts.isScopeSubset_iff req.scope claims.scope).mp hsubset, fun htxn => ?_⟩
  refine ⟨?_, rfl, rfl, rfl⟩
  simp only [Token.signedClaims, Tts.Handler.replacementClaims, htxn, if_false]

/-- So has one that was narrowed several times. -/
theorem narrowings_lesser (J : JwtLib) (tok tok' : String) (claims : Token.Claims)
    (hclaims : Token.claimsOf J tok = some claims)
    (h : Relation.ReflTransGen (Narrowed J) tok tok') :
    ∃ claims', Token.claimsOf J tok' = some claims' ∧ Lesser claims claims' := by
  induction h with
  | refl => exact ⟨claims, hclaims, Lesser.refl claims⟩
  | tail _ hstep ih =>
      rcases ih with ⟨claims₁, hclaims₁, hlesser⟩
      rcases narrowed_lesser J _ _ claims₁ hclaims₁ hstep with ⟨claims₂, hclaims₂, hlesser'⟩
      exact ⟨claims₂, hclaims₂, hlesser.trans hlesser'⟩

/-- A request the adapter lets through is let through as it is, or with headers. -/
theorem check_isOK_cases (u : Unicode) (s : ExtAuth.Server) (req : ExtAuth.HttpRequest)
    (hok : (s.check u { http := some req }).isOK = true) :
    s.check u { http := some req } = ExtAuth.allowed ∨
      ∃ headers, s.check u { http := some req } = ExtAuth.allowedWithHeaders headers := by
  by_cases hexcl : s.isExcluded u req.path req.method = true
  · refine Or.inl ?_
    unfold ExtAuth.Server.check
    simp only [if_pos hexcl]
  · rcases (ExtAuth.check_isOK u s req).mp hok with hexcl' | ⟨hne, claims, hverified, hpass⟩
    · exact absurd hexcl' hexcl
    · rw [ExtAuth.check_passed u s req claims (Bool.not_eq_true _ ▸ hexcl) hne hverified hpass]
      split
      · exact Or.inr ⟨_, rfl⟩
      · exact Or.inl rfl

/-- What an adapter connected to a token service leaves in the header of a request:
    the token that was there, or a narrower one for it. -/
theorem applyHeaders_check (J : JwtLib) (u : Unicode) (s : ExtAuth.Server) (env : Tts.Env)
    (handler : Tts.Handler) (marshal : Object → String) (hjwt : env.jwt = J)
    (hwired : ExtAuth.Wired s env handler marshal) (req : ExtAuth.HttpRequest)
    (header : Http.Header)
    (hseen : ExtAuth.getHeader u req.headers Token.headerName = header.get Token.headerName)
    (hok : (s.check u { http := some req }).isOK = true) :
    Relation.ReflTransGen (Narrowed J) (header.get Token.headerName)
      ((applyHeaders header (s.check u { http := some req })).get Token.headerName) := by
  rcases check_isOK_cases u s req hok with hallowed | ⟨headers, hheaders⟩
  · rw [hallowed]
    exact Relation.ReflTransGen.refl
  · rcases ExtAuth.check_narrowed u s req headers hheaders with ⟨claims, _, _, hne, hone⟩
    rw [hseen] at hne hone
    rcases ExtAuth.autoNarrow_ne s env handler marshal hwired.client claims _ hne with
      ⟨rule, _, hex⟩
    have hget : (applyHeaders header (s.check u { http := some req })).get Token.headerName
        = s.autoNarrow claims (header.get Token.headerName) := by
      rw [hheaders, hone]
      exact header.get_set _ _
    rw [hget]
    exact Relation.ReflTransGen.single ⟨env, handler, marshal, rule.requiredScope, hjwt, hex⟩

end Narrowing

/-- An adapter is connected to a token service. -/
def Connected (J : JwtLib) (adapter : ExtAuth.Server) : Prop :=
  ∃ (env : Tts.Env) (handler : Tts.Handler) (marshal : Object → String),
    env.jwt = J ∧ ExtAuth.Wired adapter env handler marshal

/-- An event that leaves tokens to the transport and to adapters of a kind: a handler
    sends without a token of its own, from a context made from the one it was given. -/
def Propagates (Kind : ExtAuth.Server → Prop) (s : Mesh) : Event → Prop
  | .send _ i r => r.header.get Token.headerName = "" ∧
    ∀ h, s.handlings i = some h → Derived h.ctx r.ctx
  | .check _ adapter _ => Kind adapter
  | _ => True

/-- A handler has a token and its claims. -/
structure Carries (J : JwtLib) (h : Handling) (tok : String) (claims : Token.Claims) : Prop where
  token : tokenFromContext (some h.ctx) = tok
  token_ne : tok ≠ ""
  context : claimsFromContext (some h.ctx) = some claims
  signed : Token.claimsOf J tok = some claims

/-- A handler belongs to a chain that starts with a request from outside, and its
    token is the one of that request, changed by adapters any number of times. -/
def InChain (J : JwtLib) (R : String → String → Prop) (s : Mesh) (h : Handling) : Prop :=
  ∃ first tok₀ claims₀ tok claims, s.handlings h.root = some first ∧ first.sender = none ∧
    Carries J first tok₀ claims₀ ∧ Carries J h tok claims ∧ Relation.ReflTransGen R tok₀ tok

/-- Every handler belongs to such a chain, and a request a handler sent carries its
    token, changed by adapters any number of times. -/
structure ChainInv (J : JwtLib) (R : String → String → Prop) (s : Mesh) : Prop where
  handlings : ∀ i h, s.handlings i = some h → InChain J R s h
  flights : ∀ m f i, s.flights m = some f → f.sender = some i →
    ∃ h, s.handlings i = some h ∧ Relation.ReflTransGen R
      (tokenFromContext (some h.ctx)) (f.header.get Token.headerName)

variable {J : JwtLib} {R : String → String → Prop}

theorem chainInv_start (R : String → String → Prop) (u : Unicode) (s : Mesh)
    (hinit : (mesh J u).init s) : ChainInv J R s := by
  have hempty : s = { flights := fun _ => none, handlings := fun _ => none } := hinit
  rw [hempty]
  constructor
  · intro i h hi
    cases hi
  · intro m f i hf
    cases hf

/-- A request under way changes nothing about handlers. -/
theorem ChainInv.fly {s : Mesh} (hinv : ChainInv J R s) (m : Nat) (f : Flight)
    (hf : ∀ i, f.sender = some i → ∃ h, s.handlings i = some h ∧
      Relation.ReflTransGen R (tokenFromContext (some h.ctx)) (f.header.get Token.headerName)) :
    ChainInv J R (s.fly m f) := by
  refine ⟨hinv.handlings, fun m' f' i hf' hsender => ?_⟩
  rcases of_update_eq_some _ _ _ _ _ hf' with ⟨_, heq⟩ | hold
  · cases heq
    exact hf i hsender
  · exact hinv.flights m' f' i hold hsender

theorem handlings_start_of_ne (s : Mesh) (i j : Nat) (h h' : Handling)
    (hfree : s.handlings i = none) (hj : s.handlings j = some h') :
    (s.start i h).handlings j = some h' := by
  have hne : j ≠ i := by
    intro heq
    rw [heq, hfree] at hj
    cases hj
  exact (Function.update_of_ne hne ..).trans hj

/-- A handler that starts leaves the chains there are as they are. -/
theorem ChainInv.start {s : Mesh} (hinv : ChainInv J R s) (i : Nat) (h : Handling)
    (hfree : s.handlings i = none) (hchain : InChain J R (s.start i h) h) :
    ChainInv J R (s.start i h) := by
  constructor
  · intro j h' hj
    rcases of_update_eq_some _ _ _ _ _ hj with ⟨_, heq⟩ | hold
    · cases heq
      exact hchain
    · rcases hinv.handlings j h' hold with ⟨first, tok₀, claims₀, tok, claims, hfirst, hrest⟩
      exact ⟨first, tok₀, claims₀, tok, claims,
        handlings_start_of_ne s i _ h first hfree hfirst, hrest⟩
  · intro m f j hf hsender
    rcases hinv.flights m f j hf hsender with ⟨h', hj, hcarried⟩
    exact ⟨h', handlings_start_of_ne s i j h h' hfree hj, hcarried⟩

/-- A step keeps the invariant, if tokens are left to the transport and to adapters, and
    adapters change them only in the given way. -/
theorem chainInv_step (u : Unicode) (s s' : Mesh) (e : Event) (hinv : ChainInv J R s)
    (Kind : ExtAuth.Server → Prop)
    (hcheck : ∀ adapter, Kind adapter → ∀ (req : ExtAuth.HttpRequest) (header : Http.Header),
      ExtAuth.getHeader u req.headers Token.headerName = header.get Token.headerName →
      (adapter.check u { http := some req }).isOK = true →
      Relation.ReflTransGen R (header.get Token.headerName)
        ((applyHeaders header (adapter.check u { http := some req })).get Token.headerName))
    (hprop : Propagates Kind s e)
    (hstep : Mesh.Step J u s e s') : ChainInv J R s' := by
  cases hstep with
  | arrive m f hfree houtside =>
      refine hinv.fly m f fun i hi => ?_
      rw [houtside] at hi
      cases hi
  | send m i r h hfree hi =>
      refine hinv.fly m _ fun j hj => ?_
      cases hj
      rcases hinv.handlings i h hi with ⟨_, _, _, tok, _, _, _, _, hcarries, _⟩
      have hne : tokenFromContext (some h.ctx) ≠ "" := by
        rw [hcarries.token]
        exact hcarries.token_ne
      refine ⟨h, hi, ?_⟩
      rw [← roundTrip_derived r h.ctx hprop.1 (hprop.2 h hi) hne]
  | check m adapter req f hf hseen hok =>
      refine hinv.fly m _ fun i hi => ?_
      rcases hinv.flights m f i hf hi with ⟨h, hh, hcarried⟩
      exact ⟨h, hh, hcarried.trans (hcheck adapter hprop req f.header hseen hok)⟩
  | receive i m env v f r hfree hf hjwt hnext =>
      rcases verifyTxToken_next env v f.request r hnext with ⟨claims, hne, hsigned, htok, hclaims⟩
      rw [hjwt] at hsigned
      refine hinv.start i _ hfree ?_
      have hcarries : ∀ sender root, Carries J { sender := sender, root := root, ctx := r.ctx }
          (f.header.get Token.headerName) claims :=
        fun _ _ => ⟨htok, hne, hclaims, hsigned⟩
      cases hsender : f.sender with
      | none =>
          -- A request from outside starts a chain of its own.
          exact ⟨_, _, claims, _, claims, Function.update_self .., rfl, hcarries _ _,
            hcarries _ _, Relation.ReflTransGen.refl⟩
      | some j =>
          rcases hinv.flights m f j hf hsender with ⟨h, hj, hcarried⟩
          rcases hinv.handlings j h hj with
            ⟨first, tok₀, claims₀, tok, _, hfirst, houtside, hcarries₀, hcarriesj, hgen⟩
          have hroot : s.rootOf i (some j) = h.root := by
            unfold Mesh.rootOf
            rw [Option.bind_some, hj]
          rw [hroot]
          rw [hcarriesj.token] at hcarried
          exact ⟨first, tok₀, claims₀, _, claims,
            handlings_start_of_ne s i _ _ first hfree hfirst, houtside, hcarries₀, hcarries _ _,
            hgen.trans hcarried⟩

/-- So does a run. -/
theorem chainInv_reachable (u : Unicode) (s : Mesh) (Kind : ExtAuth.Server → Prop)
    (hcheck : ∀ adapter, Kind adapter → ∀ (req : ExtAuth.HttpRequest) (header : Http.Header),
      ExtAuth.getHeader u req.headers Token.headerName = header.get Token.headerName →
      (adapter.check u { http := some req }).isOK = true →
      Relation.ReflTransGen R (header.get Token.headerName)
        ((applyHeaders header (adapter.check u { http := some req })).get Token.headerName))
    (hr : ((mesh J u).restrict (Propagates Kind)).Reachable s) : ChainInv J R s := by
  refine System.invariant (ChainInv J R) ?_ ?_ s hr
  · exact fun s hinit => chainInv_start R u s hinit
  · intro s e s' hinv hstep
    exact chainInv_step u s s' e hinv Kind hcheck hstep.1 hstep.2

/-- Along a chain of calls authority only shrinks. In every state of a mesh whose
    handlers leave tokens to the transport, every handler at work belongs to a chain
    that started with a request from outside; the token in its context comes from the
    token of that request by narrowing, the claims in its context are those of its
    token, their scopes are among the first token's, and transaction, subject and
    contexts are the first token's. -/
theorem chain_lesser (J : JwtLib) (u : Unicode) (s : Mesh)
    (hr : ((mesh J u).restrict (Propagates (Connected J))).Reachable s) (i : Nat) (h : Handling)
    (hi : s.handlings i = some h) :
    ∃ first tok₀ claims₀ tok claims, s.handlings h.root = some first ∧ first.sender = none ∧
      Carries J first tok₀ claims₀ ∧ Carries J h tok claims ∧
      Relation.ReflTransGen (Narrowed J) tok₀ tok ∧ Lesser claims₀ claims := by
  have hinv : ChainInv J (Narrowed J) s := by
    refine chainInv_reachable u s (Connected J) (fun adapter hconn req header hseen hok => ?_) hr
    rcases hconn with ⟨env, handler, marshal, hjwt, hwired⟩
    exact applyHeaders_check J u adapter env handler marshal hjwt hwired req header hseen hok
  rcases hinv.handlings i h hi with
    ⟨first, tok₀, claims₀, tok, claims, hfirst, houtside, hcarries₀, hcarries, hgen⟩
  rcases narrowings_lesser J tok₀ tok claims₀ hcarries₀.signed hgen with ⟨claims', hc', hlesser⟩
  have hsame : claims' = claims := by
    rw [hcarries.signed] at hc'
    exact (Option.some.inj hc').symm
  exact ⟨first, tok₀, claims₀, tok, claims, hfirst, houtside, hcarries₀, hcarries, hgen,
    hsame ▸ hlesser⟩

section Sample

/-- A request for `/orders` with a token. -/
def sampleFlight (sender : Option Nat) (tok : String) : Flight where
  sender := sender
  method := "GET"
  path := "/orders"
  header := Http.Header.set ∅ Token.headerName tok

/-- An adapter that narrows to `read`. -/
def narrowingAdapter : ExtAuth.Server :=
  (ExtAuth.sampleAdapter Tts.sampleHandler).setVerificationRules Unicode.ascii SortSlice.insertion
    ExtAuth.noCel [ExtAuth.scopeRule "a" "read" true]

theorem verifyTxToken_sample (f : Flight) (claims : Token.Claims)
    (hne : f.header.get Token.headerName ≠ "")
    (hverify : ExtAuth.sampleVerifier.verify Tts.sampleEnv.toEnv (f.header.get Token.headerName) =
      .ok claims) :
    verifyTxToken Tts.sampleEnv.toEnv ExtAuth.sampleVerifier f.request =
      .next { f.request with
        ctx :=
          withToken (some (withClaims (some []) claims)) (f.header.get Token.headerName) } := by
  unfold verifyTxToken
  simp only [Flight.request, if_neg hne, hverify]

/-- The context of a handler that was called with the token `root`. -/
def rootContext : Context :=
  withToken (some (withClaims (some [])
    (Token.signedClaims (Tts.sampleClaims "read write") 0 0 ""))) "root"

/-- A handler was called with it, and has sent a request. -/
def sentMesh : Mesh :=
  (((({ flights := fun _ => none, handlings := fun _ => none } : Mesh).fly 0
    (sampleFlight none "root")).start 0 { sender := none, root := 0, ctx := rootContext }).fly 1
    (sampleFlight (some 0) "root"))

theorem sentMesh_reachable (Kind : ExtAuth.Server → Prop) :
    ((mesh Tts.sampleEnv.jwt Unicode.ascii).restrict (Propagates Kind)).Reachable sentMesh := by
  have hinit : ((mesh Tts.sampleEnv.jwt Unicode.ascii).restrict
      (Propagates Kind)).Reachable _ := .init _ rfl
  have harrive := hinit.next_restrict (.arrive 0 (sampleFlight none "root")) _ trivial
    (.arrive _ 0 (sampleFlight none "root") rfl rfl)
  have hroot := verifyTxToken_sample (sampleFlight none "root")
    (Token.signedClaims (Tts.sampleClaims "read write") 0 0 "") (by decide +kernel)
    (by decide +kernel)
  have hfirst := harrive.next_restrict (.receive 0 0 Tts.sampleEnv.toEnv ExtAuth.sampleVerifier) _
    trivial (.receive _ 0 0 _ _ (sampleFlight none "root") _ rfl rfl rfl hroot)
  -- The handler sends a request without a token, from the context it was given.
  exact hfirst.next_restrict
    (.send 1 0 { method := "GET", path := "/orders", header := ∅, ctx := rootContext }) _
    ⟨rfl, fun h hh => by cases hh; exact ⟨[], rfl, fun e he => absurd he List.not_mem_nil⟩⟩
    (.send _ 1 0 _ _ rfl rfl)

/-- A service calls another, and the token is narrowed on the way: the second handler
    works with less. -/
theorem chain_narrowed :
    ∃ s h, ((mesh Tts.sampleEnv.jwt Unicode.ascii).restrict
        (Propagates (Connected Tts.sampleEnv.jwt))).Reachable s ∧ s.handlings 1 = some h ∧
      tokenFromContext (some h.ctx) = "child" ∧
      ∃ first tok₀ claims₀ claims, s.handlings h.root = some first ∧
        Carries Tts.sampleEnv.jwt first tok₀ claims₀ ∧
        Carries Tts.sampleEnv.jwt h "child" claims ∧ Lesser claims₀ claims := by
  have hanswer : narrowingAdapter.check Unicode.ascii { http := some ExtAuth.rootRequest } =
      ExtAuth.allowedWithHeaders [(Token.headerName, "child")] := by
    decide +kernel
  have hcheck := (sentMesh_reachable (Connected Tts.sampleEnv.jwt)).next_restrict
    (.check 1 narrowingAdapter ExtAuth.rootRequest) _
    ⟨Tts.sampleEnv, Tts.sampleHandler, fun _ => "null", rfl,
      ⟨(ExtAuth.sampleAdapter_wired Tts.sampleHandler).verifier, rfl⟩⟩
    (.check _ 1 narrowingAdapter ExtAuth.rootRequest (sampleFlight (some 0) "root") rfl rfl
      (by rw [hanswer]; rfl))
  rw [hanswer] at hcheck
  have hchild := verifyTxToken_sample { sampleFlight (some 0) "root" with
      header := applyHeaders (sampleFlight (some 0) "root").header
        (ExtAuth.allowedWithHeaders [(Token.headerName, "child")]) }
    (Token.signedClaims (Tts.sampleClaims "read") 0 0 "") (by decide +kernel) (by decide +kernel)
  have hsecond := hcheck.next_restrict (.receive 1 1 Tts.sampleEnv.toEnv ExtAuth.sampleVerifier) _
    trivial (.receive _ 1 1 _ _ _ _ rfl rfl rfl hchild)
  rcases chain_lesser Tts.sampleEnv.jwt Unicode.ascii _ hsecond 1 _ rfl with
    ⟨first, tok₀, claims₀, tok, claims, hroot, _, hcarries₀, hcarries, _, hlesser⟩
  have htok : tok = "child" :=
    hcarries.token.symm.trans ((tokenFromContext_withToken ..).trans (by decide +kernel))
  rw [htok] at hcarries
  exact ⟨_, _, hsecond, rfl, hcarries.token, first, tok₀, claims₀, claims, hroot, hcarries₀,
    hcarries, hlesser⟩

end Sample

section Binary

/-- The binary never gives an adapter a client of the token service. -/
theorem ttsClient_of_started (s : ExtAuth.Server) (h : ExtAuth.Started s) :
    s.ttsClient = none := by
  induction h with
  | new verifier => rfl
  | verified s verifier _ ih => exact ih
  | ruled s u S newEnv rules _ ih => exact ih

/-- An adapter of the binary lets requests through as they are. -/
theorem applyHeaders_started (u : Unicode) (s : ExtAuth.Server) (h : ExtAuth.Started s)
    (req : ExtAuth.HttpRequest) (header : Http.Header)
    (hok : (s.check u { http := some req }).isOK = true) :
    applyHeaders header (s.check u { http := some req }) = header := by
  rcases check_isOK_cases u s req hok with hallowed | ⟨headers, hheaders⟩
  · rw [hallowed]
    rfl
  · rcases ExtAuth.check_narrowed u s req headers hheaders with ⟨claims, _, _, hne, _⟩
    refine absurd ?_ hne
    unfold ExtAuth.Server.autoNarrow
    rw [ttsClient_of_started s h]

/-- With adapters as their binary runs them nothing is ever narrowed. In every state of
    a mesh whose handlers leave tokens to the transport, whatever the rules say, every
    handler at work has in its context the very token of the request from outside that
    its chain started with, and its claims. -/
theorem chain_unchanged (J : JwtLib) (u : Unicode) (s : Mesh)
    (hr : ((mesh J u).restrict (Propagates ExtAuth.Started)).Reachable s) (i : Nat)
    (h : Handling) (hi : s.handlings i = some h) :
    ∃ first tok claims, s.handlings h.root = some first ∧ first.sender = none ∧
      Carries J first tok claims ∧ Carries J h tok claims := by
  have hinv : ChainInv J (fun _ _ => False) s := by
    refine chainInv_reachable u s ExtAuth.Started (fun adapter hstarted req header _ hok => ?_) hr
    rw [applyHeaders_started u adapter hstarted req header hok]
  rcases hinv.handlings i h hi with
    ⟨first, tok₀, claims₀, tok, claims, hfirst, houtside, hcarries₀, hcarries, hgen⟩
  have htok : tok = tok₀ := (Relation.reflTransGen_iff_eq fun _ hno => hno).mp hgen
  have hclaims : claims = claims₀ := by
    have hsigned := hcarries.signed
    rw [htok, hcarries₀.signed] at hsigned
    exact (Option.some.inj hsigned).symm
  rw [htok, hclaims] at hcarries
  exact ⟨first, tok₀, claims₀, hfirst, houtside, hcarries₀, hcarries⟩

/-- The binary's adapter with the rule that narrows to `read`. -/
def shippedAdapter : ExtAuth.Server :=
  (ExtAuth.newServer (ExtAuth.sampleVerifier.verify Tts.sampleEnv.toEnv)).setVerificationRules
    Unicode.ascii SortSlice.insertion ExtAuth.noCel [ExtAuth.scopeRule "a" "read" true]

theorem chain_unchanged_root :
    ∃ s h, ((mesh Tts.sampleEnv.jwt Unicode.ascii).restrict
        (Propagates ExtAuth.Started)).Reachable s ∧ s.handlings 1 = some h ∧
      tokenFromContext (some h.ctx) = "root" ∧
      ∃ first claims, s.handlings h.root = some first ∧ first.sender = none ∧
        Carries Tts.sampleEnv.jwt first "root" claims ∧
        Carries Tts.sampleEnv.jwt h "root" claims := by
  have hstarted : ExtAuth.Started shippedAdapter := .ruled _ _ _ _ _ (.new _)
  have hok : (shippedAdapter.check Unicode.ascii { http := some ExtAuth.rootRequest }).isOK =
      true := by
    decide +kernel
  have hcheck := (sentMesh_reachable ExtAuth.Started).next_restrict
    (.check 1 shippedAdapter ExtAuth.rootRequest) _ hstarted
    (.check _ 1 shippedAdapter ExtAuth.rootRequest (sampleFlight (some 0) "root") rfl rfl hok)
  rw [applyHeaders_started Unicode.ascii shippedAdapter hstarted _ _ hok] at hcheck
  have hroot := verifyTxToken_sample (sampleFlight (some 0) "root")
    (Token.signedClaims (Tts.sampleClaims "read write") 0 0 "") (by decide +kernel)
    (by decide +kernel)
  have hsecond := hcheck.next_restrict (.receive 1 1 Tts.sampleEnv.toEnv ExtAuth.sampleVerifier) _
    trivial (.receive _ 1 1 _ _ _ _ rfl rfl rfl hroot)
  rcases chain_unchanged Tts.sampleEnv.jwt Unicode.ascii _ hsecond 1 _ rfl with
    ⟨first, tok, claims, hfirst, houtside, hcarries₀, hcarries⟩
  have htok : tok = "root" :=
    hcarries.token.symm.trans ((tokenFromContext_withToken ..).trans (by decide +kernel))
  rw [htok] at hcarries₀ hcarries
  exact ⟨_, _, hsecond, rfl, hcarries.token, first, claims, hfirst, houtside, hcarries₀, hcarries⟩

end Binary

end Middleware

end Kontxt
