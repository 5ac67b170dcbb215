import Kontxt.Theory.Delegation

/-!
# Expiry Along a Delegation

How long a transaction lives. A token carries its expiration time, and every
verifier refuses it from then on. A replacement gets an expiration time of its
own, counted from the moment of the exchange, so what bounds the whole
transaction is the clock at each exchange and not the token it started with.

A replacement expires no later than the token it replaces exactly when the
service's lifetime, counted from the exchange, ends within the last second of
that token. As long as every exchange keeps to this, the transaction is over
when its first token expires. Otherwise it is renewed, and a holder who asks in
time again and again never has to stop.

## Main definitions

* `Tts.EndsWithin`: A replacement's lifetime ends within the presented token's.
* `Tts.ExpiryInv`: Every grant expires no later than its parent and the root.

## Theorems

* `JwtLib.withExpiry_checksExpiry`: The library to run with refuses what expired.
* `Tts.parse_before_expiry`: Whoever accepts a token does so before it expires.
* `Tts.replace_expiresAt`: When a replacement expires.
* `Tts.expiryInv_reachable`: Expiration times only decrease along a delegation.
* `Tts.transaction_expires`: When a transaction ends with its first token.
-/

namespace Kontxt

open Go Lib

theorem JwtLib.withExpiry_checksExpiry (J : JwtLib) : J.withExpiry.ChecksExpiry := by
  intro s t key opt now hread hver hexp
  have hread' : J.parseUnverified s = .ok t := hread
  simp only [JwtLib.withExpiry, hread', ite_error_eq_ok] at hver
  -- The guard was passed, and the expiration time is not zero.
  rcases hver with ⟨hguard, _⟩
  by_contra hlate
  exact hguard ⟨hexp, not_lt.mp hlate⟩

namespace Tts

/-- Whoever accepts a token, with whatever key function and options, accepts it
    before it expires. -/
theorem parse_before_expiry (J : JwtLib) (hJ : J.ChecksExpiry) (tok : String) (c : Token.Claims)
    (hc : Token.claimsOf J tok = some c) (keyFunc : Jwt → Except String RsaPublicKey)
    (opt : ParserOption) (now : Int) (t : Jwt) (h : J.parse tok keyFunc opt now = .ok t)
    (hexp : c.expiresAt ≠ 0) : now < second * c.expiresAt := by
  have hclaims := Token.claimsOf_of_parse J tok keyFunc opt now t h
  rcases (JwtLib.parse_eq_ok J tok keyFunc opt now t).mp h with ⟨hread, key, _, hver⟩
  have htime : t.claims.int "exp" = c.expiresAt := by
    rw [← Option.some.inj (hclaims.symm.trans hc)]
    rfl
  rw [← htime] at hexp ⊢
  exact hJ tok t key opt now hread hver hexp

/-- If the event presents a token, the service's lifetime counted from the
    exchange ends before the second after the token's expiration time. -/
def EndsWithin (J : JwtLib) (s : Service) : Event → Prop
  | .exchange env r => ∀ p pc, presented r = some p → Token.claimsOf J p = some pc →
      env.now + s.handler.lifetime < second * (pc.expiresAt + 1)
  | _ => True

/-- A time in whole seconds is at most `e` when the time is before the second
    after `e`. -/
theorem unix_le_iff (t e : Int) : Token.unix t ≤ e ↔ t < second * (e + 1) := by
  unfold Token.unix second
  omega

/-- A replacement expires one lifetime after the exchange, whatever it
    replaces. -/
theorem replace_expiresAt (env : Env) (h : Handler) (r : Request)
    (form : List (String × String)) (req : TokenExchangeRequest) (tok : String)
    (hrep : Replace env h r form req tok) :
    ∃ c, Token.claimsOf env.jwt tok = some c ∧
      c.expiresAt = Token.unix (env.now + h.lifetime) := by
  rcases hrep.replaced with ⟨existing, _, _, hclaims⟩
  exact ⟨_, hclaims, rfl⟩

/-- An exchange that replaces a token keeps to the token's expiration time
    exactly when the lifetime ends within it. -/
theorem exchange_expiresAt_iff (env : Env) (s : Service) (r : Request) (p : String)
    (pc : Token.Claims) (tok ity ty : String) (hp : presented r = some p)
    (hpc : Token.claimsOf env.jwt p = some pc)
    (hresp : (s.handler.serveHTTP env r).1 = .token tok ity ty) :
    (∃ c, Token.claimsOf env.jwt tok = some c ∧ c.expiresAt ≤ pc.expiresAt) ↔
      EndsWithin env.jwt s (.exchange env r) := by
  rcases replace_of_presented env s.handler r p tok ity ty hp hresp with ⟨form, req, hrep, _, _⟩
  rcases replace_expiresAt env s.handler r form req tok hrep with ⟨c, hc, hexp⟩
  constructor
  · intro hgiven p' pc' hp' hpc'
    rcases hgiven with ⟨c', hc', hle⟩
    have hcs : c' = c := Option.some.inj (hc'.symm.trans hc)
    -- The condition speaks of the token the request presents, which is `p`.
    rw [hp] at hp'
    rw [← Option.some.inj hp', hpc] at hpc'
    rw [← Option.some.inj hpc', ← unix_le_iff, ← hexp, ← hcs]
    exact hle
  · intro hwithin
    refine ⟨c, hc, ?_⟩
    rw [hexp, unix_le_iff]
    exact hwithin p pc hp hpc

/-- Every grant expires no later than the root and than the token it
    replaced. -/
def ExpiryInv (J : JwtLib) (root : String) (s : Service) : Prop :=
  ∃ c₀, Token.claimsOf J root = some c₀ ∧ ∀ g ∈ s.grants, ∃ c,
    Token.claimsOf J g.token = some c ∧ c.expiresAt ≤ c₀.expiresAt ∧
    ∀ p, g.parent = some p → ∃ pc, Token.claimsOf J p = some pc ∧ c.expiresAt ≤ pc.expiresAt

theorem expiryInv_init (J : JwtLib) (root : String) (s : Service)
    (hs : (delegation J root).init s) : ExpiryInv J root s := by
  rcases delegationInv_init J root s hs with ⟨c₀, hc₀, _, _⟩
  rcases hs with ⟨h, env, r, _, _, _, hgrants⟩
  refine ⟨c₀, hc₀, fun g hg => ?_⟩
  rw [hgrants, List.mem_singleton] at hg
  rw [hg]
  exact ⟨c₀, hc₀, le_refl _, fun p hp => by cases hp⟩

/-- An exchange that ends within the token it presents adds a grant that
    expires no later. -/
theorem expiryInv_exchange (J : JwtLib) (root : String) (s : Service) (env : Env) (r : Request)
    (hs : ExpiryInv J root s) (hJ : env.jwt = J) (hpres : Presents s (.exchange env r))
    (hwithin : EndsWithin J s (.exchange env r)) : ExpiryInv J root (s.serve env r) := by
  rcases hs with ⟨c₀, hc₀, hall⟩
  refine ⟨c₀, hc₀, fun g hg => ?_⟩
  rcases mem_grants_serve s env r g hg with hmem | ⟨⟨ity, ty, hresp⟩, hparent, _⟩
  · exact hall g hmem
  · rcases hpres with ⟨g', hg', hp⟩
    rcases hall g' hg' with ⟨c', hc', hroot, _⟩
    rw [← hJ] at hc' hwithin
    rcases (exchange_expiresAt_iff env s r g'.token c' g.token ity ty hp hc' hresp).mpr hwithin
      with ⟨c, hc, hle⟩
    rw [hJ] at hc hc'
    refine ⟨c, hc, le_trans hle hroot, fun p hgp => ?_⟩
    rw [hparent, hp] at hgp
    rw [← Option.some.inj hgp]
    exact ⟨c', hc', hle⟩

/-- In every run whose exchanges end within the tokens they present, expiration
    times only decrease. -/
theorem expiryInv_reachable (J : JwtLib) (root : String) (s : Service)
    (hr : ((delegation J root).restrict (EndsWithin J)).Reachable s) : ExpiryInv J root s := by
  refine System.invariant (ExpiryInv J root) ?_ ?_ s hr
  · intro s hs
    exact expiryInv_init J root s hs
  · intro s e s' hs hstep
    rcases hstep with ⟨hwithin, hpres, hunder, rfl⟩
    cases e with
    | exchange env r => exact expiryInv_exchange J root s env r hs hunder hpres hwithin
    | rotate entry => exact hs
    | setIssuanceRules rules => exact hs

/-- A transaction ends with its first token in every run whose replacements end
    within the tokens they replace: every token expires no later than the token
    it replaced and than the root, and no verifier accepts any of them once the
    root has expired. For each exchange answered with a replacement the
    condition is exact. -/
theorem transaction_expires (J : JwtLib) (hJ : J.ChecksExpiry) (root : String) :
    (∀ s, ((delegation J root).restrict (EndsWithin J)).Reachable s →
      ∃ c₀, Token.claimsOf J root = some c₀ ∧ ∀ g ∈ s.grants, ∃ c,
        Token.claimsOf J g.token = some c ∧ c.transactionID = c₀.transactionID ∧
        c.expiresAt ≤ c₀.expiresAt ∧
        (∀ p, g.parent = some p →
          ∃ pc, Token.claimsOf J p = some pc ∧ c.expiresAt ≤ pc.expiresAt) ∧
        ∀ keyFunc opt now t, c.expiresAt ≠ 0 → J.parse g.token keyFunc opt now = .ok t →
          now < second * c₀.expiresAt) ∧
    ∀ (env : Env) (s : Service) (r : Request) (p : String) (pc : Token.Claims)
      (tok ity ty : String), env.jwt = J → presented r = some p →
      Token.claimsOf J p = some pc → (s.handler.serveHTTP env r).1 = .token tok ity ty →
      ((∃ c, Token.claimsOf J tok = some c ∧ c.expiresAt ≤ pc.expiresAt) ↔
        EndsWithin J s (.exchange env r)) := by
  constructor
  · intro s hr
    rcases expiryInv_reachable J root s hr with ⟨c₀, hc₀, hall⟩
    rcases delegation_inv J root s (System.reachable_of_restrict _ s hr) with ⟨c₁, hc₁, _, hsame⟩
    have hroots : c₁ = c₀ := Option.some.inj (hc₁.symm.trans hc₀)
    refine ⟨c₀, hc₀, fun g hg => ?_⟩
    rcases hall g hg with ⟨c, hc, hle, hparent⟩
    rcases hsame g hg with ⟨c', hw⟩
    have hcs : c' = c := Option.some.inj (hw.claims.symm.trans hc)
    rw [hcs, hroots] at hw
    refine ⟨c, hc, hw.same.txn, hle, hparent, fun keyFunc opt now t hne hparse => ?_⟩
    -- Accepted before its own expiration time, which is the root's or earlier.
    have hown := parse_before_expiry J hJ g.token c hc keyFunc opt now t hparse hne
    have hmono : second * c.expiresAt ≤ second * c₀.expiresAt := by
      unfold second
      omega
    exact lt_of_lt_of_le hown hmono
  · intro env s r p pc tok ity ty henv hp hpc hresp
    rw [← henv] at hpc ⊢
    exact exchange_expiresAt_iff env s r p pc tok ity ty hp hpc hresp

section Renewal

/-- A JWT library with a clock that knows the subject token, a token issued at
    time zero for fifteen seconds, the token it is renewed by ten seconds later,
    and one it is replaced by at once. -/
def renewalLib : JwtLib :=
  (JwtLib.ofTable [("e30.e30.c2ln", sampleSubject),
    ("root", Token.newJwt (sampleClaims "read write") "k1" (15 * second) 0 ""),
    ("renewed", Token.newJwt (sampleClaims "read write") "k1" (15 * second) (10 * second) ""),
    ("narrowed", Token.newJwt (sampleClaims "read") "k1" (15 * second) 0 "")]).withExpiry

/-- The surroundings of an exchange at a time. -/
def renewalEnv (now : Int) : Env :=
  { sampleEnv with
    jwt := renewalLib
    now := now }

/-- The sample service with tokens that live for fifteen seconds, after issuing
    its root token at time zero. -/
def renewalRoot : Service :=
  ({ handler := { sampleHandler with lifetime := 15 * second }, grants := [] } : Service).serve
    (renewalEnv 0) sampleIssue

/-- Asking for the same scopes again. -/
def sampleRenew : Request :=
  sampleRequest Token.subjectTokenTypeTxnToken "root" "read write"

theorem renewalRoot_grants :
    renewalRoot.grants = [{ token := "root", parent := none, rules := [] }] := by
  have hresp : (({ sampleHandler with lifetime := 15 * second } : Handler).serveHTTP
      (renewalEnv 0) sampleIssue).1 = .token "root" Token.requestedTokenType "N_A" := by
    decide
  unfold renewalRoot Service.serve
  simp only [hresp]
  rfl

theorem renewalRoot_init : (delegation renewalLib "root").init renewalRoot :=
  ⟨{ sampleHandler with lifetime := 15 * second }, renewalEnv 0, sampleIssue, rfl,
    by decide, rfl, renewalRoot_grants⟩

theorem renewalRoot_presents (now : Int) (r : Request) (hr : presented r = some "root") :
    Presents renewalRoot (.exchange (renewalEnv now) r) := by
  refine ⟨{ token := "root", parent := none, rules := [] }, ?_, hr⟩
  rw [renewalRoot_grants]
  exact List.mem_singleton.mpr rfl

/-- Ten seconds into a lifetime of fifteen the root is exchanged for a token
    with the same scopes, which expires at twenty-five and is accepted at
    twenty. -/
theorem renewed_outlives_root :
    ¬∀ (J : JwtLib) (root : String) (s : Service), J.ChecksExpiry →
      (delegation J root).Reachable s → ∀ c₀, Token.claimsOf J root = some c₀ →
      ∀ g ∈ s.grants, ∀ c, Token.claimsOf J g.token = some c →
        c.expiresAt ≤ c₀.expiresAt ∧
        ∀ keyFunc opt now t, J.parse g.token keyFunc opt now = .ok t →
          now < second * c₀.expiresAt := by
  intro h
  have hstep : (delegation renewalLib "root").step renewalRoot
      (.exchange (renewalEnv (10 * second)) sampleRenew)
      (renewalRoot.serve (renewalEnv (10 * second)) sampleRenew) :=
    ⟨renewalRoot_presents _ _ (by decide), rfl, rfl⟩
  have hreach := (System.Reachable.init _ renewalRoot_init).next _ _ hstep
  have hrenewed : ({ token := "renewed", parent := some "root", rules := [] } : Grant) ∈
      (renewalRoot.serve (renewalEnv (10 * second)) sampleRenew).grants := by
    have hresp : (renewalRoot.handler.serveHTTP (renewalEnv (10 * second)) sampleRenew).1
        = .token "renewed" Token.requestedTokenType "N_A" := by decide
    have hpres : presented sampleRenew = some "root" := by decide
    rw [Service.serve, hresp, hpres]
    exact List.mem_cons_self
  have hboth := h renewalLib "root" _ (JwtLib.withExpiry_checksExpiry _) hreach
    (Token.signedClaims (sampleClaims "read write") (15 * second) 0 "") (by decide) _
    hrenewed (Token.signedClaims (sampleClaims "read write") (15 * second) (10 * second) "")
    (by decide)
  -- The root expired at fifteen seconds, and at twenty the renewed token passes.
  have hlate := hboth.2 (fun _ => .ok sampleKey.publicKey) (.withAudience "kontxt") (20 * second)
    (Token.newJwt (sampleClaims "read write") "k1" (15 * second) (10 * second) "")
    (by decide)
  exact absurd hlate (by decide)

/-- Replaced in the second it was issued in, the root ends the transaction. -/
theorem transaction_expires_sample :
    (renewalRoot.serve (renewalEnv 0) sampleReplace).grants.map Grant.token
      = ["narrowed", "root"] ∧
    ∃ c₀, Token.claimsOf renewalLib "root" = some c₀ ∧
      ∀ g ∈ (renewalRoot.serve (renewalEnv 0) sampleReplace).grants, ∃ c,
        Token.claimsOf renewalLib g.token = some c ∧ c.transactionID = c₀.transactionID ∧
        c.expiresAt ≤ c₀.expiresAt ∧
        (∀ p, g.parent = some p →
          ∃ pc, Token.claimsOf renewalLib p = some pc ∧ c.expiresAt ≤ pc.expiresAt) ∧
        ∀ keyFunc opt now t, c.expiresAt ≠ 0 → renewalLib.parse g.token keyFunc opt now = .ok t →
          now < second * c₀.expiresAt := by
  refine ⟨by decide,
    (transaction_expires renewalLib (JwtLib.withExpiry_checksExpiry _) "root").1 _ ?_⟩
  have hwithin : EndsWithin renewalLib renewalRoot (.exchange (renewalEnv 0) sampleReplace) := by
    intro p pc hp hpc
    have hroot : presented sampleReplace = some "root" := by decide
    have hclaims : Token.claimsOf renewalLib "root"
        = some (Token.signedClaims (sampleClaims "read write") (15 * second) 0 "") := by
      decide
    rw [hroot] at hp
    rw [← Option.some.inj hp, hclaims] at hpc
    rw [← Option.some.inj hpc]
    decide
  have hstep : (delegation renewalLib "root").step renewalRoot
      (.exchange (renewalEnv 0) sampleReplace) (renewalRoot.serve (renewalEnv 0) sampleReplace) :=
    ⟨renewalRoot_presents _ _ (by decide), rfl, rfl⟩
  have hroot : ((delegation renewalLib "root").restrict (EndsWithin renewalLib)).Reachable
      renewalRoot := System.Reachable.init _ renewalRoot_init
  exact hroot.next_restrict _ _ hwithin hstep

end Renewal

end Tts

end Kontxt
