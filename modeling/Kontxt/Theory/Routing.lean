import Kontxt.Theory.Exchange

/-!
# Routing by an Unverified Issuer

The router reads a token's issuer before anything is verified, with a decoder of
its own, and hands the token to the first authenticator with that issuer URL. The
authenticator verifies the token for its own URL, with its own keys, and reads
the claims a second time.

So whatever the two decoders make of a payload, a token is only accepted for the
authenticator whose URL it was verified for. `routing_accepts_iff` lists
everything that has to be true of an accepted token, and the list is complete:
the routing, the key, the signature, the verified issuer, the audience, the
rules and the mappings. A payload the two readings disagree on fails at the
verified issuer.

Of the JWT library only `ChecksIssuer` is assumed, for any notion of a good
signature and of a valid token.

## Main definitions

* `Authn.Authenticator.Key`: The key an authenticator has for an identifier.
* `Authn.Authenticator.Subject`: The string the subject mapping yields.
* `Authn.Accepted`: Everything that is true of an accepted token.

## Theorems

* `Authn.keyFunc_eq_ok`: When the key function gives a key.
* `Authn.subjectInfo_exists_iff`: When verified claims give a subject.
* `Authn.parse_eq_ok`: When an authenticator verifies a token.
* `Authn.routing_accepts_iff`: When the router accepts a token.
-/

namespace Kontxt

namespace Authn

open Go Lib

section Keys

variable (env : Env)

/-- The key an authenticator has for an identifier: the cached one, or the one a
    successful fetch brings. -/
def Authenticator.Key (a : Authenticator) (kid : String) (key : RsaPublicKey) : Prop :=
  a.keys.lookup kid = some key ∨
    (a.keys.lookup kid = none ∧ ∃ a', a.fetchJWKS env.net env.docs env.unicode = (.ok (), a') ∧
      a'.keys.lookup kid = some key)

/-- The key function gives the key of the token's identifier, for a token that
    uses an RSA method. -/
theorem keyFunc_eq_ok (a : Authenticator) (t : Jwt) (key : RsaPublicKey) :
    (a.keyFunc env.net env.docs env.unicode t).1 = .ok key ↔
      isSigningMethodRSA t.header = true ∧
        ∃ kid, t.header.lookup "kid" = some (.str kid) ∧ a.Key env kid key := by
  unfold Authenticator.keyFunc Authenticator.Key
  cases hrsa : isSigningMethodRSA t.header with
  | false => simp only [if_true, reduceCtorEq, false_and, Bool.false_eq_true]
  | true =>
      simp only [Bool.true_eq_false, if_false, true_and]
      cases hkid : t.header.lookup "kid" with
      | none => simp only [reduceCtorEq, false_and, exists_false]
      | some v =>
          cases v with
          | str kid =>
              simp only [Option.some.injEq, Json.str.injEq, exists_eq_left']
              cases hcached : a.keys.lookup kid with
              | some cached =>
                  simp only [Except.ok.injEq, Option.some.injEq, reduceCtorEq, false_and, or_false]
              | none =>
                  simp only [reduceCtorEq, true_and, false_or]
                  rcases hfetch : a.fetchJWKS env.net env.docs env.unicode with ⟨res, a'⟩
                  cases res with
                  | error e => simp only [reduceCtorEq, Prod.mk.injEq, false_and, exists_false]
                  | ok _ =>
                      simp only [Prod.mk.injEq, true_and, exists_eq_left']
                      cases hfound : a'.keys.lookup kid with
                      | none => simp only [reduceCtorEq]
                      | some found => simp only [Except.ok.injEq, Option.some.injEq]
          | _ => simp only [reduceCtorEq, Option.some.injEq, false_and, exists_false]

end Keys

section Claims

variable (env : Env)

/-- The string the subject mapping yields: a claim that is a string, or the value
    of an expression that is one. -/
def Authenticator.Subject (a : Authenticator) (claims : Object) (s : String) : Prop :=
  (a.subjectMapping.claim ≠ "" ∧ claims.lookup a.subjectMapping.claim = some (.str s)) ∨
    (a.subjectMapping.claim = "" ∧
      ∃ p v, a.subjectProgram = some p ∧ p claims = .ok v ∧ v.asString = some s)

theorem evaluateSubjectMapping_eq_ok (a : Authenticator) (claims : Object) (s : String) :
    evaluateSubjectMapping env.unicode a.subjectMapping a.subjectProgram claims = .ok s ↔
      a.Subject claims s := by
  unfold evaluateSubjectMapping Authenticator.Subject
  by_cases hclaim : a.subjectMapping.claim = ""
  · simp only [hclaim, ne_eq, not_true_eq_false, if_false, false_and, true_and, false_or]
    cases hprog : a.subjectProgram with
    | none => simp only [reduceCtorEq, false_and, exists_false]
    | some p =>
        simp only [Option.some.injEq, exists_and_left, exists_eq_left']
        cases hv : p claims with
        | error e => simp only [reduceCtorEq, false_and, exists_false]
        | ok v =>
            simp only [Except.ok.injEq, exists_eq_left']
            cases hs : v.asString with
            | none => simp only [reduceCtorEq]
            | some s' => simp only [Except.ok.injEq, Option.some.injEq]
  · simp only [hclaim, ne_eq, not_false_eq_true, if_true, true_and, false_and, or_false]
    cases hv : claims.lookup a.subjectMapping.claim with
    | none => simp only [reduceCtorEq]
    | some v =>
        cases v with
        | str s' => simp only [Except.ok.injEq, Option.some.injEq, Json.str.injEq]
        | _ => simp only [reduceCtorEq, Option.some.injEq]

theorem evaluateValidationRule_eq_ok (claims : Object) (rule : CompiledRule) :
    evaluateValidationRule claims rule = .ok () ↔ rule.program claims = .ok (.bool true) := by
  unfold evaluateValidationRule
  cases rule.program claims with
  | error e => simp only [reduceCtorEq]
  | ok v =>
      cases v with
      | bool b =>
          cases b with
          | true => simp only
          | false => simp only [reduceCtorEq, Except.ok.injEq, Cel.Val.bool.injEq,
              Bool.false_eq_true]
      | string s => simp only [reduceCtorEq, Except.ok.injEq]
      | other ty s shown => simp only [reduceCtorEq, Except.ok.injEq]

theorem validateAudience_eq_ok (a : Authenticator) (claims : Object) :
    a.validateAudience env.getAudience claims = .ok () ↔
      ∃ aud, env.getAudience claims = .ok aud ∧ ∃ x ∈ aud, x ∈ a.audiences := by
  unfold Authenticator.validateAudience
  cases haud : env.getAudience claims with
  | error e => simp only [reduceCtorEq, false_and, exists_false]
  | ok aud =>
      simp only [Except.ok.injEq, exists_eq_left']
      have hany : (aud.any fun tokenAud => a.audiences.contains tokenAud) = true ↔
          ∃ x ∈ aud, x ∈ a.audiences := by
        simp only [List.any_eq_true, List.contains_iff_mem]
      rw [← hany]
      cases aud.any fun tokenAud => a.audiences.contains tokenAud with
      | true => simp only [if_true]
      | false => simp only [Bool.false_eq_true, if_false, reduceCtorEq]

theorem evaluateExtraMappings_exists_iff (claims : Object) (mappings : List CompiledMapping) :
    (∃ extra, evaluateExtraMappings env.unicode claims mappings = .ok extra) ↔
      ∀ m ∈ mappings, ∃ v, m.program claims = .ok v := by
  unfold evaluateExtraMappings
  refine foldlM_exists_ok _ (fun m => ∃ v, m.program claims = .ok v) ?_ mappings _
  intro extra m
  cases m.program claims with
  | error e => simp only [reduceCtorEq, exists_false]
  | ok v => simp only [Except.ok.injEq, exists_eq']

/-- Verified claims give a subject exactly when the audience is configured, the
    rules are true, the subject mapping yields it and the extra mappings
    evaluate. -/
theorem subjectInfo_exists_iff (a : Authenticator) (claims : Object) (subject : String) :
    (∃ info, a.subjectInfo env claims = .ok info ∧ info.subject = subject) ↔
      (∃ aud, env.getAudience claims = .ok aud ∧ ∃ x ∈ aud, x ∈ a.audiences) ∧
      (∀ rule ∈ a.validationRules, rule.program claims = .ok (.bool true)) ∧
      a.Subject claims subject ∧
      ∀ m ∈ a.extraMappings, ∃ v, m.program claims = .ok v := by
  rw [← validateAudience_eq_ok, ← evaluateExtraMappings_exists_iff env,
    ← evaluateSubjectMapping_eq_ok env]
  simp only [← evaluateValidationRule_eq_ok]
  rw [← forM_eq_ok]
  unfold Authenticator.subjectInfo
  simp only [bind_eq_ok, mapError_eq_ok, Except.ok.injEq]
  constructor
  · intro hgiven
    rcases hgiven with ⟨info, ⟨_, haud, _, hrules, s, hs, extra, hextra, rfl⟩, rfl⟩
    exact ⟨haud, hrules, hs, extra, hextra⟩
  · intro hgiven
    rcases hgiven with ⟨haud, hrules, hs, extra, hextra⟩
    exact ⟨_, ⟨(), haud, (), hrules, subject, hs, extra, hextra, rfl⟩, rfl⟩

end Claims

section Router

variable (env : Env) (Signed : String → RsaPublicKey → Prop) (Valid : Jwt → Int → Prop)

/-- Everything that is true of a token that authenticator `a` of a router
    accepted, read as `t`, for a subject. -/
structure Accepted (r : Router) (tok : String) (a : Authenticator) (t : Jwt) (subject : String) :
    Prop where
  routed : ∃ issuer before after, extractIssuer env tok = .ok issuer ∧
    r = before ++ a :: after ∧ (∀ b ∈ before, b.issuerURL ≠ issuer) ∧ a.issuerURL = issuer
  read : env.jwt.parseUnverified tok = .ok t
  rsa : isSigningMethodRSA t.header = true
  signed : ∃ kid key, t.header.lookup "kid" = some (.str kid) ∧ a.Key env kid key ∧ Signed tok key
  valid : Valid t env.now
  issuer : t.claims.str "iss" = a.issuerURL
  audience : ∃ aud, env.getAudience t.claims = .ok aud ∧ ∃ x ∈ aud, x ∈ a.audiences
  rules : ∀ rule ∈ a.validationRules, rule.program t.claims = .ok (.bool true)
  mapped : a.Subject t.claims subject
  extras : ∀ m ∈ a.extraMappings, ∃ v, m.program t.claims = .ok v

/-- The issuer a token is routed by is not empty. -/
theorem extractIssuer_ne (tok issuer : String) (h : extractIssuer env tok = .ok issuer) :
    issuer ≠ "" := by
  unfold extractIssuer at h
  split at h
  · rename_i payload _ _
    cases hdec : rawURLDecode payload with
    | error e =>
        rw [hdec] at h
        cases h
    | ok bytes =>
        rw [hdec] at h
        simp only [] at h
        cases hiss : env.docs.issuer bytes with
        | error e =>
            rw [hiss] at h
            cases h
        | ok iss =>
            rw [hiss] at h
            rcases (ite_error_eq_ok _ _ _ _).mp h with ⟨hne, hok⟩
            rw [← Except.ok.inj hok]
            exact hne
  · cases h

/-- The first authenticator with an issuer URL. -/
theorem matching_eq_some (r : Router) (issuer : String) (a : Authenticator) :
    Router.matching r issuer = some a ↔
      ∃ before after, r = before ++ a :: after ∧ (∀ b ∈ before, b.issuerURL ≠ issuer) ∧
        a.issuerURL = issuer := by
  unfold Router.matching
  rw [List.find?_eq_some_iff_append]
  simp only [beq_iff_eq, Bool.not_eq_true', beq_eq_false_iff_ne, ne_eq]
  constructor
  · intro hgiven
    rcases hgiven with ⟨heq, before, after, hr, hbefore⟩
    exact ⟨before, after, hr, fun b hb hc => hbefore b hb hc.symm, heq.symm⟩
  · intro hgiven
    rcases hgiven with ⟨before, after, hr, hbefore, heq⟩
    exact ⟨heq.symm, before, after, hr, fun b hb hc => hbefore b hb hc.symm⟩

variable {Signed Valid}

/-- An authenticator verifies a token under its own key for its own URL. -/
theorem parse_eq_ok (hJ : env.jwt.ChecksIssuer Signed Valid) (a : Authenticator)
    (ha : a.issuerURL ≠ "") (tok : String) (t : Jwt) :
    a.parse env tok = .ok t ↔
      env.jwt.parseUnverified tok = .ok t ∧ isSigningMethodRSA t.header = true ∧
      (∃ kid key, t.header.lookup "kid" = some (.str kid) ∧ a.Key env kid key ∧ Signed tok key) ∧
      Valid t env.now ∧ t.claims.str "iss" = a.issuerURL := by
  unfold Authenticator.parse
  rw [JwtLib.parse_eq_ok]
  constructor
  · intro hgiven
    rcases hgiven with ⟨hread, key, hkey, hver⟩
    rcases (keyFunc_eq_ok env a t key).mp hkey with ⟨hrsa, kid, hkid, hhas⟩
    rcases (hJ tok t key a.issuerURL env.now hread ha).mp hver with ⟨hsigned, hvalid, hiss⟩
    exact ⟨hread, hrsa, ⟨kid, key, hkid, hhas, hsigned⟩, hvalid, hiss⟩
  · intro hgiven
    rcases hgiven with ⟨hread, hrsa, ⟨kid, key, hkid, hhas, hsigned⟩, hvalid, hiss⟩
    refine ⟨hread, key, (keyFunc_eq_ok env a t key).mpr ⟨hrsa, kid, hkid, hhas⟩, ?_⟩
    exact (hJ tok t key a.issuerURL env.now hread ha).mpr ⟨hsigned, hvalid, hiss⟩

/-- An authenticator accepts what it verifies and finds a subject in. -/
theorem authenticate_exists_iff (a : Authenticator) (tok subject : String) :
    (∃ info, a.authenticate env tok = .ok info ∧ info.subject = subject) ↔
      ∃ t, a.parse env tok = .ok t ∧
        ∃ info, a.subjectInfo env t.claims = .ok info ∧ info.subject = subject := by
  unfold Authenticator.authenticate
  cases hparse : a.parse env tok with
  | error e => simp only [reduceCtorEq, false_and, exists_false]
  | ok t => simp only [Except.ok.injEq, exists_eq_left']

/-- The router accepts what the first matching authenticator accepts. -/
theorem router_exists_iff (r : Router) (tok subject : String) :
    (∃ info, Router.authenticate env r tok = .ok info ∧ info.subject = subject) ↔
      ∃ issuer a, extractIssuer env tok = .ok issuer ∧ Router.matching r issuer = some a ∧
        ∃ info, a.authenticate env tok = .ok info ∧ info.subject = subject := by
  unfold Router.authenticate
  cases hiss : extractIssuer env tok with
  | error e => simp only [reduceCtorEq, false_and, exists_false]
  | ok issuer =>
      simp only [Except.ok.injEq, exists_and_left, exists_eq_left']
      cases hmatch : Router.matching r issuer with
      | none => simp only [reduceCtorEq, false_and, exists_false]
      | some a => simp only [Option.some.injEq, exists_eq_left']

/-- Routing by an unverified issuer is safe. For every token, every list of
    authenticators and whatever keys are cached or can be fetched, the router
    gives a subject exactly when everything in `Accepted` holds of the first
    authenticator with the issuer read from the payload; and a token whose
    verified `iss` is not that issuer is refused. -/
theorem routing_accepts_iff (hJ : env.jwt.ChecksIssuer Signed Valid) (r : Router) (tok : String) :
    (∀ subject,
      (∃ info, Router.authenticate env r tok = .ok info ∧ info.subject = subject) ↔
        ∃ a t, Accepted env Signed Valid r tok a t subject) ∧
    ∀ issuer t, extractIssuer env tok = .ok issuer → env.jwt.parseUnverified tok = .ok t →
      t.claims.str "iss" ≠ issuer → ∀ info, Router.authenticate env r tok ≠ .ok info := by
  have hiff : ∀ subject,
      (∃ info, Router.authenticate env r tok = .ok info ∧ info.subject = subject) ↔
        ∃ a t, Accepted env Signed Valid r tok a t subject := by
    intro subject
    rw [router_exists_iff]
    constructor
    · intro hgiven
      rcases hgiven with ⟨issuer, a, hiss, hmatch, hauth⟩
      rcases (matching_eq_some r issuer a).mp hmatch with ⟨before, after, hr, hbefore, ha⟩
      rcases (authenticate_exists_iff env a tok subject).mp hauth with ⟨t, hparse, hinfo⟩
      have hne : a.issuerURL ≠ "" := ha ▸ extractIssuer_ne env tok issuer hiss
      rcases (parse_eq_ok env hJ a hne tok t).mp hparse with
        ⟨hread, hrsa, hsigned, hvalid, hverified⟩
      rcases (subjectInfo_exists_iff env a t.claims subject).mp hinfo with
        ⟨haud, hrules, hsubject, hextra⟩
      exact ⟨a, t, ⟨issuer, before, after, hiss, hr, hbefore, ha⟩, hread, hrsa, hsigned, hvalid,
        hverified, haud, hrules, hsubject, hextra⟩
    · intro hgiven
      rcases hgiven with ⟨a, t, hacc⟩
      rcases hacc.routed with ⟨issuer, before, after, hiss, hr, hbefore, ha⟩
      have hne : a.issuerURL ≠ "" := ha ▸ extractIssuer_ne env tok issuer hiss
      refine ⟨issuer, a, hiss, (matching_eq_some r issuer a).mpr ⟨before, after, hr, hbefore, ha⟩,
        ?_⟩
      rw [authenticate_exists_iff]
      refine ⟨t, (parse_eq_ok env hJ a hne tok t).mpr
        ⟨hacc.read, hacc.rsa, hacc.signed, hacc.valid, hacc.issuer⟩, ?_⟩
      exact (subjectInfo_exists_iff env a t.claims subject).mpr
        ⟨hacc.audience, hacc.rules, hacc.mapped, hacc.extras⟩
  refine ⟨hiff, fun issuer t hiss hread hne info hauth => ?_⟩
  rcases (hiff info.subject).mp ⟨info, hauth, rfl⟩ with ⟨a, t', hacc⟩
  rcases hacc.routed with ⟨issuer', _, _, hiss', _, _, ha⟩
  -- The issuer that was routed by is the URL the token was verified for.
  have hissuers : issuer' = issuer := Except.ok.inj (hiss'.symm.trans hiss)
  have hreads : t' = t := Except.ok.inj (hacc.read.symm.trans hread)
  rw [← hreads, hacc.issuer, ha, hissuers] at hne
  exact hne rfl

end Router

/-- The library for finitely many tokens checks issuers as assumed. -/
theorem checksIssuer_ofSigned (table : List (String × Jwt × RsaPublicKey)) :
    (JwtLib.ofSigned table).ChecksIssuer (fun s key => ∃ t, table.lookup s = some (t, key))
      (fun t now => t.expired now = false) := by
  intro s t key iss now hread hiss
  rcases (JwtLib.ofSigned_read_iff table s t).mp hread with ⟨signer, ht⟩
  have hholds : (ParserOption.withIssuer iss).holds t.claims = true ↔ t.claims.str "iss" = iss := by
    simp only [ParserOption.holds, Bool.or_eq_true, beq_iff_eq, hiss, false_or]
  rw [JwtLib.ofSigned_verify_iff, ← hholds]
  constructor
  · intro hver
    rcases hver with ⟨t', ht', hexp, hopt⟩
    -- A text has one entry in the table.
    have hsame := (Prod.mk.inj (Option.some.inj (ht'.symm.trans ht))).1
    rw [← hsame]
    exact ⟨⟨t', ht'⟩, hexp, hopt⟩
  · intro hlaw
    rcases hlaw with ⟨⟨t', ht'⟩, hexp, hopt⟩
    have hsame := (Prod.mk.inj (Option.some.inj (ht'.symm.trans ht))).1
    rw [← hsame] at hexp hopt
    exact ⟨t', ht', hexp, hopt⟩

/-- Two tokens signed with one key, of which the second names another issuer in
    the claims that are verified. -/
def routedTokens : List (String × Jwt × RsaPublicKey) :=
  [("e30.e30.c2ln", Tts.sampleSubject, Tts.sampleKey.publicKey),
    ("e30.e30.c2lo", { Tts.sampleSubject with claims := [("iss", .str "other")] },
      Tts.sampleKey.publicKey)]

/-- Both are routed to the identity provider of the sample handler. -/
def routedEnv : Env :=
  { Tts.sampleEnv.toEnv with jwt := JwtLib.ofSigned routedTokens }

/-- The first token is accepted for `alice`, the second is refused. -/
theorem routing_accepts_iff_sample :
    (∃ a t, Accepted routedEnv (fun s key => ∃ t, routedTokens.lookup s = some (t, key))
      (fun t now => t.expired now = false) Tts.sampleHandler.router "e30.e30.c2ln" a t "alice") ∧
    ∀ info, Router.authenticate routedEnv Tts.sampleHandler.router "e30.e30.c2lo" ≠ .ok info := by
  have hlaw : routedEnv.jwt.ChecksIssuer _ _ := checksIssuer_ofSigned routedTokens
  have hsubject : (Router.authenticate routedEnv Tts.sampleHandler.router
      "e30.e30.c2ln").toOption.map SubjectInfo.subject = some "alice" := by decide +kernel
  have hrouted : extractIssuer routedEnv "e30.e30.c2lo" = .ok "idp" := by decide
  have hread : routedEnv.jwt.parseUnverified "e30.e30.c2lo"
      = .ok { Tts.sampleSubject with claims := [("iss", .str "other")] } := by decide +kernel
  constructor
  · refine ((routing_accepts_iff routedEnv hlaw Tts.sampleHandler.router "e30.e30.c2ln").1
      "alice").mp ?_
    cases hauth : Router.authenticate routedEnv Tts.sampleHandler.router "e30.e30.c2ln" with
    | error e =>
        rw [hauth] at hsubject
        cases hsubject
    | ok info =>
        rw [hauth] at hsubject
        exact ⟨info, rfl, Option.some.inj hsubject⟩
  · exact (routing_accepts_iff routedEnv hlaw Tts.sampleHandler.router "e30.e30.c2lo").2 "idp" _
      hrouted hread (by decide +kernel)

end Authn

end Kontxt
