import Kontxt.Core.CheckCall

/-!
# One Decision, Three Rule Sets

A verification decision ought to be made against one rule set. A call of `Check`
loads the set up to three times, so with rules being replaced meanwhile it may
take the exclusions of one set, the rules of a second and the narrowing of a
third. `mixedCheck` is the answer such a call gives, and every call gives one.

Whether the answer is always that of one set active during the call comes down to
what the sets say of the request, part by part: whether they exclude it, what error
their rules have for it, and what they narrow its token to. `OneDecides` is the
condition on three sets, one case for each answer that can be put together, and
`check_atomic_iff` says that it is exact, over all interleavings. Sets that agree on
the exclusion of the request and on its narrowing meet it. Sets in general do not.

## Main definitions

* `ExtAuth.mixedCheck`: The answer put together from three rule sets.
* `ExtAuth.answerOf`: The answer to a request whose token is verified.
* `ExtAuth.OneDecides`: What one set of three would have answered as well.
* `ExtAuth.checking`: The server and its calls, with rules from a given family.
* `ExtAuth.Atomic`: A call answered as one active rule set would have.
* `ExtAuth.CallInv`: What is known of a running call.

## Theorems

* `ExtAuth.check_eq_mixedCheck`: A call alone sees one rule set.
* `ExtAuth.returned_mixedCheck`: Every call returns a mixed answer.
* `ExtAuth.callInv_reachable`: Every call took its steps on active sets.
* `ExtAuth.exists_mixed_run`: Every mixed answer is given in some run.
* `ExtAuth.oneAnswers_iff`: When a mixed answer is the answer of one of the sets.
* `ExtAuth.oneDecides_of_agree`: Sets that agree enough give one answer.
* `ExtAuth.check_atomic_iff`: When every answer is that of one rule set.
-/

namespace Kontxt

namespace ExtAuth

open Go Lib

section Mixing

variable (u : Unicode)

/-- The answer put together from three rule sets: the exclusions of `A`, the
    rules of `B` and the narrowing of `C`. -/
def mixedCheck (A B C : Server) (req : CheckRequest) : CheckResponse :=
  match req.http with
  | none => denied .invalidArgument "missing HTTP request attributes"
  | some httpReq =>
    let txToken := getHeader u httpReq.headers Token.headerName
    if A.isExcluded u httpReq.path httpReq.method then allowed
    else if txToken = "" then denied .unauthenticated "missing Txn-Token header"
    else
      match A.verifier txToken with
      | .error e => denied .unauthenticated ("TxToken verification failed: " ++ e)
      | .ok claims =>
        match B.checkVerificationRules u claims httpReq with
        | .error e => denied .permissionDenied e
        | .ok () =>
          if C.autoNarrow claims txToken ≠ "" then
            allowedWithHeaders [(Token.headerName, C.autoNarrow claims txToken)]
          else allowed

/-- A call that nothing interrupts sees one rule set. -/
theorem check_eq_mixedCheck (s : Server) (req : CheckRequest) :
    s.check u req = mixedCheck u s s s req := rfl

/-- Three steps of a call, on three rule sets, return the mixed answer. -/
theorem next_eq_mixedCheck (A B C : Server) (req : CheckRequest) :
    ((CheckPoint.entry.next u A req).next u B req).next u C req
      = .returned (mixedCheck u A B C req) := by
  unfold mixedCheck
  simp only [CheckPoint.next]
  cases req.http with
  | none => rfl
  | some httpReq =>
      simp only []
      -- A call that has returned stays so, which is why later sets drop out.
      by_cases hexcl : A.isExcluded u httpReq.path httpReq.method = true
      · simp only [hexcl, if_true]
      · by_cases htok : getHeader u httpReq.headers Token.headerName = ""
        · simp only [hexcl, htok, Bool.false_eq_true, if_true, if_false]
        · simp only [hexcl, htok, Bool.false_eq_true, if_false]
          cases A.verifier (getHeader u httpReq.headers Token.headerName) with
          | error e => rfl
          | ok claims =>
              simp only []
              cases B.checkVerificationRules u claims httpReq with
              | error e => rfl
              | ok _ =>
                  simp only []
                  by_cases hnarrow : C.autoNarrow claims
                      (getHeader u httpReq.headers Token.headerName) = ""
                  · simp only [hnarrow, ne_eq, not_true_eq_false, if_false]
                  · simp only [hnarrow, ne_eq, not_false_eq_true, if_true]

/-- A call's steps, on the rule sets of a list. -/
def stepsOn (req : CheckRequest) (p : CheckPoint) (l : List Server) : CheckPoint :=
  l.foldl (fun p s => CheckPoint.next u s req p) p

/-- Once a call has returned, nothing changes. -/
theorem stepsOn_returned (req : CheckRequest) (resp : CheckResponse) (l : List Server) :
    stepsOn u req (.returned resp) l = .returned resp := by
  induction l with
  | nil => rfl
  | cons s l ih => exact ih

/-- A call that returned after steps on the sets of a list gave a mixed answer of
    sets of the list. -/
theorem returned_mixedCheck (req : CheckRequest) (l : List Server) (resp : CheckResponse)
    (h : stepsOn u req .entry l = .returned resp) :
    ∃ A ∈ l, ∃ B ∈ l, ∃ C ∈ l, resp = mixedCheck u A B C req := by
  -- A call that returned early can be given more steps, on its last set.
  have hmore : ∀ more, stepsOn u req .entry (l ++ more) = .returned resp := by
    intro more
    rw [stepsOn, List.foldl_append]
    exact (congrArg (fun p => stepsOn u req p more) h).trans (stepsOn_returned u req resp more)
  rcases l with _ | ⟨A, _ | ⟨B, _ | ⟨C, rest⟩⟩⟩
  · cases h
  · have hthree := (next_eq_mixedCheck u A A A req).symm.trans (hmore [A, A])
    exact ⟨A, List.mem_cons_self, A, List.mem_cons_self, A, List.mem_cons_self,
      (CheckPoint.returned.inj hthree).symm⟩
  · have hthree := (next_eq_mixedCheck u A B B req).symm.trans (hmore [B])
    have hB : B ∈ [A, B] := List.mem_cons_of_mem A List.mem_cons_self
    exact ⟨A, List.mem_cons_self, B, hB, B, hB, (CheckPoint.returned.inj hthree).symm⟩
  · rw [stepsOn, List.foldl_cons, List.foldl_cons, List.foldl_cons, next_eq_mixedCheck] at h
    have hthree := (stepsOn_returned u req (mixedCheck u A B C req) rest).symm.trans h
    have hB : B ∈ A :: B :: C :: rest := List.mem_cons_of_mem A List.mem_cons_self
    have hC : C ∈ A :: B :: C :: rest :=
      List.mem_cons_of_mem A (List.mem_cons_of_mem B List.mem_cons_self)
    exact ⟨A, List.mem_cons_self, B, hB, C, hC, (CheckPoint.returned.inj hthree).symm⟩

/-- Two servers differ in nothing but where the same rule set came from. -/
structure SameSet (s s' : Server) : Prop where
  verifier : s.verifier = s'.verifier
  ttsClient : s.ttsClient = s'.ttsClient
  rules : s.loadVerificationRules = s'.loadVerificationRules

/-- The mixed answer depends on the rule sets only. -/
theorem mixedCheck_congr {A A' B B' C C' : Server} (hA : SameSet A A') (hB : SameSet B B')
    (hC : SameSet C C') (req : CheckRequest) :
    mixedCheck u A B C req = mixedCheck u A' B' C' req := by
  unfold mixedCheck Server.isExcluded Server.checkVerificationRules Server.autoNarrow
  rw [hA.verifier, hA.rules, hB.rules, hC.rules, hC.ttsClient]

/-- The answer to a request with a verified token, from whether it is excluded, what
    checking the rules gives and what the token is narrowed to. -/
def answerOf (excluded : Bool) (checked : Except String Unit) (narrowed : String) :
    CheckResponse :=
  if excluded = true then allowed
  else
    match checked with
    | .error e => denied .permissionDenied e
    | .ok () =>
      if narrowed ≠ "" then allowedWithHeaders [(Token.headerName, narrowed)] else allowed

theorem answerOf_eq_denied (excluded : Bool) (checked : Except String Unit)
    (narrowed message : String) :
    answerOf excluded checked narrowed = denied .permissionDenied message ↔
      excluded = false ∧ checked = .error message := by
  unfold answerOf
  cases excluded with
  | true => simp [allowed, denied]
  | false =>
      cases checked with
      | error e => simp [denied]
      | ok _ =>
          by_cases hnarrow : narrowed = ""
          · simp [hnarrow, allowed, denied]
          · simp [hnarrow, allowedWithHeaders, denied]

theorem answerOf_eq_allowed (excluded : Bool) (checked : Except String Unit) (narrowed : String) :
    answerOf excluded checked narrowed = allowed ↔
      excluded = true ∨ (checked = .ok () ∧ narrowed = "") := by
  unfold answerOf
  cases excluded with
  | true => simp
  | false =>
      cases checked with
      | error e => simp [allowed, denied]
      | ok _ =>
          by_cases hnarrow : narrowed = ""
          · simp [hnarrow]
          · simp [hnarrow, allowed, allowedWithHeaders]

theorem answerOf_eq_narrowed (excluded : Bool) (checked : Except String Unit)
    (narrowed tok : String) (htok : tok ≠ "") :
    answerOf excluded checked narrowed = allowedWithHeaders [(Token.headerName, tok)] ↔
      excluded = false ∧ checked = .ok () ∧ narrowed = tok := by
  unfold answerOf
  cases excluded with
  | true => simp [allowed, allowedWithHeaders]
  | false =>
      cases checked with
      | error e => simp [allowedWithHeaders, denied]
      | ok _ =>
          by_cases hnarrow : narrowed = ""
          · simp [hnarrow, allowed, allowedWithHeaders, htok.symm]
          · simp [hnarrow, allowedWithHeaders]

/-- What `A` does not exclude, the rules of `B` and the narrowing of `C` answer as one
    of the three sets would alone. An error of `B`'s rules is the answer of `B` unless
    `B` excludes the request, and otherwise of a set whose rules have the same error. A
    request that passes with its own token passes so under a set that excludes it, or
    whose rules have no error and which does not narrow. A narrowed token is that of a
    set which does not exclude the request, has no error and narrows to it. -/
structure OneDecides (A B C : Server) (httpReq : HttpRequest) (claims : Token.Claims)
    (tok : String) : Prop where
  denied : ∀ e, B.checkVerificationRules u claims httpReq = .error e →
    B.isExcluded u httpReq.path httpReq.method = false ∨
    A.checkVerificationRules u claims httpReq = .error e ∨
    (C.isExcluded u httpReq.path httpReq.method = false ∧
      C.checkVerificationRules u claims httpReq = .error e)
  passed : B.checkVerificationRules u claims httpReq = .ok () → C.autoNarrow claims tok = "" →
    (A.checkVerificationRules u claims httpReq = .ok () ∧ A.autoNarrow claims tok = "") ∨
    B.isExcluded u httpReq.path httpReq.method = true ∨ B.autoNarrow claims tok = "" ∨
    C.isExcluded u httpReq.path httpReq.method = true ∨
    C.checkVerificationRules u claims httpReq = .ok ()
  narrowed : B.checkVerificationRules u claims httpReq = .ok () → C.autoNarrow claims tok ≠ "" →
    (A.checkVerificationRules u claims httpReq = .ok () ∧
      A.autoNarrow claims tok = C.autoNarrow claims tok) ∨
    (B.isExcluded u httpReq.path httpReq.method = false ∧
      B.autoNarrow claims tok = C.autoNarrow claims tok) ∨
    (C.isExcluded u httpReq.path httpReq.method = false ∧
      C.checkVerificationRules u claims httpReq = .ok ())

/-- The mixed answer to a request with a verified token. -/
theorem mixedCheck_eq_answerOf (A B C : Server) (req : CheckRequest) (httpReq : HttpRequest)
    (claims : Token.Claims) (hhttp : req.http = some httpReq)
    (htok : getHeader u httpReq.headers Token.headerName ≠ "")
    (hver : A.verifier (getHeader u httpReq.headers Token.headerName) = .ok claims) :
    mixedCheck u A B C req =
      answerOf (A.isExcluded u httpReq.path httpReq.method)
        (B.checkVerificationRules u claims httpReq)
        (C.autoNarrow claims (getHeader u httpReq.headers Token.headerName)) := by
  unfold mixedCheck answerOf
  simp only [hhttp, if_neg htok, hver]

/-- The answer `A` leaves to the others is that of one of the three sets exactly when
    one of them decides. -/
theorem answerOf_one_iff (A B C : Server) (httpReq : HttpRequest) (claims : Token.Claims)
    (tok : String) :
    (answerOf false (B.checkVerificationRules u claims httpReq) (C.autoNarrow claims tok) =
        answerOf false (A.checkVerificationRules u claims httpReq) (A.autoNarrow claims tok) ∨
      answerOf false (B.checkVerificationRules u claims httpReq) (C.autoNarrow claims tok) =
        answerOf (B.isExcluded u httpReq.path httpReq.method)
          (B.checkVerificationRules u claims httpReq) (B.autoNarrow claims tok) ∨
      answerOf false (B.checkVerificationRules u claims httpReq) (C.autoNarrow claims tok) =
        answerOf (C.isExcluded u httpReq.path httpReq.method)
          (C.checkVerificationRules u claims httpReq) (C.autoNarrow claims tok)) ↔
      OneDecides u A B C httpReq claims tok := by
  cases hB : B.checkVerificationRules u claims httpReq with
  | error e =>
      have hmixed : answerOf false (.error e) (C.autoNarrow claims tok) =
          denied .permissionDenied e := (answerOf_eq_denied _ _ _ _).mpr ⟨rfl, rfl⟩
      rw [hmixed]
      simp only [eq_comm (a := denied .permissionDenied e), answerOf_eq_denied, true_and, and_true]
      constructor
      · intro h
        refine ⟨fun e' he' => ?_, fun hok => ?_, fun hok => ?_⟩
        · cases hB.symm.trans he'
          tauto
        · cases hB.symm.trans hok
        · cases hB.symm.trans hok
      · intro h
        have hone := h.denied e hB
        tauto
  | ok _ =>
      by_cases hnarrow : C.autoNarrow claims tok = ""
      · have hmixed : answerOf false (.ok ()) (C.autoNarrow claims tok) = allowed :=
          (answerOf_eq_allowed _ _ _).mpr (Or.inr ⟨rfl, hnarrow⟩)
        rw [hmixed]
        simp only [eq_comm (a := allowed), answerOf_eq_allowed, hnarrow]
        constructor
        · intro h
          refine ⟨fun e he => ?_, fun _ _ => ?_, fun _ hne => absurd hnarrow hne⟩
          · cases hB.symm.trans he
          · simpa only [Bool.false_eq_true, false_or, true_and, and_true, or_assoc] using h
        · intro h
          have hone := h.passed hB hnarrow
          simpa only [Bool.false_eq_true, false_or, true_and, and_true, or_assoc] using hone
      · have hmixed : answerOf false (.ok ()) (C.autoNarrow claims tok) =
            allowedWithHeaders [(Token.headerName, C.autoNarrow claims tok)] :=
          (answerOf_eq_narrowed _ _ _ _ hnarrow).mpr ⟨rfl, rfl, rfl⟩
        rw [hmixed]
        simp only [eq_comm (a := allowedWithHeaders _), answerOf_eq_narrowed _ _ _ _ hnarrow,
          true_and, and_true]
        constructor
        · intro h
          refine ⟨fun e he => ?_, fun _ hempty => absurd hempty hnarrow, fun _ _ => h⟩
          cases hB.symm.trans he
        · intro h
          exact h.narrowed hB hnarrow

/-- The mixed answer of three sets is the answer of one of them. -/
def OneAnswers (A B C : Server) (req : CheckRequest) : Prop :=
  mixedCheck u A B C req = A.check u req ∨ mixedCheck u A B C req = B.check u req ∨
    mixedCheck u A B C req = C.check u req

/-- Of a request with a verified token that the first set does not exclude, one of three
    sets answers exactly when one of them decides. -/
theorem oneAnswers_verified (A B C : Server) (hB : B.verifier = A.verifier)
    (hC : C.verifier = A.verifier) (req : CheckRequest) (httpReq : HttpRequest)
    (claims : Token.Claims) (hhttp : req.http = some httpReq)
    (htok : getHeader u httpReq.headers Token.headerName ≠ "")
    (hver : A.verifier (getHeader u httpReq.headers Token.headerName) = .ok claims)
    (hexcl : A.isExcluded u httpReq.path httpReq.method = false) :
    OneAnswers u A B C req ↔
      OneDecides u A B C httpReq claims (getHeader u httpReq.headers Token.headerName) := by
  unfold OneAnswers
  rw [← answerOf_one_iff, check_eq_mixedCheck, check_eq_mixedCheck, check_eq_mixedCheck,
    mixedCheck_eq_answerOf u A B C req httpReq claims hhttp htok hver,
    mixedCheck_eq_answerOf u A A A req httpReq claims hhttp htok hver,
    mixedCheck_eq_answerOf u B B B req httpReq claims hhttp htok (hB ▸ hver),
    mixedCheck_eq_answerOf u C C C req httpReq claims hhttp htok (hC ▸ hver), hexcl]

/-- One set of three answers exactly when, of a request with a verified token that the
    first does not exclude, one of them decides. -/
theorem oneAnswers_iff (A B C : Server) (hB : B.verifier = A.verifier)
    (hC : C.verifier = A.verifier) (req : CheckRequest) :
    OneAnswers u A B C req ↔
      ∀ httpReq claims, req.http = some httpReq →
        getHeader u httpReq.headers Token.headerName ≠ "" →
        A.verifier (getHeader u httpReq.headers Token.headerName) = .ok claims →
        A.isExcluded u httpReq.path httpReq.method = false →
        OneDecides u A B C httpReq claims (getHeader u httpReq.headers Token.headerName) := by
  constructor
  · intro hone httpReq claims hhttp htok hver hexcl
    exact (oneAnswers_verified u A B C hB hC req httpReq claims hhttp htok hver hexcl).mp hone
  · intro hall
    -- Where the rules are not looked at, the first set has answered alone.
    have halone : mixedCheck u A B C req = mixedCheck u A A A req → OneAnswers u A B C req :=
      fun hmixed => Or.inl (hmixed.trans (check_eq_mixedCheck u A req).symm)
    cases hhttp : req.http with
    | none =>
        refine halone ?_
        unfold mixedCheck
        simp only [hhttp]
    | some httpReq =>
        cases hexcl : A.isExcluded u httpReq.path httpReq.method with
        | true =>
            refine halone ?_
            unfold mixedCheck
            simp only [hhttp, hexcl, if_true]
        | false =>
            by_cases htok : getHeader u httpReq.headers Token.headerName = ""
            · refine halone ?_
              unfold mixedCheck
              simp only [hhttp, htok, if_true]
            · cases hver : A.verifier (getHeader u httpReq.headers Token.headerName) with
              | error e =>
                  refine halone ?_
                  unfold mixedCheck
                  simp only [hhttp, hver]
              | ok claims =>
                  exact (oneAnswers_verified u A B C hB hC req httpReq claims hhttp htok hver
                    hexcl).mpr (hall httpReq claims hhttp htok hver hexcl)

/-- Sets that agree on the exclusion of a request and on its narrowing answer as the
    set does whose rules are checked. -/
theorem oneDecides_of_agree (A B C : Server) (httpReq : HttpRequest) (claims : Token.Claims)
    (tok : String) (hA : A.isExcluded u httpReq.path httpReq.method = false)
    (hexcl : B.isExcluded u httpReq.path httpReq.method =
      A.isExcluded u httpReq.path httpReq.method)
    (hnarrow : B.autoNarrow claims tok = C.autoNarrow claims tok) :
    OneDecides u A B C httpReq claims tok where
  denied := fun _ _ => Or.inl (hexcl.trans hA)
  passed := fun _ hempty => Or.inr (Or.inr (Or.inl (hnarrow.trans hempty)))
  narrowed := fun _ _ => Or.inr (Or.inl ⟨hexcl.trans hA, hnarrow⟩)

end Mixing

section Runs

variable (u : Unicode) (S : SortSlice) (newEnv : Except String (Cel.Env Celverify.Context))
  (s : Server) (Sets : List VerificationRule → Prop)

/-- The rules an event installs are among `Sets`. -/
def CheckEvent.Within : CheckEvent → Prop
  | .setVerificationRules rules => Sets rules
  | _ => True

/-- A server with the verifier and client of `s` and a rule set of the family.
    A server without rules has the set of the empty list. -/
def InFamily (s' : Server) : Prop :=
  ∃ rules, Sets rules ∧ SameSet s' (s.setVerificationRules u S newEnv rules)

/-- The server and its calls, with all rules from the family `Sets`. -/
def checking : System Checking CheckEvent where
  init := fun σ => (∀ id, σ.calls id = none) ∧ InFamily u S newEnv s Sets σ.server
  step := fun σ e σ' => e.Within Sets ∧ Checking.Step u S newEnv σ e σ'

/-- A call answered as it would have, executed entirely against one rule set that
    was active while it ran. -/
def Atomic (c : CheckCall) (resp : CheckResponse) : Prop :=
  ∃ s' ∈ c.active, resp = s'.check u c.req

/-- What is known of a call: the sets active during it are of the family, and it
    got where it is by steps on some of them. A running call has seen the set
    that is active now. -/
structure CallInv (now : Server) (c : CheckCall) : Prop where
  family : ∀ s' ∈ c.active, InFamily u S newEnv s Sets s'
  current : c.point.running = true → now ∈ c.active
  steps : ∃ l, (∀ s' ∈ l, s' ∈ c.active) ∧ c.point = stepsOn u c.req .entry l

/-- The rule set that is active, and every call, are as they should be. -/
def CheckingInv (σ : Checking) : Prop :=
  InFamily u S newEnv s Sets σ.server ∧
    ∀ id c, σ.calls id = some c → CallInv u S newEnv s Sets σ.server c

variable {u S newEnv s Sets}

/-- One step of a call is a step on the set that is active now. -/
theorem callInv_next (now : Server) (c : CheckCall) (hc : CallInv u S newEnv s Sets now c) :
    CallInv u S newEnv s Sets now { c with point := c.point.next u now c.req } := by
  rcases hc.steps with ⟨l, hl, hpoint⟩
  cases hrun : c.point.running with
  | true =>
      refine ⟨hc.family, fun _ => hc.current hrun, l ++ [now], ?_, ?_⟩
      · intro s' hs'
        rcases List.mem_append.mp hs' with hs' | hs'
        · exact hl s' hs'
        · rw [List.mem_singleton.mp hs']
          exact hc.current hrun
      · rw [stepsOn, List.foldl_append]
        exact congrArg (CheckPoint.next u now c.req) hpoint
  | false =>
      -- A call that has returned does not load anything any more.
      have hsame : c.point.next u now c.req = c.point := by
        cases hp : c.point with
        | returned resp => rfl
        | _ =>
            rw [hp] at hrun
            cases hrun
      rw [hsame]
      exact hc

/-- Another rule set leaves a call where it is. -/
theorem callInv_store (now now' : Server) (hnow : InFamily u S newEnv s Sets now') (c : CheckCall)
    (hc : CallInv u S newEnv s Sets now c) :
    CallInv u S newEnv s Sets now'
      (if c.point.running then { c with active := now' :: c.active } else c) := by
  cases hrun : c.point.running with
  | true =>
      rcases hc.steps with ⟨l, hl, hpoint⟩
      simp only [if_true]
      refine ⟨List.forall_mem_cons.mpr ⟨hnow, hc.family⟩, fun _ => List.mem_cons_self, l, ?_,
        hpoint⟩
      exact fun s' hs' => List.mem_cons_of_mem now' (hl s' hs')
  | false =>
      simp only [Bool.false_eq_true, if_false]
      refine ⟨hc.family, fun hc' => ?_, hc.steps⟩
      rw [hrun] at hc'
      cases hc'

theorem checkingInv_step (σ : Checking) (e : CheckEvent) (σ' : Checking)
    (hσ : CheckingInv u S newEnv s Sets σ) (hstep : (checking u S newEnv s Sets).step σ e σ') :
    CheckingInv u S newEnv s Sets σ' := by
  rcases hstep with ⟨hwithin, hstep⟩
  rcases hσ with ⟨hserver, hcalls⟩
  cases hstep with
  | setVerificationRules rules =>
      have hnow : InFamily u S newEnv s Sets (σ.server.setVerificationRules u S newEnv rules) := by
        rcases hserver with ⟨_, _, hsame⟩
        exact ⟨rules, hwithin, ⟨hsame.verifier, hsame.ttsClient, rfl⟩⟩
      refine ⟨hnow, fun id c hc => ?_⟩
      -- The new set is active during every call that is running.
      rcases Option.map_eq_some_iff.mp hc with ⟨c', hc', rfl⟩
      exact callInv_store σ.server _ hnow c' (hcalls id c' hc')
  | start id req hfree =>
      refine ⟨hserver, fun id' c hc => ?_⟩
      rcases of_update_eq_some σ.calls id id' _ c hc with ⟨_, hnew⟩ | hold
      · rw [← Option.some.inj hnew]
        refine ⟨?_, fun _ => List.mem_singleton.mpr rfl, [], ?_, rfl⟩
        · intro s' hs'
          rw [List.mem_singleton.mp hs']
          exact hserver
        · exact fun s' hs' => absurd hs' List.not_mem_nil
      · exact hcalls id' c hold
  | next id c₀ hc₀ =>
      refine ⟨hserver, fun id' c hc => ?_⟩
      rcases of_update_eq_some σ.calls id id' _ c hc with ⟨_, hnew⟩ | hold
      · rw [← Option.some.inj hnew]
        exact callInv_next σ.server c₀ (hcalls id c₀ hc₀)
      · exact hcalls id' c hold

/-- In every interleaving, every call took its steps on active sets. -/
theorem callInv_reachable (σ : Checking) (hr : (checking u S newEnv s Sets).Reachable σ)
    (id : Nat) (c : CheckCall) (hc : σ.calls id = some c) :
    CallInv u S newEnv s Sets σ.server c := by
  refine (System.invariant (CheckingInv u S newEnv s Sets) ?_ checkingInv_step σ hr).2 id c hc
  intro σ hinit
  refine ⟨hinit.2, fun id c hc => ?_⟩
  rw [hinit.1 id] at hc
  cases hc

section Answers

variable (u : Unicode) (S : SortSlice) (newEnv : Except String (Cel.Env Celverify.Context))
  (s : Server) (Sets : List VerificationRule → Prop)

/-- A run in which rules `A` are active and call 0 has got to a point, having seen
    no sets but some. -/
def At (A : List VerificationRule) (req : CheckRequest) (p : CheckPoint)
    (seen : List Server) : Prop :=
  ∃ σ c, (checking u S newEnv s Sets).Reachable σ ∧
    σ.server = s.setVerificationRules u S newEnv A ∧ σ.calls 0 = some c ∧ c.req = req ∧
    c.point = p ∧ ∀ X ∈ c.active, X ∈ seen

variable {u S newEnv s Sets} {A : List VerificationRule} {req : CheckRequest} {p : CheckPoint}
  {seen : List Server}

theorem setCall_calls (σ : Checking) (id : Nat) (c : CheckCall) :
    (σ.setCall id c).calls id = some c :=
  Function.update_self _ _ _

/-- A call can start under any rules of the family. -/
theorem at_start (hA : Sets A) (req : CheckRequest) :
    At u S newEnv s Sets A req .entry [s.setVerificationRules u S newEnv A] := by
  have hinit : (checking u S newEnv s Sets).Reachable
      { server := s.setVerificationRules u S newEnv A, calls := fun _ => none } :=
    System.Reachable.init _ ⟨fun _ => rfl, A, hA, ⟨rfl, rfl, rfl⟩⟩
  exact ⟨_, _, hinit.next (.start 0 req) _ ⟨trivial, Checking.Step.start _ 0 req rfl⟩, rfl,
    setCall_calls _ 0 _, rfl, rfl, fun _ hX => hX⟩

/-- The call goes on. -/
theorem At.next (h : At u S newEnv s Sets A req p seen) :
    At u S newEnv s Sets A req (p.next u (s.setVerificationRules u S newEnv A) req) seen := by
  rcases h with ⟨σ, c, hr, hserver, hc, rfl, rfl, hseen⟩
  refine ⟨_, _, hr.next (.next 0) _ ⟨trivial, Checking.Step.next σ 0 c hc⟩, hserver,
    setCall_calls σ 0 _, rfl, ?_, hseen⟩
  rw [hserver]

/-- Other rules of the family are installed. -/
theorem At.store (h : At u S newEnv s Sets A req p seen) (B : List VerificationRule)
    (hB : Sets B) :
    At u S newEnv s Sets B req p (s.setVerificationRules u S newEnv B :: seen) := by
  rcases h with ⟨σ, c, hr, hserver, hc, rfl, rfl, hseen⟩
  have hstored : σ.server.setVerificationRules u S newEnv B
      = s.setVerificationRules u S newEnv B := by
    rw [hserver]
    rfl
  have hr' := hr.next (.setVerificationRules B) _
    ⟨hB, Checking.Step.setVerificationRules σ B⟩
  rw [hstored] at hr'
  have hcall : (σ.store (s.setVerificationRules u S newEnv B)).calls 0
      = some (if c.point.running then
          { c with active := s.setVerificationRules u S newEnv B :: c.active } else c) :=
    congrArg (Option.map _) hc
  refine ⟨_, _, hr', rfl, hcall, ?_⟩
  cases c.point.running with
  | true =>
      refine ⟨rfl, rfl, List.forall_mem_cons.mpr ⟨List.mem_cons_self, fun X hX => ?_⟩⟩
      exact List.mem_cons_of_mem _ (hseen X hX)
  | false => exact ⟨rfl, rfl, fun X hX => List.mem_cons_of_mem _ (hseen X hX)⟩

/-- Every mixed answer is given in some run, in which no other sets were
    active. -/
theorem exists_mixed_run (A B C : List VerificationRule) (hA : Sets A) (hB : Sets B)
    (hC : Sets C) (req : CheckRequest) :
    At u S newEnv s Sets C req
      (.returned (mixedCheck u (s.setVerificationRules u S newEnv A)
        (s.setVerificationRules u S newEnv B) (s.setVerificationRules u S newEnv C) req))
      [s.setVerificationRules u S newEnv C, s.setVerificationRules u S newEnv B,
        s.setVerificationRules u S newEnv A] := by
  have hstart : At u S newEnv s Sets A req .entry [s.setVerificationRules u S newEnv A] :=
    at_start hA req
  have hrun := ((hstart.next.store B hB).next.store C hC).next
  rw [next_eq_mixedCheck] at hrun
  exact hrun

/-- A call that saw three sets and was answered as one of them would answer. -/
theorem one_of_atomic {c : CheckCall} {resp : CheckResponse} {A B C : Server}
    (hreq : c.req = req) (hatomic : Atomic u c resp) (hseen : ∀ X ∈ c.active, X ∈ [C, B, A]) :
    resp = A.check u req ∨ resp = B.check u req ∨ resp = C.check u req := by
  rcases hatomic with ⟨s', hs', hresp⟩
  have hmem := hseen s' hs'
  rw [hresp, hreq]
  simp only [List.mem_cons, List.not_mem_nil, or_false] at hmem
  rcases hmem with rfl | rfl | rfl
  · exact Or.inr (Or.inr rfl)
  · exact Or.inr (Or.inl rfl)
  · exact Or.inl rfl

/-- The answer of a set is that of any server that has it. -/
theorem SameSet.check_eq {X X' : Server} (h : SameSet X X') (req : CheckRequest) :
    X'.check u req = X.check u req :=
  (mixedCheck_congr u h h h req).symm

/-- A call whose mixed answers are answers of one set each was answered as one
    active set would. -/
theorem atomic_of_one {now : Server} {c : CheckCall} {resp : CheckResponse}
    (hinv : CallInv u S newEnv s Sets now c) (hpoint : c.point = .returned resp)
    (hsets : ∀ A B C, Sets A → Sets B → Sets C →
      OneAnswers u (s.setVerificationRules u S newEnv A) (s.setVerificationRules u S newEnv B)
        (s.setVerificationRules u S newEnv C) c.req) :
    Atomic u c resp := by
  rcases hinv.steps with ⟨l, hl, hsteps⟩
  rw [hpoint] at hsteps
  rcases returned_mixedCheck u c.req l resp hsteps.symm with ⟨X, hX, Y, hY, Z, hZ, hresp⟩
  rcases hinv.family X (hl X hX) with ⟨A, hA, hXA⟩
  rcases hinv.family Y (hl Y hY) with ⟨B, hB, hYB⟩
  rcases hinv.family Z (hl Z hZ) with ⟨C, hC, hZC⟩
  have hone := hsets A B C hA hB hC
  unfold OneAnswers at hone
  rw [← mixedCheck_congr u hXA hYB hZC, ← hresp, hXA.check_eq, hYB.check_eq, hZC.check_eq] at hone
  rcases hone with hone | hone | hone
  · exact ⟨X, hl X hX, hone⟩
  · exact ⟨Y, hl Y hY, hone⟩
  · exact ⟨Z, hl Z hZ, hone⟩

variable (u S newEnv s Sets)

/-- Every call for the request, in every interleaving, is answered as one set active
    during the call would answer. -/
def AlwaysAtomic (req : CheckRequest) : Prop :=
  ∀ σ, (checking u S newEnv s Sets).Reachable σ → ∀ id c resp, σ.calls id = some c →
    c.req = req → c.point = .returned resp → Atomic u c resp

theorem alwaysAtomic_iff (req : CheckRequest) :
    AlwaysAtomic u S newEnv s Sets req ↔
      ∀ A B C, Sets A → Sets B → Sets C →
        OneAnswers u (s.setVerificationRules u S newEnv A) (s.setVerificationRules u S newEnv B)
          (s.setVerificationRules u S newEnv C) req := by
  constructor
  · intro hatomic A B C hA hB hC
    rcases exists_mixed_run A B C hA hB hC req with ⟨σ, c, hr, _, hc, hreq, hpoint, hseen⟩
    exact one_of_atomic hreq (hatomic σ hr 0 c _ hc hreq hpoint) hseen
  · intro hone σ hr id c resp hc hreq hpoint
    rw [← hreq] at hone
    exact atomic_of_one (callInv_reachable σ hr id c hc) hpoint hone

/-- When every decision is that of one rule set. With all rules from a family, every
    call of every interleaving is answered as one set active during the call would
    answer, exactly when of every three sets of the family one decides, whenever the
    token of the request is verified and the first of the three does not exclude the
    request. That is so for families that agree on whether the request is excluded and
    on what its token is narrowed to. -/
theorem check_atomic_iff (req : CheckRequest) :
    (AlwaysAtomic u S newEnv s Sets req ↔
      ∀ httpReq claims, req.http = some httpReq →
        getHeader u httpReq.headers Token.headerName ≠ "" →
        s.verifier (getHeader u httpReq.headers Token.headerName) = .ok claims →
        ∀ A B C, Sets A → Sets B → Sets C →
          (s.setVerificationRules u S newEnv A).isExcluded u httpReq.path httpReq.method = false →
          OneDecides u (s.setVerificationRules u S newEnv A)
            (s.setVerificationRules u S newEnv B) (s.setVerificationRules u S newEnv C) httpReq
            claims (getHeader u httpReq.headers Token.headerName)) ∧
    ((∀ httpReq claims, req.http = some httpReq →
        s.verifier (getHeader u httpReq.headers Token.headerName) = .ok claims →
        ∀ A B, Sets A → Sets B →
          (s.setVerificationRules u S newEnv A).isExcluded u httpReq.path httpReq.method =
            (s.setVerificationRules u S newEnv B).isExcluded u httpReq.path httpReq.method ∧
          (s.setVerificationRules u S newEnv A).autoNarrow claims
              (getHeader u httpReq.headers Token.headerName) =
            (s.setVerificationRules u S newEnv B).autoNarrow claims
              (getHeader u httpReq.headers Token.headerName)) →
      AlwaysAtomic u S newEnv s Sets req) := by
  have hone : ∀ A B C, OneAnswers u (s.setVerificationRules u S newEnv A)
      (s.setVerificationRules u S newEnv B) (s.setVerificationRules u S newEnv C) req ↔ _ :=
    fun A B C => oneAnswers_iff u (s.setVerificationRules u S newEnv A)
      (s.setVerificationRules u S newEnv B) (s.setVerificationRules u S newEnv C) rfl rfl req
  rw [alwaysAtomic_iff]
  refine ⟨⟨fun hall httpReq claims hhttp htok hver A B C hA hB hC hexcl => ?_,
    fun hdecides A B C hA hB hC => ?_⟩, fun hagree A B C hA hB hC => ?_⟩
  · exact (hone A B C).mp (hall A B C hA hB hC) httpReq claims hhttp htok hver hexcl
  · refine (hone A B C).mpr fun httpReq claims hhttp htok hver hexcl => ?_
    exact hdecides httpReq claims hhttp htok hver A B C hA hB hC hexcl
  · refine (hone A B C).mpr fun httpReq claims hhttp _ hver hexcl => ?_
    exact oneDecides_of_agree u _ _ _ httpReq claims _ hexcl
      (hagree httpReq claims hhttp hver B A hB hA).1 (hagree httpReq claims hhttp hver B C hB hC).2

end Answers

end Runs

/-- A rule that requires a scope, and may ask for a token narrowed to it. -/
def tornRule (name requiredScope : String) (autoNarrow : Bool) : VerificationRule where
  nameSpace := "shop"
  name := name
  serviceName := name
  requiredScope := requiredScope
  requiredTctxFields := []
  celRules := []
  excludedEndpoints := []
  autoNarrow := autoNarrow

/-- The claims of a token with two scopes. -/
def twoScopes : Token.Claims where
  issuer := ""
  issuedAt := 0
  expiresAt := 0
  audience := ""
  transactionID := ""
  subject := ""
  scope := "read write"
  requestingWorkload := ""
  transactionContext := none
  requesterContext := none

/-- A server that takes every token for one with two scopes, and can have it
    narrowed. -/
def narrowingServer : Server where
  verifier := fun _ => .ok twoScopes
  verificationRules := none
  ttsClient := some fun _ => .ok "narrowed"

def tokenHttp : HttpRequest where
  path := "/orders"
  method := "GET"
  headers := AList.singleton "txn-token" "t"

def tokenRequest : CheckRequest where
  http := some tokenHttp

/-- Two rule sets that the token meets, of which one has it narrowed. -/
def narrowingSets (rules : List VerificationRule) : Prop :=
  rules = [tornRule "a" "read" true] ∨ rules = [tornRule "b" "write" false]

theorem narrowingSets_pass (rules : List VerificationRule) (hrules : narrowingSets rules) :
    (narrowingServer.setVerificationRules Unicode.ascii SortSlice.insertion
      (.error "no environment") rules).isExcluded Unicode.ascii tokenHttp.path tokenHttp.method =
        false ∧
    (narrowingServer.setVerificationRules Unicode.ascii SortSlice.insertion
      (.error "no environment") rules).checkVerificationRules Unicode.ascii twoScopes tokenHttp =
        .ok () := by
  rcases hrules with rfl | rfl
  · exact ⟨by decide, by decide⟩
  · exact ⟨by decide, by decide⟩

/-- Under those sets every call is answered as one of them would, although they disagree
    on the narrowing: so is the call that checks the rules of the one and then narrows
    for the other. -/
theorem check_atomic_iff_sample :
    AlwaysAtomic Unicode.ascii SortSlice.insertion (.error "no environment") narrowingServer
      narrowingSets tokenRequest ∧
    ∃ σ c, (checking Unicode.ascii SortSlice.insertion (.error "no environment")
        narrowingServer narrowingSets).Reachable σ ∧ σ.calls 0 = some c ∧
      c.point = .returned (allowedWithHeaders [(Token.headerName, "narrowed")]) ∧
      Atomic Unicode.ascii c (allowedWithHeaders [(Token.headerName, "narrowed")]) := by
  have hiff := check_atomic_iff Unicode.ascii SortSlice.insertion (.error "no environment")
    narrowingServer narrowingSets tokenRequest
  have hatomic : AlwaysAtomic Unicode.ascii SortSlice.insertion (.error "no environment")
      narrowingServer narrowingSets tokenRequest := by
    refine hiff.1.mpr ?_
    intro httpReq claims hhttp _ hver A B C _ hB hC _
    cases hhttp
    cases hver
    exact ⟨fun _ _ => Or.inl (narrowingSets_pass B hB).1,
      fun _ _ => Or.inr (Or.inr (Or.inr (Or.inr (narrowingSets_pass C hC).2))),
      fun _ _ => Or.inr (Or.inr (narrowingSets_pass C hC))⟩
  have hrun : At Unicode.ascii SortSlice.insertion (.error "no environment") narrowingServer
      narrowingSets _ tokenRequest _ _ :=
    exists_mixed_run [tornRule "b" "write" false] [tornRule "b" "write" false]
      [tornRule "a" "read" true] (Or.inr rfl) (Or.inr rfl) (Or.inl rfl) tokenRequest
  rcases hrun with ⟨σ, c, hr, _, hc, hreq, hpoint, _⟩
  have hmixed : mixedCheck Unicode.ascii
      (narrowingServer.setVerificationRules Unicode.ascii SortSlice.insertion
        (.error "no environment") [tornRule "b" "write" false])
      (narrowingServer.setVerificationRules Unicode.ascii SortSlice.insertion
        (.error "no environment") [tornRule "b" "write" false])
      (narrowingServer.setVerificationRules Unicode.ascii SortSlice.insertion
        (.error "no environment") [tornRule "a" "read" true])
      tokenRequest = allowedWithHeaders [(Token.headerName, "narrowed")] := by decide
  rw [hmixed] at hpoint
  exact ⟨hatomic, σ, c, hr, hc, hpoint, hatomic σ hr 0 c _ hc hreq hpoint⟩

/-- The first rules are none, the second narrow to `read` and then require
    `admin`. Alone, the first pass the request with its own token and the second
    deny it. A call between the two passes it with a narrowed token. -/
theorem torn_decision :
    ∃ σ c, (checking Unicode.ascii SortSlice.insertion (.error "no environment") narrowingServer
        fun _ => True).Reachable σ ∧ σ.calls 0 = some c ∧
      c.point = .returned (allowedWithHeaders [(Token.headerName, "narrowed")]) ∧
      ¬Atomic Unicode.ascii c (allowedWithHeaders [(Token.headerName, "narrowed")]) := by
  have hrun : At Unicode.ascii SortSlice.insertion (.error "no environment") narrowingServer
      (fun _ => True) _ tokenRequest _ _ :=
    exists_mixed_run [] [] [tornRule "a" "read" true, tornRule "b" "admin" false] trivial
      trivial trivial tokenRequest
  rcases hrun with ⟨σ, c, hr, _, hc, hreq, hpoint, hseen⟩
  have hmixed : mixedCheck Unicode.ascii
      (narrowingServer.setVerificationRules Unicode.ascii SortSlice.insertion
        (.error "no environment") [])
      (narrowingServer.setVerificationRules Unicode.ascii SortSlice.insertion
        (.error "no environment") [])
      (narrowingServer.setVerificationRules Unicode.ascii SortSlice.insertion
        (.error "no environment") [tornRule "a" "read" true, tornRule "b" "admin" false])
      tokenRequest = allowedWithHeaders [(Token.headerName, "narrowed")] := by decide
  refine ⟨σ, c, hr, hc, hmixed ▸ hpoint, ?_⟩
  intro hatomic
  rcases hatomic with ⟨s', hs', hresp⟩
  rw [hreq] at hresp
  have hmem := hseen s' hs'
  simp only [List.mem_cons, List.not_mem_nil, or_false, or_self] at hmem
  rcases hmem with rfl | rfl
  · exact absurd hresp (by decide)
  · exact absurd hresp (by decide)

end ExtAuth

end Kontxt
