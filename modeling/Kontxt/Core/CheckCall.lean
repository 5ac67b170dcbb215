import Kontxt.Core.ExtAuth
import Kontxt.Lib.System

/-!
# A Check in Steps

The verification adapter's `Check`, cut where it loads the rule set. The set is
behind an atomic pointer that `SetVerificationRules` stores to from another
goroutine. A call loads it up to three times: to see whether the endpoint is
excluded, to check the rules, and to look for a rule to narrow the token for.
Everything between two loads is local to the call, so a step is a load and what
follows it.

Every call carries the servers it could have been served by, one for each rule
set that was active while it ran, which the code does not record.

## Main definitions

* `ExtAuth.CheckPoint`: Where a running `Check` is.
* `ExtAuth.CheckPoint.next`: One step of a call.
* `ExtAuth.CheckCall`: A call, with the rule sets active while it ran.
* `ExtAuth.Checking`: The server and its calls.
* `ExtAuth.Checking.Step`: Replacing rules, starting a call, and a call's next
  step.
-/

namespace Kontxt

namespace ExtAuth

open Go

/-- Where a running `Check` is: before its first load, before it checks the
    rules, before it looks for a rule to narrow for, or returned. -/
inductive CheckPoint where
  | entry
  | checking (httpReq : HttpRequest) (txToken : String) (claims : Token.Claims)
  | narrowing (txToken : String) (claims : Token.Claims)
  | returned (resp : CheckResponse)

/-- One step of a call that finds the rule set of `s` behind the pointer. -/
def CheckPoint.next (u : Unicode) (s : Server) (req : CheckRequest) : CheckPoint → CheckPoint
  | .entry =>
    match req.http with
    | none => .returned (denied .invalidArgument "missing HTTP request attributes")
    | some httpReq =>
      let txToken := getHeader u httpReq.headers Token.headerName
      if s.isExcluded u httpReq.path httpReq.method then .returned allowed
      else if txToken = "" then .returned (denied .unauthenticated "missing Txn-Token header")
      else
        match s.verifier txToken with
        | .error e => .returned (denied .unauthenticated ("TxToken verification failed: " ++ e))
        | .ok claims => .checking httpReq txToken claims
  | .checking httpReq txToken claims =>
    match s.checkVerificationRules u claims httpReq with
    | .error e => .returned (denied .permissionDenied e)
    | .ok () => .narrowing txToken claims
  | .narrowing txToken claims =>
    let narrowedToken := s.autoNarrow claims txToken
    if narrowedToken ≠ "" then .returned (allowedWithHeaders [(Token.headerName, narrowedToken)])
    else .returned allowed
  | .returned resp => .returned resp

/-- Whether a call is still running. -/
def CheckPoint.running : CheckPoint → Bool
  | .returned _ => false
  | _ => true

/-- A call of `Check`, with the server at each rule set active while it ran. -/
structure CheckCall where
  req : CheckRequest
  point : CheckPoint
  active : List Server

/-- The server and its calls, by number. -/
structure Checking where
  server : Server
  calls : Nat → Option CheckCall

/-- What can happen: the rules are replaced, a call starts, a call takes its next
    step. -/
inductive CheckEvent where
  | setVerificationRules (rules : List VerificationRule)
  | start (id : Nat) (req : CheckRequest)
  | next (id : Nat)

namespace Checking

/-- Store another rule set. A call still running has seen one more. -/
def store (σ : Checking) (s : Server) : Checking where
  server := s
  calls := fun id => (σ.calls id).map fun c =>
    if c.point.running then { c with active := s :: c.active } else c

/-- Replace one call. -/
def setCall (σ : Checking) (id : Nat) (c : CheckCall) : Checking :=
  { σ with calls := Function.update σ.calls id (some c) }

/-- One step of a goroutine. -/
inductive Step (u : Unicode) (S : SortSlice) (newEnv : Except String (Cel.Env Celverify.Context)) :
    Checking → CheckEvent → Checking → Prop
  | setVerificationRules (σ : Checking) (rules : List VerificationRule) :
      Step u S newEnv σ (.setVerificationRules rules)
        (σ.store (σ.server.setVerificationRules u S newEnv rules))
  | start (σ : Checking) (id : Nat) (req : CheckRequest) (hfree : σ.calls id = none) :
      Step u S newEnv σ (.start id req)
        (σ.setCall id { req := req, point := .entry, active := [σ.server] })
  | next (σ : Checking) (id : Nat) (c : CheckCall) (hc : σ.calls id = some c) :
      Step u S newEnv σ (.next id)
        (σ.setCall id { c with point := c.point.next u σ.server c.req })

end Checking

end ExtAuth

end Kontxt
