import Kontxt.Core.Rules
import Kontxt.Go.Strings
import Mathlib.Logic.Function.Basic

/-!
# Matching Generation Rules

How the adapter in generation mode finds the rule for a request, and what
happens when the rules are replaced meanwhile. `findMatchingRule` scans a
field of the server that `SetGenerationRules` assigns from another goroutine,
with nothing in between. The loop reads the field once for its bound and again
for every element, so the scan is a little machine: `Scan` is its program
counter, and each of its steps reads the field at most once.

Every call also carries the lists that were installed while it ran, which the
code does not record; results about a call speak of them.

## Main definitions

* `matchEndpointPath`: Matching a path against a pattern with wildcards.
* `ruleMatches`: A rule's endpoint matches a request.
* `findMatchingRule`: The scan of one list.
* `Scan`: Where a running scan is.
* `Scan.next`: One step of a scan.
* `Swap`: The field and the calls that read it.
* `Swap.Step`: Replacing rules, starting a call, and a call's next step.
-/

namespace Kontxt

open Go

/-- One pattern segment against one path segment: a segment in braces matches
    anything. -/
def matchSegment (reqPart patPart : String) : Bool :=
  (hasPrefix patPart "\x7b" && hasSuffix patPart "\x7d") || reqPart == patPart

/-- `matchEndpointPath`. -/
def matchEndpointPath (requestPath pattern : String) : Bool :=
  let reqParts := split (trim (cutQuery requestPath) '/') '/'
  let patParts := split (trim pattern '/') '/'
  reqParts.length == patParts.length &&
    (List.zipWith matchSegment reqParts patParts).all id

/-- The test of one rule in `findMatchingRule`. -/
def ruleMatches (u : Unicode) (path method : String) (rule : GenerationRule) : Bool :=
  equalFold u rule.endpoint.method method &&
    matchEndpointPath (cutQuery path) rule.endpoint.path

/-- `findMatchingRule` on one list: the first rule that matches. -/
def findMatchingRule (u : Unicode) (rules : List GenerationRule) (path method : String) :
    Option GenerationRule :=
  rules.find? (ruleMatches u path method)

/-- Where a running `findMatchingRule` is: before the loop, at index `i` of a
    loop up to `n`, returned, or stopped by an index out of range. -/
inductive Scan where
  | entry
  | looping (n i : Nat)
  | returned (rule : Option GenerationRule)
  | panicked
  deriving DecidableEq

/-- One step of a scan that finds the rules `rules` in the field. -/
def Scan.next (u : Unicode) (path method : String) (rules : List GenerationRule) : Scan → Scan
  -- `range` over an index evaluates the length once.
  | .entry => .looping rules.length 0
  | .looping n i =>
    if i < n then
      -- The bound is of the list at entry, the element of the list now.
      match rules[i]? with
      | none => .panicked
      | some rule =>
        if ruleMatches u path method rule then .returned (some rule) else .looping n (i + 1)
    else .returned none
  | .returned rule => .returned rule
  | .panicked => .panicked

/-- Whether a call is still running. -/
def Scan.running : Scan → Bool
  | .entry => true
  | .looping _ _ => true
  | _ => false

/-- A call of `findMatchingRule`, with the lists installed while it ran. -/
structure Lookup where
  path : String
  method : String
  scan : Scan
  installed : List (List GenerationRule)

/-- The field and the calls that read it, by number. -/
structure Swap where
  generationRules : List GenerationRule
  calls : Nat → Option Lookup

/-- What can happen: the rules are replaced, a call starts, a call takes its
    next step. -/
inductive SwapEvent where
  | setGenerationRules (rules : List GenerationRule)
  | start (id : Nat) (path method : String)
  | next (id : Nat)

namespace Swap

/-- `SetGenerationRules`: assign the field. A call still running sees one more
    list installed. -/
def setGenerationRules (s : Swap) (rules : List GenerationRule) : Swap where
  generationRules := rules
  calls := fun id => (s.calls id).map fun c =>
    if c.scan.running then { c with installed := rules :: c.installed } else c

/-- Replace one call. -/
def setCall (s : Swap) (id : Nat) (c : Lookup) : Swap :=
  { s with calls := Function.update s.calls id (some c) }

/-- One step of a goroutine. -/
inductive Step (u : Unicode) : Swap → SwapEvent → Swap → Prop
  | setGenerationRules (s : Swap) (rules : List GenerationRule) :
      Step u s (.setGenerationRules rules) (s.setGenerationRules rules)
  | start (s : Swap) (id : Nat) (path method : String) (hfree : s.calls id = none) :
      Step u s (.start id path method)
        (s.setCall id { path := path, method := method, scan := .entry
                        installed := [s.generationRules] })
  | next (s : Swap) (id : Nat) (c : Lookup) (hc : s.calls id = some c) :
      Step u s (.next id)
        (s.setCall id { c with scan := c.scan.next u c.path c.method s.generationRules })

end Swap

end Kontxt
