import Kontxt.Core.Issuance
import Kontxt.Core.RuleServer
import Kontxt.Lib.Slices
import Kontxt.Lib.System

/-!
# Rules in Shared Arrays

The two places that hold rules in slices, as they lie in memory.

The rule server keeps the very slice a reconciler hands to it, and edits it where it
is: an upsert assigns an element or appends, a removal of a generation or
verification rule shifts the rules behind it, and a removal of issuance rules filters
the array while it reads it. Everything else in the process goes on meanwhile, and may
do anything with arrays other than the server's.

The token handler copies what it is given, down to the namespaces of every rule, and
stores the copy in a pointer that requests load. Those who handed in the rules may go
on to use their arrays as they like.

Strings are values. A rule of the server is taken as one, with the slices inside it,
which no code writes to.

## Main definitions

* `upsertIn`: An upsert in place.
* `ArrayStream`: A stream with its removal in place.
* `RuleArrays`: The server's state for one stream, in memory.
* `RuleArrays.Step`, `arrayRuns`: Calls of the server, and all else that goes on.
* `Tts.RuleCell`, `Tts.RuleHeap`: Compiled rules in memory.
* `Tts.RuleHeap.setIssuanceRules`: Copying the rules.
* `Tts.Snapshots`, `Tts.snapshots`: The pointer over time, and all else that goes on.
-/

namespace Kontxt

open Go Lib

/-- The loop of `Upsert*Rule`: assign the first rule with the key, or append. -/
def upsertIn {α κ : Type} [DecidableEq κ] (key : α → κ) (m : Memory α) (s : Slice) (rule : α)
    (room : List α) : Memory α × Slice :=
  match m.firstIndex s (fun r => decide (key r = key rule)) with
  | some i => (m.write s i rule, s)
  | none => m.append s [rule] room

/-- A stream with what its removal does in memory. -/
structure ArrayStream (α π κ : Type) extends RuleStream α π κ where
  removeIn : Proto.RuleRef → Memory α → Slice → Memory α × Slice

/-- `RemoveGenerationRule` shifts the rules behind the one it removes. -/
def generationArrays : ArrayStream GenerationRule Proto.GenerationRule (String × String) where
  toRuleStream := generationStream
  removeIn := fun ref m s =>
    m.removeFirstIn s fun r => (r.nameSpace, r.name) = (ref.nameSpace, ref.name)

/-- `RemoveVerificationRule` does the same. -/
def verificationArrays :
    ArrayStream VerificationRule Proto.VerificationRule (String × String) where
  toRuleStream := verificationStream
  removeIn := fun ref m s =>
    m.removeFirstIn s fun r => (r.nameSpace, r.name) = (ref.nameSpace, ref.name)

/-- `RemoveIssuanceRule` filters in place, from `s.issuanceRules[:0]` on. -/
def issuanceArrays :
    ArrayStream IssuanceRule Proto.IssuanceRule (String × String × String) where
  toRuleStream := issuanceStream
  removeIn := fun ref m s =>
    m.filterIn s fun r => !(r.policyNamespace == ref.nameSpace && r.policyName == ref.name)

/-- The server's state for one stream: memory, the slice of rules, and the version;
    and the calls made and the messages broadcast, first to last. -/
structure RuleArrays (α π : Type) where
  memory : Memory α
  rules : Slice
  version : UInt64
  calls : List (Call α)
  sent : List (Response π)

/-- What can happen: a call of the server, with the slice it is given or the room a
    new array would be made with, or anything elsewhere. -/
inductive ArrayEvent (α : Type) where
  | update (rules : Slice)
  | upsert (rule : α) (room : List α)
  | remove (nameSpace name : String)
  | outside (memory : Memory α)

namespace RuleArrays

variable {α π κ : Type} [DecidableEq κ] (T : ArrayStream α π κ)

/-- What a call leaves: the edited rules, one version more, and its message. -/
def published (a : RuleArrays α π) (c : Call α) (memory : Memory α) (rules : Slice)
    (update : Update π) : RuleArrays α π where
  memory := memory
  rules := rules
  version := a.version + 1
  calls := a.calls ++ [c]
  sent := a.sent ++ [{ update := some update, versionInfo := toString (a.version + 1) }]

/-- `Update*Rules`: the slice itself is kept. -/
def updateRules (a : RuleArrays α π) (rules : Slice) : RuleArrays α π :=
  a.published (.update (a.memory.contents rules)) a.memory rules
    (.snapshot ((a.memory.contents rules).map T.toProto))

/-- `Upsert*Rule`. -/
def upsertRule (a : RuleArrays α π) (rule : α) (room : List α) : RuleArrays α π :=
  let edited := upsertIn T.key a.memory a.rules rule room
  a.published (.upsert rule) edited.1 edited.2 (.delta [T.toProto rule] [])

/-- `Remove*Rule`. -/
def removeRule (a : RuleArrays α π) (nameSpace name : String) : RuleArrays α π :=
  let edited := T.removeIn { nameSpace := nameSpace, name := name } a.memory a.rules
  a.published (.remove nameSpace name) edited.1 edited.2
    (.delta [] [{ nameSpace := nameSpace, name := name }])

/-- One step. What goes on elsewhere does not touch the array of the server's slice:
    who handed a slice in does not use it again. -/
inductive Step : RuleArrays α π → ArrayEvent α → RuleArrays α π → Prop
  | update (a : RuleArrays α π) (rules : Slice) (hvalid : rules.Valid a.memory) :
      Step a (.update rules) (a.updateRules T rules)
  | upsert (a : RuleArrays α π) (rule : α) (room : List α) :
      Step a (.upsert rule room) (a.upsertRule T rule room)
  | remove (a : RuleArrays α π) (nameSpace name : String) :
      Step a (.remove nameSpace name) (a.removeRule T nameSpace name)
  | outside (a : RuleArrays α π) (memory : Memory α) (hnext : a.memory.next ≤ memory.next)
      (hkept : memory.arrays a.rules.ptr = a.memory.arrays a.rules.ptr) :
      Step a (.outside memory) { a with memory := memory }

end RuleArrays

/-- A server without rules, whose slice is empty, and everything else from then on. -/
def arrayRuns {α π κ : Type} [DecidableEq κ] (T : ArrayStream α π κ) :
    System (RuleArrays α π) (ArrayEvent α) where
  init := fun a => a.rules.len = 0 ∧ a.rules.Valid a.memory ∧ a.version = 0 ∧ a.calls = [] ∧
    a.sent = []
  step := RuleArrays.Step T

namespace Tts

/-- `IssuanceRule` as it lies in an array: no slice stands for nil. -/
structure RuleCell where
  name : String
  program : Cel.Program Activation
  message : String
  targetNamespaces : Option Slice

/-- The rule a cell stands for. -/
def RuleCell.value (strings : Memory String) (c : RuleCell) : IssuanceRule where
  name := c.name
  program := c.program
  message := c.message
  targetNamespaces := (c.targetNamespaces.map strings.contents).getD []

/-- The arrays of rules and the arrays of strings. -/
structure RuleHeap where
  rules : Memory RuleCell
  strings : Memory String

namespace RuleHeap

/-- The rules a slice shows. -/
def values (h : RuleHeap) (s : Slice) : List IssuanceRule :=
  (h.rules.contents s).map (RuleCell.value h.strings)

/-- The body of the loop in `SetIssuanceRules`: a rule with namespaces of its own. -/
def copyCell (strings : Memory String) (c : RuleCell) : Memory String × RuleCell :=
  match c.targetNamespaces with
  | none => (strings, c)
  | some ns =>
    let copied := strings.alloc (strings.contents ns) []
    (copied.1, { c with targetNamespaces := some copied.2 })

/-- The loop in `SetIssuanceRules`. -/
def copyCells (strings : Memory String) : List RuleCell → Memory String × List RuleCell
  | [] => (strings, [])
  | c :: cs =>
    let copied := copyCell strings c
    let rest := copyCells copied.1 cs
    (rest.1, copied.2 :: rest.2)

/-- `SetIssuanceRules` up to the store: a copy of the rules a slice shows. -/
def setIssuanceRules (h : RuleHeap) (s : Slice) : RuleHeap × Slice :=
  let copied := copyCells h.strings (h.rules.contents s)
  let snapshot := h.rules.alloc copied.2 []
  ({ rules := snapshot.1, strings := copied.1 }, snapshot.2)

/-- The slices of a cell and of a slice of cells lie in their arrays. -/
structure WellFormed (h : RuleHeap) (s : Slice) : Prop where
  rules : s.Valid h.rules
  strings : ∀ c ∈ h.rules.contents s, ∀ ns ∈ c.targetNamespaces, ns.Valid h.strings

end RuleHeap

/-- The pointer to the rules, over time: the memory, the slice it points to, the
    slices it ever pointed to with the rules they were made for, and the addresses of
    the arrays that were made for them. -/
structure Snapshots where
  heap : RuleHeap
  issuanceRules : Option Slice
  stored : List (Slice × List IssuanceRule)
  ownRules : List Nat
  ownStrings : List Nat

/-- What can happen: the rules are set, or anything elsewhere. -/
inductive SnapshotEvent where
  | setIssuanceRules (rules : Slice)
  | outside (heap : RuleHeap)

namespace Snapshots

/-- `SetIssuanceRules`. -/
def setIssuanceRules (σ : Snapshots) (rules : Slice) : Snapshots :=
  let set := σ.heap.setIssuanceRules rules
  { heap := set.1
    issuanceRules := some set.2
    stored := (set.2, σ.heap.values rules) :: σ.stored
    ownRules := List.range' σ.heap.rules.next (set.1.rules.next - σ.heap.rules.next) ++ σ.ownRules
    ownStrings :=
      List.range' σ.heap.strings.next (set.1.strings.next - σ.heap.strings.next) ++ σ.ownStrings }

/-- One step. What goes on elsewhere can write to every array that the handler has not
    made, those of the rules it was given among them. -/
inductive Step : Snapshots → SnapshotEvent → Snapshots → Prop
  | setIssuanceRules (σ : Snapshots) (rules : Slice) (hvalid : σ.heap.WellFormed rules) :
      Step σ (.setIssuanceRules rules) (σ.setIssuanceRules rules)
  | outside (σ : Snapshots) (heap : RuleHeap) (hrules : σ.heap.rules.next ≤ heap.rules.next)
      (hstrings : σ.heap.strings.next ≤ heap.strings.next)
      (hownRules : ∀ p ∈ σ.ownRules, heap.rules.arrays p = σ.heap.rules.arrays p)
      (hownStrings : ∀ p ∈ σ.ownStrings, heap.strings.arrays p = σ.heap.strings.arrays p) :
      Step σ (.outside heap) { σ with heap := heap }

end Snapshots

/-- A handler without rules, and everything else from then on. -/
def snapshots : System Snapshots SnapshotEvent where
  init := fun σ => σ.issuanceRules = none ∧ σ.stored = [] ∧ σ.ownRules = [] ∧ σ.ownStrings = []
  step := Snapshots.Step

end Tts

end Kontxt
