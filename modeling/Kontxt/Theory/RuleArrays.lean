import Kontxt.Core.RuleArrays
import Kontxt.Theory.Broadcast

/-!
# Lists in Place of Arrays

Everywhere else the rules of the server are a list, and its operations are those of
lists. Here that is justified: in every run, with anything going on elsewhere in the
process, the slice the server keeps shows the list it stands for, and the messages it
broadcasts are those of the list. The server writes to no array but the one of its
slice, and to new ones.

The copy a handler makes is its own. Whatever is done later with the arrays the rules
were handed in, and however often the rules are set again, every copy ever stored
goes on to show the rules it was made for. So a request that has loaded the pointer
works through one set of rules.

## Main definitions

* `ArrayStream.Lawful`: Removing in place is removing.
* `ArrayInv`: The server's array stands for the list of its calls.
* `Tts.SnapshotInv`: Every copy shows the rules it was made for.

## Theorems

* `upsertIn_spec`: An upsert in place is an upsert.
* `arrayInv_step`: A step keeps the invariant.
* `arrays_refine_lists`: The server's arrays stand for its lists.
* `Tts.copied_copyCells`: A copy shows what was copied, in arrays of its own.
* `Tts.snapshots_isolated`: Copies are not changed by what goes on elsewhere.
-/

namespace Kontxt

open Go Lib

section Upsert

variable {α κ : Type} [DecidableEq κ] (key : α → κ)

theorem upsertFirst_of_found (rule : α) (l : List α) (i : Nat)
    (h : l.findIdx? (fun r => decide (key r = key rule)) = some i) :
    upsertFirst key rule l = l.set i rule := by
  induction l generalizing i with
  | nil => cases h
  | cons x xs ih =>
      rw [List.findIdx?_cons] at h
      unfold upsertFirst
      by_cases hx : key x = key rule
      · rw [if_pos (decide_eq_true hx)] at h
        cases h
        rw [if_pos hx, List.set_cons_zero]
      · rw [if_neg (by rw [decide_eq_false hx]; exact Bool.false_ne_true)] at h
        rcases Option.map_eq_some_iff.mp h with ⟨j, hj, rfl⟩
        rw [if_neg hx, ih j hj, List.set_cons_succ]

theorem upsertFirst_of_missing (rule : α) (l : List α)
    (h : l.findIdx? (fun r => decide (key r = key rule)) = none) :
    upsertFirst key rule l = l ++ [rule] := by
  induction l with
  | nil => rfl
  | cons x xs ih =>
      rw [List.findIdx?_eq_none_iff, List.forall_mem_cons] at h
      have hx : ¬key x = key rule := of_decide_eq_false h.1
      unfold upsertFirst
      rw [if_neg hx, ih (List.findIdx?_eq_none_iff.mpr h.2), List.cons_append]

/-- An upsert in place is an upsert. -/
theorem upsertIn_spec (m : Memory α) (s : Slice) (rule : α) (room : List α) (hs : s.Valid m) :
    (upsertIn key m s rule room).2.Valid (upsertIn key m s rule room).1 ∧
      (upsertIn key m s rule room).1.contents (upsertIn key m s rule room).2 =
        upsertFirst key rule (m.contents s) ∧
      Memory.Extends m (upsertIn key m s rule room).1 s.ptr := by
  unfold upsertIn
  rw [Memory.firstIndex_eq m s _ hs]
  cases hfind : (m.contents s).findIdx? (fun r => decide (key r = key rule)) with
  | none =>
      rw [upsertFirst_of_missing key rule _ hfind]
      exact Memory.append_spec m s [rule] room hs
  | some i =>
      rw [upsertFirst_of_found key rule _ i hfind]
      have hext := Memory.extends_write m s i rule
      exact ⟨hext.valid hs, Memory.contents_write m s i rule, hext⟩

end Upsert

section Refinement

variable {α π κ : Type} [DecidableEq κ]

/-- Removing in place is removing, and touches no other array. -/
def ArrayStream.Lawful (T : ArrayStream α π κ) : Prop :=
  ∀ ref m s, s.Valid m →
    (T.removeIn ref m s).2.Valid (T.removeIn ref m s).1 ∧
      (T.removeIn ref m s).1.contents (T.removeIn ref m s).2 = T.remove ref (m.contents s) ∧
      Memory.Extends m (T.removeIn ref m s).1 s.ptr

theorem generationArrays_lawful : generationArrays.Lawful :=
  fun _ m s hs => Memory.removeFirstIn_spec m s _ hs

theorem verificationArrays_lawful : verificationArrays.Lawful :=
  fun _ m s hs => Memory.removeFirstIn_spec m s _ hs

theorem issuanceArrays_lawful : issuanceArrays.Lawful :=
  fun _ m s hs => Memory.filterIn_spec m s _ hs

/-- The feed after some calls, from a server without rules. -/
def RuleStream.feedAfter (T : RuleStream α π κ) (calls : List (Call α)) : Feed α :=
  callAll T { rules := [], version := 0 } calls

theorem messages_concat (T : RuleStream α π κ) (f : Feed α) (calls : List (Call α)) (c : Call α) :
    T.messages f (calls ++ [c]) = T.messages f calls ++ [(T.call (callAll T f calls) c).2] := by
  induction calls generalizing f with
  | nil => rfl
  | cons c' cs ih =>
      rw [List.cons_append, RuleStream.messages, RuleStream.messages, ih, List.cons_append]
      rfl

/-- The server's slice shows the rules of its calls on lists, and its version and its
    messages are theirs. -/
structure ArrayInv (T : ArrayStream α π κ) (a : RuleArrays α π) : Prop where
  valid : a.rules.Valid a.memory
  rules : a.memory.contents a.rules = (T.feedAfter a.calls).rules
  version : a.version = (T.feedAfter a.calls).version
  sent : a.sent = T.messages { rules := [], version := 0 } a.calls

variable {T : ArrayStream α π κ}

/-- A call that edits the array as the call on lists edits the list. -/
theorem ArrayInv.published {a : RuleArrays α π} (hinv : ArrayInv T a) (c : Call α)
    (memory : Memory α) (rules : Slice) (update : Update π) (hvalid : rules.Valid memory)
    (hrules : memory.contents rules = (T.call (T.feedAfter a.calls) c).1.rules)
    (hversion : (T.call (T.feedAfter a.calls) c).1.version = (T.feedAfter a.calls).version + 1)
    (hsent : (T.call (T.feedAfter a.calls) c).2 =
      { update := some update, versionInfo := toString ((T.feedAfter a.calls).version + 1) }) :
    ArrayInv T (a.published c memory rules update) := by
  have hfeed : T.feedAfter (a.calls ++ [c]) = (T.call (T.feedAfter a.calls) c).1 := by
    unfold RuleStream.feedAfter callAll
    rw [List.foldl_append, List.foldl_cons, List.foldl_nil]
  refine ⟨hvalid, ?_, ?_, ?_⟩
  · exact hrules.trans (congrArg Feed.rules hfeed).symm
  · show a.version + 1 = (T.feedAfter (a.calls ++ [c])).version
    rw [hfeed, hversion, hinv.version]
  · show a.sent ++ _ = T.messages { rules := [], version := 0 } (a.calls ++ [c])
    rw [messages_concat, hinv.sent, hinv.version]
    exact congrArg (fun r => _ ++ [r]) hsent.symm

/-- A step keeps the invariant, and a call touches no array but the server's. -/
theorem arrayInv_step (hT : T.Lawful) (a a' : RuleArrays α π) (e : ArrayEvent α)
    (hinv : ArrayInv T a) (hstep : RuleArrays.Step T a e a') :
    ArrayInv T a' ∧
      ((∀ memory, e ≠ .outside memory) → Memory.Extends a.memory a'.memory a.rules.ptr) := by
  cases hstep with
  | update rules hvalid =>
      exact ⟨hinv.published _ _ _ _ hvalid rfl rfl rfl, fun _ => Memory.Extends.refl _ _⟩
  | upsert rule room =>
      rcases upsertIn_spec T.key a.memory a.rules rule room hinv.valid with
        ⟨hvalid, hcontents, hext⟩
      rw [hinv.rules] at hcontents
      exact ⟨hinv.published _ _ _ _ hvalid hcontents rfl rfl, fun _ => hext⟩
  | remove nameSpace name =>
      rcases hT { nameSpace := nameSpace, name := name } a.memory a.rules hinv.valid with
        ⟨hvalid, hcontents, hext⟩
      rw [hinv.rules] at hcontents
      exact ⟨hinv.published _ _ _ _ hvalid hcontents rfl rfl, fun _ => hext⟩
  | outside memory hnext hkept =>
      have hvalid : a.rules.Valid memory :=
        ⟨hinv.valid.len_le, hkept ▸ hinv.valid.cap_le, hinv.valid.allocated.trans_le hnext⟩
      refine ⟨⟨hvalid, ?_, hinv.version, hinv.sent⟩, fun h => absurd rfl (h memory)⟩
      exact (Memory.contents_of_agree a.memory memory a.rules hkept).trans hinv.rules

theorem arrayInv_of_reachable (hT : T.Lawful) (a : RuleArrays α π)
    (hr : (arrayRuns T).Reachable a) : ArrayInv T a := by
  refine System.invariant (ArrayInv T) ?_ ?_ a hr
  · rintro a ⟨hlen, hvalid, hversion, hcalls, hsent⟩
    refine ⟨hvalid, ?_, ?_, ?_⟩
    · rw [hcalls]
      unfold Memory.contents
      rw [hlen, List.take_zero]
      rfl
    · rw [hcalls]
      exact hversion
    · rw [hcalls]
      exact hsent
  · exact fun a e a' hinv hstep => (arrayInv_step hT a a' e hinv hstep).1

/-- What holds of a stream whose rules lie in an array: in every state the array shows
    the list of the calls made, with its version and its messages, and every call leaves
    all arrays alone but the one of the server's slice. -/
def RefinesLists (T : ArrayStream α π κ) : Prop :=
  ∀ a, (arrayRuns T).Reachable a →
    a.memory.contents a.rules = (T.feedAfter a.calls).rules ∧
    a.version = (T.feedAfter a.calls).version ∧
    a.sent = T.messages { rules := [], version := 0 } a.calls ∧
    ∀ e a', RuleArrays.Step T a e a' → (∀ memory, e ≠ .outside memory) →
      ∀ p, p < a.memory.next → p ≠ a.rules.ptr → a'.memory.arrays p = a.memory.arrays p

theorem refinesLists_of_lawful (hT : T.Lawful) : RefinesLists T := by
  intro a hr
  have hinv := arrayInv_of_reachable hT a hr
  refine ⟨hinv.rules, hinv.version, hinv.sent, fun e a' hstep hcall => ?_⟩
  exact ((arrayInv_step hT a a' e hinv hstep).2 hcall).others

/-- The rules of the server are lists. On each of the three streams, over every run of
    calls and with anything going on elsewhere in memory, the slice that is edited in
    place shows the list the calls make, the messages are those of the list, and no
    array of anyone else is written to. -/
theorem arrays_refine_lists :
    RefinesLists generationArrays ∧ RefinesLists verificationArrays ∧
      RefinesLists issuanceArrays :=
  ⟨refinesLists_of_lawful generationArrays_lawful,
    refinesLists_of_lawful verificationArrays_lawful,
    refinesLists_of_lawful issuanceArrays_lawful⟩

end Refinement

namespace Tts

section Copies

theorem value_of_agree (strings strings' : Memory String) (c : RuleCell)
    (h : ∀ ns ∈ c.targetNamespaces, strings'.arrays ns.ptr = strings.arrays ns.ptr) :
    c.value strings' = c.value strings := by
  unfold RuleCell.value
  cases hns : c.targetNamespaces with
  | none => rfl
  | some ns =>
      have hagree := h ns hns
      simp only [Option.map_some, Memory.contents_of_agree strings strings' ns hagree]

/-- A slice of rules shows what the arrays it reaches hold. -/
theorem values_of_agree (h h' : RuleHeap) (s : Slice)
    (hrules : h'.rules.arrays s.ptr = h.rules.arrays s.ptr)
    (hstrings : ∀ c ∈ h.rules.contents s, ∀ ns ∈ c.targetNamespaces,
      h'.strings.arrays ns.ptr = h.strings.arrays ns.ptr) :
    h'.values s = h.values s := by
  unfold RuleHeap.values
  rw [Memory.contents_of_agree h.rules h'.rules s hrules]
  exact List.map_congr_left fun c hc => value_of_agree h.strings h'.strings c (hstrings c hc)

/-- What the loop of the copy leaves: the arrays there were are as they were, the
    copies stand for the rules that were copied, and their namespaces lie in new
    arrays. -/
structure Copied (strings strings' : Memory String) (cs cs' : List RuleCell) : Prop where
  next_le : strings.next ≤ strings'.next
  old : ∀ p, p < strings.next → strings'.arrays p = strings.arrays p
  values : cs'.map (RuleCell.value strings') = cs.map (RuleCell.value strings)
  fresh : ∀ c ∈ cs', ∀ ns ∈ c.targetNamespaces, strings.next ≤ ns.ptr ∧ ns.ptr < strings'.next

theorem copied_copyCell (strings : Memory String) (c : RuleCell) :
    Copied strings (RuleHeap.copyCell strings c).1 [c] [(RuleHeap.copyCell strings c).2] := by
  unfold RuleHeap.copyCell
  cases hns : c.targetNamespaces with
  | none =>
      refine ⟨le_refl _, fun _ _ => rfl, rfl, fun c' hc' ns hns' => ?_⟩
      rw [List.mem_singleton.mp hc', hns] at hns'
      cases hns'
  | some ns =>
      have hext := Memory.extends_alloc strings (strings.contents ns) [] strings.next
      refine ⟨hext.next_le, fun p hp => hext.others p hp hp.ne, ?_, fun c' hc' ns' hns' => ?_⟩
      · simp only [List.map_cons, List.map_nil, RuleCell.value, hns, Option.map_some,
          Memory.contents_alloc]
      · rw [List.mem_singleton.mp hc'] at hns'
        cases hns'
        exact ⟨le_refl _, Nat.lt_succ_self _⟩

/-- The copies of more rules leave the copies made before as they are. -/
theorem copied_copyCells (cs : List RuleCell) (strings : Memory String)
    (hvalid : ∀ c ∈ cs, ∀ ns ∈ c.targetNamespaces, ns.ptr < strings.next) :
    Copied strings (RuleHeap.copyCells strings cs).1 cs (RuleHeap.copyCells strings cs).2 := by
  induction cs generalizing strings with
  | nil => exact ⟨le_refl _, fun _ _ => rfl, rfl, fun c hc => absurd hc List.not_mem_nil⟩
  | cons c cs ih =>
      have hone := copied_copyCell strings c
      have hrest := ih (RuleHeap.copyCell strings c).1 fun c' hc' ns hns =>
        (hvalid c' (List.mem_cons_of_mem c hc') ns hns).trans_le hone.next_le
      unfold RuleHeap.copyCells
      simp only []
      refine ⟨hone.next_le.trans hrest.next_le,
        fun p hp => (hrest.old p (hp.trans_le hone.next_le)).trans (hone.old p hp), ?_, ?_⟩
      · rw [List.map_cons, List.map_cons, hrest.values]
        have hhead : (RuleHeap.copyCell strings c).2.value
            (RuleHeap.copyCells (RuleHeap.copyCell strings c).1 cs).1 = c.value strings := by
          rw [← List.singleton_inj.mp hone.values]
          exact value_of_agree _ _ _ fun ns hns =>
            hrest.old ns.ptr (hone.fresh _ (List.mem_singleton.mpr rfl) ns hns).2
        have htail : cs.map (RuleCell.value (RuleHeap.copyCell strings c).1) =
            cs.map (RuleCell.value strings) :=
          List.map_congr_left fun c' hc' => value_of_agree _ _ c' fun ns hns =>
            hone.old ns.ptr (hvalid c' (List.mem_cons_of_mem c hc') ns hns)
        rw [hhead, htail]
      · intro c' hc' ns hns
        rcases List.mem_cons.mp hc' with rfl | hc'
        · have hfresh := hone.fresh _ (List.mem_singleton.mpr rfl) ns hns
          exact ⟨hfresh.1, hfresh.2.trans_le hrest.next_le⟩
        · have hfresh := hrest.fresh c' hc' ns hns
          exact ⟨hone.next_le.trans hfresh.1, hfresh.2⟩

end Copies

/-- A copy shows the rules it was made for, and reaches only arrays of the handler. -/
structure Shows (σ : Snapshots) (snapshot : Slice) (rules : List IssuanceRule) : Prop where
  values : σ.heap.values snapshot = rules
  ownRules : snapshot.ptr ∈ σ.ownRules
  ownStrings : ∀ c ∈ σ.heap.rules.contents snapshot, ∀ ns ∈ c.targetNamespaces,
    ns.ptr ∈ σ.ownStrings

/-- Every copy shows the rules it was made for, the pointer is to the latest, and the
    arrays of the handler are among those there are. -/
structure SnapshotInv (σ : Snapshots) : Prop where
  shows : ∀ e ∈ σ.stored, Shows σ e.1 e.2
  latest : σ.issuanceRules = σ.stored.head?.map Prod.fst
  rules_lt : ∀ p ∈ σ.ownRules, p < σ.heap.rules.next
  strings_lt : ∀ p ∈ σ.ownStrings, p < σ.heap.strings.next

/-- A copy goes on to show its rules as long as the arrays of the handler stay. -/
theorem Shows.of_agree {σ σ' : Snapshots} {snapshot : Slice} {rules : List IssuanceRule}
    (h : Shows σ snapshot rules)
    (hrules : ∀ p ∈ σ.ownRules, σ'.heap.rules.arrays p = σ.heap.rules.arrays p)
    (hstrings : ∀ p ∈ σ.ownStrings, σ'.heap.strings.arrays p = σ.heap.strings.arrays p)
    (hmoreRules : ∀ p ∈ σ.ownRules, p ∈ σ'.ownRules)
    (hmoreStrings : ∀ p ∈ σ.ownStrings, p ∈ σ'.ownStrings) : Shows σ' snapshot rules := by
  have hcells := Memory.contents_of_agree σ.heap.rules σ'.heap.rules snapshot
    (hrules _ h.ownRules)
  refine ⟨?_, hmoreRules _ h.ownRules, fun c hc ns hns => ?_⟩
  · rw [values_of_agree σ.heap σ'.heap snapshot (hrules _ h.ownRules) fun c hc ns hns =>
      hstrings _ (h.ownStrings c hc ns hns)]
    exact h.values
  · rw [hcells] at hc
    exact hmoreStrings _ (h.ownStrings c hc ns hns)

theorem mem_range'_iff (a b p : Nat) (hab : a ≤ b) :
    p ∈ List.range' a (b - a) ↔ a ≤ p ∧ p < b := by
  rw [List.mem_range'_1]
  omega

/-- Setting the rules keeps the invariant. -/
theorem snapshotInv_setIssuanceRules (σ : Snapshots) (rules : Slice) (hinv : SnapshotInv σ)
    (hvalid : σ.heap.WellFormed rules) : SnapshotInv (σ.setIssuanceRules rules) := by
  have hcopied := copied_copyCells (σ.heap.rules.contents rules) σ.heap.strings
    fun c hc ns hns => (hvalid.strings c hc ns hns).allocated
  have hext := Memory.extends_alloc σ.heap.rules
    (RuleHeap.copyCells σ.heap.strings (σ.heap.rules.contents rules)).2 [] σ.heap.rules.next
  have hcells := Memory.contents_alloc σ.heap.rules
    (RuleHeap.copyCells σ.heap.strings (σ.heap.rules.contents rules)).2 []
  refine ⟨fun e he => ?_, rfl, fun p hp => ?_, fun p hp => ?_⟩
  · rcases List.mem_cons.mp he with rfl | he
    · refine ⟨?_, ?_, fun c hc ns hns => ?_⟩
      · exact (congrArg (List.map _) hcells).trans hcopied.values
      · refine List.mem_append_left _ ((mem_range'_iff _ _ _ hext.next_le).mpr ?_)
        exact ⟨le_refl _, Nat.lt_succ_self _⟩
      · have hc' : c ∈ (RuleHeap.copyCells σ.heap.strings (σ.heap.rules.contents rules)).2 :=
          hcells ▸ hc
        exact List.mem_append_left _ ((mem_range'_iff _ _ _ hcopied.next_le).mpr
          (hcopied.fresh c hc' ns hns))
    · -- What was made before lies in arrays there were.
      exact (hinv.shows e he).of_agree
        (fun p hp => hext.others p (hinv.rules_lt p hp) (hinv.rules_lt p hp).ne)
        (fun p hp => hcopied.old p (hinv.strings_lt p hp))
        (fun p hp => List.mem_append_right _ hp) (fun p hp => List.mem_append_right _ hp)
  · rcases List.mem_append.mp hp with hnew | hold
    · exact ((mem_range'_iff _ _ _ hext.next_le).mp hnew).2
    · exact (hinv.rules_lt p hold).trans_le hext.next_le
  · rcases List.mem_append.mp hp with hnew | hold
    · exact ((mem_range'_iff _ _ _ hcopied.next_le).mp hnew).2
    · exact (hinv.strings_lt p hold).trans_le hcopied.next_le

theorem snapshotInv_step (σ σ' : Snapshots) (e : SnapshotEvent) (hinv : SnapshotInv σ)
    (hstep : Snapshots.Step σ e σ') : SnapshotInv σ' := by
  cases hstep with
  | setIssuanceRules rules hvalid => exact snapshotInv_setIssuanceRules σ rules hinv hvalid
  | outside heap hrules hstrings hownRules hownStrings =>
      refine ⟨fun e he => ?_, hinv.latest, fun p hp => (hinv.rules_lt p hp).trans_le hrules,
        fun p hp => (hinv.strings_lt p hp).trans_le hstrings⟩
      exact (hinv.shows e he).of_agree hownRules hownStrings (fun _ hp => hp) (fun _ hp => hp)

/-- The rules a handler was given are its own. Whatever happens to the arrays they were
    handed in, and however often others are set, the pointer is to the rules as they
    were when they were set last, and every slice it ever pointed to still shows the
    rules as they were when that one was set. -/
theorem snapshots_isolated (σ : Snapshots) (hr : snapshots.Reachable σ) :
    σ.issuanceRules = σ.stored.head?.map Prod.fst ∧
      ∀ e ∈ σ.stored, σ.heap.values e.1 = e.2 := by
  have hinv : SnapshotInv σ := by
    refine System.invariant SnapshotInv ?_ (fun σ e σ' => snapshotInv_step σ σ' e) σ hr
    rintro σ ⟨hpointer, hstored, hrules, hstrings⟩
    refine ⟨?_, ?_, ?_, ?_⟩
    · intro e he
      rw [hstored] at he
      exact absurd he List.not_mem_nil
    · rw [hpointer, hstored]
      rfl
    · intro p hp
      rw [hrules] at hp
      exact absurd hp List.not_mem_nil
    · intro p hp
      rw [hstrings] at hp
      exact absurd hp List.not_mem_nil
  exact ⟨hinv.latest, fun e he => (hinv.shows e he).values⟩

/-- A rule for one namespace, handed in by someone who uses the array again. -/
def reusedCell : RuleCell where
  name := "only-team-a"
  program := fun _ => .ok (.bool true)
  message := "no"
  targetNamespaces := some { ptr := 0, off := 0, len := 1, cap := 1 }

/-- The memory with some name in the array of namespaces. -/
def reusedHeap (nameSpace : String) : RuleHeap where
  rules := { arrays := fun _ => [reusedCell], next := 1 }
  strings := { arrays := fun _ => [nameSpace], next := 1 }

/-- The slice of the one element at address zero. -/
def reusedSlice : Slice where
  ptr := 0
  off := 0
  len := 1
  cap := 1

/-- A handler without rules in that memory. -/
def reusedStart : Snapshots where
  heap := reusedHeap "team-a"
  issuanceRules := none
  stored := []
  ownRules := []
  ownStrings := []

/-- The memory after the rules were set and another name was written. -/
def reusedAfter : RuleHeap where
  rules := (reusedStart.setIssuanceRules reusedSlice).heap.rules
  strings := (reusedStart.setIssuanceRules reusedSlice).heap.strings.put 0 ["team-b"]

/-- The name in the array is replaced after the rules were set, and the rule is still
    for the namespace it was for. -/
theorem snapshots_reused :
    ∃ σ snapshot, snapshots.Reachable σ ∧ σ.issuanceRules = some snapshot ∧
      σ.heap.strings.arrays 0 = ["team-b"] ∧
      (σ.heap.values snapshot).map IssuanceRule.targetNamespaces = [["team-a"]] := by
  have hinit : snapshots.Reachable reusedStart := .init _ ⟨rfl, rfl, rfl, rfl⟩
  have hwell : (reusedHeap "team-a").WellFormed reusedSlice := by
    refine ⟨⟨le_refl _, le_refl _, Nat.zero_lt_one⟩, fun c hc ns hns => ?_⟩
    rw [List.mem_singleton.mp hc] at hns
    cases hns
    exact ⟨le_refl _, le_refl _, Nat.zero_lt_one⟩
  have hset := hinit.next _ _ (.setIssuanceRules _ reusedSlice hwell)
  have hreused := hset.next (.outside reusedAfter) _ (.outside _ reusedAfter (le_refl _)
    (le_refl _) (fun _ _ => rfl) (fun p hp => by rw [List.mem_singleton.mp hp]; rfl))
  have hisolated := (snapshots_isolated _ hreused).2 _ List.mem_cons_self
  exact ⟨_, _, hreused, rfl, rfl, congrArg (List.map IssuanceRule.targetNamespaces) hisolated⟩

end Tts

end Kontxt
