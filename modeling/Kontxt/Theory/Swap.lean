import Kontxt.Core.Generate
import Kontxt.Lib.System

/-!
# Replacing Rules During a Scan

When a scan of the generation rules is unharmed by rules being replaced while
it runs. A scan at index `i` of a loop up to `n` has settled what it read
before `i`, and will read positions `i` to `n - 1` of whatever list the field
then holds. As long as those positions hold what they held when the loop
started, the scan behaves as if it had that first list to itself.
`Lookup.Sound` says so, and it is the invariant: the list a call is faithful to
is one of those installed while it ran.

Nothing in the server makes replacements respect a running scan. A shorter list
puts the next read out of range, and a list in another order shows a rule twice
or not at all.

## Main definitions

* `swapping`: The field and its readers as a transition system.
* `Spares`: A replacement leaves alone what a call has yet to read.
* `Lookup.Sound`: A call is faithful to one list installed while it ran.
* `Scan.finish`: Consecutive steps of a scan.

## Theorems

* `sound_step`: A sparing step keeps a call faithful.
* `finish_ends`: A scan ends within its loop bound.
* `lookup_consistent`: With sparing replacements a call never panics and
  returns what it would have on one installed list.
-/

namespace Kontxt

open Go Lib

/-- The field and the calls that read it, from a server without rules on. -/
def swapping (u : Unicode) : System Swap SwapEvent where
  init := fun s => s = { generationRules := [], calls := fun _ => none }
  step := Swap.Step u

/-- A replacement of the rules does not change what call `id` has yet to read:
    when the call is at index `i` of a loop up to `n`, positions `i` to `n - 1`
    hold what they held. -/
def Spares (id : Nat) (s : Swap) : SwapEvent → Prop
  | .setGenerationRules rules => ∀ c n i, s.calls id = some c → c.scan = .looping n i →
      ∀ j, i ≤ j → j < n → rules[j]? = s.generationRules[j]?
  | _ => True

/-- The call is faithful to one of the lists installed while it ran. In the
    loop, that list has the length of the loop, none of the rules before the
    index matched, and the field holds the rest of it. -/
def Lookup.Sound (u : Unicode) (rules : List GenerationRule) (c : Lookup) : Prop :=
  match c.scan with
  | .entry => rules ∈ c.installed
  | .looping n i => ∃ l ∈ c.installed, l.length = n ∧
      (∀ rule ∈ l.take i, ruleMatches u c.path c.method rule = false) ∧
      ∀ j, i ≤ j → j < n → rules[j]? = l[j]?
  | .returned rule => ∃ l ∈ c.installed, rule = findMatchingRule u l c.path c.method
  | .panicked => False

section Scan

variable (u : Unicode)

/-- A scan that has passed `i` rules without a match and matches the next
    returns what a scan of the list returns. -/
theorem findMatchingRule_of_match (l : List GenerationRule) (path method : String) (i : Nat)
    (rule : GenerationRule) (hi : l[i]? = some rule)
    (hbefore : ∀ r ∈ l.take i, ruleMatches u path method r = false)
    (hrule : ruleMatches u path method rule = true) :
    findMatchingRule u l path method = some rule := by
  unfold findMatchingRule
  -- The list is what was passed, the rule that matched, and what was not read.
  have hsplit : l = l.take i ++ rule :: l.drop (i + 1) := by
    rcases List.getElem?_eq_some_iff.mp hi with ⟨hlt, hget⟩
    rw [← hget, ← List.drop_eq_getElem_cons hlt, List.take_append_drop]
  have hnone : (l.take i).find? (ruleMatches u path method) = none := by
    rw [List.find?_eq_none]
    intro r hr
    rw [hbefore r hr]
    exact Bool.false_ne_true
  rw [hsplit, List.find?_append, hnone, Option.none_or, List.find?_cons_of_pos hrule]

/-- A scan that has passed all the rules without a match returns what a scan of
    the list returns. -/
theorem findMatchingRule_of_no_match (l : List GenerationRule) (path method : String) (i : Nat)
    (hi : l.length ≤ i) (hbefore : ∀ r ∈ l.take i, ruleMatches u path method r = false) :
    findMatchingRule u l path method = none := by
  rw [List.take_of_length_le hi] at hbefore
  unfold findMatchingRule
  rw [List.find?_eq_none]
  intro r hr
  rw [hbefore r hr]
  exact Bool.false_ne_true

theorem mem_take_succ (l : List GenerationRule) (i : Nat) (rule r : GenerationRule)
    (hi : l[i]? = some rule) (hr : r ∈ l.take (i + 1)) : r ∈ l.take i ∨ r = rule := by
  rw [List.take_add_one, hi, Option.toList_some] at hr
  rcases List.mem_append.mp hr with hold | hnew
  · exact Or.inl hold
  · exact Or.inr (List.mem_singleton.mp hnew)

/-- The next step of a faithful call is faithful. -/
theorem sound_next (rules : List GenerationRule) (c : Lookup) (hc : c.Sound u rules) :
    Lookup.Sound u rules { c with scan := c.scan.next u c.path c.method rules } := by
  unfold Lookup.Sound at hc
  cases hscan : c.scan with
  | entry =>
      -- The loop starts on the list the field holds.
      rw [hscan] at hc
      refine ⟨rules, hc, rfl, fun r hr => ?_, fun j _ _ => rfl⟩
      rw [List.take_zero] at hr
      cases hr
  | looping n i =>
      rw [hscan] at hc
      rcases hc with ⟨l, hl, hlen, hbefore, hrest⟩
      by_cases hi : i < n
      · have hlt : i < l.length := by omega
        have hget : l[i]? = some l[i] := List.getElem?_eq_getElem hlt
        -- The field holds what the faithful list has at the index.
        have hread : rules[i]? = some l[i] := by rw [hrest i (Nat.le_refl i) hi, hget]
        cases hmatch : ruleMatches u c.path c.method l[i] with
        | true =>
            simp only [Scan.next, if_pos hi, hread, hmatch, if_true]
            exact ⟨l, hl, (findMatchingRule_of_match u l _ _ i l[i] hget hbefore hmatch).symm⟩
        | false =>
            simp only [Scan.next, if_pos hi, hread, hmatch, Bool.false_eq_true, if_false]
            refine ⟨l, hl, hlen, fun r hr => ?_, fun j hj => hrest j (by omega)⟩
            rcases mem_take_succ l i l[i] r hget hr with hold | hnew
            · exact hbefore r hold
            · rw [hnew]
              exact hmatch
      · simp only [Scan.next, if_neg hi]
        -- The loop is over, and so is the list it was faithful to.
        have hle : l.length ≤ i := by omega
        exact ⟨l, hl, (findMatchingRule_of_no_match u l _ _ i hle hbefore).symm⟩
  | returned rule =>
      rw [hscan] at hc
      exact hc
  | panicked =>
      rw [hscan] at hc
      exact hc.elim

/-- A replacement that leaves alone what a faithful call has yet to read leaves
    it faithful. -/
theorem sound_replace (old rules : List GenerationRule) (c : Lookup) (hc : c.Sound u old)
    (hspares : ∀ n i, c.scan = .looping n i → ∀ j, i ≤ j → j < n → rules[j]? = old[j]?) :
    Lookup.Sound u rules
      (if c.scan.running then { c with installed := rules :: c.installed } else c) := by
  unfold Lookup.Sound at hc
  cases hscan : c.scan with
  | entry =>
      simp only [Scan.running, if_true, Lookup.Sound]
      exact List.mem_cons_self
  | looping n i =>
      rw [hscan] at hc
      rcases hc with ⟨l, hl, hlen, hbefore, hrest⟩
      simp only [Scan.running, if_true, Lookup.Sound]
      -- The call stays faithful to the list it was faithful to, not to the new one.
      refine ⟨l, List.mem_cons_of_mem rules hl, hlen, hbefore, fun j hij hj => ?_⟩
      rw [hspares n i hscan j hij hj]
      exact hrest j hij hj
  | returned rule =>
      rw [hscan] at hc
      simp only [Scan.running, Bool.false_eq_true, if_false, Lookup.Sound, hscan]
      exact hc
  | panicked =>
      rw [hscan] at hc
      exact hc.elim

/-- Consecutive steps of a scan, each of which finds the next of the lists in
    the field. -/
def Scan.finish (path method : String) (reads : List (List GenerationRule)) (scan : Scan) : Scan :=
  reads.foldl (fun scan rules => scan.next u path method rules) scan

theorem finish_of_not_running (path method : String) (reads : List (List GenerationRule))
    (scan : Scan) (hscan : scan.running = false) :
    scan.finish u path method reads = scan := by
  induction reads with
  | nil => rfl
  | cons rules reads ih =>
      have hnext : scan.next u path method rules = scan := by
        cases scan with
        | entry => cases hscan
        | looping n i => cases hscan
        | returned rule => rfl
        | panicked => rfl
      unfold Scan.finish at ih ⊢
      rw [List.foldl_cons, hnext]
      exact ih

/-- Whatever a scan finds in the field, it ends within as many steps as its loop
    has rounds left, and one more. -/
theorem finish_ends (path method : String) (n : Nat) (reads : List (List GenerationRule)) (i : Nat)
    (hlen : n - i < reads.length) :
    ((Scan.looping n i).finish u path method reads).running = false := by
  induction reads generalizing i with
  | nil =>
      rw [List.length_nil] at hlen
      omega
  | cons rules reads ih =>
      rw [List.length_cons] at hlen
      -- A scan that has ended stays where it is for the reads that are left.
      have hdone : ∀ scan : Scan, scan.running = false →
          (scan.finish u path method reads).running = false := by
        intro scan hscan
        rw [finish_of_not_running u path method reads scan hscan]
        exact hscan
      change (((Scan.looping n i).next u path method rules).finish u path method reads).running
        = false
      by_cases hi : i < n
      · cases hread : rules[i]? with
        | none =>
            simp only [Scan.next, if_pos hi, hread]
            exact hdone _ rfl
        | some rule =>
            cases hmatch : ruleMatches u path method rule with
            | true =>
                simp only [Scan.next, if_pos hi, hread, hmatch, if_true]
                exact hdone _ rfl
            | false =>
                simp only [Scan.next, if_pos hi, hread, hmatch, Bool.false_eq_true, if_false]
                exact ih (i + 1) (by omega)
      · simp only [Scan.next, if_neg hi]
        exact hdone _ rfl

end Scan

/-- Call `id`, once started, is faithful. -/
def Faithful (u : Unicode) (id : Nat) (s : Swap) : Prop :=
  ∀ c, s.calls id = some c → c.Sound u s.generationRules

theorem faithful_setCall (u : Unicode) (id id' : Nat) (s : Swap) (hs : Faithful u id s)
    (c : Lookup) (hown : id = id' → c.Sound u s.generationRules) :
    Faithful u id (s.setCall id' c) := by
  intro c' hc'
  rcases of_update_eq_some s.calls id' id (some c) c' hc' with ⟨hid, hnew⟩ | hold
  · rw [← Option.some.inj hnew]
    exact hown hid
  · exact hs c' hold

/-- A step that spares a call keeps it faithful. -/
theorem sound_step (u : Unicode) (id : Nat) (s s' : Swap) (e : SwapEvent)
    (hs : Faithful u id s) (hspares : Spares id s e) (hstep : Swap.Step u s e s') :
    Faithful u id s' := by
  cases hstep with
  | setGenerationRules rules =>
      intro c' hc'
      -- Every call sees the replacement; only this one has to be spared.
      rcases Option.map_eq_some_iff.mp hc' with ⟨c, hc, rfl⟩
      exact sound_replace u s.generationRules rules c (hs c hc)
        (fun n i => hspares c n i hc)
  | start id' path method hfree =>
      refine faithful_setCall u id id' s hs _ (fun _ => ?_)
      exact List.mem_singleton.mpr rfl
  | next id' c hc =>
      refine faithful_setCall u id id' s hs _ (fun hid => ?_)
      exact sound_next u s.generationRules c (hs c (hid ▸ hc))

/-- In every run whose replacements spare call `id`, the call never indexes out
    of range, and when it has returned, its result is that of a scan of one list
    installed while it ran. Once in its loop it ends, whatever is installed. -/
theorem lookup_consistent (u : Unicode) (id : Nat) (s : Swap)
    (hr : ((swapping u).restrict (Spares id)).Reachable s) (c : Lookup)
    (hc : s.calls id = some c) :
    c.scan ≠ .panicked ∧
      (∀ rule, c.scan = .returned rule →
        ∃ l ∈ c.installed, rule = findMatchingRule u l c.path c.method) ∧
      ∀ n i, c.scan = .looping n i → ∀ reads : List (List GenerationRule), n - i < reads.length →
        (c.scan.finish u c.path c.method reads).running = false := by
  -- Faithful is inductive over sparing runs, and says what is wanted at the end.
  have hfaithful : Faithful u id s := by
    refine System.invariant (Faithful u id) ?_ ?_ s hr
    · intro s hs c hc
      have hnew : s = { generationRules := [], calls := fun _ => none } := hs
      rw [hnew] at hc
      cases hc
    · intro s e s' hs hstep
      exact sound_step u id s s' e hs hstep.1 hstep.2
  have hsound := hfaithful c hc
  unfold Lookup.Sound at hsound
  refine ⟨fun hscan => ?_, fun rule hscan => ?_, fun n i hscan reads hlen => ?_⟩
  · rw [hscan] at hsound
    exact hsound
  · rw [hscan] at hsound
    exact hsound
  · rw [hscan]
    exact finish_ends u c.path c.method n reads i hlen

section Schedule

theorem calls_setCall (s : Swap) (id : Nat) (c : Lookup) : (s.setCall id c).calls id = some c := by
  simp only [Swap.setCall, Function.update_self]

/-- A call can take any number of steps with nothing replaced meanwhile. -/
theorem advance (u : Unicode) (S : System Swap SwapEvent)
    (hnext : ∀ s c, S.Reachable s → s.calls 0 = some c →
      S.Reachable (s.setCall 0 { c with scan := c.scan.next u c.path c.method s.generationRules }))
    (k : Nat) (s : Swap) (hr : S.Reachable s) (c : Lookup) (hc : s.calls 0 = some c) :
    ∃ s', S.Reachable s' ∧ s'.generationRules = s.generationRules ∧ s'.calls 0 = some { c with
      scan := c.scan.finish u c.path c.method (List.replicate k s.generationRules) } := by
  induction k generalizing s c with
  | zero => exact ⟨s, hr, rfl, hc⟩
  | succ k ih => exact ih _ (hnext s c hr hc) _ (calls_setCall ..)

/-- Calls may start and go on, and rules may be installed while there is no call. -/
structure Lenient (ok : Swap → SwapEvent → Prop) : Prop where
  first : ∀ rules, ok { generationRules := [], calls := fun _ => none } (.setGenerationRules rules)
  start : ∀ s id path method, ok s (.start id path method)
  next : ∀ s id, ok s (.next id)

theorem lenient_spares : Lenient (Spares 0) where
  first := by
    intro rules c n i hc
    cases hc
  start := fun _ _ _ _ => trivial
  next := fun _ _ => trivial

/-- A call whose list is replaced after `k` steps, and which then takes `m` more, if the
    replacement is allowed where the call then is. -/
theorem exists_replaced (u : Unicode) (ok : Swap → SwapEvent → Prop) (hok : Lenient ok)
    (old new : List GenerationRule) (path method : String) (k m : Nat)
    (hrunning : (Scan.entry.finish u path method (List.replicate k old)).running = true)
    (hset : ∀ s, s.generationRules = old →
      s.calls 0 = some { path := path, method := method, installed := [old]
                         scan := Scan.entry.finish u path method (List.replicate k old) } →
      ok s (.setGenerationRules new)) :
    ∃ s, ((swapping u).restrict ok).Reachable s ∧ s.calls 0 = some
      { path := path, method := method, installed := [new, old]
        scan := (Scan.entry.finish u path method (List.replicate k old)).finish u path method
          (List.replicate m new) } := by
  have hnext : ∀ s c, ((swapping u).restrict ok).Reachable s → s.calls 0 = some c →
      ((swapping u).restrict ok).Reachable
        (s.setCall 0 { c with scan := c.scan.next u c.path c.method s.generationRules }) :=
    fun s c hr hc => hr.next_restrict (.next 0) _ (hok.next s 0) (Swap.Step.next s 0 c hc)
  have hnew : ((swapping u).restrict ok).Reachable
      { generationRules := [], calls := fun _ => none } := System.Reachable.init _ rfl
  have hold := hnew.next_restrict (.setGenerationRules old) _ (hok.first old)
    (Swap.Step.setGenerationRules _ old)
  have hstart := hold.next_restrict (.start 0 path method) _ (hok.start _ 0 path method)
    (Swap.Step.start _ 0 path method rfl)
  rcases advance u _ hnext k _ hstart _ (calls_setCall ..) with ⟨s, hr, hrules, hcall⟩
  have hreplaced := hr.next_restrict (.setGenerationRules new) _ (hset s hrules hcall)
    (Swap.Step.setGenerationRules s new)
  have hseen : (s.setGenerationRules new).calls 0 = some
      { path := path, method := method, installed := [new, old]
        scan := Scan.entry.finish u path method (List.replicate k old) } := by
    simp only [Swap.setGenerationRules, hcall, Option.map_some]
    exact congrArg some (if_pos hrunning)
  rcases advance u _ hnext m _ hreplaced _ hseen with ⟨s', hr', _, hcall'⟩
  exact ⟨s', hr', hcall'⟩

end Schedule

/-- A rule for reading a dataset by its number. -/
def sampleRead : GenerationRule where
  nameSpace := "shop"
  name := "read"
  endpoint := { path := "/datasets/\x7bid\x7d", method := "GET" }
  purpose := "read"
  scope := "read"
  tctxMapping := ∅
  tctxEnrichments := []
  rctxFields := []
  tokenLifetime := ""

/-- A rule for writing a dataset by its number. -/
def sampleWrite : GenerationRule :=
  { sampleRead with name := "write", endpoint := { sampleRead.endpoint with method := "POST" } }

/-- A rule for listing datasets. -/
def sampleList : GenerationRule :=
  { sampleRead with name := "list", endpoint := { path := "/datasets", method := "GET" } }

/-- The first rule of the list is replaced while a call is past it, at the second of two,
    which the replacement leaves where it is: the call returns what a scan of one of the
    two lists returns. -/
theorem lookup_consistent_sample :
    ∃ (s : Swap) (c : Lookup), ((swapping Unicode.ascii).restrict (Spares 0)).Reachable s ∧
      s.calls 0 = some c ∧ c.scan = .returned (some sampleWrite) ∧
      c.installed = [[sampleList, sampleWrite], [sampleRead, sampleWrite]] ∧
      ∃ l ∈ c.installed,
        some sampleWrite = findMatchingRule Unicode.ascii l "/datasets/7?full" "post" := by
  have hat : Scan.entry.finish Unicode.ascii "/datasets/7?full" "post"
      (List.replicate 2 [sampleRead, sampleWrite]) = .looping 2 1 := by decide
  rcases exists_replaced Unicode.ascii (Spares 0) lenient_spares [sampleRead, sampleWrite]
    [sampleList, sampleWrite] "/datasets/7?full" "post" 2 1 (by rw [hat]; rfl) (by
      intro s hrules hcall c n i hc hscan j hij hjn
      cases hcall.symm.trans hc
      cases hat.symm.trans hscan
      -- Index 1 is all that is left, and it holds the same rule.
      have hj : j = 1 := by omega
      rw [hj, hrules]
      rfl) with ⟨s, hr, hcall⟩
  have hscan : (Scan.entry.finish Unicode.ascii "/datasets/7?full" "post"
      (List.replicate 2 [sampleRead, sampleWrite])).finish Unicode.ascii "/datasets/7?full" "post"
        (List.replicate 1 [sampleList, sampleWrite]) = .returned (some sampleWrite) := by
    decide
  exact ⟨s, _, hr, hcall, hscan, rfl,
    (lookup_consistent Unicode.ascii 0 s hr _ hcall).2.1 _ hscan⟩

/-- Emptying the list during a scan makes the next read panic, and swapping two
    rules hides from the scan the one that matches, although both lists have
    it. -/
theorem replaced_during_scan :
    (∃ s c, (swapping Unicode.ascii).Reachable s ∧ s.calls 0 = some c ∧ c.scan = .panicked) ∧
    ∃ s c, (swapping Unicode.ascii).Reachable s ∧ s.calls 0 = some c ∧ c.scan = .returned none ∧
      ∀ l ∈ c.installed, findMatchingRule Unicode.ascii l c.path c.method = some sampleWrite := by
  have hrunning : (Scan.entry.finish Unicode.ascii "/datasets/7" "POST"
      (List.replicate 2 [sampleRead, sampleWrite])).running = true := by decide
  have hany : Lenient fun _ _ => True :=
    ⟨fun _ => trivial, fun _ _ _ _ => trivial, fun _ _ => trivial⟩
  rcases exists_replaced Unicode.ascii _ hany [sampleRead, sampleWrite] [] "/datasets/7" "POST" 2 1
    hrunning (fun _ _ _ => trivial) with ⟨s, hr, hcall⟩
  rcases exists_replaced Unicode.ascii _ hany [sampleRead, sampleWrite] [sampleWrite, sampleRead]
    "/datasets/7" "POST" 2 2 hrunning (fun _ _ _ => trivial) with ⟨s', hr', hcall'⟩
  exact ⟨⟨s, _, System.reachable_of_restrict _ s hr, hcall, by decide⟩, s', _,
    System.reachable_of_restrict _ s' hr', hcall', by decide, by decide⟩

end Kontxt
