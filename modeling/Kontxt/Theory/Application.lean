import Kontxt.Core.RuleClient
import Kontxt.Theory.Cel
import Kontxt.Theory.Distribution
import Kontxt.Theory.Exchange

/-!
# Which Rules the Token Service Enforces

The token service's client keeps a map and the handler keeps compiled rules, and
the two are allowed to differ. A message changes the map in any case; the handler
follows only if every rule of the map compiles. A new session starts from an
empty map and leaves the handler alone.

So the handler enforces the last map that compiled. The log of a run holds the
map after each message, over all sessions, and `LastCompiled` picks the newest
one whose rules all compile. What is enforced then is its compiled form, the
rules in the order of their keys. There is one such order, whatever order the map
was iterated in and whatever the sort does with ties, because the map stores each
rule under its own key.

From the second part it follows that decisions do not depend on how the rules
came: two clients that hold the same map hand over the same list, and their
handlers give the same answers.

## Main definitions

* `issuanceKey`: The key issuance rules are sorted by.
* `KeyOrder`: The rules of a map in the order of their keys.
* `Compiles`: Every rule of a map compiles.
* `CompiledForm`: What a map compiles to.
* `LastCompiled`: The newest map of a log that compiles.
* `EnforcedBy`: What a handler may hold after the messages of a log.
* `ApplyInv`: The invariant of a client's run.

## Theorems

* `issuanceLess_eq`: The client's comparison compares keys.
* `keyOrder_sort`: Sorting a collected map puts it in key order.
* `setIssuanceRules_cases`: What the setter does with a map in key order.
* `applyInv_message`: One message keeps the invariant.
* `applyInv_reachable`: Every run does.
* `last_compiled_enforced`: The handler enforces the last map that compiled.
* `decisions_history_free`: Equal maps give equal lists and equal answers.
-/

namespace Kontxt

open Go Lib

/-- Issuance rules compare by policy namespace, policy name and rule name. -/
def issuanceKey (r : IssuanceRule) : Lex (String × Lex (String × String)) :=
  toLex (r.policyNamespace, toLex (r.policyName, r.ruleName))

/-- The comparison of the client, level by level, is that of the keys. -/
theorem issuanceLess_eq : issuanceLess = lessBy issuanceKey := by
  funext a b
  unfold issuanceLess lessBy issuanceKey
  by_cases hns : a.policyNamespace = b.policyNamespace
  · by_cases hname : a.policyName = b.policyName
    · simp only [hns, hname, ne_eq, not_true_eq_false, if_false, Prod.Lex.toLex_lt_toLex,
        lt_self_iff_false, true_and, false_or]
    · simp only [hns, hname, ne_eq, not_true_eq_false, not_false_eq_true, if_false, if_true,
        Prod.Lex.toLex_lt_toLex, lt_self_iff_false, true_and, false_and, false_or, or_false]
  · simp only [hns, ne_eq, not_false_eq_true, if_true, Prod.Lex.toLex_lt_toLex, false_and,
      or_false]

section Maps

variable {m : GoMap (String × String × String) IssuanceRule}

/-- The rules of a map in the order of their keys. -/
structure KeyOrder (m : GoMap (String × String × String) IssuanceRule) (l : List IssuanceRule) :
    Prop where
  ranges : Ranges m l
  increasing : l.Pairwise fun a b => issuanceKey a < issuanceKey b

theorem KeyOrder.unique {l l' : List IssuanceRule} (h : KeyOrder m l) (h' : KeyOrder m l') :
    l = l' :=
  eq_of_strict issuanceKey h.increasing h'.increasing
    (Multiset.coe_eq_coe.mp (h.ranges.trans h'.ranges.symm))

/-- Sorting a collected map puts it in key order. -/
theorem keyOrder_sort (S : SortSlice) (hm : KeyedMap issuanceStream m) (flat : List IssuanceRule)
    (hflat : Ranges m flat) : KeyOrder m (S.sort issuanceLess flat) where
  ranges := (Multiset.coe_eq_coe.mpr (S.perm issuanceLess flat)).trans hflat
  increasing := by
    have hkeys : (flat.map issuanceKey).Nodup :=
      distinctKeys_of_keyedMap issuanceStream m hm flat hflat
    rw [issuanceLess_eq]
    exact sort_strict S issuanceKey flat hkeys

variable (newEnv : Except String (Cel.Env Tts.Activation))

/-- Every rule of a map compiles. -/
def Compiles (m : GoMap (String × String × String) IssuanceRule) : Prop :=
  ∀ k r, m.lookup k = some r → ∃ p, Cel.programOf newEnv r.cel = some p

/-- What a map compiles to: its rules in key order, each with its program. -/
def CompiledForm (m : GoMap (String × String × String) IssuanceRule)
    (rules : List Tts.IssuanceRule) : Prop :=
  ∃ l, KeyOrder m l ∧
    List.Forall₂ (fun r q => ∃ p, Cel.programOf newEnv r.cel = some p ∧
      q = (issuanceConfig r).build p) l rules

/-- A map compiles to one thing only. -/
theorem CompiledForm.unique {rules rules' : List Tts.IssuanceRule}
    (h : CompiledForm newEnv m rules) (h' : CompiledForm newEnv m rules') : rules = rules' := by
  rcases h with ⟨l, hl, hrules⟩
  rcases h' with ⟨l', hl', hrules'⟩
  rw [← hl.unique hl'] at hrules'
  refine List.right_unique_forall₂' ?_ hrules hrules'
  intro r q q' hq hq'
  rcases hq with ⟨p, hp, rfl⟩
  rcases hq' with ⟨p', hp', rfl⟩
  rw [Option.some.inj (hp.symm.trans hp')]

/-- The compiler's result on a list of rules. -/
theorem compileIssuanceRules_eq_ok (u : Unicode) (l : List IssuanceRule)
    (rules : List Tts.IssuanceRule) :
    Tts.compileIssuanceRules u newEnv (l.map issuanceConfig) = .ok rules ↔
      List.Forall₂ (fun r q => ∃ p, Cel.programOf newEnv r.cel = some p ∧
        q = (issuanceConfig r).build p) l rules := by
  rw [Tts.compileIssuanceRules, Cel.compileRules_eq_ok, List.forall₂_map_left_iff]
  exact Iff.rfl

/-- The list of a map compiles exactly when the map does. -/
theorem compileIssuanceRules_iff (u : Unicode) (l : List IssuanceRule) (hl : Ranges m l) :
    (∃ rules, Tts.compileIssuanceRules u newEnv (l.map issuanceConfig) = .ok rules) ↔
      Compiles newEnv m := by
  unfold Tts.compileIssuanceRules
  rw [Cel.compileRules_exists_iff, List.forall_mem_map]
  constructor
  · intro h k r hr
    exact h r ((mem_of_ranges hl r).mpr ⟨k, hr⟩)
  · intro h r hr
    rcases (mem_of_ranges hl r).mp hr with ⟨k, hk⟩
    exact h k r hk

/-- What the setter does with a map in key order: with a map that compiles it
    installs the compiled form, and otherwise it fails. -/
theorem setIssuanceRules_cases (u : Unicode) (s : HandlerSetter) (h : Tts.Handler)
    (hs : s.handler = some h) (l : List IssuanceRule) (hl : KeyOrder m l) :
    (Compiles newEnv m ∧ ∃ rules, CompiledForm newEnv m rules ∧
      s.setIssuanceRules u newEnv l = .ok { handler := some (h.setIssuanceRules rules) }) ∨
    (¬Compiles newEnv m ∧ ∃ e, s.setIssuanceRules u newEnv l = .error e) := by
  unfold HandlerSetter.setIssuanceRules
  rw [hs]
  have hiff := compileIssuanceRules_iff newEnv u l hl.ranges
  cases hc : Tts.compileIssuanceRules u newEnv (l.map issuanceConfig) with
  | error e =>
      refine Or.inr ⟨fun hm => ?_, _, rfl⟩
      rcases hiff.mpr hm with ⟨rules, hrules⟩
      rw [hc] at hrules
      cases hrules
  | ok rules =>
      refine Or.inl ⟨hiff.mp ⟨rules, hc⟩, rules, ⟨l, hl, ?_⟩, rfl⟩
      exact (compileIssuanceRules_eq_ok newEnv u l rules).mp hc

end Maps

section Logs

variable (newEnv : Except String (Cel.Env Tts.Activation))

/-- The newest map of a log whose rules all compile. -/
def LastCompiled (log : List (GoMap (String × String × String) IssuanceRule × List IssuanceRule))
    (m : GoMap (String × String × String) IssuanceRule) : Prop :=
  ∃ newer l older, log = newer ++ (m, l) :: older ∧ (∀ e ∈ newer, ¬Compiles newEnv e.1) ∧
    Compiles newEnv m

/-- What a handler may hold after the messages of a log: nothing if no map
    compiled, and otherwise the compiled form of the newest that did. -/
structure EnforcedBy
    (log : List (GoMap (String × String × String) IssuanceRule × List IssuanceRule))
    (h : Tts.Handler) : Prop where
  of_none : (∀ e ∈ log, ¬Compiles newEnv e.1) → h.loadIssuanceRules = []
  of_last : ∀ m, LastCompiled newEnv log m →
    ∃ rules, h.issuanceRules = some rules ∧ CompiledForm newEnv m rules

variable {newEnv} {log : List (GoMap (String × String × String) IssuanceRule × List IssuanceRule)}
  {m : GoMap (String × String × String) IssuanceRule} {l : List IssuanceRule}

/-- A map that compiles is the newest one to. -/
theorem lastCompiled_cons (hm : Compiles newEnv m)
    (m' : GoMap (String × String × String) IssuanceRule)
    (h : LastCompiled newEnv ((m, l) :: log) m') : m' = m := by
  rcases h with ⟨newer, l', older, hlog, hnewer, _⟩
  cases newer with
  | nil =>
      rw [List.nil_append, List.cons.injEq, Prod.mk.injEq] at hlog
      exact hlog.1.1.symm
  | cons e newer =>
      rw [List.cons_append, List.cons.injEq] at hlog
      exact absurd (hlog.1 ▸ hm) (hnewer e List.mem_cons_self)

/-- A map that does not compile changes nothing. -/
theorem lastCompiled_cons_of_not (hm : ¬Compiles newEnv m)
    (m' : GoMap (String × String × String) IssuanceRule)
    (h : LastCompiled newEnv ((m, l) :: log) m') : LastCompiled newEnv log m' := by
  rcases h with ⟨newer, l', older, hlog, hnewer, hm'⟩
  cases newer with
  | nil =>
      rw [List.nil_append, List.cons.injEq, Prod.mk.injEq] at hlog
      exact absurd (hlog.1.1 ▸ hm') hm
  | cons e newer =>
      rw [List.cons_append, List.cons.injEq] at hlog
      exact ⟨newer, l', older, hlog.2, fun e' he' => hnewer e' (List.mem_cons_of_mem e he'), hm'⟩

theorem enforced_cons (hm : Compiles newEnv m) (h : Tts.Handler) (rules : List Tts.IssuanceRule)
    (hform : CompiledForm newEnv m rules) :
    EnforcedBy newEnv ((m, l) :: log) (h.setIssuanceRules rules) where
  of_none := fun hnone => absurd hm (hnone (m, l) List.mem_cons_self)
  of_last := fun m' hlast => ⟨rules, rfl, lastCompiled_cons hm m' hlast ▸ hform⟩

theorem enforced_cons_of_not (hm : ¬Compiles newEnv m) (h : Tts.Handler)
    (henf : EnforcedBy newEnv log h) : EnforcedBy newEnv ((m, l) :: log) h where
  of_none := fun hnone => henf.of_none fun e he => hnone e (List.mem_cons_of_mem _ he)
  of_last := fun m' hlast => henf.of_last m' (lastCompiled_cons_of_not hm m' hlast)

/-- Serving a request does not change what is enforced. -/
theorem enforced_serveHTTP (env : Tts.Env) (h : Tts.Handler) (r : Tts.Request)
    (henf : EnforcedBy newEnv log h) : EnforcedBy newEnv log (h.serveHTTP env r).2 := by
  rcases Tts.serveHTTP_handler env h r with ⟨router, hafter⟩
  rw [hafter]
  exact ⟨henf.of_none, henf.of_last⟩

end Logs

section Runs

variable (u : Unicode) (S : SortSlice) (newEnv : Except String (Cel.Env Tts.Activation))

/-- What every run keeps: rules are stored under their own keys, lists are
    handed over in key order, the handler enforces the last map that compiled,
    and the client is ready once one did. -/
structure ApplyInv (s : TtsRun) : Prop where
  keyed : KeyedMap issuanceStream s.client.rules
  handed : ∀ e ∈ s.log, KeyOrder e.1 e.2
  enforced : ∃ h, s.client.setter.handler = some h ∧ EnforcedBy newEnv s.log h
  ready : s.client.synced = true ↔ ∃ e ∈ s.log, Compiles newEnv e.1

/-- Applying a list does not change the map. -/
theorem install_rules (c : TtsClient) (flat : List IssuanceRule) :
    (c.install u S newEnv flat).rules = c.rules := by
  unfold TtsClient.install
  cases c.setter.setIssuanceRules u newEnv (S.sort issuanceLess flat) with
  | error e => rfl
  | ok setter => rfl

/-- One message keeps the invariant, whether or not its map compiles. -/
theorem applyInv_message (s : TtsRun) (hs : ApplyInv newEnv s)
    (resp : Response Proto.IssuanceRule) (flat : List IssuanceRule)
    (hflat : Ranges (issuanceStream.receive s.client.rules resp) flat) :
    ApplyInv newEnv (s.message u S newEnv resp flat) := by
  have hkeyed := keyedMap_receive lawful_issuance _ hs.keyed resp
  have horder := keyOrder_sort S hkeyed flat hflat
  have hhanded : ∀ e ∈ (s.message u S newEnv resp flat).log, KeyOrder e.1 e.2 := by
    intro e he
    rcases List.mem_cons.mp he with rfl | he
    · exact horder
    · exact hs.handed e he
  rcases hs.enforced with ⟨h, hh, henf⟩
  rcases setIssuanceRules_cases newEnv u s.client.setter h hh _ horder with
    ⟨hm, rules, hform, hset⟩ | ⟨hm, e, hset⟩
  · have hclient : (s.message u S newEnv resp flat).client
        = { rules := issuanceStream.receive s.client.rules resp
            setter := { handler := some (h.setIssuanceRules rules) }
            synced := true } := by
      simp only [TtsRun.message, TtsClient.install, hset]
    refine ⟨hclient ▸ hkeyed, hhanded, ⟨_, hclient ▸ rfl, enforced_cons hm h rules hform⟩, ?_⟩
    -- From here on the client stays ready, and this entry stays in the log.
    rw [hclient]
    exact ⟨fun _ => ⟨_, List.mem_cons_self, hm⟩, fun _ => rfl⟩
  · have hclient : (s.message u S newEnv resp flat).client
        = { s.client with rules := issuanceStream.receive s.client.rules resp } := by
      simp only [TtsRun.message, TtsClient.install, hset]
    refine ⟨hclient ▸ hkeyed, hhanded, ⟨h, hclient ▸ hh, enforced_cons_of_not hm h henf⟩, ?_⟩
    rw [hclient]
    refine hs.ready.trans ⟨fun hgiven => ?_, fun hgiven => ?_⟩
    · rcases hgiven with ⟨e', he', hc⟩
      exact ⟨e', List.mem_cons_of_mem _ he', hc⟩
    · rcases hgiven with ⟨e', he', hc⟩
      rcases List.mem_cons.mp he' with rfl | he'
      · exact absurd hc hm
      · exact ⟨e', he', hc⟩

theorem applyInv_step (s : TtsRun) (e : TtsEvent) (s' : TtsRun) (hs : ApplyInv newEnv s)
    (hstep : s.Step u S newEnv e s') : ApplyInv newEnv s' := by
  cases e with
  | connect =>
      rcases hstep with ⟨_, rfl⟩
      exact ⟨keyedMap_empty _, hs.handed, hs.enforced, hs.ready⟩
  | disconnect =>
      rcases hstep with ⟨_, rfl⟩
      exact ⟨hs.keyed, hs.handed, hs.enforced, hs.ready⟩
  | message resp =>
      rcases hstep with ⟨_, flat, hflat, rfl⟩
      exact applyInv_message u S newEnv s hs resp flat hflat
  | serve env r =>
      rcases hstep with ⟨h, hh, rfl⟩
      rcases hs.enforced with ⟨h', hh', henf⟩
      rw [hh] at hh'
      rw [← Option.some.inj hh'] at henf
      exact ⟨hs.keyed, hs.handed, ⟨_, rfl, enforced_serveHTTP env h r henf⟩, hs.ready⟩

/-- Every run of the client keeps the invariant. -/
theorem applyInv_reachable (s : TtsRun) (hr : (ttsRuns u S newEnv).Reachable s) :
    ApplyInv newEnv s := by
  refine System.invariant _ ?_ (applyInv_step u S newEnv) s hr
  intro s hinit
  rcases hinit with ⟨_, hlog, hsynced, hrules, h, hh, hempty⟩
  refine ⟨hrules ▸ keyedMap_empty _, ?_, ⟨h, hh, ⟨fun _ => hempty, ?_⟩⟩, ?_⟩
  · intro e he
    rw [hlog] at he
    exact absurd he List.not_mem_nil
  · intro m hlast
    rcases hlast with ⟨newer, l, older, hsplit, _⟩
    rw [hlog] at hsplit
    exact absurd hsplit.symm (List.append_ne_nil_of_right_ne_nil _ (List.cons_ne_nil _ _))
  · rw [hlog, hsynced]
    simp only [Bool.false_eq_true, List.not_mem_nil, false_and, exists_false]

/-- After a message whose map compiles, the handler holds its compiled form. -/
theorem enforced_head (s : TtsRun) (hinv : ApplyInv newEnv s)
    (m : GoMap (String × String × String) IssuanceRule) (l : List IssuanceRule)
    (hhead : s.log.head? = some (m, l)) (hm : Compiles newEnv m) (h : Tts.Handler)
    (hh : s.client.setter.handler = some h) :
    ∃ rules, h.issuanceRules = some rules ∧ CompiledForm newEnv m rules := by
  rcases hinv.enforced with ⟨h', hh', henf⟩
  rw [hh] at hh'
  rw [← Option.some.inj hh'] at henf
  rcases List.head?_eq_some_iff.mp hhead with ⟨older, hlog⟩
  exact henf.of_last m ⟨[], l, older, hlog, fun e he => absurd he List.not_mem_nil, hm⟩

/-- The token service always enforces the last rule set that compiled. In every
    state any number of sessions can lead to, the handler's rules are the
    compiled form, in key order, of the map after the newest message whose rules
    all compiled, and there are none if there was no such message; the client is
    ready exactly when there was one. A message changes the map, and if some rule
    of the new map does not compile it changes nothing else; a new session
    empties the map and changes nothing else. -/
theorem last_compiled_enforced (s : TtsRun) (hr : (ttsRuns u S newEnv).Reachable s) :
    (∃ h, s.client.setter.handler = some h ∧
      ((∀ e ∈ s.log, ¬Compiles newEnv e.1) → h.loadIssuanceRules = []) ∧
      ∀ m, LastCompiled newEnv s.log m → CompiledForm newEnv m h.loadIssuanceRules) ∧
    (s.client.ready = true ↔ ∃ e ∈ s.log, Compiles newEnv e.1) ∧
    (∀ resp s', (ttsRuns u S newEnv).step s (.message resp) s' →
      s'.client.rules = issuanceStream.receive s.client.rules resp ∧
      (∃ l, s'.log = (s'.client.rules, l) :: s.log) ∧
      (¬Compiles newEnv s'.client.rules →
        s'.client.setter = s.client.setter ∧ s'.client.ready = s.client.ready)) ∧
    ∀ s', (ttsRuns u S newEnv).step s .connect s' →
      s'.client.rules = ∅ ∧ s'.client.setter = s.client.setter ∧
        s'.client.ready = s.client.ready ∧ s'.log = s.log := by
  have hinv := applyInv_reachable u S newEnv s hr
  rcases hinv.enforced with ⟨h, hh, henf⟩
  refine ⟨⟨h, hh, henf.of_none, fun m hlast => ?_⟩, hinv.ready, ?_, ?_⟩
  · rcases henf.of_last m hlast with ⟨rules, hrules, hform⟩
    rw [Tts.Handler.loadIssuanceRules, hrules]
    exact hform
  · intro resp s' hstep
    rcases hstep with ⟨_, flat, hflat, rfl⟩
    have hrules : (s.message u S newEnv resp flat).client.rules
        = issuanceStream.receive s.client.rules resp := install_rules u S newEnv _ flat
    rw [hrules]
    refine ⟨rfl, ⟨_, rfl⟩, fun hnot => ?_⟩
    -- The map is updated before the setter is asked, so a refusal undoes nothing.
    have hkeyed := keyedMap_receive lawful_issuance _ hinv.keyed resp
    have horder := keyOrder_sort S hkeyed flat hflat
    rcases setIssuanceRules_cases newEnv u s.client.setter h hh _ horder with
      ⟨hm, _⟩ | ⟨_, e, hset⟩
    · exact absurd hm hnot
    · have hclient : (s.message u S newEnv resp flat).client
          = { s.client with rules := issuanceStream.receive s.client.rules resp } := by
        simp only [TtsRun.message, TtsClient.install, hset]
      rw [hclient]
      exact ⟨rfl, rfl⟩
  · intro s' hstep
    rcases hstep with ⟨_, rfl⟩
    exact ⟨rfl, rfl, rfl, rfl⟩

/-- Decisions do not depend on how the rules came. For any two runs, with any
    sorts, and any map that both held after some message: the lists they handed
    to their setters are the same, strictly increasing in policy namespace,
    policy name and rule name. And when that message was the last of both and the
    map compiles, two handlers that differ in nothing but their rules answer every
    request alike, down to the rule an error names. -/
theorem decisions_history_free (S' : SortSlice) (s s' : TtsRun)
    (hr : (ttsRuns u S newEnv).Reachable s) (hr' : (ttsRuns u S' newEnv).Reachable s')
    (m : GoMap (String × String × String) IssuanceRule) (l l' : List IssuanceRule) :
    ((m, l) ∈ s.log → (m, l') ∈ s'.log →
      l = l' ∧ l.Pairwise fun a b => issuanceKey a < issuanceKey b) ∧
    (s.log.head? = some (m, l) → s'.log.head? = some (m, l') → Compiles newEnv m →
      ∀ h h', s.client.setter.handler = some h → s'.client.setter.handler = some h' →
        h.loadIssuanceRules = h'.loadIssuanceRules ∧
        ({ h with issuanceRules := h'.issuanceRules } = h' →
          ∀ env r, (h.serveHTTP env r).1 = (h'.serveHTTP env r).1)) := by
  have hinv := applyInv_reachable u S newEnv s hr
  have hinv' := applyInv_reachable u S' newEnv s' hr'
  constructor
  · intro hmem hmem'
    have horder := hinv.handed (m, l) hmem
    exact ⟨horder.unique (hinv'.handed (m, l') hmem'), horder.increasing⟩
  · intro hhead hhead' hm h h' hh hh'
    rcases enforced_head newEnv s hinv m l hhead hm h hh with ⟨rules, hrules, hform⟩
    rcases enforced_head newEnv s' hinv' m l' hhead' hm h' hh' with ⟨rules', hrules', hform'⟩
    have hsame : h.issuanceRules = h'.issuanceRules := by
      rw [hrules, hrules', hform.unique newEnv hform']
    refine ⟨congrArg (fun r => r.getD []) hsame, fun hrest env r => ?_⟩
    rw [← hsame] at hrest
    rw [show h = h' from hrest]

end Runs

section Samples

/-- A rule of the policy `orders`. -/
def ordersRule (ruleName cel : String) : IssuanceRule where
  policyNamespace := ""
  policyName := "orders"
  ruleName := ruleName
  cel := cel
  message := ""
  targetNamespaces := []

/-- A message with all rules, or with one to store. -/
def snapshotOf (rules : List IssuanceRule) : Response Proto.IssuanceRule where
  update := some (.snapshot (rules.map issuanceRuleToProto))
  versionInfo := "1"

def upsertOf (rule : IssuanceRule) : Response Proto.IssuanceRule where
  update := some (.delta [issuanceRuleToProto rule] [])
  versionInfo := "2"

/-- The client of the sample handler, in its first session. -/
def connectedRun : TtsRun where
  client := { rules := ∅, setter := { handler := some Tts.sampleHandler }, synced := false }
  connected := true
  log := []

/-- Runs with an environment that knows the two constants. -/
def sampleRuns : System TtsRun TtsEvent :=
  ttsRuns Unicode.ascii SortSlice.insertion (.ok (Cel.Env.constants Tts.Activation))

theorem reachable_connectedRun : sampleRuns.Reachable connectedRun := by
  have hinit : sampleRuns.Reachable { connectedRun with connected := false } :=
    System.Reachable.init _ ⟨rfl, rfl, rfl, rfl, Tts.sampleHandler, rfl, rfl⟩
  exact hinit.next .connect connectedRun ⟨rfl, rfl⟩

/-- A map compiles when the rules stored in it do. -/
theorem compiles_insertAll (newEnv : Except String (Cel.Env Tts.Activation))
    (l : List IssuanceRule) (h : ∀ r ∈ l, ∃ p, Cel.programOf newEnv r.cel = some p) :
    Compiles newEnv (insertAll keyFor ∅ l) := by
  intro k r hlookup
  rw [lookup_insertAll, Finmap.lookup_empty, Option.or_none] at hlookup
  exact h r (List.mem_reverse.mp (mem_of_view keyFor _ k r hlookup).1)

/-- A run can go on with any message. -/
theorem exists_message (s : TtsRun) (hr : sampleRuns.Reachable s) (hconn : s.connected = true)
    (resp : Response Proto.IssuanceRule) :
    ∃ s' l, sampleRuns.Reachable s' ∧ s'.connected = true ∧
      s'.client.rules = issuanceStream.receive s.client.rules resp ∧
      s'.log = (issuanceStream.receive s.client.rules resp, l) :: s.log := by
  rcases exists_ranges (issuanceStream.receive s.client.rules resp) with ⟨flat, hflat⟩
  exact ⟨_, _, hr.next (.message resp) _ ⟨hconn, flat, hflat, rfl⟩, hconn,
    install_rules _ _ _ _ flat, rfl⟩

/-- A map of one rule that is `true`, and then one that does not parse: the
    first stays enforced, and the client stays ready. -/
theorem last_compiled_enforced_sample :
    ∃ s h, sampleRuns.Reachable s ∧ s.client.setter.handler = some h ∧
      ¬Compiles (.ok (Cel.Env.constants Tts.Activation)) s.client.rules ∧
      CompiledForm (.ok (Cel.Env.constants Tts.Activation))
        (insertAll keyFor ∅ [ordersRule "a" "true"]) h.loadIssuanceRules ∧
      s.client.ready = true := by
  rcases exists_message connectedRun reachable_connectedRun rfl
    (snapshotOf [ordersRule "a" "true"]) with ⟨s, l, hr, hconn, hrules, hlog⟩
  rcases exists_message s hr hconn (upsertOf (ordersRule "b" "a &&")) with
    ⟨s', l', hr', _, hrules', hlog'⟩
  rcases (last_compiled_enforced _ _ _ s' hr').1 with ⟨h, hh, _, hlast⟩
  have hready := (last_compiled_enforced _ _ _ s' hr').2.1
  have hm : Compiles (.ok (Cel.Env.constants Tts.Activation))
      (insertAll keyFor ∅ [ordersRule "a" "true"]) := by
    refine compiles_insertAll _ _ ?_
    intro r hr
    rw [List.mem_singleton.mp hr]
    exact ⟨_, rfl⟩
  have hm' : ¬Compiles (.ok (Cel.Env.constants Tts.Activation)) s'.client.rules := by
    intro hc
    have hlookup : s'.client.rules.lookup (keyFor (ordersRule "b" "a &&"))
        = some (ordersRule "b" "a &&") := by
      rw [hrules']
      exact Finmap.lookup_insert _
    rcases hc _ _ hlookup with ⟨p, hp⟩
    cases hp
  rw [← hrules'] at hlog'
  refine ⟨s', h, hr', hh, hm', hlast _ ⟨[(s'.client.rules, l')], l, [], ?_, ?_, hm⟩, ?_⟩
  · rw [hlog', hlog]
    rfl
  · intro e he
    rw [List.mem_singleton.mp he]
    exact hm'
  · exact hready.mpr ⟨_, hlog' ▸ List.mem_cons_of_mem _ (hlog ▸ List.mem_cons_self), hm⟩

/-- Two rules in one snapshot, or one after the other: the same list. -/
theorem decisions_history_free_sample :
    ∃ s s' m l l', sampleRuns.Reachable s ∧ sampleRuns.Reachable s' ∧
      s.log.head? = some (m, l) ∧ s'.log.head? = some (m, l') ∧ s.log.length ≠ s'.log.length ∧
      l = l' ∧ ∀ h h', s.client.setter.handler = some h → s'.client.setter.handler = some h' →
        h.loadIssuanceRules = h'.loadIssuanceRules := by
  rcases exists_message connectedRun reachable_connectedRun rfl
    (snapshotOf [ordersRule "a" "true", ordersRule "b" "false"]) with ⟨s, l, hr, _, _, hlog⟩
  rcases exists_message connectedRun reachable_connectedRun rfl
    (snapshotOf [ordersRule "b" "false"]) with ⟨t, _, ht, hconn, hrules, hlogt⟩
  rcases exists_message t ht hconn (upsertOf (ordersRule "a" "true")) with
    ⟨s', l', hr', _, _, hlog'⟩
  have hne : keyFor (ordersRule "a" "true") ≠ keyFor (ordersRule "b" "false") := by decide
  have hsame : issuanceStream.receive t.client.rules (upsertOf (ordersRule "a" "true"))
      = insertAll keyFor ∅ [ordersRule "a" "true", ordersRule "b" "false"] := by
    rw [hrules]
    exact (Finmap.insert_insert_of_ne _ hne).symm
  have hm : Compiles (.ok (Cel.Env.constants Tts.Activation))
      (insertAll keyFor ∅ [ordersRule "a" "true", ordersRule "b" "false"]) := by
    refine compiles_insertAll _ _ ?_
    intro r hr
    rcases List.mem_cons.mp hr with rfl | hr
    · exact ⟨_, rfl⟩
    · rw [List.mem_singleton.mp hr]
      exact ⟨_, rfl⟩
  rw [hsame] at hlog'
  have hboth := decisions_history_free Unicode.ascii SortSlice.insertion
    (.ok (Cel.Env.constants Tts.Activation)) SortSlice.insertion s s' hr hr'
    (insertAll keyFor ∅ [ordersRule "a" "true", ordersRule "b" "false"]) l l'
  refine ⟨s, s', _, l, l', hr, hr', congrArg List.head? hlog, congrArg List.head? hlog', ?_, ?_,
    fun h h' hh hh' => ?_⟩
  · rw [hlog, hlog', hlogt]
    exact Nat.ne_of_lt (Nat.lt_succ_self 1)
  · exact (hboth.1 (hlog ▸ List.mem_cons_self) (hlog' ▸ List.mem_cons_self)).1
  · exact (hboth.2 (congrArg List.head? hlog) (congrArg List.head? hlog') hm h h' hh hh').1

end Samples

end Kontxt
