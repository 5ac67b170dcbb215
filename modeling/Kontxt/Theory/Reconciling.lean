import Kontxt.Core.Reconcile
import Kontxt.Lib.System

/-!
# What a Reconciler at Work Preserves

Whether the rules last published are those of the objects now in the cluster,
once the queue is empty and the worker has nothing to do. Two facts make it so.
Every change makes its key dirty, so as long as no key is dirty the store has
not changed since the worker took its last key. And a pass that does not fail
lists the store after taking its key. `PublishInv` puts the two together: some
key is dirty, or the worker is still before its listing, or what it builds is
built from the store as it is now, or what it published is.

The statuses follow the same pattern. `StatusInv` says of every object that its
key is dirty, or that the worker has it, or that its status shows what a lookup
finds; and of what the worker holds that it belongs to what the store holds, if
that still has the version that was read.

Lookups are where this can go wrong. What a lookup finds depends on objects of
another kind, and a change there makes no key dirty here. `SameLookups` is what
such a change has to meet, and `FailsSafely` what a lookup that fails has to.

## Main definitions

* `Control.Quiet`: Nothing is queued and the worker is idle.
* `Control.Initial`: Every stored key is queued.
* `reconciling`: A reconciler at work as a transition system.
* `Listed`: A listing of the store.
* `Rebuilds`: Rules made from a listing.
* `PublishInv`, `StatusInv`: What every step preserves.
* `Control.Pending`: A key whose lookup is still to come.
* `SameLookups`: Lookups find the same for every key that is not pending.
* `FailsSafely`: A failed lookup makes no difference.
* `Works`: The worker goes on and nothing else happens.
* `oneStored`: A controller that has just started on one object.

## Theorems

* `publishInv_step`, `publishInv_env`: Steps and changed surroundings.
* `statusInv_step`, `statusInv_env`: The same for statuses.
* `published_of_quiet`, `shown_of_quiet`: What is left when it is quiet.
* `exists_pass`, `exists_quiet`: A pass over the only key, and over the only object.
* `exists_quiet_two`: A pass over an object that is added to another one.
-/

namespace Kontxt

open Go Lib

section Generic

variable {κ ω χ ν ρ : Type} [DecidableEq κ]

/-- Nothing is queued and the worker is idle. -/
structure Control.Quiet (s : Control κ ω ρ) : Prop where
  queue : s.queue.queue = []
  idle : s.phase = .idle

/-- A controller that has just started: every stored key is queued, and nothing
    was published. -/
structure Control.Initial (R : Reconciler κ ω χ ν ρ) (s : Control κ ω ρ) : Prop where
  idle : s.phase = .idle
  published : s.published = []
  queued : ∀ k st, s.store.lookup k = some st → k ∈ s.queue.dirty
  versions : ∀ k st, s.store.lookup k = some st → st.version < s.version

/-- A reconciler at work in fixed surroundings. -/
def reconciling (R : Reconciler κ ω χ ν ρ) (env : χ) :
    System (Control κ ω ρ) (ControlEvent κ ω ν) where
  init := Control.Initial R
  step := Control.Step R env

/-- The objects in the order some listing gives them. -/
def Listed (s : Control κ ω ρ) (objs : List ω) : Prop :=
  ∃ items, Ranges s.store items ∧ objs = items.map Stored.obj

/-- The rules of one object under something a lookup finds. -/
def Chunk (R : Reconciler κ ω χ ν ρ) (env : χ) (o : ω) (rules : List ρ) : Prop :=
  ∃ v, R.Finds env o v ∧ rules = R.rules o v

/-- Rules made from objects one after the other. -/
def Rebuilds (R : Reconciler κ ω χ ν ρ) (env : χ) (objs : List ω) (rules : List ρ) : Prop :=
  ∃ chunks, List.Forall₂ (Chunk R env) objs chunks ∧ rules = chunks.flatten

/-- What the worker has so far was made from the store as it is. -/
def UpToDate (R : Reconciler κ ω χ ν ρ) (env : χ) (s : Control κ ω ρ) : Phase κ ω ρ → Prop
  | .idle => ∃ objs, Listed s objs ∧ Rebuilds R env objs s.published
  | .busy _ (.build todo rules) =>
    ∃ built, Listed s (built ++ todo) ∧ Rebuilds R env built rules
  | .busy _ _ => True

/-- Some key is dirty, or everything so far was made from the store as it is. -/
def PublishInv (R : Reconciler κ ω χ ν ρ) (env : χ) (s : Control κ ω ρ) : Prop :=
  s.queue.dirty.Nonempty ∨ UpToDate R env s s.phase

/-- A failed lookup finds what a lookup would, or comes while a later pass is
    due. -/
def FailsSafely (R : Reconciler κ ω χ ν ρ) (env : χ) (s : Control κ ω ρ) :
    ControlEvent κ ω ν → Prop
  | .find none _ => ∀ k read, s.phase = .busy k (.find read) →
      k ∈ s.queue.dirty ∨ R.Finds env read.obj (R.missed read.obj)
  | .build none => ∀ k o todo rules, s.phase = .busy k (.build (o :: todo) rules) →
      s.queue.dirty.Nonempty ∨ R.Finds env o (R.missed o)
  | _ => True

variable {R : Reconciler κ ω χ ν ρ} {env : χ}

/-- Where lookups always find what a failed one counts as, failures are safe. -/
theorem failsSafely_of_finds (hfinds : ∀ o, R.Finds env o (R.missed o)) (s : Control κ ω ρ)
    (e : ControlEvent κ ω ν) : FailsSafely R env s e := by
  cases e with
  | find found obj =>
      cases found with
      | none => exact fun _ read _ => Or.inr (hfinds read.obj)
      | some v => trivial
  | build found =>
      cases found with
      | none => exact fun _ o _ _ _ => Or.inr (hfinds o)
      | some v => trivial
  | change k o => trivial
  | start => trivial
  | get ok => trivial
  | update ok => trivial
  | list listed => trivial
  | publish => trivial

omit [DecidableEq κ] in
theorem rebuilds_nil : Rebuilds R env [] [] :=
  ⟨[], List.Forall₂.nil, rfl⟩

omit [DecidableEq κ] in
/-- One more object is made into rules. -/
theorem rebuilds_snoc (objs : List ω) (rules : List ρ) (h : Rebuilds R env objs rules) (o : ω)
    (v : ν) (hv : R.Finds env o v) : Rebuilds R env (objs ++ [o]) (rules ++ R.rules o v) := by
  rcases h with ⟨chunks, hchunks, rfl⟩
  refine ⟨chunks ++ [R.rules o v], ?_, ?_⟩
  · exact List.rel_append hchunks (List.Forall₂.cons ⟨v, hv, rfl⟩ List.Forall₂.nil)
  · rw [List.flatten_append, List.flatten_singleton]

omit [DecidableEq κ] in
/-- Rules made in one place are made in another where lookups find the same. -/
theorem rebuilds_congr (env' : χ) (objs : List ω) (rules : List ρ)
    (hsame : ∀ o ∈ objs, ∀ v, R.Finds env o v ↔ R.Finds env' o v)
    (h : Rebuilds R env objs rules) : Rebuilds R env' objs rules := by
  rcases h with ⟨chunks, hchunks, rfl⟩
  refine ⟨chunks, ?_, rfl⟩
  have hmem := (List.forall₂_and_left objs chunks).mpr ⟨fun o ho => ho, hchunks⟩
  refine hmem.imp ?_
  intro o c hboth
  rcases hboth with ⟨ho, v, hv, rfl⟩
  exact ⟨v, (hsame o ho v).mp hv, rfl⟩

/-- With nothing queued and the worker idle, no key is dirty. -/
theorem dirty_of_quiet (s : Control κ ω ρ) (h : s.Quiet) : s.queue.dirty = ∅ := by
  refine s.queue.dirty_eq_empty h.queue ?_
  rw [s.working, h.idle]
  rfl

/-- A listed object is stored. -/
theorem stored_of_listed (s : Control κ ω ρ) (objs : List ω) (h : Listed s objs) (o : ω)
    (ho : o ∈ objs) : ∃ k st, s.store.lookup k = some st ∧ st.obj = o := by
  rcases h with ⟨items, hitems, rfl⟩
  rcases List.mem_map.mp ho with ⟨st, hst, rfl⟩
  rcases (mem_of_ranges hitems st).mp hst with ⟨k, hk⟩
  exact ⟨k, st, hk, rfl⟩

theorem publishInv_init (s : Control κ ω ρ) (h : s.Initial R) : PublishInv R env s := by
  by_cases hdirty : s.queue.dirty.Nonempty
  · exact Or.inl hdirty
  · -- No key is dirty, so nothing is stored.
    have hempty : s.store = ∅ := by
      refine Finmap.ext_lookup fun k => ?_
      rw [Finmap.lookup_empty]
      cases hk : s.store.lookup k with
      | none => rfl
      | some st => exact absurd ⟨k, h.queued k st hk⟩ hdirty
    refine Or.inr ?_
    rw [h.idle]
    refine ⟨[], ⟨[], ?_, rfl⟩, ?_⟩
    · rw [hempty]
      rfl
    · rw [h.published]
      exact rebuilds_nil

theorem mem_dirty_changed (s : Control κ ω ρ) (k : κ) (o : Option ω) (j : κ) :
    j ∈ (s.changed k o).queue.dirty ↔ j = k ∨ j ∈ s.queue.dirty :=
  s.queue.mem_dirty_add k j

theorem mem_dirty_failed (s : Control κ ω ρ) (k : κ) (task : Task ω ρ)
    (hphase : s.phase = .busy k task) (j : κ) :
    j ∈ (s.failed k task hphase).queue.dirty ↔ j = k ∨ j ∈ s.queue.dirty := by
  unfold Control.failed
  rw [WorkQueue.dirty_done, WorkQueue.mem_dirty_add]

/-- A pass that fails leaves its key dirty. -/
theorem publishInv_failed (s : Control κ ω ρ) (k : κ) (task : Task ω ρ)
    (hphase : s.phase = .busy k task) : PublishInv R env (s.failed k task hphase) :=
  Or.inl ⟨k, (mem_dirty_failed s k task hphase k).mpr (Or.inl rfl)⟩

/-- A worker that has looked up one more object is up to date, if that is what a
    lookup finds or a later pass is due. -/
theorem publishInv_built (s : Control κ ω ρ) (k : κ) (o : ω) (todo : List ω) (rules : List ρ)
    (hphase : s.phase = .busy k (.build (o :: todo) rules)) (v : ν) (hs : PublishInv R env s)
    (hv : s.queue.dirty.Nonempty ∨ R.Finds env o v) :
    PublishInv R env (s.proceed k (.build (o :: todo) rules) hphase
      (.build todo (rules ++ R.rules o v))) := by
  rcases hs with hdirty | hupto
  · exact Or.inl hdirty
  · rcases hv with hdirty | hfinds
    · exact Or.inl hdirty
    · rw [hphase] at hupto
      rcases hupto with ⟨built, hlisted, hbuilt⟩
      refine Or.inr ⟨built ++ [o], ?_, rebuilds_snoc built rules hbuilt o v hfinds⟩
      rw [List.append_assoc]
      exact hlisted

/-- Every step keeps what is published, or about to be, up to date. -/
theorem publishInv_step (s : Control κ ω ρ) (e : ControlEvent κ ω ν) (s' : Control κ ω ρ)
    (hs : PublishInv R env s) (hsafe : FailsSafely R env s e) (hstep : Control.Step R env s e s') :
    PublishInv R env s' := by
  cases hstep with
  | change k o hkey hdelete =>
      exact Or.inl ⟨k, (mem_dirty_changed s k o k).mpr (Or.inl rfl)⟩
  | start hidle k rest hqueue => exact Or.inr trivial
  | getFound k hphase read hread => exact Or.inr trivial
  | getNotFound k hphase hread => exact Or.inr trivial
  | getFailed k hphase => exact publishInv_failed s k _ hphase
  | find k read hphase v hfinds obj hsettles => exact Or.inr trivial
  | findFailed k read hphase obj hsettles => exact Or.inr trivial
  | updateSame k version obj hphase current hcurrent hversion hsame => exact Or.inr trivial
  | updateChanged k version obj hphase current hcurrent hversion hchanged =>
      exact Or.inr trivial
  | updateFailed k version obj hphase => exact publishInv_failed s k _ hphase
  | list k hphase items hitems =>
      -- Nothing is built yet, and what is to do is the whole store.
      exact Or.inr ⟨[], ⟨items, hitems, rfl⟩, rebuilds_nil⟩
  | listFailed k hphase => exact publishInv_failed s k _ hphase
  | build k o todo rules hphase v hfinds =>
      exact publishInv_built s k o todo rules hphase v hs (Or.inr hfinds)
  | buildFailed k o todo rules hphase =>
      exact publishInv_built s k o todo rules hphase _ hs (hsafe k o todo rules hphase)
  | publish k rules hphase =>
      rcases hs with hdirty | hupto
      · exact Or.inl hdirty
      · rw [hphase] at hupto
        rcases hupto with ⟨built, hlisted, hbuilt⟩
        rw [List.append_nil] at hlisted
        exact Or.inr ⟨built, hlisted, hbuilt⟩

/-- A key whose lookup is still to come: it is dirty, or the worker has it and
    has not looked anything up for it. -/
def Control.Pending (s : Control κ ω ρ) (k : κ) : Prop :=
  k ∈ s.queue.dirty ∨ s.phase = .busy k .get ∨ ∃ read, s.phase = .busy k (.find read)

/-- Lookups for every stored object find the same in two places, unless its key
    is pending. -/
def SameLookups (R : Reconciler κ ω χ ν ρ) (env env' : χ) (s : Control κ ω ρ) : Prop :=
  ∀ k st, s.store.lookup k = some st → ¬s.Pending k →
    ∀ v, R.Finds env st.obj v ↔ R.Finds env' st.obj v

/-- A key is not pending if it is not dirty and the worker is elsewhere, or past
    its lookup. -/
theorem not_pending (s : Control κ ω ρ) (k : κ) (p : Phase κ ω ρ) (hphase : s.phase = p)
    (hclean : k ∉ s.queue.dirty) (hget : p ≠ .busy k .get)
    (hfind : ∀ read, p ≠ .busy k (.find read)) : ¬s.Pending k := by
  intro hpending
  rcases hpending with hdirty | hphase' | ⟨read, hphase'⟩
  · exact hclean hdirty
  · exact hget (hphase.symm.trans hphase')
  · exact hfind read (hphase.symm.trans hphase')

/-- A change of the surroundings that alters lookups for pending keys only keeps
    everything up to date. -/
theorem publishInv_env (env' : χ) (s : Control κ ω ρ) (hsame : SameLookups R env env' s)
    (hs : PublishInv R env s) : PublishInv R env' s := by
  rcases hs with hdirty | hupto
  · exact Or.inl hdirty
  · by_cases hdirty : s.queue.dirty.Nonempty
    · exact Or.inl hdirty
    · refine Or.inr ?_
      have hclean : ∀ k, k ∉ s.queue.dirty := fun k hk => hdirty ⟨k, hk⟩
      -- Idle or building, the worker has nothing pending, and all listed objects
      -- are stored.
      have hlookups : ∀ objs, Listed s objs → (∀ k, ¬s.Pending k) → ∀ o ∈ objs, ∀ v,
          R.Finds env o v ↔ R.Finds env' o v := by
        intro objs hlisted hpending o ho v
        rcases stored_of_listed s objs hlisted o ho with ⟨k, st, hk, rfl⟩
        exact hsame k st hk (hpending k) v
      cases hphase : s.phase with
      | idle =>
          rw [hphase] at hupto
          rcases hupto with ⟨objs, hlisted, hbuilt⟩
          refine ⟨objs, hlisted, rebuilds_congr env' objs _ ?_ hbuilt⟩
          exact hlookups objs hlisted fun k => not_pending s k _ hphase (hclean k) nofun nofun
      | busy k task =>
          cases task with
          | get => trivial
          | find read => trivial
          | update version obj => trivial
          | list => trivial
          | build todo rules =>
              rw [hphase] at hupto
              rcases hupto with ⟨built, hlisted, hbuilt⟩
              refine ⟨built, hlisted, rebuilds_congr env' built _ ?_ hbuilt⟩
              intro o ho
              exact hlookups _ hlisted
                (fun j => not_pending s j _ hphase (hclean j) nofun nofun) o
                (List.mem_append_left todo ho)

/-- The worker has the key and has not written its status. -/
def Phase.Settling (k : κ) : Phase κ ω ρ → Prop
  | .busy j .get => j = k
  | .busy j (.find _) => j = k
  | .busy j (.update _ _) => j = k
  | _ => False

/-- An object's status shows something a lookup finds. -/
def Shown (R : Reconciler κ ω χ ν ρ) (env : χ) (Shows : ω → ν → Prop) (o : ω) : Prop :=
  ∃ v, R.Finds env o v ∧ Shows o v

/-- What the worker holds belongs to the object stored, if that still has the
    version that was read. -/
def Held (R : Reconciler κ ω χ ν ρ) (env : χ) (s : Control κ ω ρ) : Phase κ ω ρ → Prop
  | .busy k (.find read) =>
    read.version < s.version ∧
      ∀ current, s.store.lookup k = some current → current.version = read.version →
        current = read
  | .busy k (.update version obj) =>
    version < s.version ∧
      ∀ current, s.store.lookup k = some current → current.version = version →
        ∃ v, R.Settles v current.obj obj ∧ (k ∈ s.queue.dirty ∨ R.Finds env current.obj v)
  | _ => True

/-- Every status is shown, or the worker will see to it. -/
structure StatusInv (R : Reconciler κ ω χ ν ρ) (env : χ) (Shows : ω → ν → Prop)
    (s : Control κ ω ρ) : Prop where
  versions : ∀ k st, s.store.lookup k = some st → st.version < s.version
  shown : ∀ k st, s.store.lookup k = some st →
    k ∈ s.queue.dirty ∨ s.phase.Settling k ∨ Shown R env Shows st.obj
  held : Held R env s s.phase

variable {Shows : ω → ν → Prop}

theorem statusInv_init (s : Control κ ω ρ) (h : s.Initial R) : StatusInv R env Shows s := by
  refine ⟨h.versions, fun k st hk => Or.inl (h.queued k st hk), ?_⟩
  rw [h.idle]
  trivial

/-- What is found after a change is the new object, or was there before. -/
theorem lookup_changed (s : Control κ ω ρ) (k : κ) (o : Option ω) (j : κ) (st : Stored ω)
    (h : (s.changed k o).store.lookup j = some st) :
    (j = k ∧ st.version = s.version) ∨ (j ≠ k ∧ s.store.lookup j = some st) := by
  cases o with
  | some obj =>
      by_cases hj : j = k
      · refine Or.inl ⟨hj, ?_⟩
        rw [hj] at h
        have hst := (Finmap.lookup_insert s.store).symm.trans h
        rw [← Option.some.inj hst]
      · exact Or.inr ⟨hj, (Finmap.lookup_insert_of_ne s.store hj).symm.trans h⟩
  | none =>
      by_cases hj : j = k
      · rw [hj] at h
        exact absurd ((Finmap.lookup_erase k s.store).symm.trans h) (by simp only [reduceCtorEq,
          not_false_eq_true])
      · exact Or.inr ⟨hj, (Finmap.lookup_erase_ne hj).symm.trans h⟩

theorem versions_changed (s : Control κ ω ρ) (k : κ) (o : Option ω)
    (h : ∀ j st, s.store.lookup j = some st → st.version < s.version) (j : κ) (st : Stored ω)
    (hj : (s.changed k o).store.lookup j = some st) : st.version < (s.changed k o).version := by
  have hversion : (s.changed k o).version = s.version + 1 := rfl
  rcases lookup_changed s k o j st hj with ⟨_, hst⟩ | ⟨_, hst⟩
  · omega
  · have hold := h j st hst
    omega

/-- A change gives a new version, so what the worker holds of a changed object
    is out of date. -/
theorem held_changed (s : Control κ ω ρ) (k : κ) (o : Option ω) (p : Phase κ ω ρ)
    (h : Held R env s p) : Held R env (s.changed k o) p := by
  have hversion : (s.changed k o).version = s.version + 1 := rfl
  cases p with
  | idle => trivial
  | busy j task =>
      cases task with
      | get => trivial
      | list => trivial
      | build todo rules => trivial
      | find read =>
          rcases h with ⟨hold, hread⟩
          refine ⟨by omega, fun current hcurrent hsame => ?_⟩
          rcases lookup_changed s k o j current hcurrent with ⟨_, hnew⟩ | ⟨_, hcurrent⟩
          · omega
          · exact hread current hcurrent hsame
      | update version obj =>
          rcases h with ⟨hold, hobj⟩
          refine ⟨by omega, fun current hcurrent hsame => ?_⟩
          rcases lookup_changed s k o j current hcurrent with ⟨_, hnew⟩ | ⟨_, hcurrent⟩
          · omega
          · rcases hobj current hcurrent hsame with ⟨v, hsettles, hfound⟩
            refine ⟨v, hsettles, hfound.imp (fun hdirty => ?_) fun hfinds => hfinds⟩
            exact (mem_dirty_changed s k o j).mpr (Or.inr hdirty)

/-- A step keeps statuses shown if it leaves objects alone whose key does not
    become dirty, and drops no key that is dirty or being settled. -/
theorem shown_step (s s' : Control κ ω ρ)
    (hs : ∀ k st, s.store.lookup k = some st →
      k ∈ s.queue.dirty ∨ s.phase.Settling k ∨ Shown R env Shows st.obj)
    (hstore : ∀ k st, s'.store.lookup k = some st →
      k ∈ s'.queue.dirty ∨ s.store.lookup k = some st)
    (hdirty : ∀ k, k ∈ s.queue.dirty → k ∈ s'.queue.dirty ∨ s'.phase.Settling k)
    (hsettling : ∀ k st, s.store.lookup k = some st → s.phase.Settling k →
      k ∈ s'.queue.dirty ∨ s'.phase.Settling k ∨ Shown R env Shows st.obj)
    (k : κ) (st : Stored ω) (hk : s'.store.lookup k = some st) :
    k ∈ s'.queue.dirty ∨ s'.phase.Settling k ∨ Shown R env Shows st.obj := by
  rcases hstore k st hk with h | hk
  · exact Or.inl h
  · rcases hs k st hk with h | h | h
    · rcases hdirty k h with h | h
      · exact Or.inl h
      · exact Or.inr (Or.inl h)
    · exact hsettling k st hk h
    · exact Or.inr (Or.inr h)

/-- A change makes its key dirty and leaves the others alone. -/
theorem statusInv_changed (s : Control κ ω ρ) (k : κ) (o : Option ω)
    (hs : StatusInv R env Shows s) : StatusInv R env Shows (s.changed k o) := by
  refine ⟨versions_changed s k o hs.versions, ?_, held_changed s k o s.phase hs.held⟩
  refine shown_step s _ hs.shown ?_ ?_ ?_
  · intro j st hj
    rcases lookup_changed s k o j st hj with ⟨hjk, _⟩ | ⟨_, hj⟩
    · exact Or.inl ((mem_dirty_changed s k o j).mpr (Or.inl hjk))
    · exact Or.inr hj
  · intro j hj
    exact Or.inl ((mem_dirty_changed s k o j).mpr (Or.inr hj))
  · intro j st _ hsettling
    exact Or.inr (Or.inl hsettling)

/-- A pass that fails has its key added again. -/
theorem statusInv_failed (s : Control κ ω ρ) (k : κ) (task : Task ω ρ)
    (hphase : s.phase = .busy k task) (hs : StatusInv R env Shows s) :
    StatusInv R env Shows (s.failed k task hphase) := by
  refine ⟨hs.versions, ?_, trivial⟩
  refine shown_step s _ hs.shown (fun j st hj => Or.inr hj) ?_ ?_
  · intro j hj
    exact Or.inl ((mem_dirty_failed s k task hphase j).mpr (Or.inr hj))
  · intro j st _ hsettling
    rw [hphase] at hsettling
    refine Or.inl ((mem_dirty_failed s k task hphase j).mpr (Or.inl ?_))
    cases task with
    | get => exact hsettling.symm
    | find read => exact hsettling.symm
    | update version obj => exact hsettling.symm
    | list => exact hsettling.elim
    | build todo rules => exact hsettling.elim

/-- A worker that goes on keeps statuses shown if it still has the key to settle,
    or the status of the key it had is as it should be. -/
theorem shown_proceed (s : Control κ ω ρ) (k : κ) (task next : Task ω ρ)
    (hphase : s.phase = .busy k task) (hs : StatusInv R env Shows s)
    (hnext : ∀ j st, s.store.lookup j = some st → (Phase.busy k task).Settling j →
      j ∈ s.queue.dirty ∨ (Phase.busy k next).Settling j ∨ Shown R env Shows st.obj) (j : κ)
    (st : Stored ω) (hj : (s.proceed k task hphase next).store.lookup j = some st) :
    j ∈ (s.proceed k task hphase next).queue.dirty ∨
      (s.proceed k task hphase next).phase.Settling j ∨ Shown R env Shows st.obj := by
  refine shown_step s (s.proceed k task hphase next) hs.shown (fun _ _ h => Or.inr h)
    (fun _ h => Or.inl h) ?_ j st hj
  intro i st' hi hsettling
  rw [hphase] at hsettling
  exact hnext i st' hi hsettling

/-- What the worker has settled belongs to what it read, if that is what a lookup
    finds or a later pass is due. -/
theorem statusInv_found (s : Control κ ω ρ) (k : κ) (read : Stored ω)
    (hphase : s.phase = .busy k (.find read)) (v : ν) (obj : ω)
    (hsettles : R.Settles v read.obj obj) (hs : StatusInv R env Shows s)
    (hv : k ∈ s.queue.dirty ∨ R.Finds env read.obj v) :
    StatusInv R env Shows (s.proceed k (.find read) hphase (.update read.version obj)) := by
  have hheld := hs.held
  rw [hphase] at hheld
  refine ⟨hs.versions, ?_, hheld.1, ?_⟩
  · exact shown_proceed s k _ _ hphase hs fun j st _ h => Or.inr (Or.inl h)
  · intro current hcurrent hsame
    rw [hheld.2 current hcurrent hsame]
    exact ⟨v, hsettles, hv⟩

/-- Every step keeps every status shown or seen to. -/
theorem statusInv_step (hshows : ∀ v o o', R.Settles v o o' → Shows o' v) (s : Control κ ω ρ)
    (e : ControlEvent κ ω ν) (s' : Control κ ω ρ) (hs : StatusInv R env Shows s)
    (hsafe : FailsSafely R env s e) (hstep : Control.Step R env s e s') :
    StatusInv R env Shows s' := by
  cases hstep with
  | change k o hkey hdelete => exact statusInv_changed s k o hs
  | start hidle k rest hqueue =>
      refine ⟨hs.versions, ?_, trivial⟩
      refine shown_step s _ hs.shown (fun j st hj => Or.inr hj) ?_ ?_
      · intro j hj
        by_cases hjk : k = j
        · exact Or.inr hjk
        · exact Or.inl ((s.queue.mem_dirty_take k rest hqueue j).mpr ⟨fun h => hjk h.symm, hj⟩)
      · intro j st _ hsettling
        rw [hidle] at hsettling
        exact hsettling.elim
  | getFound k hphase read hread =>
      refine ⟨hs.versions, ?_, hs.versions k read hread, ?_⟩
      · exact shown_proceed s k _ _ hphase hs fun j st _ h => Or.inr (Or.inl h)
      · intro current hcurrent _
        exact Option.some.inj (hcurrent.symm.trans hread)
  | getNotFound k hphase hread =>
      refine ⟨hs.versions, ?_, trivial⟩
      refine shown_proceed s k _ _ hphase hs fun j st hj hsettling => ?_
      -- There is no status to write.
      have hkj : k = j := hsettling
      rw [← hkj, hread] at hj
      cases hj
  | getFailed k hphase => exact statusInv_failed s k _ hphase hs
  | find k read hphase v hfinds obj hsettles =>
      exact statusInv_found s k read hphase v obj hsettles hs (Or.inr hfinds)
  | findFailed k read hphase obj hsettles =>
      exact statusInv_found s k read hphase _ obj hsettles hs (hsafe k read hphase)
  | updateSame k version obj hphase current hcurrent hversion hsame =>
      have hheld := hs.held
      rw [hphase] at hheld
      refine ⟨hs.versions, ?_, trivial⟩
      refine shown_proceed s k _ _ hphase hs fun j st hj hsettling => ?_
      have hkj : k = j := hsettling
      rw [← hkj] at hj ⊢
      rw [← Option.some.inj (hcurrent.symm.trans hj)]
      rcases hheld.2 current hcurrent hversion with ⟨v, hsettles, hfound⟩
      rw [hsame] at hsettles
      exact hfound.imp (fun h => h) fun h => Or.inr ⟨v, h, hshows v _ _ hsettles⟩
  | updateChanged k version obj hphase current hcurrent hversion hchanged =>
      -- The write is a change like any other, so the key is due again.
      have hs' := statusInv_changed s k (some obj) hs
      refine ⟨hs'.versions, ?_, trivial⟩
      refine shown_proceed (s.changed k (some obj)) k _ _ hphase hs' fun j st _ hsettling => ?_
      exact Or.inl ((mem_dirty_changed s k (some obj) j).mpr (Or.inl (Eq.symm hsettling)))
  | updateFailed k version obj hphase => exact statusInv_failed s k _ hphase hs
  | list k hphase items hitems =>
      exact ⟨hs.versions, shown_proceed s k _ _ hphase hs fun j st _ h => h.elim, trivial⟩
  | listFailed k hphase => exact statusInv_failed s k _ hphase hs
  | build k o todo rules hphase v hfinds =>
      exact ⟨hs.versions, shown_proceed s k _ _ hphase hs fun j st _ h => h.elim, trivial⟩
  | buildFailed k o todo rules hphase =>
      exact ⟨hs.versions, shown_proceed s k _ _ hphase hs fun j st _ h => h.elim, trivial⟩
  | publish k rules hphase =>
      refine ⟨hs.versions, ?_, trivial⟩
      refine shown_step s _ hs.shown (fun j st hj => Or.inr hj) (fun j hj => Or.inl hj) ?_
      intro j st _ hsettling
      rw [hphase] at hsettling
      exact hsettling.elim

/-- A change of the surroundings that alters lookups for pending keys only keeps
    every status shown or seen to. -/
theorem statusInv_env (env' : χ) (s : Control κ ω ρ) (hsame : SameLookups R env env' s)
    (hs : StatusInv R env Shows s) : StatusInv R env' Shows s := by
  refine ⟨hs.versions, ?_, ?_⟩
  · intro k st hk
    rcases hs.shown k st hk with h | h | h
    · exact Or.inl h
    · exact Or.inr (Or.inl h)
    · -- A lookup that is still to come will see the new surroundings anyway.
      by_cases hpending : s.Pending k
      · rcases hpending with hd | hget | ⟨read, hfind⟩
        · exact Or.inl hd
        · rw [hget]
          exact Or.inr (Or.inl rfl)
        · rw [hfind]
          exact Or.inr (Or.inl rfl)
      · rcases h with ⟨v, hfinds, hshow⟩
        exact Or.inr (Or.inr ⟨v, (hsame k st hk hpending v).mp hfinds, hshow⟩)
  · have hheld := hs.held
    cases hphase : s.phase with
    | idle => trivial
    | busy k task =>
        rw [hphase] at hheld
        cases task with
        | get => trivial
        | list => trivial
        | build todo rules => trivial
        | find read => exact hheld
        | update version obj =>
            refine ⟨hheld.1, fun current hcurrent hversion => ?_⟩
            rcases hheld.2 current hcurrent hversion with ⟨v, hsettles, hfound⟩
            refine ⟨v, hsettles, ?_⟩
            by_cases hd : k ∈ s.queue.dirty
            · exact Or.inl hd
            · -- The lookup for this key is over.
              have hpending : ¬s.Pending k := not_pending s k _ hphase hd nofun nofun
              exact Or.inr ((hsame k current hcurrent hpending v).mp (hfound.resolve_left hd))

/-- Quiet with everything up to date, the rules published are made from the
    objects stored. -/
theorem published_of_quiet (s : Control κ ω ρ) (hs : PublishInv R env s) (hquiet : s.Quiet) :
    ∃ objs, Listed s objs ∧ Rebuilds R env objs s.published := by
  rcases hs with hdirty | hupto
  · rw [dirty_of_quiet s hquiet] at hdirty
    exact absurd hdirty Finset.not_nonempty_empty
  · rw [hquiet.idle] at hupto
    exact hupto

/-- Quiet with every status seen to, every status is shown. -/
theorem shown_of_quiet (s : Control κ ω ρ) (hs : StatusInv R env Shows s) (hquiet : s.Quiet)
    (k : κ) (st : Stored ω) (hk : s.store.lookup k = some st) : Shown R env Shows st.obj := by
  rcases hs.shown k st hk with h | h | h
  · rw [dirty_of_quiet s hquiet] at h
    exact absurd h (Finset.notMem_empty k)
  · rw [hquiet.idle] at h
    exact h.elim
  · exact h

/-- A step of the worker in which no lookup fails unsafely. -/
def Works (R : Reconciler κ ω χ ν ρ) (env : χ) (s s' : Control κ ω ρ) : Prop :=
  ∃ e, (∀ k o, e ≠ .change k o) ∧ FailsSafely R env s e ∧ Control.Step R env s e s'

/-- The end of a pass that has nothing else to do: the rules that are left are made and
    published. -/
theorem exists_published (R : Reconciler κ ω χ ν ρ) (env : χ) (look : ω → ν) (k : κ)
    (todo : List ω) (hfinds : ∀ o ∈ todo, R.Finds env o (look o)) (s : Control κ ω ρ)
    (rules : List ρ) (hphase : s.phase = .busy k (.build todo rules)) (hqueue : s.queue.queue = [])
    (hclean : k ∉ s.queue.dirty) :
    ∃ s', Relation.ReflTransGen (Works R env) s s' ∧ s'.Quiet ∧ s'.store = s.store ∧
      s'.published = rules ++ todo.flatMap fun o => R.rules o (look o) := by
  induction todo generalizing s rules with
  | nil =>
      have hworks : Works R env s (s.finished k (.build [] rules) hphase rules) :=
        ⟨.publish, nofun, trivial, .publish s k rules hphase⟩
      refine ⟨_, Relation.ReflTransGen.single hworks, ⟨?_, rfl⟩, rfl, (List.append_nil _).symm⟩
      exact (if_neg hclean).trans hqueue
  | cons o todo ih =>
      let s1 := s.proceed k (.build (o :: todo) rules) hphase
        (.build todo (rules ++ R.rules o (look o)))
      have hworks : Works R env s s1 :=
        ⟨.build (some (look o)), nofun, trivial,
          .build s k o todo rules hphase _ (hfinds o List.mem_cons_self)⟩
      rcases ih (fun o' ho' => hfinds o' (List.mem_cons_of_mem _ ho')) s1 _ rfl hqueue hclean with
        ⟨s', hruns, hquiet, hstore, hpublished⟩
      refine ⟨s', Relation.ReflTransGen.head hworks hruns, hquiet, hstore, ?_⟩
      rw [hpublished, List.flatMap_cons, List.append_assoc]

/-- A pass over the only key queued, if the status of its object is as it should be. -/
theorem exists_pass (R : Reconciler κ ω χ ν ρ) (env : χ) (look : ω → ν) (s : Control κ ω ρ)
    (k : κ) (st : Stored ω) (items : List (Stored ω)) (hidle : s.phase = .idle)
    (hqueue : s.queue.queue = [k]) (hk : s.store.lookup k = some st)
    (hitems : Ranges s.store items) (hfinds : ∀ o ∈ items.map Stored.obj, R.Finds env o (look o))
    (hsettles : R.Settles (look st.obj) st.obj st.obj) :
    ∃ s', Relation.ReflTransGen (Works R env) s s' ∧ s'.Quiet ∧ s'.store = s.store ∧
      s'.published = (items.map Stored.obj).flatMap fun o => R.rules o (look o) := by
  have hst : st.obj ∈ items.map Stored.obj :=
    List.mem_map_of_mem ((mem_of_ranges hitems st).mpr ⟨k, hk⟩)
  -- The phases of the pass up to its listing, none of which changes the object.
  let s1 := s.started hidle k [] hqueue
  let s2 := s1.proceed k .get rfl (.find st)
  let s3 := s2.proceed k (.find st) rfl (.update st.version st.obj)
  let s4 := s3.proceed k (.update st.version st.obj) rfl .list
  let s5 := s4.proceed k .list rfl (.build (items.map Stored.obj) [])
  have h1 : Works R env s s1 := ⟨.start, nofun, trivial, .start s hidle k [] hqueue⟩
  have h2 : Works R env s1 s2 := ⟨.get true, nofun, trivial, .getFound s1 k rfl st hk⟩
  have h3 : Works R env s2 s3 :=
    ⟨.find (some (look st.obj)) st.obj, nofun, trivial,
      .find s2 k st rfl _ (hfinds st.obj hst) st.obj hsettles⟩
  have h4 : Works R env s3 s4 :=
    ⟨.update true, nofun, trivial, .updateSame s3 k st.version st.obj rfl st hk rfl rfl⟩
  have h5 : Works R env s4 s5 := ⟨.list (some items), nofun, trivial, .list s4 k rfl items hitems⟩
  -- Taken once and not added since, the key is not dirty.
  have hclean : k ∉ s5.queue.dirty := fun h =>
    ((s.queue.mem_dirty_take k [] hqueue k).mp h).1 rfl
  rcases exists_published R env look k _ hfinds s5 [] rfl rfl hclean with
    ⟨s', hruns, hquiet, hstore, hpublished⟩
  have hhead := ((Relation.ReflTransGen.single h1).tail h2).tail h3
  exact ⟨s', ((hhead.tail h4).tail h5).trans hruns, hquiet, hstore, hpublished⟩

/-- A change makes its key the only one queued if everything was done. -/
theorem queue_changed (s : Control κ ω ρ) (hquiet : s.Quiet) (k : κ) (o : Option ω) :
    (s.changed k o).queue.queue = [k] := by
  have hworking := s.working
  rw [hquiet.idle] at hworking
  have hadd := s.queue.queue_add k (by rw [dirty_of_quiet s hquiet]; exact Finset.notMem_empty _)
    (by rw [hworking]; exact Finset.notMem_empty _)
  rw [hquiet.queue] at hadd
  exact hadd

/-- A controller that has just started on one stored object. -/
def oneStored (k : κ) (obj : ω) : Control κ ω ρ where
  store := Finmap.singleton k { obj := obj, version := 0 }
  version := 1
  queue := WorkQueue.ofKeys [k]
  phase := .idle
  published := []
  working := WorkQueue.processing_ofKeys [k]

theorem oneStored_initial (R : Reconciler κ ω χ ν ρ) (k : κ)
    (obj : ω) : (oneStored k obj : Control κ ω ρ).Initial R := by
  have hkey : ∀ j st, (oneStored k obj : Control κ ω ρ).store.lookup j = some st →
      j = k ∧ st.version = 0 := by
    intro j st h
    have hmem := Multiset.mem_singleton.mp (Finmap.lookup_eq_some_iff.mp h)
    cases hmem
    exact ⟨rfl, rfl⟩
  refine ⟨rfl, rfl, ?_, ?_⟩
  · intro j st h
    rw [(hkey j st h).1]
    exact (WorkQueue.mem_dirty_ofKeys [k] k).mpr (List.mem_singleton_self k)
  · intro j st h
    rw [(hkey j st h).2]
    exact Nat.zero_lt_one

/-- A reconciler that has just started on one settled object becomes quiet. -/
theorem exists_quiet (R : Reconciler κ ω χ ν ρ) (env : χ)
    (k : κ) (obj : ω) (v : ν) (hfinds : R.Finds env obj v) (hsettles : R.Settles v obj obj) :
    ∃ s, Relation.ReflTransGen (Works R env) (oneStored k obj) s ∧ s.Quiet ∧
      s.store = Finmap.singleton k { obj := obj, version := 0 } ∧
      s.published = R.rules obj v := by
  have hqueue : (oneStored k obj : Control κ ω ρ).queue.queue = [k] :=
    WorkQueue.queue_add WorkQueue.empty k (Finset.notMem_empty k) (Finset.notMem_empty k)
  rcases exists_pass R env (fun _ => v) (oneStored k obj) k { obj := obj, version := 0 }
    [{ obj := obj, version := 0 }] rfl hqueue Finmap.lookup_singleton_eq
    ((ranges_singleton _ _ _).mpr rfl)
    (fun o ho => List.mem_singleton.mp ho ▸ hfinds) hsettles with
    ⟨s, hruns, hquiet, hstore, hpublished⟩
  exact ⟨s, hruns, hquiet, hstore, hpublished.trans (List.append_nil _)⟩

/-- The worker goes on while nothing else happens. -/
theorem reachable_works (R : Reconciler κ ω χ ν ρ) (env : χ)
    (s s' : Control κ ω ρ) (hr : (reconciling R env).Reachable s)
    (hruns : Relation.ReflTransGen (Works R env) s s') : (reconciling R env).Reachable s' := by
  induction hruns with
  | refl => exact hr
  | tail _ hworks ih =>
      rcases hworks with ⟨e, _, _, hstep⟩
      exact ih.next e _ hstep

/-- A reconciler that is done with one object, and then with another one that a user adds. -/
theorem exists_quiet_two (R : Reconciler κ ω χ ν ρ) (env : χ) (look : ω → ν) (obj obj' : ω)
    (hne : R.key obj' ≠ R.key obj) (hfinds : ∀ o ∈ [obj', obj], R.Finds env o (look o))
    (hsettles : ∀ o ∈ [obj', obj], R.Settles (look o) o o) :
    ∃ s, (reconciling R env).Reachable s ∧ s.Quiet ∧
      s.published = R.rules obj' (look obj') ++ R.rules obj (look obj) := by
  rcases exists_quiet R env (R.key obj) obj (look obj) (hfinds obj (by simp))
    (hsettles obj (by simp)) with ⟨s, hruns, hquiet, hstore, _⟩
  have hr : (reconciling R env).Reachable s :=
    reachable_works R env _ s (System.Reachable.init _ (oneStored_initial R _ _)) hruns
  let added : Stored ω := { obj := obj', version := s.version }
  let s' := s.changed (R.key obj') (some obj')
  have hr' : (reconciling R env).Reachable s' :=
    hr.next (.change (R.key obj') (some obj')) s'
      (.change s _ _ (fun o ho => Option.some.inj ho ▸ rfl) nofun)
  have hfresh : R.key obj' ∉ s.store := by
    rw [hstore, Finmap.mem_singleton]
    exact hne
  have hitems : Ranges s'.store [added, { obj := obj, version := 0 }] := by
    have hentries : s'.store.entries = ⟨R.key obj', added⟩ ::ₘ s.store.entries :=
      Finmap.entries_insert_of_notMem hfresh
    unfold Ranges
    rw [hentries, hstore]
    rfl
  rcases exists_pass R env look s' (R.key obj') added _ hquiet.idle
    (queue_changed s hquiet _ _) (Finmap.lookup_insert s.store) hitems hfinds
    (hsettles obj' (by simp)) with ⟨s'', hruns', hquiet', _, hpublished⟩
  refine ⟨s'', reachable_works R env s' s'' hr' hruns', hquiet', ?_⟩
  rw [hpublished]
  simp [added]

end Generic

end Kontxt
