import Kontxt.Core.Controller
import Kontxt.Lib.WorkQueue

/-!
# Reconciling

A reconciler at work. The cluster's objects of one kind are in a store, each
with a version that counts up with every change. A change enqueues the object's
key, and a single worker takes keys from the queue and reconciles them: it gets
the object, looks up what the object depends on, writes the status, lists all
objects of the kind, turns them into rules one by one and publishes the rules.
Each of these is a step of its own, with any changes in between, and each may
fail. A failure ends the pass and enqueues the key again; only a lookup that
fails is ignored, and counts as having found nothing. A status that is written
goes through only if the object's version is still the one that was read, and
is itself a change, unless it was there already.

The three reconcilers differ in what they look up, what status they write and
what rules they make. `Reconciler` holds those differences. Requirements and
policies depend on nothing else, so their lookups find the one thing there is.

## Main definitions

* `Reconciler`: What the reconcilers differ in.
* `Stored`: An object with its version.
* `Task`: What the worker is about to do.
* `Control`: The store, the queue, the worker and the rules last published.
* `Control.Step`: What can happen next.
* `requirementReconciler`, `policyReconciler`, `transactionTypeReconciler`: The
  reconcilers.
* `Cluster`: Transaction types and policies together.
-/

namespace Kontxt

open Go Lib

/-- What the reconcilers differ in, for objects `ω` with keys `κ` and rules `ρ`:
    in surroundings `χ` a lookup for an object may find a `ν`; a failed one
    counts as `missed`. Found and object decide the status that is written,
    and the rules. -/
structure Reconciler (κ ω χ ν ρ : Type) where
  key : ω → κ
  Finds : χ → ω → ν → Prop
  missed : ω → ν
  Settles : ν → ω → ω → Prop
  rules : ω → ν → List ρ

/-- An object with its resource version. -/
structure Stored (ω : Type) where
  obj : ω
  version : Nat

/-- What a worker that has a key is about to do. -/
inductive Task (ω ρ : Type) where
  | get
  | find (read : Stored ω)
  | update (version : Nat) (obj : ω)
  | list
  | build (todo : List ω) (rules : List ρ)

/-- The worker has no key, or has one and a task. -/
inductive Phase (κ ω ρ : Type) where
  | idle
  | busy (k : κ) (task : Task ω ρ)

/-- The keys the worker has. -/
def Phase.working {κ ω ρ : Type} [DecidableEq κ] : Phase κ ω ρ → Finset κ
  | .idle => ∅
  | .busy k _ => {k}

/-- The store of one kind with the next version, the queue, the worker, and the
    rules last published. The queue knows which key the worker has. -/
structure Control (κ ω ρ : Type) [DecidableEq κ] where
  store : GoMap κ (Stored ω)
  version : Nat
  queue : WorkQueue κ
  phase : Phase κ ω ρ
  published : List ρ
  working : queue.processing = phase.working

/-- What can happen. A lookup or a listing that fails gives nothing, and what
    the worker would write comes with the event, since it depends on the clock
    and on the order of a map. -/
inductive ControlEvent (κ ω ν : Type) where
  | change (k : κ) (o : Option ω)
  | start
  | get (ok : Bool)
  | find (found : Option ν) (obj : ω)
  | update (ok : Bool)
  | list (listed : Option (List (Stored ω)))
  | build (found : Option ν)
  | publish

namespace Control

variable {κ ω χ ν ρ : Type} [DecidableEq κ]

/-- An object is created, updated or deleted. -/
def changed (s : Control κ ω ρ) (k : κ) (o : Option ω) : Control κ ω ρ :=
  { s with
    store :=
      match o with
      | some obj => s.store.insert k { obj := obj, version := s.version }
      | none => s.store.erase k
    version := s.version + 1
    queue := s.queue.add k
    working := by
      rw [WorkQueue.processing_add]
      exact s.working }

/-- The worker takes the first key. -/
def started (s : Control κ ω ρ) (hidle : s.phase = .idle) (k : κ) (rest : List κ)
    (hqueue : s.queue.queue = k :: rest) : Control κ ω ρ :=
  { s with
    queue := s.queue.take k rest hqueue
    phase := .busy k .get
    working := by
      have hworking := s.working
      rw [hidle] at hworking
      unfold WorkQueue.take
      simp only [hworking, Phase.working, insert_empty_eq] }

/-- The worker goes on to its next task. -/
def proceed (s : Control κ ω ρ) (k : κ) (task : Task ω ρ) (hphase : s.phase = .busy k task)
    (next : Task ω ρ) : Control κ ω ρ :=
  { s with
    phase := .busy k next
    working := by
      rw [s.working, hphase]
      rfl }

theorem mem_processing (s : Control κ ω ρ) (k : κ) (task : Task ω ρ)
    (hphase : s.phase = .busy k task) : k ∈ s.queue.processing := by
  rw [s.working, hphase]
  exact Finset.mem_singleton_self k

/-- `Reconcile` returns an error: the key is added again. -/
def failed (s : Control κ ω ρ) (k : κ) (task : Task ω ρ) (hphase : s.phase = .busy k task) :
    Control κ ω ρ :=
  { s with
    queue := (s.queue.add k).done k (by
      rw [WorkQueue.processing_add]
      exact s.mem_processing k task hphase)
    phase := .idle
    working := by
      unfold WorkQueue.done
      simp only [WorkQueue.processing_add, s.working, hphase, Phase.working,
        Finset.erase_singleton] }

/-- The rules are published and `Reconcile` returns. -/
def finished (s : Control κ ω ρ) (k : κ) (task : Task ω ρ) (hphase : s.phase = .busy k task)
    (rules : List ρ) : Control κ ω ρ :=
  { s with
    queue := s.queue.done k (s.mem_processing k task hphase)
    phase := .idle
    published := rules
    working := by
      unfold WorkQueue.done
      simp only [s.working, hphase, Phase.working, Finset.erase_singleton] }

/-- One step of a user or the worker, in the surroundings `env`. -/
inductive Step (R : Reconciler κ ω χ ν ρ) (env : χ) :
    Control κ ω ρ → ControlEvent κ ω ν → Control κ ω ρ → Prop
  | change (s : Control κ ω ρ) (k : κ) (o : Option ω) (hkey : ∀ obj, o = some obj → R.key obj = k)
      (hdelete : o = none → k ∈ s.store) : Step R env s (.change k o) (s.changed k o)
  | start (s : Control κ ω ρ) (hidle : s.phase = .idle) (k : κ) (rest : List κ)
      (hqueue : s.queue.queue = k :: rest) :
      Step R env s .start (s.started hidle k rest hqueue)
  | getFound (s : Control κ ω ρ) (k : κ) (hphase : s.phase = .busy k .get) (read : Stored ω)
      (hread : s.store.lookup k = some read) :
      Step R env s (.get true) (s.proceed k .get hphase (.find read))
  | getNotFound (s : Control κ ω ρ) (k : κ) (hphase : s.phase = .busy k .get)
      (hread : s.store.lookup k = none) :
      Step R env s (.get true) (s.proceed k .get hphase .list)
  | getFailed (s : Control κ ω ρ) (k : κ) (hphase : s.phase = .busy k .get) :
      Step R env s (.get false) (s.failed k .get hphase)
  | find (s : Control κ ω ρ) (k : κ) (read : Stored ω) (hphase : s.phase = .busy k (.find read))
      (v : ν) (hfinds : R.Finds env read.obj v) (obj : ω) (hsettles : R.Settles v read.obj obj) :
      Step R env s (.find (some v) obj)
        (s.proceed k (.find read) hphase (.update read.version obj))
  | findFailed (s : Control κ ω ρ) (k : κ) (read : Stored ω)
      (hphase : s.phase = .busy k (.find read)) (obj : ω)
      (hsettles : R.Settles (R.missed read.obj) read.obj obj) :
      Step R env s (.find none obj) (s.proceed k (.find read) hphase (.update read.version obj))
  | updateSame (s : Control κ ω ρ) (k : κ) (version : Nat) (obj : ω)
      (hphase : s.phase = .busy k (.update version obj)) (current : Stored ω)
      (hcurrent : s.store.lookup k = some current) (hversion : current.version = version)
      (hsame : obj = current.obj) :
      Step R env s (.update true) (s.proceed k (.update version obj) hphase .list)
  | updateChanged (s : Control κ ω ρ) (k : κ) (version : Nat) (obj : ω)
      (hphase : s.phase = .busy k (.update version obj)) (current : Stored ω)
      (hcurrent : s.store.lookup k = some current) (hversion : current.version = version)
      (hchanged : obj ≠ current.obj) :
      Step R env s (.update true)
        ((s.changed k (some obj)).proceed k (.update version obj) hphase .list)
  | updateFailed (s : Control κ ω ρ) (k : κ) (version : Nat) (obj : ω)
      (hphase : s.phase = .busy k (.update version obj)) :
      -- A conflict, a deleted object, or the network.
      Step R env s (.update false) (s.failed k (.update version obj) hphase)
  | list (s : Control κ ω ρ) (k : κ) (hphase : s.phase = .busy k .list)
      (items : List (Stored ω)) (hitems : Ranges s.store items) :
      Step R env s (.list (some items))
        (s.proceed k .list hphase (.build (items.map Stored.obj) []))
  | listFailed (s : Control κ ω ρ) (k : κ) (hphase : s.phase = .busy k .list) :
      Step R env s (.list none) (s.failed k .list hphase)
  | build (s : Control κ ω ρ) (k : κ) (o : ω) (todo : List ω) (rules : List ρ)
      (hphase : s.phase = .busy k (.build (o :: todo) rules)) (v : ν)
      (hfinds : R.Finds env o v) :
      Step R env s (.build (some v))
        (s.proceed k (.build (o :: todo) rules) hphase (.build todo (rules ++ R.rules o v)))
  | buildFailed (s : Control κ ω ρ) (k : κ) (o : ω) (todo : List ω) (rules : List ρ)
      (hphase : s.phase = .busy k (.build (o :: todo) rules)) :
      Step R env s (.build none)
        (s.proceed k (.build (o :: todo) rules) hphase
          (.build todo (rules ++ R.rules o (R.missed o))))
  | publish (s : Control κ ω ρ) (k : κ) (rules : List ρ)
      (hphase : s.phase = .busy k (.build [] rules)) :
      Step R env s .publish (s.finished k (.build [] rules) hphase rules)

end Control

namespace Controller

/-- `ServiceTokenRequirementReconciler`. -/
def requirementReconciler (u : Unicode) (newEnv : Except String (Cel.Env Celverify.Context)) :
    Reconciler (String × String) V1alpha1.ServiceTokenRequirement Unit Unit VerificationRule where
  key := fun str => (str.nameSpace, str.name)
  Finds := fun _ _ _ => True
  missed := fun _ => ()
  Settles := fun _ str str' => ∃ now, str' = settleRequirement u newEnv now str
  rules := fun str _ => [requirementRule u newEnv str]

/-- `TokenPolicyReconciler`. -/
def policyReconciler (u : Unicode) (newEnv : Except String (Cel.Env Tts.Activation)) :
    Reconciler String V1alpha1.TokenPolicy Unit Unit IssuanceRule where
  key := fun policy => policy.name
  Finds := fun _ _ _ => True
  missed := fun _ => ()
  Settles := fun _ policy policy' => ∃ compliantAt readyAt,
    policy' = settlePolicy u newEnv compliantAt readyAt policy
  rules := fun policy _ => policyRules u newEnv policy

/-- What the policy found means for a transaction type. -/
structure Verdict where
  violations : List String
  lifetime : String
  deriving Repr, DecidableEq

/-- The verdict on a transaction type under the policy found. -/
def verdict (u : Unicode) (parseDuration : String → Except String Int)
    (tt : V1alpha1.TransactionType) (policy : Option V1alpha1.TokenPolicy) : Verdict where
  violations := validateTransactionTypeAgainstPolicy u parseDuration tt policy
  lifetime := effectiveLifetime parseDuration tt policy

/-- `TransactionTypeReconciler`, in a cluster with a store of policies. -/
def transactionTypeReconciler (u : Unicode) (parseDuration : String → Except String Int) :
    Reconciler (String × String) V1alpha1.TransactionType
      (GoMap String (Stored V1alpha1.TokenPolicy)) Verdict GenerationRule where
  key := fun tt => (tt.nameSpace, tt.name)
  Finds := fun policies tt v => ∃ items, Ranges policies items ∧
    v = verdict u parseDuration tt
      (policyOrNil (findApplicablePolicy (.ok (items.map Stored.obj)) tt.nameSpace))
  missed := fun tt => verdict u parseDuration tt none
  Settles := fun v tt tt' => ∃ compliantAt readyAt mapped,
    RangesKeys tt.spec.tctxMapping mapped ∧
    tt' = settleTransactionType compliantAt readyAt v.violations v.lifetime
      (computeProducedTctxFields tt mapped) tt
  rules := fun tt v => [generationRuleOf tt v.lifetime]

end Controller

/-- Transaction types and policies, each with their reconciler. -/
structure Cluster where
  types : Control (String × String) V1alpha1.TransactionType GenerationRule
  policies : Control String V1alpha1.TokenPolicy IssuanceRule

/-- A step on either side. -/
inductive ClusterEvent where
  | types (e : ControlEvent (String × String) V1alpha1.TransactionType Controller.Verdict)
  | policies (e : ControlEvent String V1alpha1.TokenPolicy Unit)

/-- One step of the cluster: each reconciler is registered for its own kind, and
    the one for transaction types reads the store of policies. -/
inductive Cluster.Step (u : Unicode) (parseDuration : String → Except String Int)
    (newEnv : Except String (Cel.Env Tts.Activation)) : Cluster → ClusterEvent → Cluster → Prop
  | types (s : Cluster) (e : ControlEvent (String × String) V1alpha1.TransactionType
        Controller.Verdict)
      (types' : Control (String × String) V1alpha1.TransactionType GenerationRule)
      (hstep : Control.Step (Controller.transactionTypeReconciler u parseDuration)
        s.policies.store s.types e types') :
      Step u parseDuration newEnv s (.types e) { s with types := types' }
  | policies (s : Cluster) (e : ControlEvent String V1alpha1.TokenPolicy Unit)
      (policies' : Control String V1alpha1.TokenPolicy IssuanceRule)
      (hstep : Control.Step (Controller.policyReconciler u newEnv) () s.policies e policies') :
      Step u parseDuration newEnv s (.policies e) { s with policies := policies' }

end Kontxt
