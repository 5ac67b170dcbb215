import Mathlib.Logic.Basic

/-!
# Sequences of Checks

Fallible code is a sequence of checks, each of which may end the whole with an
error. What matters about such a sequence is when it succeeds: exactly when
every check does. The rules below say so for the three ways checks are put
together here, one after the other, under a condition, and in a loop over a
list, so that a proof about a sequence never has to walk its failure paths.

## Theorems

* `bind_eq_ok`: A sequence succeeds when both parts do.
* `mapError_eq_ok`: Rewording an error changes no success.
* `foldlM_exists_ok`: A loop with a result succeeds when every iteration does.
* `ite_error_eq_ok`: A guard succeeds when its condition fails.
* `forM_eq_ok`: A loop succeeds when every iteration does.
* `forM_skip`: An iteration that succeeds can be left out.
-/

namespace Kontxt

namespace Lib

variable {ε α β : Type}

theorem bind_eq_ok (x : Except ε α) (f : α → Except ε β) (b : β) :
    (x >>= f) = .ok b ↔ ∃ a, x = .ok a ∧ f a = .ok b := by
  cases x with
  | error e =>
      constructor
      · intro h
        exact absurd h (by intro hc; cases hc)
      · intro hgiven
        rcases hgiven with ⟨a, ha, _⟩
        cases ha
  | ok a =>
      constructor
      · intro h
        exact ⟨a, rfl, h⟩
      · intro hgiven
        rcases hgiven with ⟨a', ha, h⟩
        cases ha
        exact h

/-- A guard that fails under a condition and otherwise goes on succeeds when
    the condition fails and what follows succeeds. -/
theorem ite_error_eq_ok (p : Prop) [Decidable p] (e : ε) (x : Except ε α) (a : α) :
    (if p then .error e else x) = .ok a ↔ ¬p ∧ x = .ok a := by
  by_cases hp : p
  · rw [if_pos hp]
    simp only [reduceCtorEq, hp, not_true_eq_false, false_and]
  · rw [if_neg hp]
    simp only [hp, not_false_eq_true, true_and]

/-- Rewording an error does not change when a check succeeds. -/
theorem mapError_eq_ok {ε' : Type} (f : ε → ε') (x : Except ε α) (a : α) :
    x.mapError f = .ok a ↔ x = .ok a := by
  cases x with
  | error e =>
      constructor
      · intro h
        cases h
      · intro h
        cases h
  | ok b => exact ⟨fun h => congrArg Except.ok (Except.ok.inj h), fun h => h ▸ rfl⟩

/-- A loop that stops at its first error succeeds when every iteration does. -/
theorem forM_eq_ok (l : List α) (f : α → Except ε Unit) :
    l.forM f = .ok () ↔ ∀ x ∈ l, f x = .ok () := by
  induction l with
  | nil => exact ⟨fun _ x hx => absurd hx List.not_mem_nil, fun _ => rfl⟩
  | cons x xs ih =>
      have hstep : (x :: xs).forM f = (f x >>= fun _ => xs.forM f) := rfl
      rw [hstep, bind_eq_ok, List.forall_mem_cons, ← ih]
      constructor
      · intro hgiven
        rcases hgiven with ⟨_, hx, hxs⟩
        exact ⟨hx, hxs⟩
      · intro hgiven
        rcases hgiven with ⟨hx, hxs⟩
        exact ⟨(), hx, hxs⟩

/-- A loop that carries a result succeeds when every iteration does, if whether
    an iteration succeeds depends on its element only. -/
theorem foldlM_exists_ok (f : β → α → Except ε β) (p : α → Prop)
    (hf : ∀ b a, (∃ b', f b a = .ok b') ↔ p a) (l : List α) (b : β) :
    (∃ b', l.foldlM f b = .ok b') ↔ ∀ a ∈ l, p a := by
  induction l generalizing b with
  | nil => exact ⟨fun _ a ha => absurd ha List.not_mem_nil, fun _ => ⟨b, rfl⟩⟩
  | cons a as ih =>
      have hstep : ∀ b', (a :: as).foldlM f b = .ok b' ↔
          ∃ b₁, f b a = .ok b₁ ∧ as.foldlM f b₁ = .ok b' := by
        intro b'
        rw [List.foldlM_cons, bind_eq_ok]
      rw [List.forall_mem_cons, ← hf b a]
      constructor
      · intro hgiven
        rcases hgiven with ⟨b', hb'⟩
        rcases (hstep b').mp hb' with ⟨b₁, hb₁, hrest⟩
        exact ⟨⟨b₁, hb₁⟩, (ih b₁).mp ⟨b', hrest⟩⟩
      · intro hgiven
        rcases hgiven with ⟨⟨b₁, hb₁⟩, hall⟩
        rcases (ih b₁).mpr hall with ⟨b', hrest⟩
        exact ⟨b', (hstep b').mpr ⟨b₁, hb₁, hrest⟩⟩

/-- An iteration that succeeds can be left out of the loop. -/
theorem forM_skip (before after : List α) (x : α) (f : α → Except ε Unit) (hx : f x = .ok ()) :
    (before ++ x :: after).forM f = (before ++ after).forM f := by
  induction before with
  | nil =>
      have hstep : (x :: after).forM f = (f x >>= fun _ => after.forM f) := rfl
      rw [List.nil_append, List.nil_append, hstep, hx]
      rfl
  | cons y ys ih =>
      have hstep : ∀ l, (y :: l).forM f = (f y >>= fun _ => l.forM f) := fun _ => rfl
      rw [List.cons_append, List.cons_append, hstep, hstep, ih]

end Lib

end Kontxt
