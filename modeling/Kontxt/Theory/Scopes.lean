import Kontxt.Theory.Narrowing

/-!
# What a Scope String Means

A scope is a string of words with white space between them. The token service
and the test before narrowing take it as the set of its words. The test of a
verification rule does not: it looks for the required scope as a whole among the
words of the token's. A string with white space in it is not among the words of
anything, so a required scope of several words, or with a blank at its end, is
never found, whatever the token has.

`scopes_agree_iff` compares the readings on every pair of strings. They agree
when the required scope is a single word, and also when the token lacks one of
its words, where all of them say no.

The test before narrowing also asks for more words than are required, and there
it counts them with their repeats. `broader_strict_iff` says when that is the
same as having another word: when the repeats do not make up for the new words.
Without repeats they never do.

## Main definitions

* `ExtAuth.Covers`: Every word of one scope is a word of another.
* `ExtAuth.SingleWord`: A string with no white space in it.
* `ExtAuth.StrictlyCovers`: One scope covers another and has another word.
* `ExtAuth.newWords`, `ExtAuth.repeats`: What the lengths count.
* `ExtAuth.CountsStrictly`: The lengths differ as the sets do.

## Theorems

* `ExtAuth.fields_eq_self_iff`: A single word is its own only word.
* `ExtAuth.scopeContains_covers_iff`: When the test of a rule reads sets.
* `ExtAuth.scopes_agree_iff`: The three readings compared.
* `ExtAuth.two_scopes_refused`: A required scope of two words.
* `ExtAuth.length_fields_lt_iff`: Comparing the lengths of covering scopes.
* `ExtAuth.broader_strict_iff`: When a broader scope has another word.
* `ExtAuth.repeated_scope_counts`: Repeats that make the difference.
-/

namespace Kontxt

open Go Lib

namespace ExtAuth

section Scopes

/-- Every word of the required scope is a word of the scope. -/
def Covers (scope required : String) : Prop :=
  ∀ word ∈ fields required, word ∈ fields scope

/-- A string that is not empty and has no white space. -/
def SingleWord (s : String) : Prop :=
  s ≠ "" ∧ ∀ c ∈ s.toList, isSpace c = false

/-- A string is its own only word exactly when it is a single word. -/
theorem fields_eq_self_iff (s : String) : fields s = [s] ↔ SingleWord s := by
  constructor
  · intro h
    have hmem : s ∈ fields s := by
      rw [h]
      exact List.mem_singleton_self s
    refine ⟨?_, not_isSpace_of_mem_fields s s hmem⟩
    intro hempty
    rw [hempty] at h
    exact absurd h (by decide)
  · intro h
    have hsplit := List.splitOnP_eq_singleton h.2
    have hne : s.toList ≠ [] := by
      intro hnil
      exact h.1 (String.toList_eq_nil_iff.mp hnil)
    simp [fields, hsplit, hne]

/-- A scope that is found as a whole is a single word. -/
theorem singleWord_of_scopeContains (scope required : String)
    (h : scopeContains scope required = true) : SingleWord required :=
  (fields_eq_self_iff required).mp
    (fields_of_mem_fields scope required ((scopeContains_iff scope required).mp h))

theorem scopeContains_of_word (scope required : String) (hword : SingleWord required) :
    scopeContains scope required = true ↔ Covers scope required := by
  unfold Covers
  rw [scopeContains_iff, (fields_eq_self_iff required).mpr hword]
  simp

/-- The test of a rule says whether the scope covers the required one exactly
    when the required one is a single word or is not covered. -/
theorem scopeContains_covers_iff (scope required : String) :
    (scopeContains scope required = true ↔ Covers scope required) ↔
      SingleWord required ∨ ¬Covers scope required := by
  constructor
  · intro h
    by_cases hcovers : Covers scope required
    · exact Or.inl (singleWord_of_scopeContains scope required (h.mpr hcovers))
    · exact Or.inr hcovers
  · intro h
    rcases h with hword | hnot
    · exact scopeContains_of_word scope required hword
    · -- What is found as a whole is a word, and then it is covered.
      refine iff_of_false ?_ hnot
      intro hcontains
      have hword := singleWord_of_scopeContains scope required hcontains
      exact hnot ((scopeContains_of_word scope required hword).mp hcontains)

theorem scopeIsBroader_iff (scope required : String) :
    scopeIsBroader scope required = true ↔
      Covers scope required ∧ (fields required).length < (fields scope).length := by
  unfold scopeIsBroader Covers
  rw [Bool.and_eq_true, List.all_eq_true, decide_eq_true_iff]
  simp only [List.contains_iff_mem, gt_iff_lt]

/-- A rule that requires something other than a single word passes no token. -/
theorem checkVerificationRule_refuses (u : Unicode) (claims : Token.Claims) (req : HttpRequest)
    (rs : VerificationRuleSet) (hne : rs.rule.requiredScope ≠ "")
    (hwords : ¬SingleWord rs.rule.requiredScope) :
    ∃ e, checkVerificationRule u claims req rs = .error e := by
  have hcontains : scopeContains claims.scope rs.rule.requiredScope = false := by
    rw [← Bool.not_eq_true]
    intro h
    exact hwords (singleWord_of_scopeContains claims.scope rs.rule.requiredScope h)
  unfold checkVerificationRule
  rw [if_pos ⟨hne, hcontains⟩]
  exact ⟨_, rfl⟩

end Scopes

/-- The three readings compared, for every scope and every required scope. The
    token service's test says whether every word of the required scope is a word
    of the scope. The test of a verification rule says the same exactly when the
    required scope is a single word, or some word of it is missing. A scope that
    is broader passes the test of a rule exactly when the required scope is a
    single word; and a rule whose required scope has a word but is not a single
    word passes no token at all. -/
theorem scopes_agree_iff (scope required : String) :
    (Tts.isScopeSubset required scope = true ↔ Covers scope required) ∧
    ((scopeContains scope required = true ↔ Covers scope required) ↔
      SingleWord required ∨ ¬Covers scope required) ∧
    (scopeIsBroader scope required = true →
      (scopeContains scope required = true ↔ SingleWord required)) ∧
    ((∃ c ∈ required.toList, isSpace c = false) → ¬SingleWord required →
      ∀ u claims req rs, rs.rule.requiredScope = required →
        ∃ e, checkVerificationRule u claims req rs = .error e) := by
  refine ⟨Tts.isScopeSubset_iff required scope, scopeContains_covers_iff scope required, ?_, ?_⟩
  · intro hbroader
    constructor
    · exact singleWord_of_scopeContains scope required
    · intro hword
      exact (scopeContains_of_word scope required hword).mpr
        ((scopeIsBroader_iff scope required).mp hbroader).1
  · intro hchar hwords u claims req rs hrule
    subst hrule
    refine checkVerificationRule_refuses u claims req rs ?_ hwords
    intro hempty
    rw [hempty] at hchar
    rcases hchar with ⟨c, hc, _⟩
    exact absurd hc List.not_mem_nil

/-- A broader scope passes a rule that requires one of its words. -/
theorem scopes_agree_read :
    scopeIsBroader "read write" "read" = true ∧ scopeContains "read write" "read" = true := by
  have hbroader : scopeIsBroader "read write" "read" = true := by decide
  have hword : SingleWord "read" := (fields_eq_self_iff "read").mp (by decide)
  exact ⟨hbroader, ((scopes_agree_iff "read write" "read").2.2.1 hbroader).mpr hword⟩

/-- A required scope of two words, both of which the token has: the token service
    and the test before narrowing find it, and the rule does not. -/
theorem two_scopes_refused :
    Tts.isScopeSubset "read write" "read write admin" = true ∧
    scopeIsBroader "read write admin" "read write" = true ∧
    scopeContains "read write admin" "read write" = false := by
  decide

section Broader

/-- One scope covers another and has a word that the other has not. -/
def StrictlyCovers (scope required : String) : Prop :=
  Covers scope required ∧ ∃ word ∈ fields scope, word ∉ fields required

/-- The number of words of a scope that another has not. -/
def newWords (scope required : String) : Nat :=
  ((fields scope).toFinset \ (fields required).toFinset).card

/-- How many of a scope's words are there again. -/
def repeats (scope : String) : Nat :=
  (fields scope).length - (fields scope).toFinset.card

/-- The lengths of covering scopes differ just when their words do: there is a new
    word if and only if the new words and the repeats of the one outnumber the
    repeats of the other. -/
def CountsStrictly (scope required : String) : Prop :=
  Covers scope required →
    (0 < newWords scope required ↔ repeats required < newWords scope required + repeats scope)

theorem length_fields (scope : String) :
    (fields scope).length = (fields scope).toFinset.card + repeats scope := by
  have hle := List.toFinset_card_le (fields scope)
  unfold repeats
  omega

theorem newWords_pos_iff (scope required : String) :
    0 < newWords scope required ↔ ∃ word ∈ fields scope, word ∉ fields required := by
  unfold newWords
  rw [Finset.card_pos]
  unfold Finset.Nonempty
  simp only [Finset.mem_sdiff, List.mem_toFinset]

/-- Of two scopes of which one covers the other, which has more words. -/
theorem length_fields_lt_iff (scope required : String) (hcovers : Covers scope required) :
    (fields required).length < (fields scope).length ↔
      repeats required < newWords scope required + repeats scope := by
  have hsub : (fields required).toFinset ⊆ (fields scope).toFinset := by
    intro word hword
    rw [List.mem_toFinset] at hword ⊢
    exact hcovers word hword
  have hcard : newWords scope required + (fields required).toFinset.card =
      (fields scope).toFinset.card := Finset.card_sdiff_add_card_eq_card hsub
  rw [length_fields scope, length_fields required]
  omega

theorem repeats_of_nodup (scope : String) (h : (fields scope).Nodup) : repeats scope = 0 := by
  unfold repeats
  rw [List.toFinset_card_of_nodup h, Nat.sub_self]

theorem countsStrictly_of_nodup (scope required : String) (hscope : (fields scope).Nodup)
    (hrequired : (fields required).Nodup) : CountsStrictly scope required := by
  intro _
  rw [repeats_of_nodup scope hscope, repeats_of_nodup required hrequired, Nat.add_zero]

theorem scopeIsBroader_iff_strictlyCovers (scope required : String) :
    (scopeIsBroader scope required = true ↔ StrictlyCovers scope required) ↔
      CountsStrictly scope required := by
  unfold StrictlyCovers CountsStrictly
  rw [scopeIsBroader_iff, ← newWords_pos_iff, and_congr_right_iff]
  refine forall_congr' fun hcovers => ?_
  rw [length_fields_lt_iff scope required hcovers]
  exact Iff.comm

theorem scopeIsBroader_trans (a b c : String) (hab : scopeIsBroader a b = true)
    (hbc : scopeIsBroader b c = true) : scopeIsBroader a c = true := by
  rw [scopeIsBroader_iff] at hab hbc ⊢
  refine ⟨?_, lt_trans hbc.2 hab.2⟩
  intro word hword
  exact hab.1 word (hbc.1 word hword)

theorem scopeIsBroader_congr (a a' b b' : String) (ha : (fields a).Perm (fields a'))
    (hb : (fields b).Perm (fields b')) : scopeIsBroader a b = scopeIsBroader a' b' := by
  rw [Bool.eq_iff_iff, scopeIsBroader_iff, scopeIsBroader_iff, ha.length_eq, hb.length_eq]
  unfold Covers
  simp only [ha.mem_iff, hb.mem_iff]

end Broader

/-- When a broader scope is one with another word. For every pair of scopes the test
    says whether the one strictly covers the other just when the lengths count
    strictly, which they do when neither repeats a word. It is irreflexive and
    transitive and does not see the order of the words, whatever the scopes. -/
theorem broader_strict_iff (scope required : String) :
    ((scopeIsBroader scope required = true ↔ StrictlyCovers scope required) ↔
      CountsStrictly scope required) ∧
    ((fields scope).Nodup → (fields required).Nodup → CountsStrictly scope required) ∧
    scopeIsBroader scope scope = false ∧
    (∀ narrowest, scopeIsBroader scope required = true →
      scopeIsBroader required narrowest = true → scopeIsBroader scope narrowest = true) ∧
    ∀ scope' required', (fields scope).Perm (fields scope') →
      (fields required).Perm (fields required') →
      scopeIsBroader scope required = scopeIsBroader scope' required' := by
  refine ⟨scopeIsBroader_iff_strictlyCovers scope required,
    countsStrictly_of_nodup scope required, ?_, scopeIsBroader_trans scope required, ?_⟩
  · rw [← Bool.not_eq_true, scopeIsBroader_iff]
    intro h
    exact lt_irrefl _ h.2
  · intro scope' required' hscope hrequired
    exact scopeIsBroader_congr scope scope' required required' hscope hrequired

/-- A scope that repeats the only word required is taken to be broader, and one with
    another word than the repeated one is not. -/
theorem repeated_scope_counts :
    (scopeIsBroader "read read" "read" = true ∧ ¬StrictlyCovers "read read" "read") ∧
    scopeIsBroader "read write" "read read" = false ∧
      StrictlyCovers "read write" "read read" := by
  unfold StrictlyCovers Covers
  decide

end ExtAuth

end Kontxt
