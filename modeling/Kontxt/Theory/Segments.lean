import Kontxt.Core.ExtAuth
import Kontxt.Core.Generate
import Kontxt.Core.Identity

/-!
# Texts and Their Segments

Three tests of the adapter read a text as segments between slashes: which paths
an exclusion covers, which paths an endpoint pattern matches, and what a SPIFFE
principal names. Each is written with the string functions at hand, a prefix
test, a loop over two splits, an index search. Here each is given its meaning
in terms of the segments alone.

A text and its segments determine each other: joining what was split gives the
text back, and splitting what was joined gives the segments back as long as none
of them has a slash. All three results come down to that.

The exclusion and the pattern mean what they should. A pattern excludes a path
just when its segments begin the path's, and an endpoint pattern matches just
its instances. The principal is read more freely than its format: the trust
domain, the namespace and the account may be empty, and whatever follows the
account is not looked at.

## Main definitions

* `ExtAuth.placeholder`: A segment in braces.
* `ExtAuth.instantiate`: A pattern with its placeholders filled in.
* `ExtAuth.Written`: A principal with something after the account.
* `ExtAuth.WellFormed`: A principal as its format has it.

## Theorems

* `ExtAuth.matchPath_iff`: Exclusion in terms of segments.
* `ExtAuth.exclusion_by_segments`: The same for a request, and its query.
* `ExtAuth.matchSegments_iff`: Segments that match one by one.
* `ExtAuth.pattern_instances`: A pattern matches its instances.
* `ExtAuth.resolves_iff_written`: What is read is written in segments.
* `ExtAuth.Written.unique`: It is written in one way only.
* `ExtAuth.principal_grammar_iff`: What the principal parser accepts.
-/

namespace Kontxt

open Go

namespace ExtAuth

section Queries

theorem cutQuery_cutQuery (path : String) : cutQuery (cutQuery path) = cutQuery path := by
  unfold cutQuery
  rw [String.toList_ofList, List.takeWhile_takeWhile]
  simp only [and_self, Bool.decide_eq_true]

theorem not_mem_cutQuery (path : String) : '?' ∉ (cutQuery path).toList := by
  unfold cutQuery
  rw [String.toList_ofList]
  intro hmem
  have hnot := List.mem_takeWhile_imp hmem
  simp at hnot

end Queries

section Exclusion

/-- The segments of two texts with a slash between them. -/
theorem split_slash (s t : String) : split (s ++ "/" ++ t) '/' = split s '/' ++ split t '/' := by
  have htext : s ++ "/" ++ t = String.ofList (s.toList ++ '/' :: t.toList) := by
    apply String.toList_injective
    simp
  rw [htext, split_append, String.ofList_toList, String.ofList_toList]

/-- A pattern excludes a path just when its segments begin the path's. -/
theorem matchPath_iff (path pattern : String) :
    matchPath path pattern = true ↔ split pattern '/' <+: split (cutQuery path) '/' := by
  unfold matchPath
  simp only [Bool.or_eq_true, beq_iff_eq]
  constructor
  · intro h
    rcases h with hsame | hbelow
    · rw [hsame]
    · rcases (hasPrefix_iff _ _).mp hbelow with ⟨rest, hrest⟩
      rw [hrest, split_slash]
      exact List.prefix_append _ _
  · intro h
    rcases h with ⟨rest, hrest⟩
    by_cases hnil : rest = []
    · rw [hnil, List.append_nil] at hrest
      exact Or.inl (split_inj _ _ _ hrest.symm)
    · -- What is left over is joined to the pattern by a slash.
      refine Or.inr ((hasPrefix_iff _ _).mpr ⟨"/".intercalate rest, ?_⟩)
      have hjoin := String.intercalate_append_of_ne_nil (s := "/") (split_ne_nil pattern '/') hnil
      calc cutQuery path = "/".intercalate (split (cutQuery path) '/') :=
            (intercalate_split (cutQuery path) '/').symm
        _ = "/".intercalate (split pattern '/' ++ rest) := by rw [hrest]
        _ = "/".intercalate (split pattern '/') ++ "/" ++ "/".intercalate rest := hjoin
        _ = pattern ++ "/" ++ "/".intercalate rest := by
            rw [show "/".intercalate (split pattern '/') = pattern from
              intercalate_split pattern '/']

theorem exists_append_of_matchPath (path pattern : String) (h : matchPath path pattern = true) :
    ∃ rest, cutQuery path = pattern ++ rest := by
  unfold matchPath at h
  simp only [Bool.or_eq_true, beq_iff_eq] at h
  rcases h with hsame | hbelow
  · exact ⟨"", by rw [hsame, String.append_empty]⟩
  · rcases (hasPrefix_iff _ _).mp hbelow with ⟨rest, hrest⟩
    exact ⟨"/" ++ rest, by rw [hrest, String.append_assoc]⟩

/-- Exclusion respects segments. For every path and every pattern: the pattern
    matches just when its segments begin those of the path without its query. So
    a request is excluded just when some excluded endpoint has its method and a
    path whose segments begin the request's. The query is not looked at, and no
    pattern with a question mark matches. -/
theorem exclusion_by_segments (path pattern : String) :
    (matchPath path pattern = true ↔ split pattern '/' <+: split (cutQuery path) '/') ∧
    (∀ u s method, Server.isExcluded u s path method = true ↔
      ∃ rs ∈ s.loadVerificationRules, ∃ ep ∈ rs.rule.excludedEndpoints,
        split ep.path '/' <+: split (cutQuery path) '/' ∧
        equalFold u method ep.method = true) ∧
    matchPath path pattern = matchPath (cutQuery path) pattern ∧
    ('?' ∈ pattern.toList → matchPath path pattern = false) := by
  refine ⟨matchPath_iff path pattern, ?_, ?_, ?_⟩
  · intro u s method
    unfold Server.isExcluded
    simp only [List.any_eq_true, Bool.and_eq_true, matchPath_iff]
  · unfold matchPath
    rw [cutQuery_cutQuery]
  · intro hquery
    rw [← Bool.not_eq_true]
    intro hmatch
    -- The pattern begins a text that has no question mark.
    rcases exists_append_of_matchPath path pattern hmatch with ⟨rest, hrest⟩
    refine not_mem_cutQuery path ?_
    rw [hrest, String.toList_append]
    exact List.mem_append_left _ hquery

end Exclusion

section Patterns

/-- A segment in braces. -/
def placeholder (segment : String) : Bool :=
  hasPrefix segment "\x7b" && hasSuffix segment "\x7d"

/-- The segments of a pattern with its placeholders filled in, each place for
    itself. -/
def fillSegments (fill : Nat → String) (segments : List String) : List String :=
  segments.mapIdx fun i segment => if placeholder segment then fill i else segment

/-- A pattern, without slashes around it, with its placeholders filled in. -/
def instantiate (fill : Nat → String) (pattern : String) : String :=
  "/".intercalate (fillSegments fill (split (trim pattern '/') '/'))

theorem matchSegment_iff (reqPart patPart : String) :
    matchSegment reqPart patPart = true ↔
      reqPart = if placeholder patPart then reqPart else patPart := by
  unfold matchSegment placeholder
  cases hasPrefix patPart "\x7b" && hasSuffix patPart "\x7d" with
  | true => simp
  | false => simp

theorem fillSegments_cons (fill : Nat → String) (segment : String) (segments : List String) :
    fillSegments fill (segment :: segments) =
      (if placeholder segment then fill 0 else segment) ::
        fillSegments (fun i => fill (i + 1)) segments := by
  unfold fillSegments
  rw [List.mapIdx_cons]

/-- Segments match those of a pattern one by one just when they are the pattern's
    with the placeholders filled in. -/
theorem matchSegments_iff (reqParts patParts : List String)
    (hslash : ∀ part ∈ reqParts, '/' ∉ part.toList) :
    (reqParts.length = patParts.length ∧
      ∀ matched ∈ List.zipWith matchSegment reqParts patParts, matched = true) ↔
    ∃ fill : Nat → String, (∀ i, '/' ∉ (fill i).toList) ∧
      reqParts = fillSegments fill patParts := by
  induction patParts generalizing reqParts with
  | nil =>
      constructor
      · intro h
        refine ⟨fun _ => "", fun _ => by simp, ?_⟩
        exact List.length_eq_zero_iff.mp h.1
      · intro h
        rcases h with ⟨fill, _, rfl⟩
        simp [fillSegments]
  | cons pat pats ih =>
      cases reqParts with
      | nil => simp [fillSegments]
      | cons req reqs =>
          rw [List.forall_mem_cons] at hslash
          have htail := ih reqs hslash.2
          simp only [List.length_cons, Nat.add_right_cancel_iff, List.zipWith_cons_cons,
            List.forall_mem_cons]
          constructor
          · intro h
            rcases htail.mp ⟨h.1, h.2.2⟩ with ⟨fill, hfill, hreqs⟩
            -- The first segment fills the first place, whether it is asked for or not.
            refine ⟨fun i => i.casesOn req fill, ?_, ?_⟩
            · intro i
              cases i with
              | zero => exact hslash.1
              | succ i => exact hfill i
            · rw [fillSegments_cons, ← hreqs]
              exact congrArg (· :: reqs) ((matchSegment_iff req pat).mp h.2.1)
          · intro h
            rcases h with ⟨fill, hfill, hreqs⟩
            rw [fillSegments_cons, List.cons.injEq] at hreqs
            have hrest := htail.mpr ⟨fun i => fill (i + 1), fun i => hfill (i + 1), hreqs.2⟩
            refine ⟨hrest.1, ?_, hrest.2⟩
            rw [matchSegment_iff]
            by_cases hplace : placeholder pat = true
            · rw [if_pos hplace]
            · -- A segment without braces stands for itself.
              rw [if_neg hplace] at hreqs ⊢
              exact hreqs.1

theorem slash_not_mem_fillSegments (fill : Nat → String) (hfill : ∀ i, '/' ∉ (fill i).toList)
    (segments : List String) (hslash : ∀ segment ∈ segments, '/' ∉ segment.toList) :
    ∀ segment ∈ fillSegments fill segments, '/' ∉ segment.toList := by
  intro segment hsegment
  unfold fillSegments at hsegment
  rcases List.mem_mapIdx.mp hsegment with ⟨i, hi, rfl⟩
  split
  · exact hfill i
  · exact hslash _ (List.getElem_mem hi)

/-- A pattern matches a path just when the path, without its query and the slashes
    around it, is an instance of the pattern. -/
theorem matchEndpointPath_iff (path pattern : String) :
    matchEndpointPath path pattern = true ↔
      ∃ fill : Nat → String, (∀ i, '/' ∉ (fill i).toList) ∧
        instantiate fill pattern = trim (cutQuery path) '/' := by
  have hparts := matchSegments_iff (split (trim (cutQuery path) '/') '/')
    (split (trim pattern '/') '/') fun part hpart => not_mem_of_mem_split _ part '/' hpart
  unfold matchEndpointPath
  simp only [Bool.and_eq_true, beq_iff_eq, List.all_eq_true, id_eq]
  rw [hparts]
  -- Segment lists against texts: splitting and joining undo each other, since nothing
  -- that is filled in has a slash.
  refine exists_congr fun fill => and_congr_right fun hfill => ?_
  unfold instantiate
  constructor
  · intro h
    rw [← h]
    exact intercalate_split _ '/'
  · intro h
    rw [← h]
    refine split_intercalate _ '/' ?_ ?_
    · intro hnil
      have hlength := congrArg List.length hnil
      unfold fillSegments at hlength
      rw [List.length_mapIdx, List.length_nil, List.length_eq_zero_iff] at hlength
      exact split_ne_nil _ _ hlength
    · refine slash_not_mem_fillSegments fill hfill _ fun segment hsegment => ?_
      exact not_mem_of_mem_split _ segment '/' hsegment

/-- A pattern matches its instances and nothing else. For every path and every
    pattern: the pattern matches just when some slash-free strings put in place of
    the segments in braces give the path without its query, slashes around both
    left aside. The rule found for a request is the same with and without the
    query stripped first. -/
theorem pattern_instances (path pattern : String) :
    (matchEndpointPath path pattern = true ↔
      ∃ fill : Nat → String, (∀ i, '/' ∉ (fill i).toList) ∧
        instantiate fill pattern = trim (cutQuery path) '/') ∧
    ∀ u rules method, findMatchingRule u rules path method =
      rules.find? fun rule => equalFold u rule.endpoint.method method &&
        matchEndpointPath path rule.endpoint.path := by
  refine ⟨matchEndpointPath_iff path pattern, ?_⟩
  intro u rules method
  unfold findMatchingRule ruleMatches matchEndpointPath
  rw [cutQuery_cutQuery]

/-- Two segments of a path in the place of one: not an instance. -/
example : matchEndpointPath "/data/a/b?x=/" "/data/\x7bid\x7d" = false := by decide

end Patterns

section Principals

/-- A principal as the parser reads it: segments for the trust domain, the
    namespace and the account, and whatever follows the account. -/
structure Written (principal td ns sa rest : String) : Prop where
  text : principal = "spiffe://" ++ td ++ "/ns/" ++ ns ++ "/sa/" ++ sa ++ rest
  td_slash : '/' ∉ td.toList
  ns_slash : '/' ∉ ns.toList
  sa_slash : '/' ∉ sa.toList
  rest_segments : rest = "" ∨ ∃ more, rest = "/" ++ more

/-- The format the parser is for. -/
structure WellFormed (principal td ns sa : String) : Prop where
  text : principal = "spiffe://" ++ td ++ "/ns/" ++ ns ++ "/sa/" ++ sa
  td_segment : td ≠ "" ∧ '/' ∉ td.toList
  ns_segment : ns ≠ "" ∧ '/' ∉ ns.toList
  sa_segment : sa ≠ "" ∧ '/' ∉ sa.toList

/-- What the parser does: it takes the text after the scheme and the first slash
    apart. -/
theorem resolveFromPrincipal_iff (u : Unicode) (principal : String) (id : WorkloadIdentity) :
    resolveFromPrincipal u principal = .ok id ↔
      hasPrefix principal "spiffe://" = true ∧
      ∃ path, afterFirst (trimPrefix principal "spiffe://") '/' = some path ∧
      ∃ ns sa more, split path '/' = "ns" :: ns :: "sa" :: sa :: more ∧
        id = serviceAccountIdentity ns sa := by
  unfold resolveFromPrincipal
  by_cases hempty : principal = ""
  · -- The empty text has its own error, and does not have the scheme either.
    rw [if_pos hempty, hempty]
    simp only [reduceCtorEq, false_iff, not_and]
    intro hscheme
    exact absurd hscheme (by decide)
  · rw [if_neg hempty]
    cases hscheme : hasPrefix principal "spiffe://" with
    | false => simp
    | true =>
        simp only [Bool.true_eq_false, if_false, true_and]
        cases afterFirst (trimPrefix principal "spiffe://") '/' with
        | none => simp
        | some path =>
            simp only [Option.some.injEq, exists_eq_left']
            split
            · next ns sa more hsplit =>
              rw [hsplit]
              simp only [Except.ok.injEq, List.cons.injEq, true_and]
              constructor
              · intro h
                exact ⟨ns, sa, more, ⟨rfl, rfl, rfl⟩, h.symm⟩
              · intro h
                rcases h with ⟨_, _, _, ⟨rfl, rfl, _⟩, rfl⟩
                rfl
            · next hother =>
              simp only [reduceCtorEq, false_iff]
              intro h
              rcases h with ⟨ns, sa, more, hsplit, _⟩
              exact hother ns sa more hsplit

theorem join_cons (segment : String) (segments : List String) :
    ∃ rest, "/".intercalate (segment :: segments) = segment ++ rest ∧
      (rest = "" ∨ ∃ more, rest = "/" ++ more) := by
  cases segments with
  | nil => exact ⟨"", by simp, .inl rfl⟩
  | cons next segments =>
      refine ⟨"/" ++ "/".intercalate (next :: segments), ?_, .inr ⟨_, rfl⟩⟩
      rw [String.intercalate_cons_cons, String.append_assoc]

theorem split_rest (sa rest : String) (hsa : '/' ∉ sa.toList)
    (hrest : rest = "" ∨ ∃ more, rest = "/" ++ more) :
    ∃ more, split (sa ++ rest) '/' = sa :: more := by
  rcases hrest with rfl | ⟨more, rfl⟩
  · rw [String.append_empty]
    exact ⟨[], split_eq_singleton sa '/' hsa⟩
  · rw [← String.append_assoc, split_slash, split_eq_singleton sa '/' hsa]
    exact ⟨split more '/', rfl⟩

/-- The segments of a written principal, in order. -/
theorem Written.segments {principal td ns sa rest : String}
    (h : Written principal td ns sa rest) :
    ∃ more, split (sa ++ rest) '/' = sa :: more ∧
      split ("ns" ++ "/" ++ (ns ++ "/" ++ ("sa" ++ "/" ++ (sa ++ rest)))) '/' =
        "ns" :: ns :: "sa" :: sa :: more := by
  rcases split_rest sa rest h.sa_slash h.rest_segments with ⟨more, hmore⟩
  refine ⟨more, hmore, ?_⟩
  rw [split_slash, split_slash, split_slash, hmore, split_eq_singleton ns '/' h.ns_slash,
    split_eq_singleton "ns" '/' (by decide), split_eq_singleton "sa" '/' (by decide)]
  rfl

theorem Written.grouped {principal td ns sa rest : String}
    (h : Written principal td ns sa rest) :
    principal = "spiffe://" ++
      (td ++ "/" ++ ("ns" ++ "/" ++ (ns ++ "/" ++ ("sa" ++ "/" ++ (sa ++ rest))))) := by
  rw [h.text]
  apply String.toList_injective
  simp

/-- A principal that is read is written in segments, and the other way round. -/
theorem resolves_iff_written (u : Unicode) (principal : String) (id : WorkloadIdentity) :
    resolveFromPrincipal u principal = .ok id ↔
      ∃ td ns sa rest, Written principal td ns sa rest ∧ id = serviceAccountIdentity ns sa := by
  rw [resolveFromPrincipal_iff]
  constructor
  · intro h
    rcases h with ⟨hscheme, path, hpath, ns, sa, more, hsplit, hid⟩
    rcases (hasPrefix_iff _ _).mp hscheme with ⟨tail, rfl⟩
    rw [trimPrefix_append] at hpath
    rcases (afterFirst_eq_some tail path '/').mp hpath with ⟨td, htd, htail⟩
    have hslash : ∀ piece ∈ ["ns", ns, "sa", sa] ++ more, '/' ∉ piece.toList := by
      intro piece hpiece
      refine not_mem_of_mem_split path piece '/' ?_
      rw [hsplit]
      exact hpiece
    -- What follows the account is the rest of the joined segments.
    have hjoin : "/".intercalate (split path '/') = path := intercalate_split path '/'
    rcases join_cons sa more with ⟨rest, hrest, hsegments⟩
    rw [hsplit, String.intercalate_cons_cons, String.intercalate_cons_cons,
      String.intercalate_cons_cons, hrest] at hjoin
    refine ⟨td, ns, sa, rest, ⟨?_, htd, hslash ns (by simp), hslash sa (by simp), hsegments⟩, hid⟩
    apply String.toList_injective
    rw [String.toList_append, htail, ← hjoin]
    simp
  · intro h
    rcases h with ⟨td, ns, sa, rest, hwritten, hid⟩
    rcases hwritten.segments with ⟨more, _, hsegments⟩
    rw [hwritten.grouped]
    refine ⟨(hasPrefix_iff _ _).mpr ⟨_, rfl⟩, _, ?_, ns, sa, more, hsegments, hid⟩
    rw [trimPrefix_append, afterFirst_eq_some]
    refine ⟨td, hwritten.td_slash, ?_⟩
    simp

/-- A principal is written in one way only. -/
theorem Written.unique {principal td ns sa rest td' ns' sa' rest' : String}
    (h : Written principal td ns sa rest) (h' : Written principal td' ns' sa' rest') :
    td = td' ∧ ns = ns' ∧ sa = sa' ∧ rest = rest' := by
  -- The parts are segments of one text, so they are read off at the same places.
  have hsplit : ∀ td ns sa rest, Written principal td ns sa rest → ∃ more,
      split (trimPrefix principal "spiffe://") '/' = td :: "ns" :: ns :: "sa" :: sa :: more := by
    intro td ns sa rest h
    rcases h.segments with ⟨more, _, hsegments⟩
    refine ⟨more, ?_⟩
    rw [h.grouped, trimPrefix_append, split_slash, split_eq_singleton td '/' h.td_slash, hsegments]
    rfl
  rcases hsplit td ns sa rest h with ⟨more, hmore⟩
  rcases hsplit td' ns' sa' rest' h' with ⟨more', hmore'⟩
  rw [hmore] at hmore'
  simp only [List.cons.injEq, true_and] at hmore'
  rcases hmore' with ⟨rfl, rfl, rfl, rfl⟩
  -- What follows the account may have any segments, and is what is left of the text.
  refine ⟨rfl, rfl, rfl, ?_⟩
  apply String.toList_injective
  have htext := h.text.symm.trans h'.text
  simpa using congrArg String.toList htext

theorem wellFormed_iff_written (principal td ns sa : String) :
    WellFormed principal td ns sa ↔
      Written principal td ns sa "" ∧ td ≠ "" ∧ ns ≠ "" ∧ sa ≠ "" := by
  constructor
  · intro h
    rcases h with ⟨htext, ⟨htd, htdslash⟩, ⟨hns, hnsslash⟩, ⟨hsa, hsaslash⟩⟩
    refine ⟨⟨?_, htdslash, hnsslash, hsaslash, .inl rfl⟩, htd, hns, hsa⟩
    rw [String.append_empty]
    exact htext
  · intro h
    rcases h with ⟨hwritten, htd, hns, hsa⟩
    refine ⟨?_, ⟨htd, hwritten.td_slash⟩, ⟨hns, hwritten.ns_slash⟩, ⟨hsa, hwritten.sa_slash⟩⟩
    have htext := hwritten.text
    rw [String.append_empty] at htext
    exact htext

/-- What the parser accepts, against the format it is for. For every principal: it
    is read as an identity just when it is written in segments, with anything after
    the account, and the identity is that of the namespace and the account. It is
    accepted as the format says, and rejected otherwise, just when it is not written
    with an empty trust domain, namespace or account and nothing follows the
    account. -/
theorem principal_grammar_iff (u : Unicode) (principal : String) :
    (∀ id, resolveFromPrincipal u principal = .ok id ↔
      ∃ td ns sa rest, Written principal td ns sa rest ∧ id = serviceAccountIdentity ns sa) ∧
    ((∀ id, resolveFromPrincipal u principal = .ok id ↔
        ∃ td ns sa, WellFormed principal td ns sa ∧ id = serviceAccountIdentity ns sa) ↔
      ∀ td ns sa rest, Written principal td ns sa rest →
        td ≠ "" ∧ ns ≠ "" ∧ sa ≠ "" ∧ rest = "") := by
  refine ⟨resolves_iff_written u principal, ?_⟩
  constructor
  · intro hformat td ns sa rest hwritten
    have hok := (resolves_iff_written u principal _).mpr ⟨td, ns, sa, rest, hwritten, rfl⟩
    rcases (hformat _).mp hok with ⟨td', ns', sa', hwell, _⟩
    rcases (wellFormed_iff_written _ _ _ _).mp hwell with ⟨hwritten', htd, hns, hsa⟩
    -- The two ways of writing it are the same.
    rcases hwritten.unique hwritten' with ⟨rfl, rfl, rfl, rfl⟩
    exact ⟨htd, hns, hsa, rfl⟩
  · intro hparts id
    rw [resolves_iff_written]
    constructor
    · intro h
      rcases h with ⟨td, ns, sa, rest, hwritten, hid⟩
      rcases hparts td ns sa rest hwritten with ⟨htd, hns, hsa, rfl⟩
      exact ⟨td, ns, sa, (wellFormed_iff_written _ _ _ _).mpr ⟨hwritten, htd, hns, hsa⟩, hid⟩
    · intro h
      rcases h with ⟨td, ns, sa, hwell, hid⟩
      exact ⟨td, ns, sa, "", ((wellFormed_iff_written _ _ _ _).mp hwell).1, hid⟩

/-- A path that goes on after the account, and a principal in which the trust
    domain, the namespace and the account are empty: both are read as identities,
    and neither has the format. -/
theorem principal_outside_grammar :
    (resolveFromPrincipal .ascii "spiffe://cluster.local/ns/shop/sa/cart/extra" =
        .ok (serviceAccountIdentity "shop" "cart") ∧
      ∀ td ns sa, ¬ WellFormed "spiffe://cluster.local/ns/shop/sa/cart/extra" td ns sa) ∧
    resolveFromPrincipal .ascii "spiffe:///ns//sa/" = .ok (serviceAccountIdentity "" "") ∧
      ∀ td ns sa, ¬ WellFormed "spiffe:///ns//sa/" td ns sa := by
  have hextra : Written "spiffe://cluster.local/ns/shop/sa/cart/extra" "cluster.local" "shop"
      "cart" "/extra" :=
    ⟨by decide, by decide, by decide, by decide, .inr ⟨"extra", by decide⟩⟩
  have hempty : Written "spiffe:///ns//sa/" "" "" "" "" :=
    ⟨by decide, by decide, by decide, by decide, .inl rfl⟩
  refine ⟨⟨by decide, ?_⟩, by decide, ?_⟩
  · intro td ns sa h
    rcases (wellFormed_iff_written _ _ _ _).mp h with ⟨hwritten, _⟩
    exact absurd (hextra.unique hwritten).2.2.2 (by decide)
  · intro td ns sa h
    rcases (wellFormed_iff_written _ _ _ _).mp h with ⟨hwritten, htd, _⟩
    exact htd (hempty.unique hwritten).1.symm

end Principals

end ExtAuth

end Kontxt
