import Kontxt.Core.Identity
import Kontxt.Lib.Address

/-!
# Pods by Address

What a source address resolves to.

The cache of pods is keyed by the text of an address, and both kinds of event act
on the entry of the address they carry, whichever pod it belongs to. So one
thing decides a lookup: the last event that carries the address. `lookup_watch`
says so of every sequence of events, and the rest of the module compares it with
what a reader of the cache expects.

The first comparison is about texts. A source address may come with a port, and
the port is cut off at the last colon unless the text has a bracket. IPv4 text has
no colon of its own and one way to be written, so the cut is right and the key is
the address. IPv6 text has a colon, so a bare address loses its last group, and
with a port it is in brackets and keeps them. Neither is the key of its own pod,
and the shorter text can be the key of another.

The second is about pods. A pod holds an address when its latest event is an
update with the address and no other pod was updated with it since, and it has left
the address when it was updated with it and its latest event is something else. The
cache forgets the pod of an event, so a deletion of an earlier holder that arrives late
removes the entry of the present one, and an address a pod has left keeps
resolving to it. `tracks_iff` says that these two are all that goes wrong.

## Main definitions

* `Pod.identity`: The identity of a pod.
* `lastCarrying`: The last event that carries an address.
* `storedFor`: The pod last stored for an address.
* `Answers`: The identity of a pod, or an error if there is none.
* `Holds`, `Unheld`, `HasLeft`: Who holds an address, and who does not any more.
* `ResolvesTo`: A lookup finds the entry of a pod.
* `Tracks`: The answer is the holder's, and never that of a pod that has left.
* `LateDelete`, `GivenUp`: The two ways it is not.

## Theorems

* `lookup_watch`: The last event that carries an address decides its entry.
* `stripPort_peer4`, `stripPort_peer6`: What is looked up for a peer.
* `resolves_stored_iff`: Every cache answers for a peer just when it is IPv4.
* `tracks_iff`: The cache tracks an address unless a delete is late or the
  address was given up.
-/

namespace Kontxt

namespace ExtAuth

open Go
open Lib

/-- The identity of a pod's service account. -/
def Pod.identity (p : Pod) : WorkloadIdentity :=
  serviceAccountIdentity p.nameSpace p.serviceAccountName

namespace IdentityResolver

section Cache

/-- What an event leaves under the address it carries. -/
def entry : PodEvent → Option PodInfo
  | .update pod =>
    some { name := pod.name, nameSpace := pod.nameSpace, serviceAccount := pod.serviceAccountName }
  | .delete _ => none

/-- The last event that carries an address. -/
def lastCarrying (events : List PodEvent) (x : String) : Option PodEvent :=
  events.reverse.find? fun e => e.pod.podIP = x

/-- An event acts on the address it carries and on no other. -/
theorem lookup_handle (r : IdentityResolver) (e : PodEvent) (x : String) (hx : x ≠ "") :
    (r.handle e).pods.lookup x = if e.pod.podIP = x then entry e else r.pods.lookup x := by
  by_cases hcarries : e.pod.podIP = x
  · subst hcarries
    rw [if_pos rfl]
    cases e with
    | update pod =>
        have hip : pod.podIP ≠ "" := hx
        simp [handle, updatePod, hip, PodEvent.pod, entry]
    | delete pod =>
        have hip : pod.podIP ≠ "" := hx
        simp [handle, deletePod, hip, PodEvent.pod, entry]
  · rw [if_neg hcarries]
    cases e with
    | update pod =>
        have hip : x ≠ pod.podIP := fun h => hcarries h.symm
        change (r.updatePod pod).pods.lookup x = r.pods.lookup x
        unfold updatePod
        split
        · rfl
        · exact Finmap.lookup_insert_of_ne _ hip
    | delete pod =>
        have hip : x ≠ pod.podIP := fun h => hcarries h.symm
        change (r.deletePod pod).pods.lookup x = r.pods.lookup x
        unfold deletePod
        split
        · rfl
        · exact Finmap.lookup_erase_ne hip

/-- The last event that carries an address decides its entry. -/
theorem lookup_watch (events : List PodEvent) (x : String) (hx : x ≠ "") :
    (watch events).pods.lookup x = (lastCarrying events x).bind entry := by
  -- The last event is the last step of the loop, so the list is taken from its end.
  induction events using List.reverseRecOn with
  | nil => rfl
  | append_singleton events e ih =>
      have hwatch : watch (events ++ [e]) = (watch events).handle e := by
        simp [watch]
      rw [hwatch, lookup_handle _ e x hx, ih]
      by_cases hcarries : e.pod.podIP = x
      · simp [lastCarrying, hcarries]
      · simp [lastCarrying, hcarries]

theorem lastCarrying_eq_none (events : List PodEvent) (x : String) :
    lastCarrying events x = none ↔ ∀ e ∈ events, e.pod.podIP ≠ x := by
  simp [lastCarrying]

theorem lastCarrying_eq_some (events : List PodEvent) (x : String) (e : PodEvent)
    (h : lastCarrying events x = some e) :
    e.pod.podIP = x ∧
      ∃ before after, events = before ++ e :: after ∧ ∀ e' ∈ after, e'.pod.podIP ≠ x := by
  rcases List.find?_eq_some_iff_append.mp h with ⟨hcarries, later, earlier, heq, hlater⟩
  refine ⟨of_decide_eq_true hcarries, earlier.reverse, later.reverse, ?_, ?_⟩
  · rw [← List.reverse_reverse events, heq]
    simp
  · intro e' he'
    have hnot := hlater e' (List.mem_reverse.mp he')
    simpa using hnot

/-- The text that is looked up is there if the address is. -/
theorem stripPort_ne_empty (a : String) (ha : a ≠ "") : stripPort a ≠ "" := by
  unfold stripPort
  split
  · exact ha
  · next host _ =>
    split
    · exact ha
    · next hkeep => exact fun hhost => hkeep (Or.inl hhost)

/-- The address of an update resolves to its pod. -/
theorem resolveFromPodIP_update (events : List PodEvent) (a : String) (p : Pod) (ha : a ≠ "")
    (hlast : lastCarrying events (stripPort a) = some (.update p)) :
    (watch events).resolveFromPodIP a = .ok p.identity := by
  have hentry := lookup_watch events (stripPort a) (stripPort_ne_empty a ha)
  rw [hlast] at hentry
  simp [resolveFromPodIP, ha, hentry, entry, Pod.identity]

/-- An address without an entry is not found. -/
theorem resolveFromPodIP_not_found (events : List PodEvent) (a : String) (ha : a ≠ "")
    (hlast : (lastCarrying events (stripPort a)).bind entry = none) :
    (watch events).resolveFromPodIP a =
      .error ("pod with IP " ++ stripPort a ++ " not found in cache") := by
  have hentry := lookup_watch events (stripPort a) (stripPort_ne_empty a ha)
  rw [hlast] at hentry
  simp [resolveFromPodIP, ha, hentry]

end Cache

section Peers

/-- The pod last stored for an address. -/
def storedFor (pods : List Pod) (addr : Addr) : Option Pod :=
  pods.reverse.find? fun p => parseAddr p.podIP = some addr

/-- The answer that belongs to a pod, or to none. -/
def Answers : Option Pod → Except String WorkloadIdentity → Prop
  | some p, result => result = .ok p.identity
  | none, result => ∃ e, result = .error e

theorem stripPort_of_not_colon (a : String) (h : ':' ∉ a.toList) : stripPort a = a := by
  unfold stripPort
  rw [beforeLast_eq_none ':' a h]

theorem ofList_ne_empty (l : List Char) (hl : l ≠ []) : String.ofList l ≠ "" := by
  intro hempty
  have hnil := congrArg String.toList hempty
  rw [String.toList_ofList, String.toList_empty] at hnil
  exact hl hnil

/-- Without a bracket the text is cut at its last colon. -/
theorem stripPort_cut (l r : List Char) (hl : l ≠ []) (hr : ':' ∉ r)
    (hbracket : ']' ∉ l ++ ':' :: r) :
    stripPort (String.ofList (l ++ ':' :: r)) = String.ofList l := by
  have hhost : ¬(String.ofList l = "" ∨
      (String.ofList (l ++ ':' :: r)).toList.contains ']' = true) := by
    rintro (hempty | hcontains)
    · exact ofList_ne_empty l hl hempty
    · rw [String.toList_ofList, List.contains_eq_mem] at hcontains
      exact hbracket (of_decide_eq_true hcontains)
  unfold stripPort
  rw [beforeLast_append ':' l r hr]
  exact if_neg hhost

/-- IPv4 text alone is looked up as it is. -/
theorem stripPort_ipv4 (x : String) (octets : List Nat) (hx : parseIPv4 x.toList = some octets) :
    stripPort x = x ∧ x ≠ "" := by
  have hcolon := not_mem_of_parseIPv4 _ octets hx ':' (by decide) (by decide)
  refine ⟨stripPort_of_not_colon x hcolon, fun hempty => ne_nil_of_parseIPv4 _ octets hx ?_⟩
  rw [hempty, String.toList_empty]

/-- IPv4 text is looked up without its port. -/
theorem stripPort_peer4 (a : String) (octets : List Nat) (h : PeerText a (.v4 octets)) :
    parseIPv4 (stripPort a).toList = some octets ∧ a ≠ "" := by
  cases h with
  | bare _ _ haddr =>
      have hfour := (parseAddr_eq_v4 a octets).mp haddr
      rcases stripPort_ipv4 a octets hfour with ⟨hstrip, ha⟩
      rw [hstrip]
      exact ⟨hfour, ha⟩
  | port4 s port _ hfour hport =>
      have htext : s ++ ":" ++ port = String.ofList (s.toList ++ ':' :: port.toList) := by
        apply String.toList_injective
        simp
      have hbracket : ']' ∉ s.toList ++ ':' :: port.toList := by
        have hs := not_mem_of_parseIPv4 _ octets hfour ']' (by decide) (by decide)
        have hp := not_mem_of_isPort port hport ']' (by decide)
        simp [hs, hp]
      have hcolon := not_mem_of_isPort port hport ':' (by decide)
      rw [htext, stripPort_cut _ _ (ne_nil_of_parseIPv4 _ octets hfour) hcolon hbracket,
        String.toList_ofList]
      exact ⟨hfour, ofList_ne_empty _ (by simp)⟩

/-- A bare IPv6 address is looked up without its last group. -/
theorem stripPort_bare6 (a : String) (groups : List Nat)
    (hsix : parseIPv6 a.toList = some groups) :
    stripPort a ≠ a ∧ a ≠ "" := by
  rcases colon_of_parseIPv6 _ groups hsix with ⟨a₀, b₀, heq₀, ha₀⟩
  rcases exists_last_colon a₀ b₀ ha₀ with ⟨before, after, heq, hbefore, hafter⟩
  have htext : a = String.ofList (before ++ ':' :: after) := by
    rw [← heq, ← heq₀, String.ofList_toList]
  have hbracket : ']' ∉ before ++ ':' :: after := by
    rw [← heq, ← heq₀]
    exact not_bracket_of_parseIPv6 _ groups hsix
  have hstrip : stripPort a = String.ofList before := by
    rw [htext, stripPort_cut before after hbefore hafter hbracket]
  constructor
  · -- What is looked up is shorter than the address.
    intro hsame
    have hlength := congrArg (fun s => s.toList.length) (hsame.symm.trans hstrip)
    rw [htext] at hlength
    simp only [String.toList_ofList, List.length_append, List.length_cons] at hlength
    omega
  · rw [htext]
    exact ofList_ne_empty _ (by simp)

/-- An address with a closing bracket is looked up with it. -/
theorem stripPort_bracketed (a : String) (hmem : ']' ∈ a.toList) : stripPort a = a := by
  unfold stripPort
  split
  · rfl
  · rw [if_pos (Or.inr (by rw [List.contains_eq_mem]; exact decide_eq_true hmem))]

/-- IPv6 text is looked up without its last group, or with its brackets: never as
    it is. -/
theorem stripPort_peer6 (a : String) (groups : List Nat) (h : PeerText a (.v6 groups)) :
    ∃ s, parseAddr s = some (.v6 groups) ∧ stripPort a ≠ s ∧ a ≠ "" := by
  cases h with
  | bare _ _ haddr => exact ⟨a, haddr, stripPort_bare6 a groups (parseAddr_eq_v6 a groups haddr)⟩
  | port6 s port _ hsix hport =>
      have hmem : ']' ∈ ("[" ++ s ++ "]:" ++ port).toList := by
        simp
      refine ⟨s, parseAddr_of_parseIPv6 s groups hsix, ?_, ?_⟩
      · -- What is looked up has a bracket, and the address has none.
        rw [stripPort_bracketed _ hmem]
        intro heq
        rw [heq] at hmem
        exact not_bracket_of_parseIPv6 _ groups hsix hmem
      · intro hempty
        rw [hempty] at hmem
        simp at hmem

/-- An IPv4 address has one text, so the pod stored for it is the one stored under
    that text. -/
theorem storedFor_v4 (pods : List Pod) (x : String) (octets : List Nat)
    (hx : parseIPv4 x.toList = some octets) :
    lastCarrying (pods.map .update) x = (storedFor pods (.v4 octets)).map .update := by
  have hsame : ∀ p : Pod, parseAddr p.podIP = some (.v4 octets) ↔ p.podIP = x := by
    intro p
    rw [parseAddr_eq_v4]
    constructor
    · intro hp
      exact String.toList_injective (eq_of_parseIPv4 _ _ octets hp hx)
    · intro hp
      rw [hp, hx]
  unfold lastCarrying storedFor
  rw [← List.map_reverse, List.find?_map]
  simp only [hsame]
  rfl

theorem answers_v4 (pods : List Pod) (a : String) (octets : List Nat)
    (h : PeerText a (.v4 octets)) :
    Answers (storedFor pods (.v4 octets))
      ((watch (pods.map .update)).resolveFromPodIP a) := by
  rcases stripPort_peer4 a octets h with ⟨hfour, ha⟩
  have hlast := storedFor_v4 pods (stripPort a) octets hfour
  cases hstored : storedFor pods (.v4 octets) with
  | none =>
      rw [hstored] at hlast
      refine ⟨_, resolveFromPodIP_not_found _ a ha ?_⟩
      rw [hlast]
      rfl
  | some p =>
      rw [hstored] at hlast
      exact resolveFromPodIP_update _ a p ha hlast

/-- A pod whose address is not the text that is looked up is missed, though it is
    stored for the address. -/
theorem not_answers_v6 (p : Pod) (a : String) (addr : Addr) (ha : a ≠ "")
    (hp : parseAddr p.podIP = some addr) (hother : stripPort a ≠ p.podIP) :
    ¬Answers (storedFor [p] addr) ((watch ([p].map .update)).resolveFromPodIP a) := by
  have hstored : storedFor [p] addr = some p := by
    simp [storedFor, hp]
  have hlast : lastCarrying ([p].map .update) (stripPort a) = none := by
    rw [lastCarrying_eq_none]
    intro e he
    rw [List.map_singleton, List.mem_singleton] at he
    rw [he]
    exact hother.symm
  rw [hstored, resolveFromPodIP_not_found _ a ha (by rw [hlast]; rfl)]
  intro hanswer
  cases hanswer

/-- Every cache of pods with well-formed addresses answers for a source address,
    with or without a port, just when the address is IPv4. -/
theorem resolves_stored_iff (a : String) (addr : Addr) (h : PeerText a addr) :
    (∀ pods : List Pod, (∀ p ∈ pods, (parseAddr p.podIP).isSome = true) →
      Answers (storedFor pods addr) ((watch (pods.map .update)).resolveFromPodIP a)) ↔
    ∃ octets, addr = .v4 octets := by
  cases addr with
  | v4 octets =>
      refine ⟨fun _ => ⟨octets, rfl⟩, fun _ pods _ => ?_⟩
      exact answers_v4 pods a octets h
  | v6 groups =>
      refine ⟨fun hall => ?_, ?_⟩
      · rcases stripPort_peer6 a groups h with ⟨s, hs, hother, ha⟩
        -- One pod that has the address itself is enough to be missed.
        let p : Pod := ⟨"pod", "default", "default", s⟩
        refine absurd (hall [p] ?_) (not_answers_v6 p a (.v6 groups) ha hs hother)
        intro q hq
        rw [List.mem_singleton.mp hq]
        simp [p, hs]
      · rintro ⟨octets, hv4⟩
        cases hv4

/-- A pod of the web service, at an IPv4 address. -/
def webPod : Pod := ⟨"web-1", "shop", "web", "10.0.0.42"⟩

/-- A pod of the same service, at an IPv6 address. -/
def webPod6 : Pod := ⟨"web-2", "shop", "web", "fd00::1"⟩

theorem peerText_webPod : PeerText ("10.0.0.42" ++ ":" ++ "8080") (.v4 [10, 0, 0, 42]) :=
  .port4 "10.0.0.42" "8080" [10, 0, 0, 42] (by decide) (by decide)

theorem resolves_stored_port :
    Answers (storedFor [webPod] (.v4 [10, 0, 0, 42]))
      ((watch ([webPod].map .update)).resolveFromPodIP ("10.0.0.42" ++ ":" ++ "8080")) :=
  (resolves_stored_iff _ _ peerText_webPod).mpr ⟨_, rfl⟩ [webPod] (by decide)

/-- A bare IPv6 address that no pod has resolves to the pod whose address is left
    when its last group is cut off. -/
theorem last_group_cut :
    PeerText "fd00::1:2" (.v6 [0xfd00, 0, 0, 0, 0, 0, 1, 2]) ∧
    (∀ p ∈ [webPod6], (parseAddr p.podIP).isSome = true) ∧
    storedFor [webPod6] (.v6 [0xfd00, 0, 0, 0, 0, 0, 1, 2]) = none ∧
    (watch ([webPod6].map .update)).resolveFromPodIP "fd00::1:2" = .ok webPod6.identity := by
  refine ⟨.bare _ _ (by decide), by decide, by decide, ?_⟩
  exact resolveFromPodIP_update _ _ webPod6 (by decide) (by decide)

end Peers

section Holders

/-- A pod holds an address: its latest event is an update with the address, and no
    other pod was updated with it since. -/
def Holds (events : List PodEvent) (x : String) (p : Pod) (after : List PodEvent) : Prop :=
  (∃ before, events = before ++ .update p :: after) ∧ p.podIP = x ∧
    (∀ e ∈ after, e.podKey ≠ (PodEvent.update p).podKey) ∧
    ∀ q, .update q ∈ after → q.podIP ≠ x

/-- No pod's latest event is an update with the address. -/
def Unheld (events : List PodEvent) (x : String) : Prop :=
  ∀ before p after, events = before ++ .update p :: after → p.podIP = x →
    ∃ e ∈ after, e.podKey = (PodEvent.update p).podKey

/-- A pod was updated with the address, and its latest event is not an update with the
    address. -/
structure HasLeft (events : List PodEvent) (x : String) (p : Pod) : Prop where
  held : .update p ∈ events ∧ p.podIP = x
  latest : ∃ before e after, events = before ++ e :: after ∧
    e.podKey = (PodEvent.update p).podKey ∧
    (∀ e' ∈ after, e'.podKey ≠ (PodEvent.update p).podKey) ∧ ∀ q, e = .update q → q.podIP ≠ x

/-- A lookup of the address finds the entry of a pod, and answers with its identity. -/
structure ResolvesTo (r : IdentityResolver) (x : String) (p : Pod) : Prop where
  found : r.pods.lookup x = entry (.update p)
  answer : r.resolveFromPodIP x = .ok p.identity

/-- The address resolves to its holder, to nobody if no pod has it, and to no pod that
    has left it. -/
structure Tracks (events : List PodEvent) (x : String) : Prop where
  holder : ∀ p after, Holds events x p after →
    (watch events).resolveFromPodIP x = .ok p.identity
  nobody : Unheld events x →
    (watch events).resolveFromPodIP x = .error ("pod with IP " ++ x ++ " not found in cache")
  left : ∀ p, HasLeft events x p → ¬ResolvesTo (watch events) x p

/-- A deletion of another pod carries the address after its holder took it. -/
def LateDelete (events : List PodEvent) (x : String) : Prop :=
  ∃ p after q, Holds events x p after ∧ .delete q ∈ after ∧ q.podIP = x

/-- The last pod to take the address has left it, by an event that does not carry it, and
    no other event carries it since. -/
def GivenUp (events : List PodEvent) (x : String) : Prop :=
  ∃ before p after, events = before ++ .update p :: after ∧ p.podIP = x ∧
    (∀ e ∈ after, e.pod.podIP ≠ x) ∧ ∃ e ∈ after, e.podKey = (PodEvent.update p).podKey

/-- Two places in a list are the same place, or one is after the other. -/
theorem place_cases {α : Type} (before before' after after' : List α) (e e' : α)
    (h : before ++ e :: after = before' ++ e' :: after') :
    (e = e' ∧ after = after') ∨ e' ∈ after ∨ e ∈ after' := by
  rcases List.append_eq_append_iff.mp h with ⟨mid, _, hmid⟩ | ⟨mid, _, hmid⟩
  · cases mid with
    | nil =>
        simp only [List.nil_append, List.cons.injEq] at hmid
        exact Or.inl hmid
    | cons m ms =>
        simp only [List.cons_append, List.cons.injEq] at hmid
        exact Or.inr (Or.inl (by rw [hmid.2]; simp))
  · cases mid with
    | nil =>
        simp only [List.nil_append, List.cons.injEq] at hmid
        exact Or.inl ⟨hmid.1.symm, hmid.2.symm⟩
    | cons m ms =>
        simp only [List.cons_append, List.cons.injEq] at hmid
        exact Or.inr (Or.inr (by rw [hmid.2]; simp))

/-- An update that is the last event with the address is the holder's, if there is
    a holder. -/
theorem eq_of_holds (events before after after' : List PodEvent) (x : String) (p q : Pod)
    (heq : events = before ++ .update p :: after) (hp : p.podIP = x)
    (hlast : ∀ e ∈ after, e.pod.podIP ≠ x) (hq : Holds events x q after') :
    q = p ∧ after' = after := by
  rcases hq with ⟨⟨before', heq'⟩, hqx, _, hnone⟩
  -- The later of the two updates would come after the last one.
  rcases place_cases _ _ _ _ _ _ (heq'.symm.trans heq) with ⟨hsame, hafter⟩ | hmem | hmem
  · cases hsame
    exact ⟨rfl, hafter⟩
  · exact absurd hp (hnone p hmem)
  · exact absurd hqx (hlast _ hmem)

/-- A deletion that is the last event with the address comes after the holder's
    update. -/
theorem mem_of_holds (events before after after' : List PodEvent) (x : String) (p q : Pod)
    (heq : events = before ++ .delete p :: after)
    (hlast : ∀ e ∈ after, e.pod.podIP ≠ x) (hq : Holds events x q after') :
    .delete p ∈ after' := by
  rcases hq with ⟨⟨before', heq'⟩, hqx, _, _⟩
  rcases place_cases _ _ _ _ _ _ (heq'.symm.trans heq) with ⟨hsame, _⟩ | hmem | hmem
  · cases hsame
  · exact hmem
  · exact absurd hqx (hlast _ hmem)

/-- Of an address no event carries, there is nothing to lose or to give up. -/
theorem not_carried (events : List PodEvent) (x : String)
    (hnone : ∀ e ∈ events, e.pod.podIP ≠ x) :
    (∀ p after, ¬Holds events x p after) ∧ ¬LateDelete events x ∧ ¬GivenUp events x := by
  have hnobody : ∀ before p after, events = before ++ .update p :: after → p.podIP ≠ x := by
    intro before p after heq
    exact hnone (.update p) (by rw [heq]; simp)
  refine ⟨?_, ?_, ?_⟩
  · rintro p after ⟨⟨before, heq⟩, hp, _⟩
    exact hnobody before p after heq hp
  · rintro ⟨p, after, q, ⟨⟨before, heq⟩, hp, _⟩, _⟩
    exact hnobody before p after heq hp
  · rintro ⟨before, p, after, heq, hp, _⟩
    exact hnobody before p after heq hp

/-- After an update that is the last event with the address no deletion is
    late. -/
theorem not_lateDelete (events before after : List PodEvent) (x : String) (p : Pod)
    (heq : events = before ++ .update p :: after) (hp : p.podIP = x)
    (hlast : ∀ e ∈ after, e.pod.podIP ≠ x) : ¬LateDelete events x := by
  rintro ⟨q, after', d, hq, hd, hdx⟩
  rw [(eq_of_holds events before after after' x p q heq hp hlast hq).2] at hd
  exact hlast _ hd hdx

/-- An address whose last event is a deletion was not given up without one. -/
theorem not_givenUp (events before after : List PodEvent) (x : String) (p : Pod)
    (heq : events = before ++ .delete p :: after) (hp : p.podIP = x)
    (hlast : ∀ e ∈ after, e.pod.podIP ≠ x) : ¬GivenUp events x := by
  rintro ⟨before', q, after', heq', hq, hlast', _⟩
  rcases place_cases _ _ _ _ _ _ (heq'.symm.trans heq) with ⟨hsame, _⟩ | hmem | hmem
  · cases hsame
  · exact hlast' _ hmem hp
  · exact hlast _ hmem hq

/-- The last of the events with a property. -/
theorem exists_last_event (P : PodEvent → Prop) [DecidablePred P] (events : List PodEvent)
    (h : ∃ e ∈ events, P e) :
    ∃ before e after, events = before ++ e :: after ∧ P e ∧ ∀ e' ∈ after, ¬P e' := by
  induction events using List.reverseRecOn with
  | nil =>
      rcases h with ⟨e, he, _⟩
      exact absurd he List.not_mem_nil
  | append_singleton events e ih =>
      by_cases he : P e
      · exact ⟨events, e, [], rfl, he, fun e' he' => absurd he' List.not_mem_nil⟩
      · have hrest : ∃ e' ∈ events, P e' := by
          rcases h with ⟨e', he', hP⟩
          rcases List.mem_append.mp he' with hmem | hmem
          · exact ⟨e', hmem, hP⟩
          · rw [List.mem_singleton.mp hmem] at hP
            exact absurd hP he
        rcases ih hrest with ⟨before, e', after, heq, hP, hnone⟩
        refine ⟨before, e', after ++ [e], by rw [heq]; simp, hP, ?_⟩
        intro e'' he''
        rcases List.mem_append.mp he'' with hmem | hmem
        · exact hnone e'' hmem
        · rw [List.mem_singleton.mp hmem]
          exact he

/-- A pod that has an event after the last one with the address has left it. -/
theorem hasLeft_of_later (events before after : List PodEvent) (x : String) (p : Pod)
    (heq : events = before ++ .update p :: after) (hp : p.podIP = x)
    (hlast : ∀ e ∈ after, e.pod.podIP ≠ x)
    (hlater : ∃ e ∈ after, e.podKey = (PodEvent.update p).podKey) : HasLeft events x p := by
  rcases exists_last_event (fun e => e.podKey = (PodEvent.update p).podKey) after hlater with
    ⟨mid, e, rest, hafter, hkey, hnone⟩
  refine ⟨⟨by rw [heq]; simp, hp⟩, before ++ .update p :: mid, e, rest, ?_, hkey, hnone, ?_⟩
  · rw [heq, hafter]
    simp
  · rintro q rfl
    exact hlast (.update q) (by rw [hafter]; simp)

/-- A pod whose latest event is an update with the address has not left it. -/
theorem not_hasLeft (events before after : List PodEvent) (x : String) (p q : Pod)
    (heq : events = before ++ .update p :: after) (hp : p.podIP = x)
    (hnone : ∀ e ∈ after, e.podKey ≠ (PodEvent.update p).podKey)
    (hkey : (PodEvent.update q).podKey = (PodEvent.update p).podKey) : ¬HasLeft events x q := by
  intro hleft
  rcases hleft.latest with ⟨before', e, after', heq', hown, hlatest, hother⟩
  rcases place_cases _ _ _ _ _ _ (heq'.symm.trans heq) with ⟨hsame, _⟩ | hmem | hmem
  · exact hother p hsame hp
  · exact hlatest _ hmem hkey.symm
  · exact hnone e hmem (hown.trans hkey)

/-- The entry of a pod has its key. -/
theorem podKey_of_entry (p q : Pod) (h : entry (.update p) = entry (.update q)) :
    (PodEvent.update p).podKey = (PodEvent.update q).podKey := by
  have hinfo := Option.some.inj h
  exact congrArg (fun i : PodInfo => (i.nameSpace, i.name)) hinfo

/-- An address whose last event is an update was given up just when its pod has a later
    event. -/
theorem givenUp_update_iff (events before after : List PodEvent) (x : String) (p : Pod)
    (heq : events = before ++ .update p :: after) (hp : p.podIP = x)
    (hlast : ∀ e ∈ after, e.pod.podIP ≠ x) :
    GivenUp events x ↔ ∃ e ∈ after, e.podKey = (PodEvent.update p).podKey := by
  constructor
  · rintro ⟨before', q, after', heq', hq, hlast', hlater⟩
    -- Both are the last event with the address.
    rcases place_cases _ _ _ _ _ _ (heq'.symm.trans heq) with ⟨hsame, hafter⟩ | hmem | hmem
    · cases hsame
      rwa [hafter] at hlater
    · exact absurd hp (hlast' _ hmem)
    · exact absurd hq (hlast _ hmem)
  · intro hlater
    exact ⟨before, p, after, heq, hp, hlast, hlater⟩

/-- An address whose last event is an update is tracked unless it was given
    up. -/
theorem tracks_update_iff (events before after : List PodEvent) (x : String) (p : Pod)
    (heq : events = before ++ .update p :: after) (hp : p.podIP = x)
    (hlast : ∀ e ∈ after, e.pod.podIP ≠ x) (hresolves : ResolvesTo (watch events) x p) :
    Tracks events x ↔ ¬LateDelete events x ∧ ¬GivenUp events x := by
  rw [givenUp_update_iff events before after x p heq hp hlast]
  constructor
  · intro htracks
    refine ⟨not_lateDelete events before after x p heq hp hlast, fun hlater => ?_⟩
    exact htracks.left p (hasLeft_of_later events before after x p heq hp hlast hlater) hresolves
  · rintro ⟨_, hgiven⟩
    have hnone : ∀ e ∈ after, e.podKey ≠ (PodEvent.update p).podKey :=
      fun e he hkey => hgiven ⟨e, he, hkey⟩
    refine ⟨fun q after' hq => ?_, fun hunheld => ?_, fun q hleft hq => ?_⟩
    · rw [(eq_of_holds events before after after' x p q heq hp hlast hq).1]
      exact hresolves.answer
    · rcases hunheld before p after heq hp with ⟨e, he, hkey⟩
      exact absurd hkey (hnone e he)
    · have hkey := podKey_of_entry q p (hq.found.symm.trans hresolves.found)
      exact not_hasLeft events before after x p q heq hp hnone hkey hleft

/-- An address whose last event is a deletion is tracked unless the deletion was
    late. -/
theorem tracks_delete_iff (events before after : List PodEvent) (x : String) (p : Pod)
    (heq : events = before ++ .delete p :: after) (hp : p.podIP = x)
    (hlast : ∀ e ∈ after, e.pod.podIP ≠ x)
    (herr : (watch events).resolveFromPodIP x =
      .error ("pod with IP " ++ x ++ " not found in cache")) :
    Tracks events x ↔ ¬LateDelete events x ∧ ¬GivenUp events x := by
  constructor
  · intro htracks
    refine ⟨?_, not_givenUp events before after x p heq hp hlast⟩
    rintro ⟨q, after', d, hq, _⟩
    have hok := htracks.holder q after' hq
    rw [herr] at hok
    cases hok
  · rintro ⟨hlate, _⟩
    refine ⟨fun q after' hq => ?_, fun _ => herr, fun q _ hq => ?_⟩
    · have hmem := mem_of_holds events before after after' x p q heq hlast hq
      exact absurd ⟨q, after', p, hq, hmem, hp⟩ hlate
    · cases herr.symm.trans hq.answer

/-- The cache tracks an IPv4 address unless a deletion is late or the address was
    given up. -/
theorem tracks_iff (events : List PodEvent) (x : String) (octets : List Nat)
    (hx : parseIPv4 x.toList = some octets) :
    Tracks events x ↔ ¬LateDelete events x ∧ ¬GivenUp events x := by
  rcases stripPort_ipv4 x octets hx with ⟨hstrip, hne⟩
  have hentry := lookup_watch events x hne
  have hfound := fun p => resolveFromPodIP_update events x p hne
  have hmissing := resolveFromPodIP_not_found events x hne
  rw [hstrip] at hfound hmissing
  -- The last event with the address decides what is found, so the cases are its.
  cases hlast : lastCarrying events x with
  | none =>
      have hnone := not_carried events x ((lastCarrying_eq_none events x).mp hlast)
      have herr := hmissing (by rw [hlast]; rfl)
      refine ⟨fun _ => hnone.2, fun _ => ⟨?_, fun _ => herr, fun p _ hp => ?_⟩⟩
      · intro p after hp
        exact absurd hp (hnone.1 p after)
      · cases herr.symm.trans hp.answer
  | some e =>
      rcases lastCarrying_eq_some events x e hlast with ⟨hcarries, before, after, heq, hafter⟩
      rw [hlast] at hentry
      cases e with
      | update p =>
          exact tracks_update_iff events before after x p heq hcarries hafter
            ⟨hentry, hfound p hlast⟩
      | delete p =>
          exact tracks_delete_iff events before after x p heq hcarries hafter
            (hmissing (by rw [hlast]; rfl))

/-- A pod that is given the web pod's address when the web pod has finished. -/
def dbPod : Pod := ⟨"db-1", "shop", "db", "10.0.0.42"⟩

/-- The web pod at another address. -/
def movedPod : Pod := ⟨"web-1", "shop", "web", "10.0.0.43"⟩

/-- The database pod at another address. -/
def movedDbPod : Pod := ⟨"db-1", "shop", "db", "10.0.0.44"⟩

/-- The web pod's address goes to the database pod once the web pod is deleted, and the web
    pod comes back at another address. -/
theorem tracks_reused_address :
    Tracks [.update webPod, .delete webPod, .update dbPod, .update movedPod] "10.0.0.42" := by
  have hlast : ∀ e ∈ [PodEvent.update movedPod], e.pod.podIP ≠ "10.0.0.42" := by decide
  refine (tracks_iff _ _ [10, 0, 0, 42] (by decide)).mpr ⟨?_, ?_⟩
  · exact not_lateDelete _ [.update webPod, .delete webPod] _ _ dbPod rfl rfl hlast
  · intro hgiven
    have hlater := (givenUp_update_iff _ [.update webPod, .delete webPod] _ _ dbPod rfl rfl
      hlast).mp hgiven
    exact absurd hlater (by decide)

/-- The address of the database pod is not found once the web pod's deletion
    arrives, and an address a pod has left still resolves to it, whether or not another pod
    was updated with it before. -/
theorem late_and_given_up :
    (Holds [.update webPod, .update dbPod, .delete webPod] "10.0.0.42" dbPod [.delete webPod] ∧
      (watch [.update webPod, .update dbPod, .delete webPod]).resolveFromPodIP "10.0.0.42" =
        .error "pod with IP 10.0.0.42 not found in cache") ∧
    (Unheld [.update webPod, .update movedPod] "10.0.0.42" ∧
      (watch [.update webPod, .update movedPod]).resolveFromPodIP "10.0.0.42" =
        .ok webPod.identity) ∧
    (HasLeft [.update webPod, .update dbPod, .update movedDbPod] "10.0.0.42" dbPod ∧
      ResolvesTo (watch [.update webPod, .update dbPod, .update movedDbPod]) "10.0.0.42"
        dbPod) := by
  refine ⟨⟨⟨⟨[.update webPod], rfl⟩, rfl, by decide, by simp⟩, ?_⟩, ⟨?_, ?_⟩, ?_, ?_⟩
  · exact resolveFromPodIP_not_found _ _ (by decide) (by decide)
  · intro before p after heq hp
    cases before with
    | nil =>
        cases heq
        exact ⟨.update movedPod, by simp, rfl⟩
    | cons e rest =>
        cases rest with
        | nil =>
            cases heq
            exact absurd hp (by decide)
        | cons e' rest' => simp at heq
  · exact resolveFromPodIP_update _ _ webPod (by decide) (by decide)
  · exact hasLeft_of_later _ [.update webPod] [.update movedDbPod] _ dbPod rfl rfl (by decide)
      ⟨.update movedDbPod, by simp, rfl⟩
  · exact ⟨lookup_watch _ _ (by decide), resolveFromPodIP_update _ _ dbPod (by decide) (by decide)⟩

end Holders

end IdentityResolver

end ExtAuth

end Kontxt
