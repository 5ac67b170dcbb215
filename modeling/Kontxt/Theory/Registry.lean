import Kontxt.Theory.Streams

/-!
# From the Registry to the Sessions

`Core.Broadcast` gives every subscriber a session of its own, and
`Core.Registry` the map of ids that the server really has. The two are the same
server as long as ids are distinct, which they are until the counter wraps. A
handler in its loop is then in the map, so a broadcast reaches its channel, and
it is a session whose client has received nothing yet. A handler that has left
the loop is a session that was closed: the server still offers it messages, until
its deferred function runs, and nobody will read them.

So every run of the registry is a run of the sessions, and what holds of those
holds of it. A client that was sent everything its channel accepted, and whose
channel was never found full, has been sent the server's rules.

## Main definitions

* `Subscriber.session`: A handler as a session.
* `Hub.net`: A stream of the registry as one with sessions.
* `Hub.Listening`: Handlers in their loops are in the map.
* `Hub.Refines`: The stream is where a run of sessions gets.
* `Hub.Current`: What was sent and is pending adds up to the server's rules.

## Theorems

* `listening_step`: With distinct ids handlers stay in the map.
* `net_publish`: A broadcast of the registry is one of the sessions.
* `net_step`: A step of the registry is at most one of the sessions.
* `registry_refines`: Runs of the registry are runs of the sessions.
* `registry_current`: So no update is lost on it.
-/

namespace Kontxt

open Go Lib

section Registry

variable {α π κ : Type}

/-- A handler in its loop as a session, of a client that has received nothing
    yet. -/
def Subscriber.session (h : Subscriber π) : Option (Session α π κ) :=
  match h.point with
  | .sending resp => some { chan := h.chan, held := some resp, wire := h.sent, rules := ∅ }
  | .waiting => some { chan := h.chan, held := none, wire := h.sent, rules := ∅ }
  | _ => none

/-- A stream of the registry as one with sessions. -/
def Hub.net (hub : Hub α π) : Net α π κ where
  feed := hub.feed
  sessions := fun g => (hub.handlers g).bind Subscriber.session

/-- Handlers in their loops are in the map. -/
def Hub.Listening (hub : Hub α π) : Prop :=
  ∀ g h p, hub.handlers g = some h → h.pending = some p → hub.Registered g h

/-- No broadcast found the channel of a handler full. -/
def Hub.Undropped (hub : Hub α π) (g : Nat) : Prop :=
  ∀ h, hub.handlers g = some h → h.dropped = false

theorem session_eq_none (h : Subscriber π) :
    (h.session : Option (Session α π κ)) = none ↔ h.pending = none := by
  unfold Subscriber.session Subscriber.pending
  cases h.point <;> simp only [reduceCtorEq]

/-- A session queues what its handler has sent and has still to send. -/
theorem queue_session (h : Subscriber π) (p : List (Response π)) (hp : h.pending = some p) :
    ∃ σ : Session α π κ, h.session = some σ ∧ σ.queue = h.sent ++ p ∧ σ.rules = ∅ := by
  unfold Subscriber.pending at hp
  unfold Subscriber.session
  cases hpoint : h.point with
  | sending resp =>
      rw [hpoint] at hp
      rw [← Option.some.inj hp]
      exact ⟨_, rfl, rfl, rfl⟩
  | waiting =>
      rw [hpoint] at hp
      rw [← Option.some.inj hp]
      exact ⟨_, rfl, rfl, rfl⟩
  | _ =>
      rw [hpoint] at hp
      cases hp

theorem session_offer (h : Subscriber π) (resp : Response π) :
    ((h.offer resp).session : Option (Session α π κ)) = h.session.map (fun σ => σ.offer resp) := by
  unfold Subscriber.offer Subscriber.session Session.offer
  by_cases hroom : h.chan.length < channelCapacity
  · cases h.point <;> simp only [hroom, if_true, Option.map_some, Option.map_none]
  · cases h.point <;> simp only [hroom, if_false, Option.map_some, Option.map_none]

theorem pending_offer (h : Subscriber π) (resp : Response π) :
    (h.offer resp).pending = none ↔ h.pending = none := by
  unfold Subscriber.offer Subscriber.pending
  by_cases hroom : h.chan.length < channelCapacity
  · cases h.point <;> simp only [hroom, if_true, reduceCtorEq]
  · cases h.point <;> simp only [hroom, if_false, reduceCtorEq]

/-- Moving a handler moves its session and no other. -/
theorem net_setHandler (hub : Hub α π) (g : Nat) (h : Subscriber π) :
    ((hub.setHandler g h).net : Net α π κ) = hub.net.setSession g h.session := by
  unfold Hub.net Hub.setHandler Net.setSession
  refine congrArg (Net.mk hub.feed) (funext fun g' => ?_)
  by_cases hg : g' = g
  · simp only [hg, Function.update_self, Option.bind_some]
  · simp only [Function.update_of_ne hg]

theorem sessions_net (hub : Hub α π) (g : Nat) (h : Subscriber π) (hg : hub.handlers g = some h) :
    (hub.net : Net α π κ).sessions g = h.session := by
  unfold Hub.net
  simp only [hg, Option.bind_some]

/-- A handler outside its loop, before and after, leaves the sessions alone. -/
theorem net_outside (hub : Hub α π) (g : Nat) (h : Subscriber π)
    (hold : (hub.net : Net α π κ).sessions g = none)
    (hnew : (h.session : Option (Session α π κ)) = none) :
    ((hub.setHandler g h).net : Net α π κ) = hub.net := by
  rw [net_setHandler, hnew, ← hold]
  unfold Net.setSession
  rw [Function.update_eq_self]

variable [DecidableEq κ]

section Ids

variable {T : RuleStream α π κ} {tag : String} {c c' : SubIDCounter} {hub hub' : Hub α π}
  {e : HubEvent α}

/-- Before the counter wraps, two handlers have different ids. -/
theorem id_ne (hnames : NamedInv tag c hub) (hcount : c.count < 2 ^ 64) (g g' : Nat)
    (h h' : Subscriber π) (hg : hub.handlers g = some h) (hg' : hub.handlers g' = some h')
    (hne : g' ≠ g) : h'.id ≠ h.id := by
  have hbound := hnames.bound g h hg
  have hbound' := hnames.bound g' h' hg'
  exact id_ne_of_near tag c hub hnames g g' h h' hg hg' hne (by omega) (by omega)

/-- Handlers stay in the map when one of them moves and keeps its id. -/
theorem listening_setHandler (hlisten : hub.Listening) (g : Nat) (h : Subscriber π)
    (hown : ∀ p, h.pending = some p → hub.Registered g h) :
    (hub.setHandler g h).Listening := by
  intro g' h' p hg' hp
  rcases of_setHandler hub g g' h h' hg' with ⟨rfl, rfl⟩ | hold
  · exact hown p hp
  · exact hlisten g' h' p hold hp

/-- With distinct ids handlers stay in the map. -/
theorem listening_step (hnames : NamedInv tag c hub) (hcount : c.count < 2 ^ 64)
    (hlisten : hub.Listening) (hstep : Hub.Step T tag c hub e c' hub') : hub'.Listening := by
  cases hstep with
  | draw g hfree =>
      refine listening_setHandler hlisten g _ fun p hp => ?_
      cases hp
  | register g h hg hpoint =>
      intro g' h' p hg' hp
      by_cases hne : g' = g
      · rw [hne, handlers_register] at hg'
        rw [hne, ← Option.some.inj hg']
        exact Finmap.lookup_insert _
      · -- The new entry stands under an id that no other handler has.
        have hold := (handlers_setHandler_ne hub g g' _ hne).symm.trans hg'
        have hid := id_ne hnames hcount g g' h h' hg hold hne
        exact (Finmap.lookup_insert_of_ne _ hid).trans (hlisten g' h' p hold hp)
  | call call =>
      intro g h' p hg' hp
      rcases of_publish hub call g h' hg' with ⟨h, hg, hid, _, hoffer⟩
      -- A broadcast moves no handler into its loop.
      have hpending : h.pending ≠ none := by
        intro hnone
        have hnone' : h'.pending = none := by
          rw [hoffer]
          split
          · exact (pending_offer h _).mpr hnone
          · exact hnone
        rw [hnone'] at hp
        cases hp
      rcases Option.ne_none_iff_exists'.mp hpending with ⟨q, hq⟩
      unfold Hub.Registered
      rw [hid]
      exact hlisten g h q hg hq
  | take g h resp rest hg hpoint hchan =>
      refine listening_setHandler hlisten g _ fun _ _ => hlisten g h (resp :: rest) hg ?_
      unfold Subscriber.pending
      rw [hpoint, hchan]
  | send g h resp hg hpoint =>
      refine listening_setHandler hlisten g _ fun _ _ => hlisten g h (resp :: h.chan) hg ?_
      unfold Subscriber.pending
      rw [hpoint]
  | fail g h resp out hg hpoint =>
      refine listening_setHandler hlisten g _ fun p hp => ?_
      cases hp
  | stop g h hg hpoint =>
      refine listening_setHandler hlisten g _ fun p hp => ?_
      cases hp
  | unregister g h hg hpoint =>
      intro g' h' p hg' hp
      by_cases hne : g' = g
      · have hown := (handlers_setHandler hub g { h with point := .returned }).symm.trans
          (hne ▸ hg')
        rw [← Option.some.inj hown] at hp
        cases hp
      · have hold := (handlers_setHandler_ne hub g g' _ hne).symm.trans hg'
        have hid := id_ne hnames hcount g g' h h' hg hold hne
        exact (Finmap.lookup_erase_ne hid).trans (hlisten g' h' p hold hp)

/-- A broadcast of the registry is one of the sessions. -/
theorem net_publish (hlisten : hub.Listening) (call : Call α) :
    ((hub.publish T call).net : Net α π κ) = hub.net.publish T call := by
  unfold Hub.net Hub.publish Net.publish
  refine congrArg (Net.mk _) (funext fun g => ?_)
  cases hg : hub.handlers g with
  | none => simp only [hg, Option.map_none, Option.bind_none]
  | some h =>
      simp only [hg, Option.map_some, Option.bind_some]
      by_cases hreg : hub.Registered g h
      · rw [if_pos hreg, session_offer]
      · -- A handler that is not in the map is not in its loop.
        have hpending : h.pending = none := by
          by_contra hpending
          rcases Option.ne_none_iff_exists'.mp hpending with ⟨p, hp⟩
          exact hreg (hlisten g h p hg hp)
        rw [if_neg hreg, (session_eq_none h).mpr hpending]
        rfl

/-- A handler that moves keeps what is recorded of its channel. -/
theorem undropped_move (g g₀ : Nat) (h₀ h₁ : Subscriber π) (hg₀ : hub.handlers g₀ = some h₀)
    (hkept : hub'.Undropped g) (hmoved : hub'.handlers = (hub.setHandler g₀ h₁).handlers)
    (hdrop : h₁.dropped = h₀.dropped) : hub.Undropped g := by
  intro h hg
  unfold Hub.Undropped at hkept
  rw [hmoved] at hkept
  by_cases hne : g = g₀
  · rw [hne] at hg hkept
    rw [← Option.some.inj (hg₀.symm.trans hg), ← hdrop]
    exact hkept h₁ (handlers_setHandler hub g₀ h₁)
  · exact hkept h ((handlers_setHandler_ne hub g₀ g h₁ hne).trans hg)

/-- A channel that was not found full by the end of a step was not before it. -/
theorem undropped_step (g : Nat) (hstep : Hub.Step T tag c hub e c' hub')
    (hkept : hub'.Undropped g) : hub.Undropped g := by
  cases hstep with
  | draw g₀ hfree =>
      intro h hg
      have hne : g ≠ g₀ := by
        intro hsame
        rw [hsame, hfree] at hg
        cases hg
      exact hkept h ((handlers_setHandler_ne hub g₀ g _ hne).trans hg)
  | call call =>
      intro h hg
      have hafter := hkept _ (congrArg (Option.map _) hg)
      by_cases hreg : hub.Registered g h
      · simp only [hreg, if_true] at hafter
        unfold Subscriber.offer at hafter
        split at hafter
        · exact hafter
        · cases hafter
      · simp only [hreg, if_false] at hafter
        exact hafter
  | register g₀ h₀ hg₀ => exact undropped_move g g₀ h₀ _ hg₀ hkept rfl rfl
  | take g₀ h₀ resp rest hg₀ => exact undropped_move g g₀ h₀ _ hg₀ hkept rfl rfl
  | send g₀ h₀ resp hg₀ => exact undropped_move g g₀ h₀ _ hg₀ hkept rfl rfl
  | fail g₀ h₀ resp out hg₀ => exact undropped_move g g₀ h₀ _ hg₀ hkept rfl rfl
  | stop g₀ h₀ hg₀ => exact undropped_move g g₀ h₀ _ hg₀ hkept rfl rfl
  | unregister g₀ h₀ hg₀ => exact undropped_move g g₀ h₀ _ hg₀ hkept rfl rfl

/-- A broadcast that leaves a handler's channel undropped found room in it. -/
theorem roomFor_publish (hlisten : hub.Listening) (g : Nat) (call : Call α)
    (hkept : (hub.publish T call).Undropped g) :
    RoomFor g (hub.net : Net α π κ) (.call call) := by
  intro σ hσ
  rcases Option.bind_eq_some_iff.mp hσ with ⟨h, hg, hsession⟩
  have hpending : h.pending ≠ none := by
    intro hnone
    rw [(session_eq_none h).mpr hnone] at hsession
    cases hsession
  rcases Option.ne_none_iff_exists'.mp hpending with ⟨p, hp⟩
  have hafter := hkept _ (congrArg (Option.map _) hg)
  simp only [hlisten g h p hg hp, if_true] at hafter
  have hroom : h.chan.length < channelCapacity := by
    by_contra hfull
    unfold Subscriber.offer at hafter
    rw [if_neg hfull] at hafter
    cases hafter
  have hchan : σ.chan = h.chan := by
    unfold Subscriber.session at hsession
    split at hsession
    · rw [← Option.some.inj hsession]
    · rw [← Option.some.inj hsession]
    · cases hsession
  rw [hchan]
  exact hroom

/-- A step of the registry is one step of the sessions, or none. -/
theorem net_step (hinv : DeliveryInv T hub) (hlisten : hub.Listening) (g : Nat)
    (hgood : ∀ call ∈ hub'.calls, call.Good T) (hkept : hub'.Undropped g)
    (hstep : Hub.Step T tag c hub e c' hub')
    (hr : ((broadcast T).restrict (RoomFor g)).Reachable hub.net) :
    ((broadcast T).restrict (RoomFor g)).Reachable hub'.net := by
  cases hstep with
  | draw g₀ hfree =>
      have hnone : (hub.net : Net α π κ).sessions g₀ = none := by
        unfold Hub.net
        simp only [hfree, Option.bind_none]
      rw [net_outside hub g₀ _ hnone rfl]
      exact hr
  | register g₀ h hg hpoint =>
      -- Nothing was sent or buffered before the handler registered.
      rcases hinv.handler g₀ h hg with hfresh | hserved
      · have hsession : (hub.net : Net α π κ).sessions g₀ = none := by
          rw [sessions_net hub g₀ h hg]
          unfold Subscriber.session
          rw [hpoint]
        have hnet : ((hub.register T g₀ h).net : Net α π κ)
            = hub.net.setSession g₀ (some (hub.net.opened T)) := by
          refine (net_setHandler hub g₀ _).trans ?_
          simp only [Subscriber.session, hfresh.chan, hfresh.sent]
          rfl
        rw [hnet]
        exact roomy_step T g _ (.subscribe g₀) _ hr trivial trivial
          (Net.Step.subscribe _ g₀ hsession)
      · exact absurd hpoint hserved.point
  | call call =>
      rw [net_publish hlisten]
      exact roomy_step T g _ (.call call) _ hr (roomFor_publish hlisten g call hkept)
        (hgood call (List.mem_append_right _ (List.mem_singleton_self call)))
        (Net.Step.call _ call)
  | take g₀ h resp rest hg hpoint hchan =>
      have hsession := sessions_net (κ := κ) hub g₀ h hg
      simp only [Subscriber.session, hpoint, hchan] at hsession
      rw [net_setHandler]
      exact roomy_step T g _ (.take g₀) _ hr trivial trivial
        (Net.Step.take _ g₀ _ resp rest hsession rfl rfl)
  | send g₀ h resp hg hpoint =>
      have hsession := sessions_net (κ := κ) hub g₀ h hg
      simp only [Subscriber.session, hpoint] at hsession
      rw [net_setHandler]
      exact roomy_step T g _ (.send g₀) _ hr trivial trivial
        (Net.Step.send _ g₀ _ resp hsession rfl)
  | fail g₀ h resp out hg hpoint =>
      -- Whether the message went out or not, the client is gone.
      rw [net_setHandler]
      exact roomy_step T g _ (.close g₀) _ hr trivial trivial (Net.Step.close _ g₀)
  | stop g₀ h hg hpoint =>
      rw [net_setHandler]
      exact roomy_step T g _ (.close g₀) _ hr trivial trivial (Net.Step.close _ g₀)
  | unregister g₀ h hg hpoint =>
      have hnone : (hub.net : Net α π κ).sessions g₀ = none := by
        rw [sessions_net hub g₀ h hg]
        unfold Subscriber.session
        rw [hpoint]
      have hnet : ((hub.unregister g₀ h).net : Net α π κ) = hub.net :=
        net_outside hub g₀ { h with point := .returned } hnone rfl
      rw [hnet]
      exact hr

end Ids

/-- With calls that are good, the stream is where a run of sessions gets, one in
    which broadcasts find room for every handler whose channel was never found
    full. -/
def Hub.Refines (T : RuleStream α π κ) (hub : Hub α π) : Prop :=
  (∀ call ∈ hub.calls, call.Good T) → ∀ g, hub.Undropped g →
    ((broadcast T).restrict (RoomFor g)).Reachable hub.net

/-- Before the counter wraps, handlers are in the map and the stream refines the
    sessions. -/
structure RegistryInv (T : RuleStream α π κ) (c : SubIDCounter) (hub : Hub α π) : Prop where
  listening : c.count < 2 ^ 64 → hub.Listening
  refines : c.count < 2 ^ 64 → hub.Refines T

variable {T : RuleStream α π κ}

theorem registryInv_new (T : RuleStream α π κ) (c : SubIDCounter) :
    RegistryInv T c (Hub.new : Hub α π) where
  listening := fun _ _ _ _ hg => (nomatch hg)
  refines := fun _ _ _ _ => System.Reachable.init _ rfl

theorem registryInv_mono (c c' : SubIDCounter) (hub : Hub α π) (hle : c.count ≤ c'.count)
    (hinv : RegistryInv T c hub) : RegistryInv T c' hub where
  listening := fun hcount => hinv.listening (hle.trans_lt hcount)
  refines := fun hcount => hinv.refines (hle.trans_lt hcount)

theorem calls_step (tag : String) (c c' : SubIDCounter) (hub hub' : Hub α π) (e : HubEvent α)
    (hstep : Hub.Step T tag c hub e c' hub') (call : Call α) (hcall : call ∈ hub.calls) :
    call ∈ hub'.calls := by
  cases hstep with
  | call made => exact List.mem_append_left _ hcall
  | _ => exact hcall

theorem registryInv_step (tag : String) (c c' : SubIDCounter) (hub hub' : Hub α π)
    (e : HubEvent α) (hstream : StreamInv T tag c hub) (hinv : RegistryInv T c hub)
    (hstep : Hub.Step T tag c hub e c' hub') : RegistryInv T c' hub' := by
  have hle := count_le_step tag c c' hub hub' e hstep
  refine ⟨fun hcount => ?_, fun hcount hgood g hkept => ?_⟩
  · exact listening_step hstream.names (hle.trans_lt hcount)
      (hinv.listening (hle.trans_lt hcount)) hstep
  · have hbefore := hinv.refines (hle.trans_lt hcount)
      (fun call hcall => hgood call (calls_step tag c c' hub hub' e hstep call hcall)) g
      (undropped_step g hstep hkept)
    exact net_step hstream.delivery (hinv.listening (hle.trans_lt hcount)) g hgood hkept hstep
      hbefore

/-- What a handler in its loop has sent and has still to send adds up to the
    server's rules, if its channel was never found full. -/
def Hub.Current (T : RuleStream α π κ) (hub : Hub α π) : Prop :=
  (∀ call ∈ hub.calls, call.Good T) → ∀ g h p, hub.handlers g = some h → h.dropped = false →
    h.pending = some p →
    Synchronized T hub.feed.rules ((h.sent ++ p).foldl T.receive ∅)

theorem current_of_refines {hits : Proto.RuleRef → κ → Bool} (hT : Lawful T hits) (hub : Hub α π)
    (href : hub.Refines T) : hub.Current T := by
  intro hgood g h p hg hdrop hp
  have hkept : hub.Undropped g := by
    intro h' hg'
    rw [← Option.some.inj (hg.symm.trans hg')]
    exact hdrop
  rcases queue_session (α := α) (κ := κ) h p hp with ⟨σ, hsession, hqueue, hrules⟩
  rcases queued_reachable hT g _ (href hgood g hkept) with ⟨hdistinct, hcaught⟩
  have hagree := hcaught σ ((sessions_net hub g h hg).trans hsession)
  rw [hqueue, hrules] at hagree
  exact synchronized_of_agrees T hub.feed _ hdistinct hagree

end Registry

/-- The three streams refine theirs. -/
structure RegistriesInv (s : StreamServer) : Prop where
  streams : StreamsInv s
  generation : RegistryInv generationStream s.subIDCounter s.generation
  verification : RegistryInv verificationStream s.subIDCounter s.verification
  issuance : RegistryInv issuanceStream s.subIDCounter s.issuance

theorem registriesInv_step (s s' : StreamServer) (e : StreamEvent) (hinv : RegistriesInv s)
    (hstep : StreamServer.Step s e s') : RegistriesInv s' := by
  have hstreams := streamsInv_step s s' e hinv.streams hstep
  cases hstep with
  | generation e c hub h =>
      have hle := count_le_step _ _ _ _ _ _ h
      exact
        { streams := hstreams
          generation := registryInv_step _ _ _ _ _ _ hinv.streams.generation hinv.generation h
          verification := registryInv_mono _ _ _ hle hinv.verification
          issuance := registryInv_mono _ _ _ hle hinv.issuance }
  | verification e c hub h =>
      have hle := count_le_step _ _ _ _ _ _ h
      exact
        { streams := hstreams
          generation := registryInv_mono _ _ _ hle hinv.generation
          verification := registryInv_step _ _ _ _ _ _ hinv.streams.verification
            hinv.verification h
          issuance := registryInv_mono _ _ _ hle hinv.issuance }
  | issuance e c hub h =>
      have hle := count_le_step _ _ _ _ _ _ h
      exact
        { streams := hstreams
          generation := registryInv_mono _ _ _ hle hinv.generation
          verification := registryInv_mono _ _ _ hle hinv.verification
          issuance := registryInv_step _ _ _ _ _ _ hinv.streams.issuance hinv.issuance h }

/-- Before the counter wraps, every stream of the server is where a run of
    sessions gets. -/
theorem registry_refines (s : StreamServer) (hr : streamServers.Reachable s)
    (hcount : s.subIDCounter.count < 2 ^ 64) :
    s.generation.Refines generationStream ∧ s.verification.Refines verificationStream ∧
      s.issuance.Refines issuanceStream := by
  have hinv : RegistriesInv s := by
    refine System.invariant RegistriesInv (fun s hs => ?_)
      (fun s e s' => registriesInv_step s s' e) s hr
    have hnew : s = StreamServer.new := hs
    rw [hnew]
    exact ⟨streamsInv_reachable _ (System.Reachable.init _ rfl), registryInv_new _ _,
      registryInv_new _ _, registryInv_new _ _⟩
  exact ⟨hinv.generation.refines hcount, hinv.verification.refines hcount,
    hinv.issuance.refines hcount⟩

/-- Before the counter wraps, a client whose channel was never found full is sent
    the server's rules: a client that applies what was sent to it, and then what
    is pending, holds exactly them. -/
theorem registry_current (s : StreamServer) (hr : streamServers.Reachable s)
    (hcount : s.subIDCounter.count < 2 ^ 64) :
    s.generation.Current generationStream ∧ s.verification.Current verificationStream ∧
      s.issuance.Current issuanceStream := by
  rcases registry_refines s hr hcount with ⟨hgen, hver, hiss⟩
  exact ⟨current_of_refines lawful_generation _ hgen, current_of_refines lawful_verification _ hver,
    current_of_refines lawful_issuance _ hiss⟩

end Kontxt
