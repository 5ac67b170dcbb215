import Kontxt.Core.RuleServer
import Kontxt.Lib.Replica

/-!
# Snapshots and Deltas

The server keeps a list of rules and a client keeps a map, and the two are
edited by different code: the server scans for the first rule with a key, the
client stores and deletes by key. They hold the same rules all the same. Each
stream is an instance of `Replica`, where a client agrees with the server when
looking up a key in its map gives what a scan of the server's list gives.

What a stream has to provide for this is `Lawful`: its converters are inverse
to each other, and a removal clears the same keys on both sides. The server's
half of the second part needs distinct keys, because removing the first match
would otherwise uncover another, so distinct keys are the invariant the server
carries.

## Main definitions

* `Lawful`: What a stream owes its clients.
* `KeyedMap`: A map that stores rules under their own keys.
* `RuleStream.replica`: A lawful stream as a primary with replicas.
* `RuleStream.subscriber`: The map of a client that saw every message.
* `Synchronized`: A map holds exactly a list of rules, each under its key.

## Theorems

* `protoToGenerationRule_toProto`: Generation rules survive the wire.
* `protoToVerificationRule_toProto`: Verification rules survive the wire.
* `protoToIssuanceRule_toProto`: Issuance rules survive the wire.
* `lawful_generation`, `lawful_verification`, `lawful_issuance`: The streams
  are lawful.
* `keyedMap_receive`: Clients store rules under their own keys.
* `streams_refine`: A client that saw every message holds the server's rules.
-/

namespace Kontxt

open Go Lib

/-- Mapping a list under a test that it is not empty is mapping it. -/
theorem ite_map (α β : Type) (f : α → β) (l : List α) :
    (if l.length > 0 then l.map f else []) = l.map f := by
  cases l with
  | nil => rfl
  | cons x xs =>
      have hlen : (x :: xs).length > 0 := by
        rw [List.length_cons]
        omega
      rw [if_pos hlen]

/-- Mapping a Go map under a test that it is not empty is mapping it. -/
theorem ite_mapVal (K V W : Type) (f : V → W) (m : GoMap K V) :
    (if m.entries.card > 0 then mapVal f m else ∅) = mapVal f m := by
  by_cases h : m.entries.card > 0
  · rw [if_pos h]
  · rw [if_neg h, eq_empty_of_card m h]
    rfl

/-- Generation rules survive the wire. An endpoint left out of the message was
    empty, and reads back as the empty endpoint. -/
theorem protoToGenerationRule_toProto (r : GenerationRule) :
    protoToGenerationRule (generationRuleToProto r) = r := by
  rcases r with ⟨ns, name, ⟨path, method⟩, purpose, scope, mapping, enrichments, rctx, lifetime⟩
  unfold protoToGenerationRule generationRuleToProto
  simp only [ite_map, ite_mapVal]
  simp only [mapVal_mapVal, List.map_map]
  have hmapping : mapVal (fun v : V1alpha1.TctxFieldMapping =>
      ({ source := v.source, field := v.field, required := v.required } :
        V1alpha1.TctxFieldMapping)) mapping = mapping := mapVal_id mapping
  have henrich : enrichments.map ((fun e : Proto.TctxEnrichment =>
      ({ field := e.field, enricher := e.enricher } : V1alpha1.TctxEnrichment)) ∘
      fun e => { field := e.field, enricher := e.enricher }) = enrichments := List.map_id _
  rw [hmapping, henrich]
  by_cases hep : path ≠ "" ∨ method ≠ ""
  · rw [if_pos hep]
    rfl
  · rw [if_neg hep]
    -- Nothing was sent, and nothing reads back as the empty endpoint.
    rw [not_or, not_not, not_not] at hep
    rw [hep.1, hep.2]

theorem protoToVerificationRule_toProto (r : VerificationRule) :
    protoToVerificationRule (verificationRuleToProto r) = r := by
  rcases r with ⟨ns, name, svc, scope, tctx, cel, endpoints, narrow⟩
  unfold protoToVerificationRule verificationRuleToProto
  simp only [ite_map]
  simp only [List.map_map]
  have hcel : cel.map ((fun c : Proto.CELRule =>
      ({ name := c.name, cel := c.cel, message := c.message } : CELRule)) ∘
      fun c => { name := c.name, cel := c.cel, message := c.message }) = cel := List.map_id _
  have hep : endpoints.map ((fun e : Proto.EndpointSpec =>
      ({ path := e.path, method := e.method } : V1alpha1.EndpointSpec)) ∘ endpointToProto)
      = endpoints := List.map_id _
  rw [hcel, hep]

theorem protoToIssuanceRule_toProto (r : IssuanceRule) :
    protoToIssuanceRule (issuanceRuleToProto r) = r :=
  rfl

section Streams

variable {α π κ : Type} [DecidableEq κ] (T : RuleStream α π κ)

/-- What a stream owes its clients, for removals that clear the keys `hits`
    selects: converters that lose nothing, and removals that clear the same
    keys in a list as in a map. -/
structure Lawful (hits : Proto.RuleRef → κ → Bool) : Prop where
  protoTo_toProto : ∀ r, T.protoTo (T.toProto r) = r
  view_remove : ∀ ref l, DistinctKeys T.key l → ∀ k,
    view T.key (T.remove ref l) k = if hits ref k then none else view T.key l k
  remove_sublist : ∀ ref l, (T.remove ref l).Sublist l
  lookup_delete : ∀ ref m k,
    (T.delete ref m).lookup k = if hits ref k then none else m.lookup k

/-- An Update argument has distinct keys; other calls are free. -/
def Call.Good : Call α → Prop
  | .update rules => DistinctKeys T.key rules
  | _ => True

/-- A client agrees with the server when its map is the view of the list. -/
def Agrees (f : Feed α) (m : GoMap κ α) : Prop :=
  ∀ k, m.lookup k = view T.key f.rules k

variable {T} {hits : Proto.RuleRef → κ → Bool}

theorem map_protoTo_toProto (hT : Lawful T hits) (l : List α) :
    (l.map T.toProto).map T.protoTo = l := by
  rw [List.map_map]
  have hid : T.protoTo ∘ T.toProto = id := funext hT.protoTo_toProto
  rw [hid, List.map_id]

/-- A call keeps the server's keys distinct. -/
theorem distinctKeys_call (hT : Lawful T hits) (f : Feed α) (c : Call α) (hc : c.Good T)
    (hf : DistinctKeys T.key f.rules) : DistinctKeys T.key (T.call f c).1.rules := by
  cases c with
  | update rules => exact hc
  | upsert rule => exact distinctKeys_upsertFirst T.key rule f.rules hf
  | remove nameSpace name =>
      exact distinctKeys_sublist T.key (hT.remove_sublist { nameSpace, name } f.rules) hf

/-- A snapshot replaces whatever a client held by the rules it carries. -/
theorem receive_snapshot (hT : Lawful T hits) (rules : List α) (resp : Response π)
    (hresp : resp.update = some (.snapshot (rules.map T.toProto))) (m : GoMap κ α) :
    T.receive m resp = insertAll T.key ∅ rules := by
  unfold RuleStream.receive
  rw [hresp]
  exact congrArg _ (map_protoTo_toProto hT rules)

/-- A snapshot makes any client agree. -/
theorem agrees_receive_snapshot (hT : Lawful T hits) (rules : List α) (version : UInt64)
    (versionInfo : String) (hd : DistinctKeys T.key rules) (m : GoMap κ α) :
    Agrees T { rules := rules, version := version }
      (T.receive m { update := some (.snapshot (rules.map T.toProto))
                     versionInfo := versionInfo }) := by
  intro k
  rw [receive_snapshot hT rules _ rfl]
  exact lookup_insertAll_empty T.key rules hd k

/-- A client that agrees with the server before a call agrees after the call
    and its message. -/
theorem agrees_receive_call (hT : Lawful T hits) (f : Feed α) (c : Call α) (m : GoMap κ α)
    (hc : c.Good T) (hf : DistinctKeys T.key f.rules) (h : Agrees T f m) :
    Agrees T (T.call f c).1 (T.receive m (T.call f c).2) := by
  cases c with
  | update rules => exact agrees_receive_snapshot hT rules _ _ hc m
  | upsert rule =>
      intro k
      -- The client stores one rule where the server edits its list.
      have hreceive : T.receive m (T.call f (.upsert rule)).2 = m.insert (T.key rule) rule := by
        unfold RuleStream.receive RuleStream.call RuleStream.upsertRule
        simp only [List.map_cons, List.map_nil, hT.protoTo_toProto, List.foldl_nil]
        rfl
      have hcall : (T.call f (.upsert rule)).1.rules = upsertFirst T.key rule f.rules := rfl
      rw [hreceive, hcall, view_upsertFirst]
      by_cases hk : T.key rule = k
      · rw [if_pos hk, ← hk, Finmap.lookup_insert]
      · rw [if_neg hk, Finmap.lookup_insert_of_ne m (fun hc => hk hc.symm), h k]
  | remove nameSpace name =>
      intro k
      -- A removal is sent whether or not it removed anything, and clears the same
      -- keys on both sides.
      have hreceive : T.receive m (T.call f (.remove nameSpace name)).2 =
          T.delete { nameSpace := nameSpace, name := name } m := rfl
      have hcall : (T.call f (.remove nameSpace name)).1.rules =
          T.remove { nameSpace := nameSpace, name := name } f.rules := rfl
      rw [hreceive, hcall, hT.lookup_delete, hT.view_remove _ _ hf, h k]

/-- A map that stores rules under their own keys, as the clients do. -/
def KeyedMap (T : RuleStream α π κ) (m : GoMap κ α) : Prop :=
  ∀ k r, m.lookup k = some r → T.key r = k

theorem keyedMap_empty (T : RuleStream α π κ) : KeyedMap T ∅ := by
  intro k r h
  rw [Finmap.lookup_empty] at h
  cases h

theorem keyedMap_insertAll (T : RuleStream α π κ) (m : GoMap κ α) (hm : KeyedMap T m)
    (l : List α) : KeyedMap T (insertAll T.key m l) := by
  intro k r h
  rw [lookup_insertAll, Option.or_eq_some_iff] at h
  rcases h with hview | ⟨_, hlookup⟩
  · exact (mem_of_view T.key _ k r hview).2
  · exact hm k r hlookup

theorem keyedMap_delete (hT : Lawful T hits) (ref : Proto.RuleRef) (m : GoMap κ α)
    (hm : KeyedMap T m) : KeyedMap T (T.delete ref m) := by
  intro k r h
  rw [hT.lookup_delete] at h
  by_cases hhit : hits ref k = true
  · rw [if_pos hhit] at h
    cases h
  · rw [if_neg hhit] at h
    exact hm k r h

/-- Handling a message keeps rules under their own keys. -/
theorem keyedMap_receive (hT : Lawful T hits) (m : GoMap κ α) (hm : KeyedMap T m)
    (resp : Response π) : KeyedMap T (T.receive m resp) := by
  unfold RuleStream.receive
  cases resp.update with
  | none => exact hm
  | some update =>
      cases update with
      | snapshot rules => exact keyedMap_insertAll T ∅ (keyedMap_empty T) _
      | delta upserted removed =>
          have hstored := keyedMap_insertAll T m hm (upserted.map T.protoTo)
          simp only []
          generalize insertAll T.key m (upserted.map T.protoTo) = stored at hstored ⊢
          induction removed generalizing stored with
          | nil => exact hstored
          | cons ref refs ih => exact ih _ (keyedMap_delete hT ref stored hstored)

/-- What is collected from such a map has distinct keys. -/
theorem distinctKeys_of_keyedMap (T : RuleStream α π κ) (m : GoMap κ α) (hm : KeyedMap T m)
    (l : List α) (hl : Ranges m l) : DistinctKeys T.key l := by
  have hkeys : ((l.map T.key : List κ) : Multiset κ) = m.keys.val := by
    rw [← Multiset.map_coe, hl, Multiset.map_map]
    refine Multiset.map_congr rfl ?_
    intro e he
    exact hm e.1 e.2 (Finmap.lookup_eq_some_iff.mpr he)
  unfold DistinctKeys
  rw [← Multiset.coe_nodup, hkeys]
  exact m.keys.nodup

/-- A lawful stream is a primary with replicas. -/
def RuleStream.replica (hT : Lawful T hits) :
    Replica (Feed α) (Call α) (Response π) (GoMap κ α) where
  exec := fun f c => (T.call f c).1
  emit := fun f c => (T.call f c).2
  snap := T.buildSnapshot
  apply := T.receive
  Inv := fun f => DistinctKeys T.key f.rules
  Good := fun c => c.Good T
  Agrees := Agrees T
  inv_exec := fun f c hc hf => distinctKeys_call hT f c hc hf
  agrees_snap := fun f m hf => agrees_receive_snapshot hT f.rules f.version _ hf m
  agrees_exec := fun f c m hc hf h => agrees_receive_call hT f c m hc hf h

end Streams

/-- Removals by namespace and name clear one key. -/
def hitsKey (ref : Proto.RuleRef) (k : String × String) : Bool :=
  decide ((ref.nameSpace, ref.name) = k)

/-- Removals by policy clear all keys of the policy. -/
def hitsPolicy (ref : Proto.RuleRef) (k : String × String × String) : Bool :=
  k.1 == ref.nameSpace && k.2.1 == ref.name

/-- Deleting one key of a map. -/
theorem lookup_erase_hitsKey {α : Type} (ref : Proto.RuleRef) (m : GoMap (String × String) α)
    (k : String × String) :
    (m.erase (ref.nameSpace, ref.name)).lookup k = if hitsKey ref k then none else m.lookup k := by
  by_cases hk : (ref.nameSpace, ref.name) = k
  · rw [hitsKey, if_pos (decide_eq_true hk), ← hk, Finmap.lookup_erase]
  · have hfalse : ¬hitsKey ref k = true := by
      rw [hitsKey, decide_eq_true_eq]
      exact hk
    rw [if_neg hfalse, Finmap.lookup_erase_ne (fun hc => hk hc.symm)]

/-- Removing the first rule with one key from a list with distinct keys. -/
theorem view_eraseP_hitsKey {α : Type} (key : α → String × String) (ref : Proto.RuleRef)
    (l : List α) (hd : DistinctKeys key l) (k : String × String) :
    view key (l.eraseP (fun r => key r = (ref.nameSpace, ref.name))) k
      = if hitsKey ref k then none else view key l k := by
  rw [view_eraseP key _ l hd k, hitsKey]
  simp only [decide_eq_true_eq]

theorem lawful_generation : Lawful generationStream hitsKey where
  protoTo_toProto := protoToGenerationRule_toProto
  view_remove := fun ref l hd k => view_eraseP_hitsKey generationStream.key ref l hd k
  remove_sublist := fun _ _ => List.eraseP_sublist
  lookup_delete := lookup_erase_hitsKey

theorem lawful_verification : Lawful verificationStream hitsKey where
  protoTo_toProto := protoToVerificationRule_toProto
  view_remove := fun ref l hd k => view_eraseP_hitsKey verificationStream.key ref l hd k
  remove_sublist := fun _ _ => List.eraseP_sublist
  lookup_delete := lookup_erase_hitsKey

theorem lawful_issuance : Lawful issuanceStream hitsPolicy where
  protoTo_toProto := protoToIssuanceRule_toProto
  view_remove := by
    intro ref l _ k
    -- Filtering needs no distinct keys: it drops every match, not the first.
    have hfilter := view_filter issuanceStream.key (fun k => !hitsPolicy ref k) l k
    cases hhit : hitsPolicy ref k with
    | true =>
        simp only [hhit, Bool.not_true, Bool.false_eq_true, if_false] at hfilter
        rw [if_pos rfl]
        exact hfilter
    | false =>
        simp only [hhit, Bool.not_false, if_true] at hfilter
        rw [if_neg Bool.false_ne_true]
        exact hfilter
  remove_sublist := fun _ _ => List.filter_sublist
  lookup_delete := fun ref m k => lookup_deleteKeys (hitsPolicy ref) m k

section Subscribers

variable {α π κ : Type} [DecidableEq κ]

/-- The map of a client that subscribed to a feed and handled the messages of
    every later call. -/
def RuleStream.subscriber (T : RuleStream α π κ) (f : Feed α) (calls : List (Call α)) :
    GoMap κ α :=
  (T.buildSnapshot f :: T.messages f calls).foldl T.receive ∅

/-- A map holds exactly the rules of a list, each under its key. -/
structure Synchronized (T : RuleStream α π κ) (rules : List α) (m : GoMap κ α) : Prop where
  keys : ∀ k, k ∈ m ↔ ∃ r ∈ rules, T.key r = k
  values : ∀ r ∈ rules, m.lookup (T.key r) = some r

theorem synchronized_of_agrees (T : RuleStream α π κ) (f : Feed α) (m : GoMap κ α)
    (hd : DistinctKeys T.key f.rules) (h : Agrees T f m) : Synchronized T f.rules m where
  keys := by
    intro k
    rw [← Finmap.lookup_isSome, h k, Option.isSome_iff_exists]
    constructor
    · intro hgiven
      rcases hgiven with ⟨r, hr⟩
      exact ⟨r, mem_of_view T.key f.rules k r hr⟩
    · intro hgiven
      rcases hgiven with ⟨r, hr, hk⟩
      rw [← hk]
      exact ⟨r, view_of_mem T.key f.rules hd r hr⟩
  values := by
    intro r hr
    rw [h (T.key r)]
    exact view_of_mem T.key f.rules hd r hr

variable {T : RuleStream α π κ} {hits : Proto.RuleRef → κ → Bool}

theorem log_replica (hT : Lawful T hits) (calls : List (Call α)) (f : Feed α) :
    (RuleStream.replica hT).log f calls = T.messages f calls := by
  induction calls generalizing f with
  | nil => rfl
  | cons c cs ih =>
      rw [Replica.log, RuleStream.messages, ih]
      rfl

/-- `feed` is the server's state for the stream `T`, and `call?` picks out the
    calls on it: other calls leave the feed alone. -/
def Projects (T : RuleStream α π κ) (feed : RuleServer → Feed α)
    (call? : RuleServer.Method → Option (Call α)) : Prop :=
  ∀ s m, feed (s.exec m) = ((call? m).map (fun c => (T.call (feed s) c).1)).getD (feed s)

/-- What a sequence of calls on the server does to one feed is what the calls
    on that stream do. -/
theorem feed_foldl_exec (feed : RuleServer → Feed α)
    (call? : RuleServer.Method → Option (Call α)) (hT : Lawful T hits)
    (hproj : Projects T feed call?) (ms : List RuleServer.Method) (s : RuleServer) :
    feed (ms.foldl RuleServer.exec s)
      = (RuleStream.replica hT).run (feed s) (ms.filterMap call?) := by
  induction ms generalizing s with
  | nil => rfl
  | cons m ms ih =>
      rw [List.foldl_cons, ih, List.filterMap_cons, hproj s m]
      cases call? m with
      | none => rfl
      | some c => rfl

/-- One stream of the server: keys stay distinct, and a client that subscribes
    between `pre` and `post` holds the server's rules after `post`. -/
theorem stream_refines (feed : RuleServer → Feed α)
    (call? : RuleServer.Method → Option (Call α)) (hT : Lawful T hits)
    (hproj : Projects T feed call?) (hnew : (feed RuleServer.new).rules = [])
    (pre post : List RuleServer.Method)
    (hgood : ∀ m ∈ pre ++ post, ∀ c, call? m = some c → c.Good T) :
    DistinctKeys T.key (feed ((pre ++ post).foldl RuleServer.exec RuleServer.new)).rules ∧
    Synchronized T (feed ((pre ++ post).foldl RuleServer.exec RuleServer.new)).rules
      (T.subscriber (feed (pre.foldl RuleServer.exec RuleServer.new))
        (post.filterMap call?)) := by
  -- What is assumed of methods on the server is inherited by the calls on one
  -- stream, before the client joins and after.
  have hcalls : ∀ ms : List RuleServer.Method, (∀ m ∈ ms, m ∈ pre ++ post) →
      ∀ c ∈ ms.filterMap call?, c.Good T := by
    intro ms hms c hc
    rcases List.mem_filterMap.mp hc with ⟨m, hm, hmc⟩
    exact hgood m (hms m hm) c hmc
  have hinit : DistinctKeys T.key (feed RuleServer.new).rules := by
    rw [hnew]
    exact List.nodup_nil
  have hpre : DistinctKeys T.key (feed (pre.foldl RuleServer.exec RuleServer.new)).rules := by
    rw [feed_foldl_exec feed call? hT hproj]
    exact (RuleStream.replica hT).inv_run _
      (hcalls pre (fun m hm => List.mem_append_left post hm)) _ hinit
  have hgoodPost := hcalls post (fun m hm => List.mem_append_right pre hm)
  have hpost : DistinctKeys T.key
      (feed (post.foldl RuleServer.exec (pre.foldl RuleServer.exec RuleServer.new))).rules := by
    rw [feed_foldl_exec feed call? hT hproj]
    exact (RuleStream.replica hT).inv_run _ hgoodPost _ hpre
  -- The snapshot makes the client agree, and each later message keeps it so.
  have hagree : Agrees T
      (feed (post.foldl RuleServer.exec (pre.foldl RuleServer.exec RuleServer.new)))
      (T.subscriber (feed (pre.foldl RuleServer.exec RuleServer.new))
        (post.filterMap call?)) := by
    have hcaught := (RuleStream.replica hT).caughtUp_replay _ hgoodPost _ hpre ∅
    rw [log_replica, ← feed_foldl_exec feed call? hT hproj] at hcaught
    exact hcaught
  rw [List.foldl_append]
  exact ⟨hpost, synchronized_of_agrees T _ _ hpost hagree⟩

end Subscribers

/-- The Update argument of a method, if it has one, has distinct keys. -/
def RuleServer.Method.Good : RuleServer.Method → Prop
  | .generation c => c.Good generationStream
  | .verification c => c.Good verificationStream
  | .issuance c => c.Good issuanceStream

theorem projects_generation :
    Projects generationStream RuleServer.generation RuleServer.Method.generation? := by
  intro s m
  rcases m with (_ | _ | _) | (_ | _ | _) | (_ | _ | _) <;> rfl

theorem projects_verification :
    Projects verificationStream RuleServer.verification RuleServer.Method.verification? := by
  intro s m
  rcases m with (_ | _ | _) | (_ | _ | _) | (_ | _ | _) <;> rfl

theorem projects_issuance :
    Projects issuanceStream RuleServer.issuance RuleServer.Method.issuance? := by
  intro s m
  rcases m with (_ | _ | _) | (_ | _ | _) | (_ | _ | _) <;> rfl

/-- Snapshots and deltas refine the server's state, on all three streams. After
    any calls whose Update arguments have distinct keys, the server's keys are
    distinct, and a client that subscribed at any point and handled every
    message since holds exactly the server's rules. -/
theorem streams_refine (pre post : List RuleServer.Method)
    (hgood : ∀ m ∈ pre ++ post, m.Good) :
    let joined := pre.foldl RuleServer.exec RuleServer.new
    let now := (pre ++ post).foldl RuleServer.exec RuleServer.new
    (DistinctKeys generationStream.key now.generation.rules ∧
      Synchronized generationStream now.generation.rules
        (generationStream.subscriber joined.generation
          (post.filterMap RuleServer.Method.generation?))) ∧
    (DistinctKeys verificationStream.key now.verification.rules ∧
      Synchronized verificationStream now.verification.rules
        (verificationStream.subscriber joined.verification
          (post.filterMap RuleServer.Method.verification?))) ∧
    (DistinctKeys issuanceStream.key now.issuance.rules ∧
      Synchronized issuanceStream now.issuance.rules
        (issuanceStream.subscriber joined.issuance
          (post.filterMap RuleServer.Method.issuance?))) := by
  refine ⟨?_, ?_, ?_⟩
  · refine stream_refines _ _ lawful_generation projects_generation rfl pre post ?_
    intro m hm c hc
    cases m with
    | generation c' => exact Option.some.inj hc ▸ hgood _ hm
    | verification c' => cases hc
    | issuance c' => cases hc
  · refine stream_refines _ _ lawful_verification projects_verification rfl pre post ?_
    intro m hm c hc
    cases m with
    | generation c' => cases hc
    | verification c' => exact Option.some.inj hc ▸ hgood _ hm
    | issuance c' => cases hc
  · refine stream_refines _ _ lawful_issuance projects_issuance rfl pre post ?_
    intro m hm c hc
    cases m with
    | generation c' => cases hc
    | verification c' => cases hc
    | issuance c' => exact Option.some.inj hc ▸ hgood _ hm

/-- An issuance rule of a policy. -/
def samplePolicyRule (policyName ruleName cel : String) : IssuanceRule where
  policyNamespace := ""
  policyName := policyName
  ruleName := ruleName
  cel := cel
  message := "denied"
  targetNamespaces := []

/-- A client joins after two policies were published; one rule is then changed
    and the other policy removed. -/
theorem streams_refine_sample :
    Synchronized issuanceStream [samplePolicyRule "night" "weekend" "false"]
      (issuanceStream.subscriber
        { rules := [samplePolicyRule "day" "hours" "true",
            samplePolicyRule "night" "weekend" "true"]
          version := 1 }
        [.upsert (samplePolicyRule "night" "weekend" "false"), .remove "" "day"]) := by
  let pre : List RuleServer.Method := [.issuance (.update
    [samplePolicyRule "day" "hours" "true", samplePolicyRule "night" "weekend" "true"])]
  let post : List RuleServer.Method :=
    [.issuance (.upsert (samplePolicyRule "night" "weekend" "false")),
      .issuance (.remove "" "day")]
  have hupdate : DistinctKeys issuanceStream.key
      [samplePolicyRule "day" "hours" "true", samplePolicyRule "night" "weekend" "true"] := by
    decide
  have hgood : ∀ m ∈ pre ++ post, m.Good := by
    intro m hm
    rcases List.mem_cons.mp hm with rfl | hm
    · exact hupdate
    · rcases List.mem_cons.mp hm with rfl | hm
      · trivial
      · rw [List.mem_singleton.mp hm]
        trivial
  have hnow : ((pre ++ post).foldl RuleServer.exec RuleServer.new).issuance.rules
      = [samplePolicyRule "night" "weekend" "false"] := by
    decide
  rw [← hnow]
  exact (streams_refine pre post hgood).2.2.2

end Kontxt
