import Kontxt.Core.Registry
import Kontxt.Theory.Broadcast

/-!
# What a Stream Delivers

The messages one client is sent, over any run of the server. A handler builds
its snapshot under the lock that broadcasts take, so the calls made so far split
into those the snapshot shows and those whose messages may still come. Of the
latter the channel accepts some, in order. If none was refused and the handler
is still in the map, it accepted all of them, and that is what makes the versions
of an undisturbed stream consecutive: a handler that is out of the map never gets
back in, so what it accepted is a prefix even then. What the handler sends is the
snapshot and what it accepted, from the front.

Versions are numbered by calls. The message of call `k` carries `k` and a
snapshot carries the number of calls it shows, until the version wraps.

Handlers are told apart by their ids, which repeat after 2^64 draws. Two handlers
that drew nearer to each other than that have different ids, so the one that
returns deletes its own entry. A client that stays for 2^64 subscriptions shares
its id with a later one, and then deletes the other's entry on leaving.

## Main definitions

* `Response.number`: The version of a message as a number.
* `feedAt`, `since`: The rules after some calls, and the messages of the rest.
* `Delivering`: What a handler has sent and accepted.
* `Ordered`: A snapshot, then newer messages, each at most once.
* `Hub.KeepsOthers`: A handler that leaves removes no other channel.

## Theorems

* `numbers_messages`: The messages of calls are numbered on.
* `delivering_publish`: A broadcast.
* `deliveryInv_step`: A step keeps what every handler has sent in order.
* `namedInv_step`: Ids are numbered by draws.
* `stream_order`: The messages of every stream, and the registry.
* `channel_unregistered`: After 2^64 subscriptions.
-/

namespace Kontxt

open Go Lib

/-- The number a decimal numeral stands for. -/
def decimal (s : String) : Nat :=
  Nat.ofDigitChars 10 s.toList 0

theorem decimal_toString (v : UInt64) : decimal (toString v) = v.toNat := by
  have hrepr : toString v = v.toNat.repr := rfl
  unfold decimal
  rw [hrepr, Nat.toList_repr, Nat.ofDigitChars_toDigits (by decide) (by decide)]

theorem toString_uint64_injective (v w : UInt64) (h : toString v = toString w) : v = w := by
  have hdec : decimal (toString v) = decimal (toString w) := by rw [h]
  rw [decimal_toString, decimal_toString] at hdec
  exact UInt64.toNat_inj.mp hdec

/-- `version_info`, as a number. -/
def Response.number {π : Type} (resp : Response π) : Nat :=
  decimal resp.versionInfo

section Versions

variable {α π κ : Type} [DecidableEq κ] (T : RuleStream α π κ)

theorem version_call (f : Feed α) (c : Call α) : (T.call f c).1.version = f.version + 1 := by
  cases c <;> rfl

theorem versionInfo_call (f : Feed α) (c : Call α) :
    (T.call f c).2.versionInfo = toString (f.version + 1) := by
  cases c <;> rfl

/-- Counting a version up that is not the last one. -/
theorem toNat_succ (v : UInt64) (n : Nat) (h : v.toNat + (n + 1) < 2 ^ 64) :
    (v + 1).toNat = v.toNat + 1 := by
  rw [UInt64.toNat_add, UInt64.toNat_one]
  omega

theorem version_callAll (calls : List (Call α)) (f : Feed α)
    (h : f.version.toNat + calls.length < 2 ^ 64) :
    (callAll T f calls).version.toNat = f.version.toNat + calls.length := by
  induction calls generalizing f with
  | nil => rfl
  | cons c cs ih =>
      rw [List.length_cons] at h ⊢
      have hnext : (T.call f c).1.version.toNat = f.version.toNat + 1 := by
        rw [version_call]
        exact toNat_succ f.version cs.length h
      have hrest := ih (T.call f c).1 (by omega)
      rw [hnext] at hrest
      calc (callAll T f (c :: cs)).version.toNat
          = (callAll T (T.call f c).1 cs).version.toNat := rfl
        _ = f.version.toNat + (cs.length + 1) := by omega

/-- The messages of calls are numbered on from the version before them. -/
theorem numbers_messages (calls : List (Call α)) (f : Feed α)
    (h : f.version.toNat + calls.length < 2 ^ 64) :
    (T.messages f calls).map Response.number
      = List.range' (f.version.toNat + 1) calls.length := by
  induction calls generalizing f with
  | nil => rfl
  | cons c cs ih =>
      rw [List.length_cons] at h ⊢
      have hsucc := toNat_succ f.version cs.length h
      have hnext : (T.call f c).1.version.toNat = f.version.toNat + 1 := by
        rw [version_call]
        exact hsucc
      have hnumber : (T.call f c).2.number = f.version.toNat + 1 := by
        unfold Response.number
        rw [versionInfo_call, decimal_toString]
        exact hsucc
      rw [RuleStream.messages, List.map_cons, List.range'_succ, hnumber,
        ih (T.call f c).1 (by omega), hnext]

theorem callAll_append (a b : List (Call α)) (f : Feed α) :
    callAll T f (a ++ b) = callAll T (callAll T f a) b := by
  unfold callAll
  rw [List.foldl_append]

theorem messages_append (a b : List (Call α)) (f : Feed α) :
    T.messages f (a ++ b) = T.messages f a ++ T.messages (callAll T f a) b := by
  induction a generalizing f with
  | nil => rfl
  | cons c cs ih =>
      rw [List.cons_append, RuleStream.messages, ih, RuleStream.messages, List.cons_append]
      rfl

/-- The feed after the first `k` of some calls on a new server. -/
def feedAt (calls : List (Call α)) (k : Nat) : Feed α :=
  callAll T { rules := [], version := 0 } (calls.take k)

/-- The messages of the calls after the first `k`. -/
def since (calls : List (Call α)) (k : Nat) : List (Response π) :=
  T.messages (feedAt T calls k) (calls.drop k)

theorem feedAt_length (calls : List (Call α)) :
    feedAt T calls calls.length = callAll T { rules := [], version := 0 } calls := by
  unfold feedAt
  rw [List.take_length]

theorem since_length (calls : List (Call α)) : since T calls calls.length = [] := by
  unfold since
  rw [List.drop_length]
  rfl

theorem feedAt_append (calls : List (Call α)) (c : Call α) (k : Nat) (hk : k ≤ calls.length) :
    feedAt T (calls ++ [c]) k = feedAt T calls k := by
  unfold feedAt
  rw [List.take_append_of_le_length hk]

theorem since_append (calls : List (Call α)) (c : Call α) (k : Nat) (hk : k ≤ calls.length) :
    since T (calls ++ [c]) k
      = since T calls k ++ [(T.call (callAll T { rules := [], version := 0 } calls) c).2] := by
  have hall : callAll T (feedAt T calls k) (calls.drop k)
      = callAll T { rules := [], version := 0 } calls := by
    unfold feedAt
    rw [← callAll_append, List.take_append_drop]
  unfold since
  rw [feedAt_append T calls c k hk, List.drop_append_of_le_length hk, messages_append, hall]
  rfl

theorem version_feedAt (calls : List (Call α)) (k : Nat) (hk : k ≤ calls.length)
    (h : calls.length < 2 ^ 64) : (feedAt T calls k).version.toNat = k := by
  have hlen : (calls.take k).length = k := List.length_take_of_le hk
  have hzero : (0 : UInt64).toNat = 0 := rfl
  unfold feedAt
  rw [version_callAll, hlen, hzero, Nat.zero_add]
  rw [hlen, hzero]
  omega

/-- A snapshot and the messages after it are numbered on from the calls the
    snapshot shows. -/
theorem numbers_since (calls : List (Call α)) (k : Nat) (hk : k ≤ calls.length)
    (h : calls.length < 2 ^ 64) :
    (T.buildSnapshot (feedAt T calls k) :: since T calls k).map Response.number
      = List.range' k (calls.length - k + 1) := by
  have hversion := version_feedAt T calls k hk h
  have hfirst : (T.buildSnapshot (feedAt T calls k)).number = k := by
    unfold Response.number RuleStream.buildSnapshot
    rw [decimal_toString, hversion]
  have hrest : (since T calls k).map Response.number
      = List.range' (k + 1) (calls.length - k) := by
    unfold since
    rw [numbers_messages, hversion, List.length_drop]
    rw [hversion, List.length_drop]
    omega
  rw [List.map_cons, hfirst, hrest, List.range'_succ]

end Versions

section Delivery

variable {α π κ : Type} [DecidableEq κ] (T : RuleStream α π κ)

/-- What a handler in its loop has still to send, oldest first. -/
def Subscriber.pending (h : Subscriber π) : Option (List (Response π)) :=
  match h.point with
  | .sending resp => some (resp :: h.chan)
  | .waiting => some h.chan
  | _ => none

/-- The messages a handler's channel accepted, out of those broadcast since the
    handler registered. `reg` says that it is in the map. -/
structure Accepted (calls : List (Call α)) (reg : Prop) (h : Subscriber π)
    (acc : List (Response π)) : Prop where
  sub : acc.Sublist (since T calls h.start)
  whole : h.dropped = false → acc <+: since T calls h.start
  all : h.dropped = false → reg → acc = since T calls h.start

/-- A handler sends a first message and what its channel accepted, from the
    front. -/
structure Passed (first : Response π) (h : Subscriber π) (acc : List (Response π)) : Prop where
  sent : h.sent <+: first :: acc
  live : ∀ p, h.pending = some p → h.sent ++ p = first :: acc

/-- A handler that has registered. -/
structure Served (calls : List (Call α)) (reg : Prop) (h : Subscriber π) : Prop where
  point : h.point ≠ .drawn
  started : h.start ≤ calls.length
  messages : ∃ acc, Accepted T calls reg h acc ∧
    Passed (T.buildSnapshot (feedAt T calls h.start)) h acc

/-- A handler before it registers. -/
structure Fresh (reg : Prop) (h : Subscriber π) : Prop where
  point : h.point = .drawn
  sent : h.sent = []
  chan : h.chan = []
  outside : ¬reg

/-- What a handler has sent and accepted. -/
def Delivering (calls : List (Call α)) (reg : Prop) (h : Subscriber π) : Prop :=
  Fresh reg h ∨ Served T calls reg h

variable {T}

/-- Leaving the map asks less of a handler. -/
theorem delivering_mono (calls : List (Call α)) (reg reg' : Prop) (h : Subscriber π)
    (hreg : reg' → reg) (hd : Delivering T calls reg h) : Delivering T calls reg' h := by
  rcases hd with hfresh | hserved
  · exact Or.inl { hfresh with outside := fun hr => hfresh.outside (hreg hr) }
  · rcases hserved.messages with ⟨acc, hacc, hpass⟩
    refine Or.inr ⟨hserved.point, hserved.started, acc, ?_, hpass⟩
    exact { hacc with all := fun hdrop hr => hacc.all hdrop (hreg hr) }

/-- Sending and taking move a handler along what its channel accepted. -/
theorem served_move (calls : List (Call α)) (reg : Prop) (h h' : Subscriber π)
    (hpoint : h'.point ≠ .drawn) (hstart : h'.start = h.start)
    (hdrop : h'.dropped = h.dropped) (hpass : ∀ first acc, Passed first h acc → Passed first h' acc)
    (hs : Served T calls reg h) : Served T calls reg h' := by
  rcases hs.messages with ⟨acc, hacc, hold⟩
  refine ⟨hpoint, hstart ▸ hs.started, acc, ⟨?_, ?_, ?_⟩, ?_⟩
  · rw [hstart]
    exact hacc.sub
  · rw [hstart, hdrop]
    exact hacc.whole
  · rw [hstart, hdrop]
    exact hacc.all
  · rw [hstart]
    exact hpass _ _ hold

/-- Only a handler before it registers is not yet served. -/
theorem served_of_point (calls : List (Call α)) (reg : Prop) (h : Subscriber π)
    (hd : Delivering T calls reg h) (hpoint : h.point ≠ .drawn) : Served T calls reg h := by
  rcases hd with hfresh | hserved
  · exact absurd hfresh.point hpoint
  · exact hserved

/-- A handler that registers has its snapshot to send, and nothing was broadcast
    since. -/
theorem served_register (calls : List (Call α)) (reg reg' : Prop) (h : Subscriber π)
    (feed : Feed α) (hfeed : feed = callAll T { rules := [], version := 0 } calls)
    (hd : Delivering T calls reg h) (hpoint : h.point = .drawn) :
    Served T calls reg' { h with
      point := .sending (T.buildSnapshot feed), start := calls.length } := by
  rcases hd with hfresh | hserved
  · refine ⟨?_, Nat.le_refl _, [], ⟨?_, ?_, ?_⟩, ?_, ?_⟩
    · exact fun hdrawn => nomatch hdrawn
    · exact List.nil_sublist _
    · exact fun _ => List.nil_prefix
    · exact fun _ _ => (since_length T calls).symm
    · rw [hfresh.sent]
      exact List.nil_prefix
    · intro p hp
      have hp' : T.buildSnapshot feed :: h.chan = p := Option.some.inj hp
      rw [hfresh.sent, ← hp', hfresh.chan, feedAt_length, hfeed]
      rfl
  · exact absurd hpoint hserved.point

/-- A message at the back of the channel is sent last. -/
theorem pending_append (h : Subscriber π) (resp : Response π) :
    ({ h with chan := h.chan ++ [resp] } : Subscriber π).pending
      = h.pending.map (fun p => p ++ [resp]) := by
  unfold Subscriber.pending
  cases h.point <;> rfl

/-- The channel of a handler in the map accepts a message if there is room, and
    the handler is known to have missed one otherwise. -/
theorem served_offer (calls : List (Call α)) (h : Subscriber π) (c : Call α) (feed : Feed α)
    (hfeed : feed = callAll T { rules := [], version := 0 } calls) (hs : Served T calls True h) :
    Served T (calls ++ [c]) True (h.offer (T.call feed c).2) := by
  rcases hs with ⟨hpoint, hstart, acc, hacc, hpass⟩
  have hle : h.start ≤ (calls ++ [c]).length := by
    rw [List.length_append]
    omega
  have hsince := since_append T calls c h.start hstart
  rw [← hfeed] at hsince
  unfold Subscriber.offer
  by_cases hroom : h.chan.length < channelCapacity
  · rw [if_pos hroom]
    refine ⟨hpoint, hle, acc ++ [(T.call feed c).2], ⟨?_, ?_, ?_⟩, ?_, ?_⟩
    · rw [hsince]
      exact hacc.sub.append (List.Sublist.refl _)
    · -- Without a drop the channel accepted everything, and now this as well.
      intro hdrop
      rw [hsince, hacc.all hdrop trivial]
    · intro hdrop _
      rw [hsince, hacc.all hdrop trivial]
    · rw [feedAt_append T calls c h.start hstart]
      exact hpass.sent.trans (List.prefix_append (_ :: acc) _)
    · intro p hp
      rw [pending_append] at hp
      rcases Option.map_eq_some_iff.mp hp with ⟨q, hq, hqp⟩
      rw [feedAt_append T calls c h.start hstart, ← hqp, ← List.append_assoc, hpass.live q hq]
      rfl
  · rw [if_neg hroom]
    refine ⟨hpoint, hle, acc, ⟨?_, ?_, ?_⟩, ?_⟩
    · rw [hsince]
      exact hacc.sub.trans (List.sublist_append_left _ _)
    · intro hdrop
      cases hdrop
    · intro hdrop
      cases hdrop
    · rw [feedAt_append T calls c h.start hstart]
      exact ⟨hpass.sent, hpass.live⟩

/-- A handler out of the map misses a message, and what its channel accepted
    stays a prefix of what was broadcast. -/
theorem served_miss (calls : List (Call α)) (h : Subscriber π) (c : Call α)
    (hs : Served T calls False h) : Served T (calls ++ [c]) False h := by
  rcases hs with ⟨hpoint, hstart, acc, hacc, hpass⟩
  have hsince := since_append T calls c h.start hstart
  refine ⟨hpoint, ?_, acc, ⟨?_, ?_, ?_⟩, ?_⟩
  · rw [List.length_append]
    omega
  · rw [hsince]
    exact hacc.sub.trans (List.sublist_append_left _ _)
  · intro hdrop
    rw [hsince]
    exact (hacc.whole hdrop).trans (List.prefix_append _ _)
  · exact fun _ hreg => hreg.elim
  · rw [feedAt_append T calls c h.start hstart]
    exact hpass

/-- A broadcast, for a handler in the map or out of it. -/
theorem delivering_publish (calls : List (Call α)) (reg : Prop) [Decidable reg]
    (h : Subscriber π) (c : Call α) (feed : Feed α)
    (hfeed : feed = callAll T { rules := [], version := 0 } calls)
    (hd : Delivering T calls reg h) :
    Delivering T (calls ++ [c]) reg (if reg then h.offer (T.call feed c).2 else h) := by
  by_cases hreg : reg
  · rw [if_pos hreg]
    rcases delivering_mono calls reg True h (fun _ => hreg) hd with hfresh | hserved
    · exact absurd trivial hfresh.outside
    · exact delivering_mono _ True reg _ (fun _ => trivial)
        (Or.inr (served_offer calls h c feed hfeed hserved))
  · rw [if_neg hreg]
    rcases delivering_mono calls reg False h False.elim hd with hfresh | hserved
    · exact Or.inl { hfresh with outside := hreg }
    · exact delivering_mono _ False reg _ hreg (Or.inr (served_miss calls h c hserved))

/-- The feed is what the calls made it, the map holds channels of handlers, and
    every handler is delivering. -/
structure DeliveryInv (T : RuleStream α π κ) (hub : Hub α π) : Prop where
  feed : hub.feed = callAll T { rules := [], version := 0 } hub.calls
  owned : ∀ id g, hub.subscribers.lookup id = some g → hub.handlers g ≠ none
  handler : ∀ g h, hub.handlers g = some h → Delivering T hub.calls (hub.Registered g h) h

theorem deliveryInv_mono (hub : Hub α π) (hinv : DeliveryInv T hub)
    (subscribers : GoMap String Nat)
    (hsub : ∀ id g, subscribers.lookup id = some g → hub.subscribers.lookup id = some g) :
    DeliveryInv T { hub with subscribers := subscribers } where
  feed := hinv.feed
  owned := fun id g hid => hinv.owned id g (hsub id g hid)
  handler := fun g h hg => delivering_mono _ _ _ h (hsub h.id g) (hinv.handler g h hg)

/-- Moving one handler, while no other handler gets into the map. -/
theorem deliveryInv_setHandler (hub : Hub α π) (hinv : DeliveryInv T hub) (g : Nat)
    (h' : Subscriber π) (subscribers : GoMap String Nat)
    (hothers : ∀ id g', g' ≠ g → subscribers.lookup id = some g' →
      hub.subscribers.lookup id = some g')
    (hown : Delivering T hub.calls (subscribers.lookup h'.id = some g) h') :
    DeliveryInv T { hub.setHandler g h' with subscribers := subscribers } := by
  refine ⟨hinv.feed, fun id g' hid => ?_, fun g' h hg' => ?_⟩
  · by_cases hg : g' = g
    · rw [hg]
      simp only [Hub.setHandler, Function.update_self, ne_eq, reduceCtorEq, not_false_eq_true]
    · simp only [Hub.setHandler, Function.update_of_ne hg]
      exact hinv.owned id g' (hothers id g' hg hid)
  · by_cases hg : g' = g
    · rw [hg] at hg' ⊢
      simp only [Hub.setHandler, Function.update_self, Option.some.injEq] at hg'
      rw [← hg']
      exact hown
    · simp only [Hub.setHandler, Function.update_of_ne hg] at hg'
      exact delivering_mono _ _ _ h (hothers h.id g' hg) (hinv.handler g' h hg')

/-- A registered handler moves along what its channel accepted. -/
theorem deliveryInv_move (hub : Hub α π) (hinv : DeliveryInv T hub) (g : Nat)
    (h h' : Subscriber π) (hg : hub.handlers g = some h) (hpoint : h.point ≠ .drawn)
    (hpoint' : h'.point ≠ .drawn) (hid : h'.id = h.id) (hstart : h'.start = h.start)
    (hdrop : h'.dropped = h.dropped)
    (hpass : ∀ first acc, Passed first h acc → Passed first h' acc) :
    DeliveryInv T (hub.setHandler g h') := by
  refine deliveryInv_setHandler hub hinv g h' hub.subscribers (fun _ _ _ hid => hid) ?_
  have hserved := served_of_point _ _ h (hinv.handler g h hg) hpoint
  rw [hid]
  exact Or.inr (served_move _ _ h h' hpoint' hstart hdrop hpass hserved)

theorem passed_take (first : Response π) (h : Subscriber π) (acc : List (Response π))
    (resp : Response π) (rest : List (Response π)) (hpoint : h.point = .waiting)
    (hchan : h.chan = resp :: rest) (hpass : Passed first h acc) :
    Passed first { h with point := .sending resp, chan := rest } acc := by
  refine ⟨hpass.sent, fun p hp => hpass.live p ?_⟩
  rw [← hp]
  simp only [Subscriber.pending, hpoint, hchan]

/-- Sending moves the message at the front of what is pending, whether or not
    the handler goes on. -/
theorem passed_sent (first : Response π) (h : Subscriber π) (acc : List (Response π))
    (resp : Response π) (hpoint : h.point = .sending resp) (hpass : Passed first h acc) :
    (h.sent ++ [resp]) ++ h.chan = first :: acc := by
  have hlive : h.sent ++ resp :: h.chan = first :: acc := by
    refine hpass.live _ ?_
    simp only [Subscriber.pending, hpoint]
  rw [← hlive, List.append_assoc]
  rfl

theorem passed_send (first : Response π) (h : Subscriber π) (acc : List (Response π))
    (resp : Response π) (hpoint : h.point = .sending resp) (hpass : Passed first h acc) :
    Passed first { h with point := .waiting, sent := h.sent ++ [resp] } acc := by
  have hsent := passed_sent first h acc resp hpoint hpass
  refine ⟨⟨h.chan, hsent⟩, fun p hp => ?_⟩
  rw [← Option.some.inj hp]
  exact hsent

theorem passed_fail (first : Response π) (h : Subscriber π) (acc : List (Response π))
    (resp : Response π) (out : Bool) (hpoint : h.point = .sending resp)
    (hpass : Passed first h acc) :
    Passed first { h with
      point := .leaving, sent := if out then h.sent ++ [resp] else h.sent } acc := by
  refine ⟨?_, nofun⟩
  cases out with
  | true => exact ⟨h.chan, passed_sent first h acc resp hpoint hpass⟩
  | false => exact hpass.sent

/-- A handler after a broadcast is the handler before it, which was offered the
    message if it is in the map. -/
theorem of_publish (hub : Hub α π) (c : Call α) (g : Nat) (h' : Subscriber π)
    (hg' : (hub.publish T c).handlers g = some h') :
    ∃ h, hub.handlers g = some h ∧ h'.id = h.id ∧ h'.serial = h.serial ∧
      h' = if hub.Registered g h then h.offer (T.call hub.feed c).2 else h := by
  rcases Option.map_eq_some_iff.mp hg' with ⟨h, hg, hoffer⟩
  have hid : (h.offer (T.call hub.feed c).2).id = h.id := by
    unfold Subscriber.offer
    split <;> rfl
  have hserial : (h.offer (T.call hub.feed c).2).serial = h.serial := by
    unfold Subscriber.offer
    split <;> rfl
  refine ⟨h, hg, ?_, ?_, hoffer.symm⟩
  · rw [← hoffer]
    split
    · exact hid
    · rfl
  · rw [← hoffer]
    split
    · exact hserial
    · rfl

/-- A broadcast keeps every handler delivering. -/
theorem deliveryInv_publish (hub : Hub α π) (hinv : DeliveryInv T hub) (c : Call α) :
    DeliveryInv T (hub.publish T c) := by
  refine ⟨?_, fun id g hid => ?_, fun g h' hg' => ?_⟩
  · simp only [Hub.publish]
    rw [callAll_append, ← hinv.feed]
    rfl
  · simp only [Hub.publish, ne_eq, Option.map_eq_none_iff]
    exact hinv.owned id g hid
  · rcases of_publish hub c g h' hg' with ⟨h, hg, hid, _, hoffer⟩
    -- The broadcast changes neither the map nor the handler's id.
    have hreg : (hub.publish T c).Registered g h' ↔ hub.Registered g h := by
      unfold Hub.Registered
      rw [hid]
      rfl
    refine delivering_mono _ (hub.Registered g h) _ _ hreg.mp ?_
    rw [hoffer]
    exact delivering_publish hub.calls _ h c hub.feed hinv.feed (hinv.handler g h hg)

/-- A step keeps every handler delivering. -/
theorem deliveryInv_step (tag : String) (c c' : SubIDCounter) (hub hub' : Hub α π)
    (e : HubEvent α) (hinv : DeliveryInv T hub) (hstep : Hub.Step T tag c hub e c' hub') :
    DeliveryInv T hub' := by
  cases hstep with
  | draw g hfree =>
      refine deliveryInv_setHandler hub hinv g _ hub.subscribers (fun _ _ _ hid => hid) ?_
      exact Or.inl ⟨rfl, rfl, rfl, fun hreg => hinv.owned _ g hreg hfree⟩
  | register g h hg hpoint =>
      refine deliveryInv_setHandler hub hinv g _ _ (fun id g' hne hid => ?_) ?_
      · -- The only entry that is new is the handler's own.
        by_cases hsame : id = h.id
        · rw [hsame, Finmap.lookup_insert] at hid
          exact absurd (Option.some.inj hid).symm hne
        · rw [Finmap.lookup_insert_of_ne _ hsame] at hid
          exact hid
      · exact Or.inr (served_register hub.calls _ _ h hub.feed hinv.feed
          (hinv.handler g h hg) hpoint)
  | call call => exact deliveryInv_publish hub hinv call
  | take g h resp rest hg hpoint hchan =>
      exact deliveryInv_move hub hinv g h _ hg (hpoint ▸ nofun) nofun rfl rfl rfl
        (fun first acc => passed_take first h acc resp rest hpoint hchan)
  | send g h resp hg hpoint =>
      exact deliveryInv_move hub hinv g h _ hg (hpoint ▸ nofun) nofun rfl rfl rfl
        (fun first acc => passed_send first h acc resp hpoint)
  | fail g h resp out hg hpoint =>
      exact deliveryInv_move hub hinv g h _ hg (hpoint ▸ nofun) nofun rfl rfl rfl
        (fun first acc => passed_fail first h acc resp out hpoint)
  | stop g h hg hpoint =>
      exact deliveryInv_move hub hinv g h _ hg (hpoint ▸ nofun) nofun rfl rfl rfl
        (fun first acc hpass => ⟨hpass.sent, nofun⟩)
  | unregister g h hg hpoint =>
      have hleft := deliveryInv_move hub hinv g h { h with point := .returned } hg
        (hpoint ▸ nofun) nofun rfl rfl rfl (fun first acc hpass => ⟨hpass.sent, nofun⟩)
      refine deliveryInv_mono _ hleft _ (fun id g' hid => ?_)
      by_cases hsame : id = h.id
      · rw [hsame, Finmap.lookup_erase] at hid
        exact absurd hid nofun
      · rw [Finmap.lookup_erase_ne hsame] at hid
        exact hid

/-- What a stream carries: first a snapshot of the rules as they were when the
    handler registered, then messages of calls made since, in the order of the
    calls and each at most once. Versions increase, and they are consecutive
    unless a broadcast found the channel full. -/
structure Ordered (T : RuleStream α π κ) (calls : List (Call α)) (h : Subscriber π) : Prop where
  snapshot : h.sent = [] ∨ h.start ≤ calls.length ∧
    ∃ rest, h.sent = T.buildSnapshot (feedAt T calls h.start) :: rest ∧
      rest.Sublist (since T calls h.start)
  increasing : (h.sent.map Response.number).Pairwise (· < ·)
  consecutive : h.dropped = false →
    h.sent.map Response.number = List.range' h.start h.sent.length

theorem ordered_of_nil (calls : List (Call α)) (h : Subscriber π) (hsent : h.sent = []) :
    Ordered T calls h := by
  refine ⟨Or.inl hsent, ?_, fun _ => ?_⟩
  · rw [hsent]
    exact List.Pairwise.nil
  · rw [hsent]
    rfl

theorem ordered_of_served (calls : List (Call α)) (reg : Prop) (h : Subscriber π)
    (hbound : calls.length < 2 ^ 64) (hs : Served T calls reg h) : Ordered T calls h := by
  rcases hs with ⟨_, hstart, acc, hacc, hpass⟩
  have hnumbers := numbers_since T calls h.start hstart hbound
  refine ⟨?_, ?_, fun hdrop => ?_⟩
  · cases hsent : h.sent with
    | nil => exact Or.inl rfl
    | cons first rest =>
        have hfront := hpass.sent
        rw [hsent, List.cons_prefix_cons] at hfront
        refine Or.inr ⟨hstart, rest, ?_, hfront.2.sublist.trans hacc.sub⟩
        rw [hfront.1]
  · -- What was sent is part of a list whose versions are counted up.
    have hsub := hpass.sent.sublist.trans (hacc.sub.cons_cons _)
    have hmap := hsub.map Response.number
    rw [hnumbers] at hmap
    exact (List.pairwise_lt_range' 1).sublist hmap
  · -- Without a drop it is the front of that list.
    have hpre := hpass.sent.trans ((List.prefix_cons_inj _).mpr (hacc.whole hdrop))
    have hmap := hpre.map Response.number
    rw [hnumbers] at hmap
    apply List.ext_getElem
    · rw [List.length_map, List.length_range']
    · intro i hi hi'
      rw [hmap.getElem hi, List.getElem_range', List.getElem_range']

theorem ordered_of_delivering (calls : List (Call α)) (reg : Prop) (h : Subscriber π)
    (hbound : calls.length < 2 ^ 64) (hd : Delivering T calls reg h) : Ordered T calls h := by
  rcases hd with hfresh | hserved
  · exact ordered_of_nil calls h hfresh.sent
  · exact ordered_of_served calls reg h hbound hserved

end Delivery

section Names

variable {α π κ : Type} [DecidableEq κ] {T : RuleStream α π κ}

/-- Handlers are named by the numbers they drew, which are distinct. -/
structure NamedInv (tag : String) (c : SubIDCounter) (hub : Hub α π) : Prop where
  named : ∀ g h, hub.handlers g = some h → h.id = tag ++ toString (UInt64.ofNat h.serial)
  bound : ∀ g h, hub.handlers g = some h → h.serial ≤ c.count
  distinct : ∀ g g' h h', hub.handlers g = some h → hub.handlers g' = some h' →
    h.serial = h'.serial → g = g'

theorem namedInv_mono (tag : String) (c c' : SubIDCounter) (hub : Hub α π)
    (hle : c.count ≤ c'.count) (hinv : NamedInv tag c hub) : NamedInv tag c' hub :=
  { hinv with bound := fun g h hg => (hinv.bound g h hg).trans hle }

theorem of_setHandler (hub : Hub α π) (g g' : Nat) (h h' : Subscriber π)
    (hg' : (hub.setHandler g h).handlers g' = some h') :
    (g' = g ∧ h' = h) ∨ hub.handlers g' = some h' := by
  rcases of_update_eq_some hub.handlers g g' (some h) h' hg' with ⟨hg, hsome⟩ | hold
  · exact Or.inl ⟨hg, (Option.some.inj hsome).symm⟩
  · exact Or.inr hold

/-- A handler that moves keeps its id and its number. -/
theorem of_move (hub : Hub α π) (g g' : Nat) (h moved h' : Subscriber π)
    (hg : hub.handlers g = some h) (hg' : (hub.setHandler g moved).handlers g' = some h')
    (hid : moved.id = h.id) (hserial : moved.serial = h.serial) :
    ∃ h, hub.handlers g' = some h ∧ h'.id = h.id ∧ h'.serial = h.serial := by
  rcases of_setHandler hub g g' moved h' hg' with ⟨rfl, rfl⟩ | hold
  · exact ⟨h, hg, hid, hserial⟩
  · exact ⟨h', hold, rfl, rfl⟩

/-- Where a handler comes from: it was there, with its id and its number, or it
    has just drawn them. -/
theorem of_step (tag : String) (c c' : SubIDCounter) (hub hub' : Hub α π) (e : HubEvent α)
    (hstep : Hub.Step T tag c hub e c' hub') (g : Nat) (h' : Subscriber π)
    (hg' : hub'.handlers g = some h') :
    (∃ h, hub.handlers g = some h ∧ h'.id = h.id ∧ h'.serial = h.serial) ∨
      (e = .draw g ∧ c' = c.add ∧ h' = .new (tag ++ toString c.add.value) c.add.count) := by
  cases hstep with
  | draw g₀ hfree =>
      rcases of_setHandler hub g₀ g _ h' hg' with ⟨rfl, hnew⟩ | hold
      · exact Or.inr ⟨rfl, rfl, hnew⟩
      · exact Or.inl ⟨h', hold, rfl, rfl⟩
  | call call =>
      rcases of_publish hub call g h' hg' with ⟨h, hg, hid, hserial, _⟩
      exact Or.inl ⟨h, hg, hid, hserial⟩
  | register g₀ h hg => exact Or.inl (of_move hub g₀ g h _ h' hg hg' rfl rfl)
  | take g₀ h resp rest hg => exact Or.inl (of_move hub g₀ g h _ h' hg hg' rfl rfl)
  | send g₀ h resp hg => exact Or.inl (of_move hub g₀ g h _ h' hg hg' rfl rfl)
  | fail g₀ h resp out hg => exact Or.inl (of_move hub g₀ g h _ h' hg hg' rfl rfl)
  | stop g₀ h hg => exact Or.inl (of_move hub g₀ g h _ h' hg hg' rfl rfl)
  | unregister g₀ h hg => exact Or.inl (of_move hub g₀ g h _ h' hg hg' rfl rfl)

theorem counter_step (tag : String) (c c' : SubIDCounter) (hub hub' : Hub α π) (e : HubEvent α)
    (hstep : Hub.Step T tag c hub e c' hub') : c' = c ∨ c' = c.add := by
  cases hstep with
  | draw g hfree => exact Or.inr rfl
  | _ => exact Or.inl rfl

/-- The counter shows how often it was counted up, until it wraps. -/
def SubIDCounter.Counts (c : SubIDCounter) : Prop :=
  c.value = UInt64.ofNat c.count

theorem counts_add (c : SubIDCounter) (hc : c.Counts) : c.add.Counts := by
  unfold SubIDCounter.Counts SubIDCounter.add at *
  simp only [hc, UInt64.ofNat_add]
  rfl

theorem count_le_step (tag : String) (c c' : SubIDCounter) (hub hub' : Hub α π) (e : HubEvent α)
    (hstep : Hub.Step T tag c hub e c' hub') : c.count ≤ c'.count := by
  rcases counter_step tag c c' hub hub' e hstep with rfl | rfl
  · exact Nat.le_refl _
  · exact Nat.le_succ _

/-- Ids are numbered by draws. -/
theorem namedInv_step (tag : String) (c c' : SubIDCounter) (hub hub' : Hub α π) (e : HubEvent α)
    (hc : c.Counts) (hinv : NamedInv tag c hub) (hstep : Hub.Step T tag c hub e c' hub') :
    NamedInv tag c' hub' := by
  have hfrom := of_step tag c c' hub hub' e hstep
  have hle := count_le_step tag c c' hub hub' e hstep
  refine ⟨fun g h' hg' => ?_, fun g h' hg' => ?_, fun g₁ g₂ h₁ h₂ hg₁ hg₂ hserial => ?_⟩
  · rcases hfrom g h' hg' with ⟨h, hg, hid, hserial⟩ | ⟨_, _, rfl⟩
    · rw [hid, hserial]
      exact hinv.named g h hg
    · rw [counts_add c hc]
      rfl
  · rcases hfrom g h' hg' with ⟨h, hg, _, hserial⟩ | ⟨_, rfl, rfl⟩
    · rw [hserial]
      exact (hinv.bound g h hg).trans hle
    · exact Nat.le_refl _
  · -- The number just drawn is larger than every number drawn before.
    rcases hfrom g₁ h₁ hg₁ with ⟨k₁, hk₁, _, hs₁⟩ | ⟨he₁, _, rfl⟩ <;>
      rcases hfrom g₂ h₂ hg₂ with ⟨k₂, hk₂, _, hs₂⟩ | ⟨he₂, _, rfl⟩
    · exact hinv.distinct g₁ g₂ k₁ k₂ hk₁ hk₂ (hs₁ ▸ hs₂ ▸ hserial)
    · have hold := hinv.bound g₁ k₁ hk₁
      have hnew : h₁.serial = c.count + 1 := hserial
      omega
    · have hold := hinv.bound g₂ k₂ hk₂
      have hnew : c.count + 1 = h₂.serial := hserial
      omega
    · rw [he₁] at he₂
      injection he₂

/-- Two handlers that drew fewer than 2^64 numbers apart have different ids. -/
theorem id_ne_of_near (tag : String) (c : SubIDCounter) (hub : Hub α π)
    (hinv : NamedInv tag c hub) (g g' : Nat) (h h' : Subscriber π)
    (hg : hub.handlers g = some h) (hg' : hub.handlers g' = some h') (hne : g' ≠ g)
    (hlt : h.serial < h'.serial + 2 ^ 64) (hlt' : h'.serial < h.serial + 2 ^ 64) :
    h'.id ≠ h.id := by
  intro hid
  rw [hinv.named g h hg, hinv.named g' h' hg'] at hid
  have hval := congrArg UInt64.toNat
    (toString_uint64_injective _ _ ((String.append_right_inj tag).mp hid))
  rw [UInt64.toNat_ofNat', UInt64.toNat_ofNat'] at hval
  have hserial : h'.serial = h.serial := by omega
  exact hne (hinv.distinct g' g h' h hg' hg hserial)

/-- A handler that leaves removes no other handler's channel from the map, if the
    two drew fewer than 2^64 numbers apart. -/
def Hub.KeepsOthers (hub : Hub α π) (g : Nat) (hub' : Hub α π) : Prop :=
  ∀ h g' h', hub.handlers g = some h → hub.handlers g' = some h' → g' ≠ g →
    h.serial < h'.serial + 2 ^ 64 → h'.serial < h.serial + 2 ^ 64 →
    hub.Registered g' h' → hub'.Registered g' h'

theorem keepsOthers_unregister (tag : String) (c c' : SubIDCounter) (hub hub' : Hub α π)
    (g : Nat) (hinv : NamedInv tag c hub)
    (hstep : Hub.Step T tag c hub (.unregister g) c' hub') : hub.KeepsOthers g hub' := by
  intro h g' h' hg hg' hne hlt hlt' hreg
  cases hstep with
  | unregister _ k hk hpoint =>
      have hkh : k = h := Option.some.inj (hk.symm.trans hg)
      have hid := id_ne_of_near tag c hub hinv g g' h h' hg hg' hne hlt hlt'
      unfold Hub.Registered Hub.unregister at *
      rw [hkh, Finmap.lookup_erase_ne hid]
      exact hreg

end Names

/-- Every stream carries its messages in order, while fewer than 2^64 calls are
    made. -/
def Hub.InOrder {α π κ : Type} [DecidableEq κ] (T : RuleStream α π κ) (hub : Hub α π) : Prop :=
  hub.calls.length < 2 ^ 64 → ∀ g h, hub.handlers g = some h → Ordered T hub.calls h

/-- The invariant of the server: of one stream, whose counter is shared. -/
structure StreamInv {α π κ : Type} [DecidableEq κ] (T : RuleStream α π κ) (tag : String)
    (c : SubIDCounter) (hub : Hub α π) : Prop where
  delivery : DeliveryInv T hub
  names : NamedInv tag c hub

/-- The invariant of the server. -/
structure StreamsInv (s : StreamServer) : Prop where
  counts : s.subIDCounter.Counts
  generation : StreamInv generationStream "gen-" s.subIDCounter s.generation
  verification : StreamInv verificationStream "ver-" s.subIDCounter s.verification
  issuance : StreamInv issuanceStream "iss-" s.subIDCounter s.issuance

section Streams

variable {α π κ : Type} [DecidableEq κ] {T : RuleStream α π κ}

theorem streamInv_new (T : RuleStream α π κ) (tag : String) (c : SubIDCounter) :
    StreamInv T tag c (Hub.new : Hub α π) where
  delivery := ⟨rfl, fun _ _ hid => (nomatch hid), fun _ _ hg => (nomatch hg)⟩
  names := ⟨fun _ _ hg => (nomatch hg), fun _ _ hg => (nomatch hg),
    fun _ _ _ _ hg => (nomatch hg)⟩

theorem streamInv_step (tag : String) (c c' : SubIDCounter) (hub hub' : Hub α π) (e : HubEvent α)
    (hc : c.Counts) (hinv : StreamInv T tag c hub) (hstep : Hub.Step T tag c hub e c' hub') :
    StreamInv T tag c' hub' where
  delivery := deliveryInv_step tag c c' hub hub' e hinv.delivery hstep
  names := namedInv_step tag c c' hub hub' e hc hinv.names hstep

/-- A step of another stream may count the counter up. -/
theorem streamInv_mono (tag : String) (c c' : SubIDCounter) (hub : Hub α π)
    (hle : c.count ≤ c'.count) (hinv : StreamInv T tag c hub) : StreamInv T tag c' hub where
  delivery := hinv.delivery
  names := namedInv_mono tag c c' hub hle hinv.names

theorem counts_step (tag : String) (c c' : SubIDCounter) (hub hub' : Hub α π) (e : HubEvent α)
    (hc : c.Counts) (hstep : Hub.Step T tag c hub e c' hub') : c'.Counts := by
  rcases counter_step tag c c' hub hub' e hstep with rfl | rfl
  · exact hc
  · exact counts_add c hc

theorem inOrder_of_inv (tag : String) (c : SubIDCounter) (hub : Hub α π)
    (hinv : StreamInv T tag c hub) : hub.InOrder T :=
  fun hbound g h hg => ordered_of_delivering hub.calls _ h hbound (hinv.delivery.handler g h hg)

end Streams

theorem streamsInv_step (s s' : StreamServer) (e : StreamEvent) (hinv : StreamsInv s)
    (hstep : StreamServer.Step s e s') : StreamsInv s' := by
  cases hstep with
  | generation e c hub h =>
      have hle := count_le_step _ _ _ _ _ _ h
      exact
        { counts := counts_step _ _ _ _ _ _ hinv.counts h
          generation := streamInv_step _ _ _ _ _ _ hinv.counts hinv.generation h
          verification := streamInv_mono _ _ _ _ hle hinv.verification
          issuance := streamInv_mono _ _ _ _ hle hinv.issuance }
  | verification e c hub h =>
      have hle := count_le_step _ _ _ _ _ _ h
      exact
        { counts := counts_step _ _ _ _ _ _ hinv.counts h
          generation := streamInv_mono _ _ _ _ hle hinv.generation
          verification := streamInv_step _ _ _ _ _ _ hinv.counts hinv.verification h
          issuance := streamInv_mono _ _ _ _ hle hinv.issuance }
  | issuance e c hub h =>
      have hle := count_le_step _ _ _ _ _ _ h
      exact
        { counts := counts_step _ _ _ _ _ _ hinv.counts h
          generation := streamInv_mono _ _ _ _ hle hinv.generation
          verification := streamInv_mono _ _ _ _ hle hinv.verification
          issuance := streamInv_step _ _ _ _ _ _ hinv.counts hinv.issuance h }

theorem streamsInv_reachable (s : StreamServer) (hr : streamServers.Reachable s) :
    StreamsInv s := by
  refine System.invariant StreamsInv (fun s hs => ?_) (fun s e s' => streamsInv_step s s' e) s hr
  have hnew : s = StreamServer.new := hs
  rw [hnew]
  exact ⟨rfl, streamInv_new _ _ _, streamInv_new _ _ _, streamInv_new _ _ _⟩

theorem handlers_setHandler {α π : Type} (hub : Hub α π) (g : Nat) (h : Subscriber π) :
    (hub.setHandler g h).handlers g = some h := by
  simp only [Hub.setHandler, Function.update_self]

theorem handlers_setHandler_ne {α π : Type} (hub : Hub α π) (g g' : Nat) (h : Subscriber π)
    (hne : g' ≠ g) : (hub.setHandler g h).handlers g' = hub.handlers g' := by
  simp only [Hub.setHandler, Function.update_of_ne hne]

theorem handlers_register {α π κ : Type} [DecidableEq κ] (T : RuleStream α π κ) (hub : Hub α π)
    (g : Nat) (h : Subscriber π) :
    (hub.register T g h).handlers g = some { h with
      point := .sending (T.buildSnapshot hub.feed), start := hub.calls.length } :=
  handlers_setHandler hub g _

theorem handlers_unregister_ne {α π : Type} (hub : Hub α π) (g g' : Nat) (h : Subscriber π)
    (hne : g' ≠ g) : (hub.unregister g h).handlers g' = hub.handlers g' :=
  handlers_setHandler_ne hub g g' _ hne

theorem generation_step (s : StreamServer) (hr : streamServers.Reachable s)
    (e : HubEvent GenerationRule) (c : SubIDCounter)
    (hub : Hub GenerationRule Proto.GenerationRule)
    (h : Hub.Step generationStream "gen-" s.subIDCounter s.generation e c hub) :
    streamServers.Reachable { s with subIDCounter := c, generation := hub } :=
  hr.next (.generation e) _ (StreamServer.Step.generation s e c hub h)

/-- In every run of the server, with any number of clients on its three streams
    and with broadcasts that find channels full: what was sent on a stream is
    first a snapshot and then newer messages, in order and each at most once,
    while fewer than 2^64 calls are made on it. And a client's disconnect leaves
    another client's channel in its map, if fewer than 2^64 subscriptions lie
    between the two. -/
theorem stream_order (s : StreamServer) (hr : streamServers.Reachable s) :
    (s.generation.InOrder generationStream ∧ s.verification.InOrder verificationStream ∧
      s.issuance.InOrder issuanceStream) ∧
    ∀ g s',
      (StreamServer.Step s (.generation (.unregister g)) s' →
        s.generation.KeepsOthers g s'.generation ∧
          s'.verification = s.verification ∧ s'.issuance = s.issuance) ∧
      (StreamServer.Step s (.verification (.unregister g)) s' →
        s.verification.KeepsOthers g s'.verification ∧
          s'.generation = s.generation ∧ s'.issuance = s.issuance) ∧
      (StreamServer.Step s (.issuance (.unregister g)) s' →
        s.issuance.KeepsOthers g s'.issuance ∧
          s'.generation = s.generation ∧ s'.verification = s.verification) := by
  have hinv := streamsInv_reachable s hr
  refine ⟨⟨?_, ?_, ?_⟩, fun g s' => ⟨fun hstep => ?_, fun hstep => ?_, fun hstep => ?_⟩⟩
  · exact inOrder_of_inv _ _ _ hinv.generation
  · exact inOrder_of_inv _ _ _ hinv.verification
  · exact inOrder_of_inv _ _ _ hinv.issuance
  · cases hstep with
    | generation e c hub h =>
        exact ⟨keepsOthers_unregister _ _ _ _ _ g hinv.generation.names h, rfl, rfl⟩
  · cases hstep with
    | verification e c hub h =>
        exact ⟨keepsOthers_unregister _ _ _ _ _ g hinv.verification.names h, rfl, rfl⟩
  · cases hstep with
    | issuance e c hub h =>
        exact ⟨keepsOthers_unregister _ _ _ _ _ g hinv.issuance.names h, rfl, rfl⟩

/-- A broadcast reaches a channel in the map that has room. -/
theorem handlers_publish {α π κ : Type} [DecidableEq κ] (T : RuleStream α π κ) (hub : Hub α π)
    (c : Call α) (g : Nat) (h : Subscriber π) (hg : hub.handlers g = some h)
    (hreg : hub.Registered g h) (hroom : h.chan.length < channelCapacity) :
    (hub.publish T c).handlers g
      = some { h with chan := h.chan ++ [(T.call hub.feed c).2] } := by
  simp only [Hub.publish, hg, Option.map_some, hreg, if_true, Subscriber.offer, hroom]

theorem stream_order_sample :
    ∃ s h, streamServers.Reachable s ∧ s.generation.handlers 0 = some h ∧
      s.generation.calls = [.remove "shop" "gone"] ∧ h.dropped = false ∧
      h.sent.map Response.number = [0, 1] := by
  have hinit : streamServers.Reachable StreamServer.new := System.Reachable.init _ rfl
  have hdrawn := generation_step _ hinit (.draw 0) _ _ (Hub.Step.draw _ _ 0 rfl)
  have hreg := generation_step _ hdrawn (.register 0) _ _
    (Hub.Step.register _ _ 0 _ (handlers_setHandler ..) rfl)
  have hfirst := generation_step _ hreg (.send 0) _ _
    (Hub.Step.send _ _ 0 _ _ (handlers_register ..) rfl)
  have hcall := generation_step _ hfirst (.call (.remove "shop" "gone")) _ _
    (Hub.Step.call _ _ _)
  have htake := generation_step _ hcall (.take 0) _ _
    (Hub.Step.take _ _ 0 _ _ _
      (handlers_publish _ _ _ 0 _ (handlers_setHandler ..) (Finmap.lookup_insert _) (by decide))
      rfl rfl)
  have hsent := generation_step _ htake (.send 0) _ _
    (Hub.Step.send _ _ 0 _ _ (handlers_setHandler ..) rfl)
  refine ⟨_, _, hsent, handlers_setHandler .., rfl, rfl, ?_⟩
  have horder := (stream_order _ hsent).1.1 (by decide) 0 _ (handlers_setHandler ..)
  exact horder.consecutive rfl

section Wrap

/-- No rules have been changed. -/
def Uncalled (s : StreamServer) : Prop :=
  s.generation.calls = [] ∧ s.verification.calls = [] ∧ s.issuance.calls = []

/-- A client connects. -/
theorem reachable_registered (s : StreamServer) (hr : streamServers.Reachable s) (g : Nat)
    (hfree : s.generation.handlers g = none) :
    ∃ s' h resp, streamServers.Reachable s' ∧ (Uncalled s → Uncalled s') ∧
      s'.subIDCounter = s.subIDCounter.add ∧
      s'.generation.handlers g = some h ∧ h.point = .sending resp ∧
      h.id = "gen-" ++ toString s.subIDCounter.add.value ∧
      (∀ g', g' ≠ g → s'.generation.handlers g' = s.generation.handlers g') ∧
      s'.generation.subscribers = s.generation.subscribers.insert h.id g := by
  have hdrawn := generation_step s hr (.draw g) _ _ (Hub.Step.draw _ _ g hfree)
  have hreg := generation_step _ hdrawn (.register g) _ _
    (Hub.Step.register _ _ g _ (handlers_setHandler ..) rfl)
  refine ⟨_, _, _, hreg, id, rfl, handlers_setHandler .., rfl, rfl, fun g' hne => ?_, rfl⟩
  exact (handlers_setHandler_ne _ g g' _ hne).trans (handlers_setHandler_ne _ g g' _ hne)

/-- A client to which its snapshot cannot be sent disconnects. -/
theorem reachable_unregistered (s : StreamServer) (hr : streamServers.Reachable s) (g : Nat)
    (h : Subscriber Proto.GenerationRule) (resp : Response Proto.GenerationRule)
    (hg : s.generation.handlers g = some h) (hpoint : h.point = .sending resp) :
    ∃ s', streamServers.Reachable s' ∧ (Uncalled s → Uncalled s') ∧
      s'.subIDCounter = s.subIDCounter ∧
      (∀ g', g' ≠ g → s'.generation.handlers g' = s.generation.handlers g') ∧
      s'.generation.subscribers = s.generation.subscribers.erase h.id := by
  have hfail := generation_step s hr (.fail g false) _ _
    (Hub.Step.fail _ _ g h resp false hg hpoint)
  have hleft := generation_step _ hfail (.unregister g) _ _
    (Hub.Step.unregister _ _ g _ (handlers_setHandler ..) rfl)
  refine ⟨_, hleft, id, rfl, fun g' hne => ?_, rfl⟩
  exact (handlers_unregister_ne _ g g' _ hne).trans (handlers_setHandler_ne _ g g' _ hne)

/-- The id of the first client. -/
def firstID : String :=
  "gen-" ++ toString (1 : UInt64)

/-- After `k` clients have come and gone, the first is still connected, under the
    id it drew. -/
structure Stays (k : Nat) (s : StreamServer) : Prop where
  reachable : streamServers.Reachable s
  uncalled : Uncalled s
  count : s.subIDCounter.count = k + 1
  first : ∃ h, s.generation.handlers 0 = some h ∧ h.id = firstID ∧ h.point = .waiting
  entry : s.generation.subscribers.lookup firstID = some 0
  free : ∀ g, k < g → s.generation.handlers g = none

theorem exists_stays_zero : ∃ s, Stays 0 s := by
  have hinit : streamServers.Reachable StreamServer.new := System.Reachable.init _ rfl
  rcases reachable_registered _ hinit 0 rfl with
    ⟨s, h, resp, hr, hcalls, hcount, hg, hpoint, hid, hothers, hsubs⟩
  have hsent := generation_step s hr (.send 0) _ _ (Hub.Step.send _ _ 0 h resp hg hpoint)
  refine ⟨_, hsent, hcalls ⟨rfl, rfl, rfl⟩, ?_, ⟨_, handlers_setHandler .., hid, rfl⟩, ?_,
    fun g hlt => ?_⟩
  · exact congrArg SubIDCounter.count hcount
  · calc s.generation.subscribers.lookup firstID
        = (StreamServer.new.generation.subscribers.insert h.id 0).lookup firstID := by rw [hsubs]
      _ = some 0 := by
          rw [hid]
          exact Finmap.lookup_insert _
  · have hne : g ≠ 0 := by omega
    exact (handlers_setHandler_ne _ 0 g _ hne).trans (hothers g hne)

/-- A client comes and goes. -/
theorem exists_stays_succ (k : Nat) (hk : k + 1 < 2 ^ 64) (s : StreamServer) (hs : Stays k s) :
    ∃ s', Stays (k + 1) s' := by
  have hcounts := (streamsInv_reachable s hs.reachable).counts
  rcases reachable_registered s hs.reachable (k + 1) (hs.free (k + 1) (by omega)) with
    ⟨s₁, h, resp, hr₁, hcalls₁, hcount₁, hg, hpoint, hid, hothers₁, hsubs₁⟩
  rcases reachable_unregistered s₁ hr₁ (k + 1) h resp hg hpoint with
    ⟨s₂, hr₂, hcalls₂, hcount₂, hothers₂, hsubs₂⟩
  -- The counter has not come round to the first id again.
  have hvalue : s.subIDCounter.add.value = UInt64.ofNat (k + 2) := by
    rw [counts_add _ hcounts]
    exact congrArg (fun n => UInt64.ofNat (n + 1)) hs.count
  have hne : firstID ≠ h.id := by
    intro hsame
    rw [hid, hvalue] at hsame
    have hval := congrArg UInt64.toNat
      (toString_uint64_injective _ _ ((String.append_right_inj "gen-").mp hsame))
    rw [UInt64.toNat_one, UInt64.toNat_ofNat'] at hval
    omega
  refine ⟨s₂, hr₂, hcalls₂ (hcalls₁ hs.uncalled), ?_, ?_, ?_, fun g hlt => ?_⟩
  · rw [hcount₂, hcount₁]
    exact congrArg (fun n => n + 1) hs.count
  · rw [hothers₂ 0 (by omega), hothers₁ 0 (by omega)]
    exact hs.first
  · rw [hsubs₂, Finmap.lookup_erase_ne hne, hsubs₁, Finmap.lookup_insert_of_ne _ hne]
    exact hs.entry
  · rw [hothers₂ g (by omega), hothers₁ g (by omega)]
    exact hs.free g (by omega)

theorem exists_stays (k : Nat) (hk : k < 2 ^ 64) : ∃ s, Stays k s := by
  induction k with
  | zero => exact exists_stays_zero
  | succ k ih =>
      rcases ih (by omega) with ⟨s, hs⟩
      exact exists_stays_succ k hk s hs

/-- The 2^64th client after the first draws the first one's id and takes its place
    in the map. When the first client disconnects, it is the other's channel that
    is unregistered. -/
theorem channel_unregistered :
    ∃ s s' h, streamServers.Reachable s ∧ Uncalled s ∧
      StreamServer.Step s (.generation (.unregister 0)) s' ∧
      s.generation.handlers (2 ^ 64) = some h ∧ s.generation.Registered (2 ^ 64) h ∧
      s'.generation.handlers (2 ^ 64) = some h ∧ ¬s'.generation.Registered (2 ^ 64) h := by
  rcases exists_stays (2 ^ 64 - 1) (by omega) with ⟨s, hs⟩
  have hcounts := (streamsInv_reachable s hs.reachable).counts
  rcases hs.first with ⟨first, hfirst, hfirstID, hwaiting⟩
  rcases reachable_registered s hs.reachable (2 ^ 64) (hs.free (2 ^ 64) (by omega)) with
    ⟨s₁, h, resp, hr₁, hcalls, _, hg, _, hid, hothers, hsubs⟩
  have hvalue : s.subIDCounter.add.value = 1 := by
    rw [counts_add _ hcounts]
    have hcount : s.subIDCounter.add.count = 2 ^ 64 + 1 := by
      exact congrArg (fun n => n + 1) hs.count
    rw [hcount]
    rfl
  have hsame : h.id = firstID := by
    rw [hid, hvalue]
    rfl
  have hne : 2 ^ 64 ≠ 0 := by omega
  -- The first client's context is done, and its deferred function is next.
  have hfirst₁ : s₁.generation.handlers 0 = some first := by
    rw [hothers 0 (by omega)]
    exact hfirst
  have hstop := generation_step s₁ hr₁ (.stop 0) _ _ (Hub.Step.stop _ _ 0 first hfirst₁ hwaiting)
  have hstopped := (handlers_setHandler_ne s₁.generation 0 (2 ^ 64)
    { first with point := .leaving } hne).trans hg
  refine ⟨_, _, h, hstop, hcalls hs.uncalled, StreamServer.Step.generation _ _ _ _
    (Hub.Step.unregister _ _ 0 _ (handlers_setHandler ..) rfl), hstopped, ?_, ?_, ?_⟩
  · calc s₁.generation.subscribers.lookup h.id
        = (s.generation.subscribers.insert h.id (2 ^ 64)).lookup h.id := by rw [hsubs]
      _ = some (2 ^ 64) := Finmap.lookup_insert _
  · exact (handlers_unregister_ne _ 0 _ _ hne).trans hstopped
  · intro hreg
    have hnone : (s₁.generation.subscribers.erase first.id).lookup h.id = none := by
      rw [hsame, hfirstID]
      exact Finmap.lookup_erase _ _
    exact absurd (hnone.symm.trans hreg) nofun

end Wrap

end Kontxt
