import Lmc.System.Receivers

/-!
# Removed callbacks

`remove_callback` works on what `subscribe_fast_callback` has returned, so the command that
removes a callback is queued behind the one that adds it. The task looks for the callback in
the tree only. If it is not parked with a `SUBSCRIBE` at that moment then it has no place any
more, it does not get one again, and it is never called (`removed_callback_silent`). A
parked one gets into the tree with the next `SUBACK` (`removed_callback_called`).
-/

namespace Lmc

open Runs

/-- The number of a callback. -/
def SubscriptionKind.callbackNumber : SubscriptionKind → Option Nat
  | .fastCallback cb => some cb.id.toNat
  | _ => none

theorem SubscriptionKind.callbackNumber_of_hasId {kind : SubscriptionKind} {id : UInt32}
    (h : kind.hasId id = true) : kind.callbackNumber = some id.toNat := by
  cases kind with
  | fastCallback cb => rw [callbackNumber, eq_of_beq (h : (cb.id == id) = true)]
  | _ => cases h

namespace System

variable {τ : Type} {s s' : System τ}

def callbackBound (s : System τ) : Nat := s.tx.shared.nextCallbackId.toNat

/-- A callback identifier is taken only if the counter does not wrap around, so that fewer
than 2^32 are taken. -/
def callbackIdLeft (s : System τ) : Event → Bool
  | .client (.build c) =>
    match s.calls.lookup c with
    | some (.building _ _ (.fastCallback _) _) => s.callbackBound + 1 < 2 ^ 32
    | _ => true
  | _ => true

theorem callbackBound_build (h : s.callbackBound + 1 < 2 ^ 32)
    (hids : s'.tx.shared.nextCallbackId = s.tx.shared.nextCallbackId + 1) :
    s'.callbackBound = s.callbackBound + 1 := by
  unfold callbackBound at h ⊢
  rw [hids, UInt32.toNat_add]
  exact Nat.mod_eq_of_lt h

section Counter

variable [Transport τ] {e : Event}

/-- The counter goes on by one with each callback that is made. -/
theorem callbackBound_step (hstep : s.step e = some s') (hleft : s.callbackIdLeft e = true) :
    s'.callbackBound = s.callbackBound ∨
      s'.callbackBound = s.callbackBound + 1 := by
  cases e with
  | task e =>
    exact Or.inl (congrArg UInt32.toNat (performs_taskStep hstep).ids)
  | client e =>
    rcases (clientMove_of_clientStep hstep).counters with
      ⟨-, hsame⟩ | ⟨c, topic, qos, req, actual, kind, rfl, hfound, built, hmade, -, hids⟩
    · exact Or.inl (congrArg UInt32.toNat hsame)
    · rcases buildKind_cases hmade with
        ⟨-, -, rfl⟩ | ⟨_, -, -, -, rfl⟩ | ⟨-, -, rfl⟩ | ⟨f, rfl, -, rfl⟩
      · exact Or.inl (congrArg UInt32.toNat hids)
      · exact Or.inl (congrArg UInt32.toNat hids)
      · exact Or.inl (congrArg UInt32.toNat hids)
      · rw [callbackIdLeft, hfound] at hleft
        exact Or.inr (callbackBound_build (of_decide_eq_true hleft) hids)

/-- A callback that is made gets the next number. -/
theorem Builds.callbackNumber {c : Nat} {topic : Str} {kind : SubscriptionKind}
    {req : SubscriptionRequest} {n : Nat} (h : Builds s s' c topic kind req)
    (hstep : s.step e = some s') (hleft : s.callbackIdLeft e = true)
    (hn : kind.callbackNumber = some n) : n = s.callbackBound ∧ n < s'.callbackBound := by
  obtain ⟨built, hmade, -, hids⟩ := h.made
  rcases buildKind_cases hmade with
    ⟨-, rfl, -⟩ | ⟨_, -, -, rfl, -⟩ | ⟨-, rfl, -⟩ | ⟨f, rfl, rfl, rfl⟩
  · cases hn
  · cases hn
  · cases hn
  · cases hn
    refine ⟨rfl, ?_⟩
    have hne : s'.callbackBound ≠ s.callbackBound := by
      intro heq
      have hsame : s.tx.shared.nextCallbackId + 1 = s.tx.shared.nextCallbackId :=
        hids.symm.trans (UInt32.toNat_inj.mp heq)
      simp at hsame
    have hnext := (callbackBound_step hstep hleft).resolve_left hne
    show s.callbackBound < s'.callbackBound
    omega

theorem Numbered.callback_step {r : Registry}
    (h : Numbered SubscriptionKind.callbackNumber callbackBound s r)
    (hstep : s.step e = some s') (hleft : s.callbackIdLeft e = true) :
    Numbered SubscriptionKind.callbackNumber callbackBound s' (s.enrol e r) := by
  refine h.step hstep ?_ fun hbuilds hn => hbuilds.callbackNumber hstep hleft hn
  rcases callbackBound_step hstep hleft with heq | heq <;> omega

end Counter

/-! ## The order of the commands -/

/-- The command removes the callback that the other one adds. -/
def Undoes (a b : Command) : Prop :=
  ∃ topic id cmd, a = .unsub ⟨topic, .fastCallback id⟩ ∧ b = .subscribe cmd ∧
    cmd.kind.hasId id = true

/-- Who removes a callback has got it from a call, and no command adds it behind that. -/
structure Orderly (s : System τ) (r : Registry) : Prop where
  numbered : Numbered SubscriptionKind.callbackNumber callbackBound s r
  calls : ∀ c call topic id, s.calls.lookup c = some call →
    call.command = some (.unsub ⟨topic, .fastCallback id⟩) → s.Returned topic id
  queue : ∀ topic id, .unsub ⟨topic, .fastCallback id⟩ ∈ s.tx.cmdQueue → s.Returned topic id
  order : s.tx.cmdQueue.Pairwise fun a b => ¬ Undoes a b

theorem Returned.owns {topic : Str} {id : UInt32} (h : s.Returned topic id) :
    ∃ c cb qos, s.calls.lookup c = some (.done (.subscribed topic (.fastCallback cb) qos)) ∧
      s.Owns c topic (.fastCallback cb) ∧
      (SubscriptionKind.fastCallback cb).callbackNumber = some id.toNat := by
  obtain ⟨c, cb, qos, hcall, rfl⟩ := h
  exact ⟨c, cb, qos, hcall, ⟨_, hcall, rfl⟩, rfl⟩

/-- A callback that was returned is not in a call that has yet to send it. -/
theorem Orderly.sent {r : Registry} (h : Orderly s r) {topic : Str} {id : UInt32}
    (hreturned : s.Returned topic id) {c : Nat} {call : Call} {cmd : SubscribeCommand}
    (hcall : s.calls.lookup c = some call) (hsends : call.command = some (.subscribe cmd)) :
    cmd.kind.hasId id = false := by
  refine Bool.eq_false_iff.mpr fun hid => ?_
  obtain ⟨c', cb, qos, hdone, howns, hn⟩ := hreturned.owns
  have hc := h.numbered.single ⟨call, hcall, Call.receiver_of_command hsends⟩ howns
    (SubscriptionKind.callbackNumber_of_hasId hid) hn
  subst c'
  rw [hdone] at hcall
  cases hcall
  cases hsends

section Steps

variable [Transport τ] {r : Registry} {e : Event}

theorem returned_step (hstep : s.step e = some s') {topic : Str} {id : UInt32}
    (h : s.Returned topic id) : s'.Returned topic id := by
  obtain ⟨c, cb, qos, hcall, hid⟩ := h
  exact ⟨c, cb, qos, done_step hstep hcall, hid⟩

theorem Orderly.step (h : Orderly s r) (hstep : s.step e = some s')
    (hleft : s.callbackIdLeft e = true) : Orderly s' (s.enrol e r) := by
  have hnumbered := h.numbered.callback_step hstep hleft
  have hreturned : ∀ {topic id}, s.Returned topic id → s'.Returned topic id :=
    returned_step hstep
  cases e with
  | task e =>
    have hqueue := (taskMove_of_taskStep hstep).cmdQueue
    exact {
      numbered := hnumbered
      calls := by
        rw [calls_taskStep hstep]
        exact fun c call topic id hcall hsends => hreturned (h.calls c call topic id hcall hsends)
      queue := fun topic id hmem => hreturned (h.queue topic id (hqueue.subset hmem))
      order := h.order.sublist hqueue.sublist }
  | client e =>
    cases (clientMove_of_clientStep hstep).callMove with
    | none calls queue =>
      refine ⟨hnumbered, ?_, ?_, ?_⟩
      · rw [calls]
        exact fun c call topic id hcall hsends => hreturned (h.calls c call topic id hcall hsends)
      · intro topic id hmem
        refine hreturned (h.queue topic id ?_)
        rcases queue with hqueue | hqueue <;> simpa [hqueue] using hmem
      · rcases queue with hqueue | hqueue
        · rw [hqueue]
          exact h.order
        · rw [hqueue]
          refine List.pairwise_append.mpr ⟨h.order, List.pairwise_singleton _ _, ?_⟩
          rintro a - b hb ⟨topic, id, cmd, -, rfl, -⟩
          cases List.mem_singleton.mp hb
    | step c call cmds calls queue goes =>
      refine ⟨hnumbered, ?_, ?_, ?_⟩
      · intro c' call' topic id hcall hsends
        rw [calls, Table.lookup_insert] at hcall
        split at hcall
        · cases hcall
          rcases goes.waits hsends with ⟨pub, ⟨⟩⟩ | ⟨sub, req, actual, ⟨⟩, -⟩ | ⟨-, hback⟩
          exact hreturned (hback topic id rfl)
        · exact hreturned (h.calls c' call' topic id hcall hsends)
      · intro topic id hmem
        rw [queue] at hmem
        rcases List.mem_append.mp hmem with hold | hnew
        · exact hreturned (h.queue topic id hold)
        · obtain ⟨prior, hprior, hsends⟩ := goes.sends hnew
          exact hreturned (h.calls c prior topic id hprior hsends)
      · rw [queue]
        have hshort : cmds.Pairwise fun a b => ¬ Undoes a b := by
          rcases goes.queues with rfl | ⟨prior, cmd, -, -, rfl⟩
          · exact .nil
          · exact List.pairwise_singleton _ _
        refine List.pairwise_append.mpr ⟨h.order, hshort, ?_⟩
        rintro a ha b hb ⟨topic, id, cmd, rfl, rfl, hid⟩
        obtain ⟨prior, hprior, hsends⟩ := goes.sends hb
        rw [h.sent (h.queue topic id ha) hprior hsends] at hid
        cases hid

end Steps

theorem orderly_spawn (setup : Setup τ) : Orderly (spawn setup) .empty where
  numbered := .initial setup _ _
  calls := by
    intro c call topic id hcall
    cases hcall
  queue := by
    intro topic id hmem
    cases hmem
  order := .nil

section Runs

variable [Transport τ]

/-- In every state reached the tree represents a registry in which callbacks are told
apart. -/
theorem orderly_reaches {setup : Setup τ}
    (h : Reaches System.step (fun s e => s.callbackIdLeft e = true) (spawn setup) s) :
    ∃ r, Represents r s.tx.subscriptions ∧ Orderly s r := by
  refine h.invariant (I := fun s => ∃ r, Represents r s.tx.subscriptions ∧ Orderly s r)
    ⟨.empty, .empty, orderly_spawn setup⟩ ?_
  rintro s e s' ⟨r, hr, horderly⟩ hleft hstep
  exact ⟨_, represents_step hr hstep, horderly.step hstep hleft⟩

/-! ## Callbacks without a place -/

/-- The identifier was taken, and no receiver with it is in the tree or on the way. -/
structure Absent (s : System τ) (r : Registry) (id : UInt32) : Prop where
  taken : id.toNat < s.callbackBound
  nowhere : ∀ topic kind, s.Placed r topic kind → kind.hasId id = false

/-- It does not come back. -/
theorem Absent.step {r : Registry} {e : Event} {id : UInt32} (h : Absent s r id)
    (hstep : s.step e = some s') (hleft : s.callbackIdLeft e = true) :
    Absent s' (s.enrol e r) id := by
  refine ⟨?_, fun topic kind hplaced => ?_⟩
  · have := h.taken
    rcases callbackBound_step hstep hleft with heq | heq <;> omega
  · rcases placed_step hstep hplaced with hold | ⟨c, req, hbuilds⟩
    · exact h.nowhere topic kind hold
    · refine Bool.eq_false_iff.mpr fun hid => ?_
      have hn := (hbuilds.callbackNumber hstep hleft
        (SubscriptionKind.callbackNumber_of_hasId hid)).1
      have := h.taken
      omega

/-- The calls made to the callback with this identifier. -/
def callsOf (s : System τ) (id : UInt32) : List (FastCallback × IncomingPublishPacket) :=
  s.tx.mail.calls.filter fun call => call.1.id == id

/-- A callback without a place is not called. -/
theorem Absent.callsOf_step {r : Registry} {e : Event} {id : UInt32} (h : Absent s r id)
    (hr : Represents r s.tx.subscriptions) (hstep : s.step e = some s') :
    s'.callsOf id = s.callsOf id := by
  unfold callsOf
  cases e with
  | client e => rw [(clientMove_of_clientStep hstep).mailCalls]
  | task e =>
    have hmail : s'.tx.mail = s.tx.mail.after s.tx.subscriptions (s.treeOp e) :=
      (performs_taskStep hstep).mail
    rw [hmail]
    cases s.treeOp e with
    | none => rfl
    | some op =>
      cases op with
      | dispatch msg mail =>
        obtain ⟨⟨called, hcalls, hcount⟩, -⟩ := hr.routes msg s.tx.mail
        show ((s.tx.subscriptions.dispatch msg).run s.tx.mail).2.calls.filter _ = _
        rw [hcalls, List.filter_append, List.append_right_eq_self, List.filter_eq_nil_iff]
        intro call hcall
        obtain ⟨cb, hcb, rfl⟩ := List.mem_map.mp hcall
        have hpos : 0 < r.registrations (.fastCallback cb) msg.topic := by
          rw [← hcount cb]
          exact List.count_pos_iff.mpr hcb
        obtain ⟨⟨topic, kind⟩, hmem, hentry⟩ := List.countP_pos_iff.mp hpos
        rw [Bool.and_eq_true, beq_iff_eq] at hentry
        obtain ⟨-, rfl : kind = _⟩ := hentry
        have hid := h.nowhere topic _ (.listed hmem)
        exact Bool.eq_false_iff.mp hid
      | _ => rfl

/-- Where the command that removes a callback is consumed, the callback has no place
behind, if it is not parked. -/
theorem Orderly.absent {r : Registry} {e : TaskEvent} {topic : Str} {id : UInt32}
    (h : Orderly s r) (hstep : s.taskStep e = some s')
    (htaken : s.consumed e = some (.unsub ⟨topic, .fastCallback id⟩))
    (hparked : ∀ key sub, s.tx.pendingSubs.lookup key = some sub → sub.kind.hasId id = false) :
    Absent s' (s.enrol (.task e) r) id := by
  have hreturned : s.Returned topic id := h.queue topic id (consumed_mem htaken)
  obtain ⟨owner, cb, qos, hdone, howns, hn⟩ := hreturned.owns
  have hbound : s'.callbackBound = s.callbackBound :=
    congrArg UInt32.toNat (performs_taskStep hstep).ids
  refine ⟨?_, fun topic' kind hplaced => ?_⟩
  · rw [hbound]
    exact h.numbered.below (o := some owner) howns hn
  cases hplaced with
  | call c call cmd found sends same =>
    cases same
    rw [calls_taskStep hstep] at found
    exact h.sent hreturned found sends
  | queued cmd mem same =>
    cases same
    have horder := h.order
    rw [cmdQueue_of_consumed hstep htaken, List.pairwise_cons] at horder
    exact Bool.eq_false_iff.mpr fun hid => horder.1 _ mem ⟨topic, id, cmd, rfl, rfl, hid⟩
  | parked key sub found same =>
    cases same
    rcases pendsSub_taskStep hstep found with hold | ⟨cmd, htaken', -⟩
    · exact hparked key sub hold
    · cases htaken.symm.trans htaken'
  | listed mem =>
    refine Bool.eq_false_iff.mpr fun hid => ?_
    rw [enrol, treeOp_of_consumed htaken] at mem
    obtain ⟨hmem, hkept⟩ := List.mem_filter.mp mem
    obtain ⟨rfl, -⟩ := h.numbered.agree (o := some owner) (p := none) howns (.listed hmem) hn
      (SubscriptionKind.callbackNumber_of_hasId hid)
    simp [hid] at hkept

/-- Once the task has consumed the command that removes a callback, and the callback was not
parked with a pending `SUBSCRIBE` at that moment, it is not called again. -/
theorem removed_callback_silent {setup : Setup τ} {s₁ s₂ : System τ} {e : TaskEvent} {topic : Str}
    {id : UInt32}
    (hs : Reaches System.step (fun s e => s.callbackIdLeft e = true) (spawn setup) s)
    (htaken : s.consumed e = some (.unsub ⟨topic, .fastCallback id⟩))
    (hparked : ∀ key sub, s.tx.pendingSubs.lookup key = some sub → sub.kind.hasId id = false)
    (hstep : s.step (.task e) = some s₁)
    (hrun : Reaches System.step (fun s e => s.callbackIdLeft e = true) s₁ s₂) :
    s₂.callsOf id = s.callsOf id := by
  obtain ⟨r, hr, horderly⟩ := orderly_reaches hs
  have hfirst : s₁.callsOf id = s.callsOf id := by
    have hmail : s₁.tx.mail = s.tx.mail.after s.tx.subscriptions (s.treeOp e) :=
      (performs_taskStep hstep).mail
    rw [callsOf, hmail, treeOp_of_consumed htaken]
    rfl
  obtain ⟨-, -, -, hsame⟩ := hrun.invariant
    (I := fun s' => ∃ r, Represents r s'.tx.subscriptions ∧ Absent s' r id ∧
      s'.callsOf id = s₁.callsOf id)
    ⟨_, represents_step hr hstep, horderly.absent hstep htaken hparked, rfl⟩ (by
      rintro s e s' ⟨r, hr, habsent, hsame⟩ hleft hstep
      exact ⟨_, represents_step hr hstep, habsent.step hstep hleft,
        (habsent.callsOf_step hr hstep).trans hsame⟩)
  exact hsame.trans hfirst

end Runs

/-- A call subscribes to the topic `t`. -/
def subscribing (c : Nat) (req : SubscriptionRequest) : List Event :=
  [.client (.subscribe c ['t'] .atMostOnce req), .client (.build c), .client (.send c)]

/-- A broker that accepts two subscriptions and then sends a message. -/
def removalSetup (second : List UInt8) : Setup TcpTransport :=
  scripted ⟨[acceptance, .wouldBlock, .data 0x90 [3, 0, 1, 0], .wouldBlock, .data 0x90 second,
    .data 0x30 [3, 0, 1, 0x74], .wouldBlock], false, []⟩

/-- The topic is subscribed. Then the call 2 gets a callback for it, and the call 3 asks for
the removal of the callback. -/
def removalRun (between : List Event) : List Event :=
  connecting ++ subscribing 0 .void ++ [.task .command] ++ reading 1 ++ between ++
    subscribing 2 (.fastCallback 0) ++ [.client (.removeCallback 3 2), .client (.send 3)]

theorem removed_callback_silent_listed :
    ∃ s s₁ s₂, Reaches System.step (fun s e => s.callbackIdLeft e = true)
        (spawn (removalSetup [3, 0, 1, 0])) s ∧
      s.consumed .command = some (.unsub ⟨['t'], .fastCallback 0⟩) ∧
      s.step (.task .command) = some s₁ ∧
      Reaches System.step (fun s e => s.callbackIdLeft e = true) s₁ s₂ ∧
      s₂.tx.history.dispatched ≠ [] ∧ s₂.callsOf 0 = s.callsOf 0 := by
  have hrun : (runUnder System.step (fun s e => s.callbackIdLeft e = true)
      (spawn (removalSetup [3, 0, 1, 0])) (removalRun [] ++ [.task .command])).any (fun s =>
        s.consumed .command == some (.unsub ⟨['t'], .fastCallback 0⟩) &&
        s.tx.pendingSubs.entries.isEmpty &&
        (s.step (.task .command)).any fun s₁ =>
          (runUnder System.step (fun s e => s.callbackIdLeft e = true) s₁ (reading 2)).any
            fun s₂ => s₂.tx.history.dispatched != []) = true := by
    decide +kernel
  obtain ⟨s, hs, hp⟩ := exists_reaches _ hrun
  simp only [Bool.and_eq_true, beq_iff_eq] at hp
  obtain ⟨⟨htaken, hparked⟩, hnext⟩ := hp
  obtain ⟨s₁, hstep, hrest⟩ := (Option.any_eq_true _ _).mp hnext
  obtain ⟨s₂, h₂, hp⟩ := exists_reaches _ hrest
  have hnone : ∀ key sub, s.tx.pendingSubs.lookup key = some sub → sub.kind.hasId 0 = false := by
    intro key sub hfound
    rw [AList.lookup, List.isEmpty_iff.mp hparked] at hfound
    cases hfound
  exact ⟨s, s₁, s₂, hs, htaken, hstep, h₂, bne_iff_ne.mp hp,
    removed_callback_silent hs htaken hnone hstep h₂⟩

/-- Another call unsubscribes the topic before the task comes to the callback, which is
therefore parked with a new `SUBSCRIBE` when its removal is consumed. The `SUBACK` puts it
into the tree, and the next message goes to it. -/
theorem removed_callback_called :
    ∃ s s₁ s₂, Reaches System.step (fun s e => s.callbackIdLeft e = true)
        (spawn (removalSetup [3, 0, 3, 0])) s ∧
      s.Returned ['t'] 0 ∧ s.consumed .command = some (.unsub ⟨['t'], .fastCallback 0⟩) ∧
      s.step (.task .command) = some s₁ ∧
      Reaches System.step (fun s e => s.callbackIdLeft e = true) s₁ s₂ ∧
      s.callsOf 0 = [] ∧ (s₂.callsOf 0).length = 1 := by
  have hrun : (runUnder System.step (fun s e => s.callbackIdLeft e = true)
      (spawn (removalSetup [3, 0, 3, 0]))
      (removalRun [.client (.unsubscribe 1 ['t']), .client (.send 1)] ++
        [.task .command, .task .command])).any (fun s =>
        s.calls.lookup 2 ==
          some (.done (.subscribed ['t'] (.fastCallback ⟨0, 0⟩) .atMostOnce)) &&
        s.consumed .command == some (.unsub ⟨['t'], .fastCallback 0⟩) && s.callsOf 0 == [] &&
        (s.step (.task .command)).any fun s₁ =>
          (runUnder System.step (fun s e => s.callbackIdLeft e = true) s₁ (reading 2)).any
            fun s₂ => (s₂.callsOf 0).length == 1) = true := by
    decide +kernel
  obtain ⟨s, hs, hp⟩ := exists_reaches _ hrun
  simp only [Bool.and_eq_true, beq_iff_eq] at hp
  obtain ⟨⟨⟨hcall, htaken⟩, hnone⟩, hnext⟩ := hp
  obtain ⟨s₁, hstep, hrest⟩ := (Option.any_eq_true _ _).mp hnext
  obtain ⟨s₂, h₂, hp⟩ := exists_reaches _ hrest
  exact ⟨s, s₁, s₂, hs, ⟨2, ⟨0, 0⟩, .atMostOnce, hcall, rfl⟩, htaken, hstep, h₂, hnone,
    beq_iff_eq.mp hp⟩

end System

end Lmc
