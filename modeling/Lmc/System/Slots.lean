import Lmc.System.Waiting

/-!
# The slots of subscribe futures

A subscribe future keeps an index into a list of wakers that belongs to an entry of the
shared map. If the entry is removed and created again before the future is polled or
dropped, the index is stale: it may be out of range, which panics, or lead to the slot of
another future. `keepsSlots` excludes the steps that make an index stale, and with it the
slots are sound in every run (`subscribe_slots_sound`). Without it they are not
(`subscribe_slots_stale`).
-/

namespace Lmc

open Runs

/-- The call remembers an index into the wakers of the topic. -/
def Call.remembersSlot (topic : Str) (call : Call) : Bool :=
  call.subscribeFuture.any fun fut => fut.topic == topic && fut.wakerIndex.isSome

/-- The call has not panicked at a slot. -/
def Call.inRange : Call → Bool
  | .done (.panicked .wakerOutOfRange) => false
  | _ => true

namespace System

variable {τ : Type} {s s' : System τ} {e : Event}

/-- The topic is pending in the shared map. -/
def isPending (s : System τ) (topic : Str) : Bool :=
  (s.tx.shared.subs.lookup topic).any SubscriptionState.isPending

theorem isPending_eq_false {topic : Str} :
    s.isPending topic = false ↔ s.subscribers.Idle topic := by
  unfold isPending Subscribers.Idle
  show _ ↔ ∀ slots, s.tx.shared.subs.lookup topic ≠ some (.pending slots)
  match s.tx.shared.subs.lookup topic with
  | none => simp
  | some (.existing qos) => simp [SubscriptionState.isPending]
  | some (.pending slots) => simp [SubscriptionState.isPending]

/-- No topic becomes pending while a call remembers an index for it, and no pending topic
is unsubscribed. -/
def keepsSlots (s : System τ) (e : Event) : Bool :=
  match s.subscribeLabel e with
  | .start topic => Table.count (Call.remembersSlot topic) s.calls == 0
  | .forget topic => !s.isPending topic
  | _ => true

theorem exists_call_of_future {c : Nat} {fut : SubscribeFuture}
    (h : s.subscribers.future c = some fut) :
    ∃ call, s.calls.lookup c = some call ∧ call.subscribeFuture = some fut :=
  Option.bind_eq_some_iff.mp h

theorem slots_spawn (setup : Setup τ) : (spawn setup).subscribers.Slots := by
  intro c fut hfut
  obtain ⟨call, hcall, -⟩ := exists_call_of_future hfut
  cases hcall

section Steps

variable [Transport τ]

theorem slots_step (h : s.subscribers.Slots) (hkeeps : s.keepsSlots e = true)
    (hstep : s.step e = some s') : s'.subscribers.Slots := by
  obtain ⟨l, hl, hmove⟩ := subscribeStep hstep
  unfold keepsSlots at hkeeps
  refine h.step hmove (fun topic htopic c fut hfut ht => ?_) fun topic htopic => ?_
  · obtain ⟨call, hcall, hwaits⟩ := exists_call_of_future hfut
    rw [subscribeLabel_of hl htopic Subscribers.Label.noConfusion] at hkeeps
    have hnone := Table.count_eq_zero.mp (beq_iff_eq.mp hkeeps) c call hcall
    simpa [Call.remembersSlot, hwaits, ht] using hnone
  · rw [subscribeLabel_of hl htopic Subscribers.Label.noConfusion] at hkeeps
    exact isPending_eq_false.mp (by simpa using hkeeps)

end Steps

/-! ## Panics -/

/-- No call has panicked at a slot. -/
def InRange (s : System τ) : Prop := ∀ c call, s.calls.lookup c = some call → call.inRange = true

theorem InRange.setCall (h : InRange s) {t : System τ} (ht : t.calls = s.calls) {c : Nat}
    {call : Call} (hcall : call.inRange = true) : InRange (t.setCall c call) := by
  intro c' call' hlookup
  rw [show (t.setCall c call).calls = s.calls.insert c call from ht ▸ rfl,
    Table.lookup_insert] at hlookup
  split at hlookup
  · cases hlookup
    exact hcall
  · exact h c' call' hlookup

theorem inRange_pollSubscribe (h : InRange s) (hslots : s.subscribers.Slots) {c : Nat}
    {call : Call} {fut : SubscribeFuture} (found : s.calls.lookup c = some call)
    (waits : call.subscribeFuture = some fut) : InRange (s.pollSubscribe c call fut) := by
  unfold pollSubscribe
  rcases fut.poll_cases c s.polls s.tx.shared with
    ⟨result, fut', hpoll⟩ | ⟨-, slots, hpending,
      ⟨i, hi, hout, hpoll⟩ | ⟨i, slot, hi, hslot, hpoll⟩ | ⟨hi, hpoll⟩⟩
  · rw [hpoll]
    refine h.setCall (t := s) rfl ?_
    cases call <;> cases result <;> first | rfl | cases waits
  · have hplaced := hslots c fut (future_subscribers found waits)
    obtain ⟨w, -, hslot⟩ := hplaced.slot hpending hi
    rw [hout] at hslot
    cases hslot
  · rw [hpoll]
    refine h.setCall (t := s.setShared _) rfl ?_
    cases call <;> first | rfl | cases waits
  · rw [hpoll]
    refine h.setCall (t := s.setShared _) rfl ?_
    cases call <;> first | rfl | cases waits

theorem inRange_cancelSubscribe (h : InRange s) (hslots : s.subscribers.Slots) {c : Nat}
    {call : Call} {fut : SubscribeFuture} (found : s.calls.lookup c = some call)
    (waits : call.subscribeFuture = some fut) : InRange (s.cancelSubscribe c fut) := by
  unfold cancelSubscribe
  rcases fut.drop_cases s.tx.shared with
    hdrop | ⟨-, slots, i, hpending, hi, ⟨hout, hdrop⟩ | ⟨slot, hslot, hdrop⟩⟩
  · rw [hdrop]
    exact h.setCall rfl rfl
  · have hplaced := hslots c fut (future_subscribers found waits)
    obtain ⟨w, -, hslot⟩ := hplaced.slot hpending hi
    rw [hout] at hslot
    cases hslot
  · rw [hdrop]
    exact h.setCall rfl rfl

theorem inRange_clientMove {e : ClientEvent} (h : InRange s) (hslots : s.subscribers.Slots)
    (hmove : ClientMove s e s') : InRange s' := by
  cases hmove with
  | handle e handle => exact h
  | giveUp alive => exact h
  | publish c mode topic payload retain fresh =>
    have hencode : ∀ (t : System τ) p, t.calls = s.calls → InRange (t.encodePublish c mode p) := by
      intro t p ht
      unfold encodePublish
      split
      · exact h.setCall ht rfl
      · refine h.setCall ht ?_
        cases mode <;> rfl
    unfold startPublish
    split
    · exact hencode s _ rfl
    · exact hencode _ _ rfl
  | register c cmd n call => exact h.setCall rfl rfl
  | sent c call cmd found sends alive =>
    refine h.setCall rfl ?_
    cases call with
    | sendingPublish _ fut => cases fut <;> rfl
    | sendingSubscribe _ actual => cases actual <;> rfl
    | _ => rfl
  | sendFailed c call cmd found sends dead =>
    unfold System.sendFailed
    split
    · exact h.setCall rfl rfl
    · exact h.setCall rfl rfl
  | queueFull c cmd found => exact h.setCall rfl rfl
  | pollPublish c fut found =>
    unfold System.pollPublish
    rcases fut.poll_cases s.polls s.tx.shared with ⟨ended, fut', hpoll⟩ | ⟨r, -, -, -, hpoll⟩
    · rw [hpoll]
      exact h.setCall (t := s) rfl (by cases ended <;> rfl)
    · rw [hpoll]
      exact h.setCall (t := s.setShared _) rfl rfl
  | pollSubscribe c call fut found waits => exact inRange_pollSubscribe h hslots found waits
  | cancelPublish c call fut found waits => exact h.setCall rfl rfl
  | cancelSubscribe c call fut found waits => exact inRange_cancelSubscribe h hslots found waits
  | cancelSend c call cmd found sends waits => exact h.setCall rfl rfl
  | subscribe c topic qos req fresh =>
    unfold startSubscribe
    split <;> exact h.setCall rfl rfl
  | build c topic qos req actual kind built found made =>
    refine h.setCall ?_ rfl
    rw [buildKind_frame made]
  | buildPanics c topic qos req actual found panics => exact h.setCall rfl rfl
  | command e c cmd fresh other => exact h.setCall rfl rfl
  | mail e ch f => exact h

theorem TaskMove.calls [Transport τ] {e : TaskEvent} (h : TaskMove s e s') :
    s'.calls = s.calls := by
  cases h <;> rfl

theorem inRange_step [Transport τ] (h : InRange s) (hslots : s.subscribers.Slots)
    (hstep : s.step e = some s') : InRange s' := by
  cases e with
  | task e =>
    rw [InRange, (taskMove_of_taskStep hstep).calls]
    exact h
  | client e => exact inRange_clientMove h hslots (clientMove_of_clientStep hstep)

/-! ## Runs -/

/-- In every run whose steps all keep the slots, the index of a subscribe future leads to
the slot that its call has pushed, with the waker of its last poll; this waker was woken,
or is collected to be woken, when the topic is not pending any more; and no access to a
slot has panicked. -/
theorem subscribe_slots_sound [Transport τ] (setup : Setup τ)
    (h : Reaches System.step (fun s e => keepsSlots s e = true) (spawn setup) s) :
    (∀ c call fut, s.calls.lookup c = some call → call.subscribeFuture = some fut →
      (∀ slots i, s.tx.shared.subs.lookup fut.topic = some (.pending slots) →
        fut.wakerIndex = some i → ∃ w, fut.latest = some w ∧ slots[i]? = some ⟨c, some w⟩) ∧
      ∀ w, fut.latest = some w → s.isPending fut.topic = false →
        w ∈ s.tx.history.woken ∨ w ∈ s.sweep) ∧
    ∀ c, s.calls.lookup c ≠ some (.done (.panicked .wakerOutOfRange)) := by
  have hinv : s.subscribers.Slots ∧ InRange s := by
    refine h.invariant (I := fun s => s.subscribers.Slots ∧ InRange s) ?_ ?_
    · exact ⟨slots_spawn setup, fun _ _ hc => by cases hc⟩
    · rintro s e s' ⟨hslots, hrange⟩ hkeeps hstep
      exact ⟨slots_step hslots hkeeps hstep, inRange_step hrange hslots hstep⟩
  refine ⟨fun c call fut hcall hwaits => ?_, fun c hc => Bool.noConfusion (hinv.2 c _ hc)⟩
  have hplaced := hinv.1 c fut (future_subscribers hcall hwaits)
  refine ⟨fun slots i hpending hi => hplaced.slot hpending hi, fun w hw hidle => ?_⟩
  refine (hplaced.mem_wakersOf hw).resolve_left ?_
  rw [Subscribers.wakersOf_of_idle (isPending_eq_false.mp hidle)]
  exact List.not_mem_nil

/-- A broker that refuses the first subscription. -/
def refusingSetup : Setup TcpTransport :=
  scripted ⟨[acceptance, .wouldBlock, .data 0x90 [3, 0, 1, 0x80], .wouldBlock], false, []⟩

/-- A call subscribes and is polled once; then its subscription is refused. -/
def refusedRun : List Event :=
  connecting ++ [.client (.subscribe 0 ['t'] .atMostOnce .void), .client (.build 0),
    .client (.send 0), .client (.poll 0), .task .command, .task (.readable (.ok ())),
    .task .proceed, .task .proceed, .task .proceed]

theorem subscribe_slots_sound_refused :
    ∃ s fut, Reaches System.step (fun s e => keepsSlots s e = true) (spawn refusingSetup) s ∧
      s.calls.lookup 0 = some (.awaitingAfter fut .void) ∧ fut.latest = some 0 ∧
      s.isPending fut.topic = false ∧ (0 ∈ s.tx.history.woken ∨ 0 ∈ s.sweep) := by
  have hrun : (runUnder System.step (fun s e => keepsSlots s e = true) (spawn refusingSetup)
      refusedRun).any (fun s =>
        s.calls.lookup 0 == some (.awaitingAfter ⟨['t'], some 0, none, some 0⟩ .void) &&
          !s.isPending ['t']) = true := by
    decide +kernel
  obtain ⟨s, hs, hp⟩ := exists_reaches _ hrun
  simp only [Bool.and_eq_true, beq_iff_eq, Bool.not_eq_true'] at hp
  refine ⟨s, _, hs, hp.1, rfl, hp.2, ?_⟩
  exact ((subscribe_slots_sound refusingSetup hs).1 0 _ _ hp.1 rfl).2 0 rfl hp.2

/-- Between the refusal and the next poll of the first call, a second call subscribes to
the same topic. The first call then panics at an index that no longer exists. -/
theorem subscribe_slots_stale :
    ∃ s, Reaches System.step always (spawn refusingSetup) s ∧
      s.calls.lookup 0 = some (.done (.panicked .wakerOutOfRange)) := by
  have hrun : (runUnder System.step always (spawn refusingSetup) (refusedRun ++
      [.client (.subscribe 1 ['t'] .atMostOnce .void), .client (.poll 0)])).any
      (fun s => s.calls.lookup 0 == some (.done (.panicked .wakerOutOfRange))) = true := by
    decide +kernel
  obtain ⟨s, hs, hp⟩ := exists_reaches _ hrun
  exact ⟨s, hs, beq_iff_eq.mp hp⟩

end System

end Lmc
