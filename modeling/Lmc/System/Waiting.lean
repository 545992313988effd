import Lmc.Client.Publishers
import Lmc.Client.Subscribers
import Lmc.System.Moves

/-!
# Calls that wait

The system seen as `Publishers` and as `Subscribers`. Every step of the system is a step
of each of the two machines: either silent or with the label that `publishLabel` and
`subscribeLabel` read off the state and the event. A result about one of the machines is
thereby one about the runs of the system, under conditions on the steps whose label it
restricts.

What the task does is first reduced to what clients can see of it (`Notice`).
-/

namespace Lmc

/-! ## Views -/

/-- The maps that no sweep will visit any more. -/
def Phase.swept : Phase → Notifier → Bool
  | .failRec, n => n = .pubAck
  | .failComp, n => n ≠ .pubComp
  | .draining, _ | .waking, _ | .returning, _ | .finished _, _ | .gone, _ => true
  | _, _ => false

/-- The map of subscriptions will not be drained any more. -/
def Phase.drained : Phase → Bool
  | .waking | .returning | .finished _ | .gone => true
  | _ => false

/-- The call has sent its command and waits for the acknowledgement. -/
def Call.awaitsAck : Call → Bool
  | .awaitingPublish _ => true
  | _ => false

namespace System

variable {τ : Type}

def publishers (s : System τ) : Publishers where
  entry n id := (s.tx.shared.notifierMap n).lookup id
  future c := (s.calls.lookup c).bind Call.publishFuture
  sent c := (s.calls.lookup c).any Call.awaitsAck
  swept := s.phase.swept
  called w := w ∈ s.tx.history.woken ∨ w ∈ s.sweep

def subscribers (s : System τ) : Subscribers where
  entry topic := s.tx.shared.subs.lookup topic
  future c := (s.calls.lookup c).bind Call.subscribeFuture
  drained := s.phase.drained
  called w := w ∈ s.tx.history.woken ∨ w ∈ s.sweep

/-- What an event is to the publishers. -/
def publishLabel (s : System τ) : Event → Publishers.Label
  | .client (.register c) =>
    match s.calls.lookup c with
    | some (.registering cmd n) => .register n cmd.packetId
    | _ => .silent
  | .client (.send c) =>
    match s.calls.lookup c with
    | some (.sendingPublish _ (some _)) => if s.receiverAlive then .send c else .silent
    | _ => .silent
  | .task _ => if s.phase = .closed then .abandon else .silent
  | _ => .silent

/-- What an event is to the subscribers. -/
def subscribeLabel (s : System τ) : Event → Subscribers.Label
  | .client (.subscribe _ topic _ _) =>
    match s.tx.shared.subs.lookup topic with
    | none => .start topic
    | some (.pending _) => .join topic
    | some (.existing _) => .silent
  | .client (.send c) =>
    match s.calls.lookup c with
    | some (.sendingSubscribe cmd none) => if s.receiverAlive then .join cmd.topic else .silent
    | _ => .silent
  | .task e =>
    if s.phase = .closed then .abandon
    else match s.consumed e with
      | some (.unsub ⟨topic, .immediate⟩) =>
        if s.tx.subscriptions.isSubscribed topic then .forget topic else .silent
      | _ => .silent
  | _ => .silent

/-! ## Views of updated states -/

section Views

variable {s s' : System τ}

theorem publishers_congr {t : System τ}
    (hmaps : ∀ n, t.tx.shared.notifierMap n = s.tx.shared.notifierMap n)
    (hcalls : t.calls = s.calls) (hphase : ∀ n, t.phase.swept n = s.phase.swept n)
    (hwoken : t.tx.history.woken = s.tx.history.woken) (hsweep : t.sweep = s.sweep) :
    t.publishers = s.publishers := by
  unfold publishers
  rw [hcalls, hwoken, hsweep, funext hmaps, funext hphase]

theorem subscribers_congr {t : System τ} (hsubs : ∀ topic, t.tx.shared.subs.lookup topic =
      s.tx.shared.subs.lookup topic) (hcalls : t.calls = s.calls)
    (hphase : t.phase.drained = s.phase.drained)
    (hwoken : t.tx.history.woken = s.tx.history.woken) (hsweep : t.sweep = s.sweep) :
    t.subscribers = s.subscribers := by
  unfold subscribers
  rw [hcalls, hwoken, hsweep, funext hsubs, hphase]

theorem publishers_setCall (c : Nat) (call : Call) (s : System τ) :
    (s.setCall c call).publishers =
      s.publishers.setFuture c call.publishFuture call.awaitsAck := by
  refine Publishers.ext rfl (funext fun c' => ?_) (funext fun c' => ?_) rfl rfl
  · show ((s.calls.insert c call).lookup c').bind _ = if c' = c then _ else _
    rw [Table.lookup_insert]
    split <;> rfl
  · show ((s.calls.insert c call).lookup c').any _ = if c' = c then _ else _
    rw [Table.lookup_insert]
    split <;> rfl

theorem subscribers_setCall (c : Nat) (call : Call) (s : System τ) :
    (s.setCall c call).subscribers = s.subscribers.setFuture c call.subscribeFuture := by
  refine Subscribers.ext rfl (funext fun c' => ?_) rfl rfl
  show ((s.calls.insert c call).lookup c').bind _ = if c' = c then _ else _
  rw [Table.lookup_insert]
  split <;> rfl

theorem publishers_setNotifierMap {n : Notifier} {m : NotifierMap} {id : UInt16}
    {r : Option NotifyResult} (h : ∀ id', m.lookup id' =
      if id' = id then r else (s.tx.shared.notifierMap n).lookup id') :
    (s.setShared (s.tx.shared.setNotifierMap n m)).publishers = s.publishers.setEntry n id r := by
  refine Publishers.ext (funext fun n' => funext fun id' => ?_) rfl rfl rfl rfl
  show ((s.tx.shared.setNotifierMap n m).notifierMap n').lookup id' =
    if n' = n ∧ id' = id then _ else _
  rw [ClientShared.notifierMap_setNotifierMap]
  by_cases hn : n' = n
  · subst hn
    rw [if_pos rfl, h id']
    simp only [true_and]
    rfl
  · rw [if_neg hn, if_neg (fun h => hn h.1)]
    rfl

theorem publishers_insert (n : Notifier) (id : UInt16) (r : NotifyResult) (s : System τ) :
    (s.setShared (s.tx.shared.setNotifierMap n
      ((s.tx.shared.notifierMap n).insert id r))).publishers =
      s.publishers.setEntry n id (some r) :=
  publishers_setNotifierMap fun id' => Table.lookup_insert id id' r _

theorem publishers_erase (n : Notifier) (id : UInt16) (s : System τ) :
    (s.setShared (s.tx.shared.setNotifierMap n
      ((s.tx.shared.notifierMap n).erase id))).publishers =
      s.publishers.setEntry n id none :=
  publishers_setNotifierMap fun id' => Table.lookup_erase id id' _

theorem publishers_setSubs (subs : LmcHashMap Str SubscriptionState) (s : System τ) :
    (s.setShared (s.tx.shared.setSubs subs)).publishers = s.publishers :=
  publishers_congr (fun n => by cases n <;> rfl) rfl (fun _ => rfl) rfl rfl

theorem subscribers_setNotifierMap (n : Notifier) (m : NotifierMap) (s : System τ) :
    (s.setShared (s.tx.shared.setNotifierMap n m)).subscribers = s.subscribers :=
  subscribers_congr (fun _ => by cases n <;> rfl) rfl rfl rfl rfl

theorem subscribers_insert (topic : Str) (state : SubscriptionState) (s : System τ) :
    (s.setShared (s.tx.shared.setSubs (s.tx.shared.subs.insert topic state))).subscribers =
      s.subscribers.setEntry topic (some state) :=
  Subscribers.ext (funext fun topic' => Table.lookup_insert topic topic' state _) rfl rfl rfl

end Views

end System

/-! ## What clients see of the task -/

/-- The changes of the shared maps, and the wakers woken with them. -/
inductive Notice (b b' : Book) : Prop
  | none (maps : ∀ n, b'.shared.notifierMap n = b.shared.notifierMap n)
      (subs : b'.shared.subs = b.shared.subs)
      (woken : b'.history.woken = b.history.woken) : Notice b b'
  /-- An acknowledgement. -/
  | ack (n : Notifier) (id : UInt16)
      (maps : ∀ n' id', (b'.shared.notifierMap n').lookup id' =
        if n' = n ∧ id' = id then .none else (b.shared.notifierMap n').lookup id')
      (subs : b'.shared.subs = b.shared.subs)
      (woken : b'.history.woken = b.history.woken ++
        (((b.shared.notifierMap n).lookup id).bind NotifyResult.waker).toList) : Notice b b'
  /-- The broker has decided about a topic. -/
  | settle (topic : Str) (state : Option SubscriptionState)
      (closed : ∀ slots, state ≠ some (.pending slots))
      (maps : ∀ n, b'.shared.notifierMap n = b.shared.notifierMap n)
      (subs : ∀ t, b'.shared.subs.lookup t =
        if t = topic then state else b.shared.subs.lookup t)
      (woken : b'.history.woken = b.history.woken ++
        (b.shared.subs.lookup topic).elim [] SubscriptionState.wakers) : Notice b b'

theorem Notice.same {b b' : Book} (hshared : b'.shared = b.shared)
    (hwoken : b'.history.woken = b.history.woken) : Notice b b' := by
  refine .none (fun n => ?_) ?_ hwoken <;> rw [hshared]

theorem Book.lookup_acknowledge (key : IdType) (m : Notifier) (b : Book) (n : Notifier)
    (id : UInt16) : ((b.acknowledge key m).shared.notifierMap n).lookup id =
      if (b.pendingPackets.lookup key).isSome = true ∧ n = m ∧ id = key.id then none
      else (b.shared.notifierMap n).lookup id := by
  rcases b.acknowledge_cases key m with ⟨hnone, heq⟩ | ⟨⟨pkt, hsome⟩, heq⟩
  · rw [heq, hnone, if_neg (fun h => Bool.noConfusion h.1)]
    rfl
  · rw [heq, hsome]
    show ((b.shared.setNotifierMap m _).notifierMap n).lookup id = _
    rw [ClientShared.notifierMap_setNotifierMap]
    by_cases hn : n = m
    · subst hn
      rw [if_pos rfl]
      show ((b.shared.notifierMap n).erase key.id).lookup id = _
      rw [Table.lookup_erase]
      simp
    · rw [if_neg hn, if_neg (fun h => hn h.2.1)]

theorem Book.notice_acknowledge (id : IdType) (n : Notifier) (b : Book) :
    Notice b (b.acknowledge id n) := by
  rcases b.acknowledge_cases id n with ⟨-, heq⟩ | ⟨⟨pkt, hsome⟩, heq⟩
  · rw [heq]
    exact .same rfl rfl
  · refine .ack n id.id (fun n' id' => ?_) ?_ ?_
    · rw [b.lookup_acknowledge]
      simp only [hsome, Option.isSome_some, true_and]
    · rw [heq]
      exact b.shared.subs_setNotifierMap n _
    · rw [heq]
      rfl

theorem Book.notice_processSubAck (ack : SubAckPacket) (b : Book) :
    Notice b (b.processSubAck ack) := by
  rcases b.processSubAck_cases ack with
    ⟨-, heq⟩ | ⟨sub, -, ⟨-, heq⟩ | ⟨qos, heq⟩ | ⟨-, heq⟩⟩
  · rw [heq]
    exact .same rfl rfl
  · rw [heq]
    exact .same rfl rfl
  · rw [heq]
    refine .settle sub.topic (some (.existing qos)) (fun _ h => by cases h)
      (fun n => by cases n <;> rfl) (fun t => ?_) rfl
    exact Table.lookup_insert sub.topic t _ _
  · rw [heq]
    refine .settle sub.topic .none (fun _ h => by cases h) (fun n => by cases n <;> rfl)
      (fun t => ?_) rfl
    exact Table.lookup_erase sub.topic t _

theorem Notice.trans_none {b b₁ b' : Book} (h : Notice b₁ b')
    (hmaps : b₁.shared = b.shared) (hwoken : b₁.history.woken = b.history.woken) :
    Notice b b' := by
  cases h with
  | none maps subs woken =>
    rw [hmaps] at maps subs
    exact .none maps subs (woken.trans hwoken)
  | ack n id maps subs woken =>
    rw [hmaps] at maps subs woken
    exact .ack n id maps subs (hwoken ▸ woken)
  | settle topic state closed maps subs woken =>
    rw [hmaps] at maps subs woken
    exact .settle topic state closed maps subs (hwoken ▸ woken)

theorem PacketEffect.notice {pkt : IncomingPacket} {b b' : Book} (h : PacketEffect pkt b b') :
    Notice b b' := by
  cases h with
  | subAck ack => exact b.notice_processSubAck ack
  | pubAck ack => exact b.notice_acknowledge _ _
  | pubRecAgain rec => exact b.notice_acknowledge _ _
  | pubRec rec pkt => exact (Book.notice_acknowledge _ _ _).trans_none rfl rfl
  | pubComp comp => exact b.notice_acknowledge _ _
  | _ => exact .same rfl rfl

/-- A command is invisible to those who wait, or it forgets a topic. -/
theorem CommandEffect.notice {q : Option Panic} {cmd : Command} {b b' : Book}
    (h : CommandEffect q cmd b b') :
    Notice b b' ∨ ∃ topic, cmd = .unsub ⟨topic, .immediate⟩ ∧
      b.subscriptions.isSubscribed topic = true ∧
      (∀ n, b'.shared.notifierMap n = b.shared.notifierMap n) ∧
      b'.shared.subs = b.shared.subs.erase topic ∧ b'.history.woken = b.history.woken := by
  cases h with
  | subscribePanic p cmd => exact Or.inl (.none (fun n => by cases n <;> rfl) rfl rfl)
  | subscribe q cmd pkt _ accepted unsubscribed =>
    exact Or.inl (.none (fun n => by cases n <;> rfl) rfl rfl)
  | unsubscribePanic p topic _ subscribed =>
    exact Or.inr ⟨topic, rfl, subscribed, fun n => by cases n <;> rfl, rfl, rfl⟩
  | unsubscribe q topic pkt _ subscribed =>
    exact Or.inr ⟨topic, rfl, subscribed, fun n => by cases n <;> rfl, rfl, rfl⟩
  | _ => exact Or.inl (.same rfl rfl)

/-! ## Steps of the task -/

section Phases

variable {p p' : Phase} (hp : p.running = true)
  (hnext : p'.follows = true ∨ ∃ q, p' = .crashed q)

include hp hnext in
/-- A program of the main loop or of the disconnect sequence sweeps nothing. -/
theorem Phase.swept_next (n : Notifier) : p'.swept n = p.swept n := by
  have hbefore : p.swept n = false := by
    cases p <;> first | rfl | cases hp
  rw [hbefore]
  rcases hnext with h | ⟨q, rfl⟩
  · cases p' <;> first | rfl | cases h
  · rfl

include hp hnext in
theorem Phase.drained_next : p'.drained = p.drained := by
  have hbefore : p.drained = false := by
    cases p <;> first | rfl | cases hp
  rw [hbefore]
  rcases hnext with h | ⟨q, rfl⟩
  · cases p' <;> first | rfl | cases h
  · rfl

end Phases

namespace System

variable {τ : Type} {s s' : System τ}

/-- The wakers that were woken, were collected before, or are now. -/
theorem called_append {woken sweep ws : List Waker} {w : Waker} :
    w ∈ woken ++ ws ∨ w ∈ sweep ↔ (w ∈ woken ∨ w ∈ sweep) ∨ w ∈ ws := by
  rw [List.mem_append]
  tauto

/-- A step to the publishers, silent or with the label of the event. -/
def PublishStep (s : System τ) (e : Event) (s' : System τ) : Prop :=
  ∃ l, (l = s.publishLabel e ∨ l = .silent) ∧ Publishers.Step s.publishers l s'.publishers

/-- A step to the subscribers, silent or with the label of the event. -/
def SubscribeStep (s : System τ) (e : Event) (s' : System τ) : Prop :=
  ∃ l, (l = s.subscribeLabel e ∨ l = .silent) ∧ Subscribers.Step s.subscribers l s'.subscribers

section Labels

variable {e : Event}

theorem publishLabel_of {l m : Publishers.Label} (hl : l = s.publishLabel e ∨ l = .silent)
    (h : l = m) (hm : m ≠ .silent) : s.publishLabel e = m := by
  subst h
  exact (hl.resolve_right hm).symm

theorem subscribeLabel_of {l m : Subscribers.Label} (hl : l = s.subscribeLabel e ∨ l = .silent)
    (h : l = m) (hm : m ≠ .silent) : s.subscribeLabel e = m := by
  subst h
  exact (hl.resolve_right hm).symm

end Labels

section Notices

variable {tx : Transceiver τ} {p : Phase} {clean : Bool} (h : Notice s.tx.toBook tx.toBook)

include h in
theorem publish_of_notice (hp : ∀ n, p.swept n = s.phase.swept n) :
    Publishers.Step s.publishers .silent { s with tx, phase := p, clean }.publishers := by
  cases h with
  | none maps subs woken =>
    rw [publishers_congr (t := { s with tx, phase := p, clean }) maps rfl hp woken rfl]
    exact .refl _
  | ack n id maps subs woken =>
    have heq : { s with tx, phase := p, clean }.publishers =
        (s.publishers.setEntry n id none).call
          fun w => s.publishers.entry n id = some (.withWaker w) := by
      refine Publishers.ext (funext fun n' => funext (maps n')) rfl rfl (funext hp) ?_
      funext w
      show (w ∈ tx.history.woken ∨ w ∈ s.sweep) = _
      rw [woken, called_append]
      refine congrArg _ (propext ?_)
      show _ ↔ (s.tx.shared.notifierMap n).lookup id = _
      cases (s.tx.shared.notifierMap n).lookup id with
      | none => simp
      | some r => cases r <;> simp [NotifyResult.waker, eq_comm]
    rw [heq]
    exact .notify n id
  | settle topic state closed maps subs woken =>
    have heq : { s with tx, phase := p, clean }.publishers = s.publishers.call
        fun w => w ∈ (s.tx.shared.subs.lookup topic).elim [] SubscriptionState.wakers := by
      refine Publishers.ext (funext fun n => funext fun id => ?_) rfl rfl (funext hp) ?_
      · show (tx.shared.notifierMap n).lookup id = _
        rw [maps]
        rfl
      · funext w
        show (w ∈ tx.history.woken ∨ w ∈ s.sweep) = _
        rw [woken, called_append]
        rfl
    rw [heq]
    exact .call _

include h in
theorem subscribe_of_notice (hp : p.drained = s.phase.drained) :
    Subscribers.Step s.subscribers .silent { s with tx, phase := p, clean }.subscribers := by
  cases h with
  | none maps subs woken =>
    rw [subscribers_congr (t := { s with tx, phase := p, clean })
      (fun t => congrArg (AList.lookup t) subs) rfl hp woken rfl]
    exact .refl _
  | ack n id maps subs woken =>
    have heq : { s with tx, phase := p, clean }.subscribers = s.subscribers.call fun w =>
        w ∈ (((s.tx.shared.notifierMap n).lookup id).bind NotifyResult.waker).toList := by
      refine Subscribers.ext (funext fun t => congrArg (AList.lookup t) subs) rfl hp ?_
      funext w
      show (w ∈ tx.history.woken ∨ w ∈ s.sweep) = _
      rw [woken, called_append]
      rfl
    rw [heq]
    exact .call _
  | settle topic state closed maps subs woken =>
    have heq : { s with tx, phase := p, clean }.subscribers =
        (s.subscribers.setEntry topic state).call
          fun w => w ∈ s.subscribers.wakersOf topic := by
      refine Subscribers.ext (funext subs) rfl hp ?_
      funext w
      show (w ∈ tx.history.woken ∨ w ∈ s.sweep) = _
      rw [woken, called_append]
      rfl
    rw [heq]
    exact .settle topic state closed

end Notices

/-! ### The sweep -/

theorem publishers_failMap {n : Notifier} {next : Phase}
    (hstage : sweepStage s.phase = some (n, next)) :
    (s.failMap n next).publishers = s.publishers.sweep n := by
  refine Publishers.ext (funext fun n' => funext fun id => ?_) rfl rfl (funext fun n' => ?_)
    (funext fun w => ?_)
  · show ((s.tx.shared.setNotifierMap n _).notifierMap n').lookup id = if n' = n then _ else _
    rw [ClientShared.notifierMap_setNotifierMap]
    split
    · rename_i hn
      rw [hn]
      exact Table.lookup_mapVals _ _ _
    · rfl
  · show next.swept n' = (n' = n || s.phase.swept n')
    generalize s.phase = p at hstage
    cases p <;> cases hstage <;> cases n' <;> rfl
  · show (w ∈ s.tx.history.woken ∨ w ∈ (failNotifyMap _ s.sweep).2) = _
    rw [mem_failNotifyMap, ← or_assoc]
    rfl

theorem subscribers_failMap {n : Notifier} {next : Phase}
    (hstage : sweepStage s.phase = some (n, next)) :
    (s.failMap n next).subscribers = s.subscribers.call
      fun w => ∃ id, (s.tx.shared.notifierMap n).lookup id = some (.withWaker w) := by
  refine Subscribers.ext (funext fun t => ?_) rfl ?_ (funext fun w => ?_)
  · show (s.tx.shared.setNotifierMap n _).subs.lookup t = _
    rw [ClientShared.subs_setNotifierMap]
    rfl
  · show next.drained = s.phase.drained
    generalize s.phase = p at hstage
    cases p <;> cases hstage <;> rfl
  · show (w ∈ s.tx.history.woken ∨ w ∈ (failNotifyMap _ s.sweep).2) = _
    rw [mem_failNotifyMap, ← or_assoc]
    rfl

theorem publishers_drainSubs (hphase : s.phase = .draining) :
    s.drainSubs.publishers = s.publishers.call fun w => w ∈ drainedWakers s.tx.shared.subs := by
  refine Publishers.ext (funext fun n => by cases n <;> rfl) rfl rfl (funext fun n => ?_)
    (funext fun w => ?_)
  · show Phase.swept .waking n = s.phase.swept n
    rw [hphase]
    rfl
  · show (w ∈ s.tx.history.woken ∨ w ∈ s.sweep ++ drainedWakers _) = _
    rw [List.mem_append, ← or_assoc]
    rfl

theorem subscribers_drainSubs : s.drainSubs.subscribers = s.subscribers.drain := by
  refine Subscribers.ext rfl rfl rfl (funext fun w => ?_)
  show (w ∈ s.tx.history.woken ∨ w ∈ s.sweep ++ drainedWakers _) = _
  rw [List.mem_append, mem_drainedWakers, ← or_assoc]
  rfl

theorem called_wakeAll (w : Waker) :
    (w ∈ s.wakeAll.tx.history.woken ∨ w ∈ s.wakeAll.sweep) =
      (w ∈ s.tx.history.woken ∨ w ∈ s.sweep) := by
  show (w ∈ s.tx.history.woken ++ s.sweep ∨ w ∈ []) = _
  rw [List.mem_append]
  simp

theorem publishStep_of_taskMove [Transport τ] {e : TaskEvent} (h : TaskMove s e s') :
    PublishStep s (.task e) s' := by
  cases h with
  | quiet tx p clean running next book =>
    refine ⟨_, Or.inr rfl, publish_of_notice (.same ?_ ?_) (Phase.swept_next running next)⟩
    · rw [book]
    · rw [book]
  | connAck tx p clean running next pkt arrived waiting book =>
    refine ⟨_, Or.inr rfl, publish_of_notice (.same ?_ ?_) (Phase.swept_next running next)⟩
    · rw [book]
    · rw [book]
  | packet tx p clean running next pkt arrived connected effect =>
    exact ⟨_, Or.inr rfl, publish_of_notice (effect.notice.trans_none rfl rfl)
      (Phase.swept_next running next)⟩
  | command tx p clean running next cmd rest queue taken connected effect =>
    have hp := Phase.swept_next running next
    rcases effect.notice with hnotice | ⟨topic, -, -, hmaps, -, hwoken⟩
    · exact ⟨_, Or.inr rfl, publish_of_notice (hnotice.trans_none rfl rfl) hp⟩
    · refine ⟨_, Or.inr rfl, ?_⟩
      rw [publishers_congr (s := s) (t := { s with tx, phase := p, clean }) hmaps rfl hp
        hwoken rfl]
      exact .refl _
  | finish status ended =>
    rcases ended with hclosed | hreturning
    · refine ⟨.abandon, Or.inl ?_, .abandon⟩
      rw [publishLabel, if_pos hclosed]
    · refine ⟨_, Or.inr rfl, ?_⟩
      rw [publishers_congr (s := s) (t := { s with phase := .finished status }) (fun _ => rfl)
        rfl (fun n => by rw [hreturning]; rfl) rfl rfl]
      exact .refl _
  | fail n next stage =>
    refine ⟨_, Or.inr rfl, ?_⟩
    rw [publishers_failMap stage]
    exact .sweep n
  | drain stage =>
    refine ⟨_, Or.inr rfl, ?_⟩
    rw [publishers_drainSubs stage]
    exact .call _
  | wake stage =>
    have heq : s.wakeAll.publishers = s.publishers := by
      refine Publishers.ext rfl rfl rfl (funext fun n => ?_) (funext called_wakeAll)
      show Phase.swept .returning n = s.phase.swept n
      rw [stage]
      rfl
    rw [PublishStep, heq]
    exact ⟨_, Or.inr rfl, .refl _⟩
  | drop status ended =>
    refine ⟨_, Or.inr rfl, ?_⟩
    rw [publishers_congr (s := s) (t := s.dropTransceiver) (fun _ => rfl)
        rfl (fun n => by rw [ended]; rfl) rfl rfl]
    exact .refl _

theorem subscribeStep_of_taskMove [Transport τ] {e : TaskEvent} (h : TaskMove s e s') :
    SubscribeStep s (.task e) s' := by
  cases h with
  | quiet tx p clean running next book =>
    refine ⟨_, Or.inr rfl, subscribe_of_notice (.same ?_ ?_) (Phase.drained_next running next)⟩
    · rw [book]
    · rw [book]
  | connAck tx p clean running next pkt arrived waiting book =>
    refine ⟨_, Or.inr rfl, subscribe_of_notice (.same ?_ ?_) (Phase.drained_next running next)⟩
    · rw [book]
    · rw [book]
  | packet tx p clean running next pkt arrived connected effect =>
    exact ⟨_, Or.inr rfl, subscribe_of_notice (effect.notice.trans_none rfl rfl)
      (Phase.drained_next running next)⟩
  | command tx p clean running next cmd rest queue taken connected effect =>
    have hp := Phase.drained_next running next
    rcases effect.notice with hnotice | ⟨topic, rfl, hleaf, -, hsubs, hwoken⟩
    · exact ⟨_, Or.inr rfl, subscribe_of_notice (hnotice.trans_none rfl rfl) hp⟩
    · refine ⟨.forget topic, Or.inl ?_, ?_⟩
      · have hselect : s.phase ≠ .closed := by
          intro hclosed
          rw [consumed, hclosed] at taken
          cases taken
        rw [subscribeLabel, if_neg hselect, taken]
        exact (if_pos hleaf).symm
      · have heq : { s with tx, phase := p, clean }.subscribers =
            s.subscribers.setEntry topic none := by
          refine Subscribers.ext (funext fun t => ?_) rfl hp (funext fun w => ?_)
          · show tx.shared.subs.lookup t = _
            rw [hsubs]
            exact Table.lookup_erase topic t _
          · show (w ∈ tx.history.woken ∨ _) = _
            rw [hwoken]
            rfl
        rw [heq]
        exact .forget topic
  | finish status ended =>
    rcases ended with hclosed | hreturning
    · refine ⟨.abandon, Or.inl ?_, .abandon⟩
      rw [subscribeLabel, if_pos hclosed]
    · refine ⟨_, Or.inr rfl, ?_⟩
      rw [subscribers_congr (s := s) (t := { s with phase := .finished status })
        (fun _ => rfl) rfl (by rw [hreturning]; rfl) rfl rfl]
      exact .refl _
  | fail n next stage =>
    refine ⟨_, Or.inr rfl, ?_⟩
    rw [subscribers_failMap stage]
    exact .call _
  | drain stage =>
    refine ⟨_, Or.inr rfl, ?_⟩
    rw [subscribers_drainSubs]
    exact .drain
  | wake stage =>
    have heq : s.wakeAll.subscribers = s.subscribers := by
      refine Subscribers.ext rfl rfl ?_ (funext called_wakeAll)
      show Phase.drained .returning = s.phase.drained
      rw [stage]
      rfl
    rw [SubscribeStep, heq]
    exact ⟨_, Or.inr rfl, .refl _⟩
  | drop status ended =>
    refine ⟨_, Or.inr rfl, ?_⟩
    rw [subscribers_congr (s := s) (t := s.dropTransceiver) (fun _ => rfl)
        rfl (by rw [ended]; rfl) rfl rfl]
    exact .refl _

/-! ## Steps of the clients -/

section Leave

variable {e : Event} {c : Nat} {t : System τ} {call : Call}

/-- The call goes on without a future. -/
theorem publishStep_setCall (ht : t.publishers = s.publishers) (hfut : call.publishFuture = none)
    (hack : call.awaitsAck = false) : PublishStep s e (t.setCall c call) := by
  refine ⟨_, Or.inr rfl, ?_⟩
  rw [publishers_setCall, ht, hfut, hack]
  exact .leave c

theorem subscribeStep_setCall (ht : t.subscribers = s.subscribers)
    (hfut : call.subscribeFuture = none) : SubscribeStep s e (t.setCall c call) := by
  refine ⟨_, Or.inr rfl, ?_⟩
  rw [subscribers_setCall, ht, hfut]
  exact .leave c

theorem publishStep_of_eq (h : s'.publishers = s.publishers) : PublishStep s e s' :=
  ⟨_, Or.inr rfl, by rw [h]; exact .refl _⟩

theorem subscribeStep_of_eq (h : s'.subscribers = s.subscribers) : SubscribeStep s e s' :=
  ⟨_, Or.inr rfl, by rw [h]; exact .refl _⟩

end Leave

theorem publishers_takePacketId (s : System τ) :
    (s.onBook Book.takePacketId).publishers = s.publishers :=
  publishers_congr (fun n => by cases n <;> rfl) rfl (fun _ => rfl) rfl rfl

/-- The call that `make_publish_cmd` leaves waits for nothing yet. -/
theorem exists_encodePublish (c : Nat) (mode : PublishMode) (p : OutgoingPublishPacket)
    (s : System τ) : ∃ (t : System τ) (call : Call), s.encodePublish c mode p = t.setCall c call ∧
      t.publishers = s.publishers ∧ t.subscribers = s.subscribers ∧
      call.publishFuture = none ∧ call.awaitsAck = false ∧ call.subscribeFuture = none := by
  unfold encodePublish
  split
  · exact ⟨s, _, rfl, rfl, rfl, rfl, rfl, rfl⟩
  · refine ⟨_, _, rfl, rfl, rfl, ?_⟩
    cases mode <;> exact ⟨rfl, rfl, rfl⟩

theorem exists_startPublish (c : Nat) (mode : PublishMode) (topic : Str) (payload : List UInt8)
    (retain : Bool) (s : System τ) :
    ∃ (t : System τ) (call : Call), s.startPublish c mode topic payload retain = t.setCall c call ∧
      t.publishers = s.publishers ∧ t.subscribers = s.subscribers ∧
      call.publishFuture = none ∧ call.awaitsAck = false ∧ call.subscribeFuture = none := by
  unfold startPublish
  split
  · exact exists_encodePublish c mode _ s
  · obtain ⟨t, call, heq, hpub, hsub, hcall⟩ :=
      exists_encodePublish c mode ⟨.new false mode.qos retain, topic, s.tx.shared.nextPacketId,
        payload⟩ (s.onBook Book.takePacketId)
    exact ⟨t, call, heq, hpub.trans (publishers_takePacketId s), hsub, hcall⟩

/-- The drop of a publish future. -/
theorem publishStep_drop {e : Event} {c : Nat} {call : Call} {fut : PublishFuture}
    (found : s.calls.lookup c = some call) (waits : call.publishFuture = some fut)
    (outcome : Outcome) :
    PublishStep s e ((s.setShared (fut.drop s.tx.shared)).setCall c (.done outcome)) := by
  unfold PublishFuture.drop
  split
  · refine ⟨_, Or.inr rfl, ?_⟩
    rw [publishers_setCall, publishers_erase]
    refine .cancel c fut ?_
    show (s.calls.lookup c).bind _ = _
    rw [found]
    exact waits
  · exact publishStep_setCall rfl rfl rfl

theorem subscribers_dropPublish (fut : PublishFuture) (s : System τ) :
    (s.setShared (fut.drop s.tx.shared)).subscribers = s.subscribers := by
  unfold PublishFuture.drop
  split
  · exact subscribers_setNotifierMap _ _ s
  · rfl

theorem publishStep_pollPublish {e : Event} {c : Nat} {fut : PublishFuture}
    (found : s.calls.lookup c = some (.awaitingPublish fut)) :
    PublishStep s e (s.pollPublish c fut) := by
  have hfut : s.publishers.future c = some fut := by
    show (s.calls.lookup c).bind _ = _
    rw [found]
    rfl
  have hsent : s.publishers.sent c = true := by
    show (s.calls.lookup c).any _ = _
    rw [found]
    rfl
  unfold pollPublish
  rcases fut.poll_cases s.polls s.tx.shared with
    ⟨ended, fut', hpoll⟩ | ⟨r, hr, hwait, -, hpoll⟩
  · rw [hpoll]
    exact publishStep_setCall (t := s) rfl rfl rfl
  · rw [hpoll]
    refine ⟨_, Or.inr rfl, ?_⟩
    have hview := publishers_setCall c (.awaitingPublish { fut with latest := some s.polls })
      (s.setShared (s.tx.shared.setNotifierMap fut.notifier
        ((s.tx.shared.notifierMap fut.notifier).insert fut.packetId (.withWaker s.polls))))
    rw [publishers_insert] at hview
    refine hview ▸ ?_
    exact .store c fut s.polls r hfut hsent hr (r.isWaiting_of_ne hwait)

theorem publishStep_sent {c : Nat} {call : Call} {cmd : Command}
    (found : s.calls.lookup c = some call) (sends : call.command = some cmd)
    (alive : s.receiverAlive = true) :
    PublishStep s (.client (.send c)) ((s.enqueue cmd).setCall c call.sent) := by
  have hview : (s.enqueue cmd).publishers = s.publishers := rfl
  cases call with
  | sendingPublish pub fut =>
    cases fut with
    | none => exact publishStep_setCall hview rfl rfl
    | some fut =>
      refine ⟨.send c, Or.inl ?_, ?_⟩
      · simp only [publishLabel, found, if_pos alive]
      · rw [publishers_setCall, hview]
        refine .send c fut ?_
        show (s.calls.lookup c).bind _ = _
        rw [found]
        rfl
  | tryingPublish pub => exact publishStep_setCall hview rfl rfl
  | sendingSubscribe sub actual =>
    cases actual <;> exact publishStep_setCall hview rfl rfl
  | sending cmd => exact publishStep_setCall hview rfl rfl
  | _ => cases sends

theorem publishers_pollSubscribe (c : Nat) (call : Call) (fut : SubscribeFuture)
    (waits : call.subscribeFuture = some fut) :
    (s.pollSubscribe c call fut).publishers = s.publishers.setFuture c none false := by
  have hwith : ∀ fut', (call.withSubscribeFuture fut').publishFuture = none ∧
      (call.withSubscribeFuture fut').awaitsAck = false := by
    intro fut'
    cases call <;> first | exact ⟨rfl, rfl⟩ | cases waits
  have hready : ∀ result, (call.subscribeReady result).publishFuture = none ∧
      (call.subscribeReady result).awaitsAck = false := by
    intro result
    cases call <;> cases result <;> first | exact ⟨rfl, rfl⟩ | cases waits
  have hset : ∀ (t : System τ) (call' : Call), t.publishers = s.publishers →
      call'.publishFuture = none ∧ call'.awaitsAck = false →
      { t.setCall c call' with polls := s.polls + 1 }.publishers =
        s.publishers.setFuture c none false := by
    rintro t call' ht ⟨hfut, hack⟩
    rw [← ht, ← hfut, ← hack]
    exact publishers_setCall c call' t
  unfold pollSubscribe
  rcases fut.poll_cases c s.polls s.tx.shared with
    ⟨result, fut', hpoll⟩ | ⟨-, slots, -, ⟨i, -, -, hpoll⟩ | ⟨i, slot, -, -, hpoll⟩ | ⟨-, hpoll⟩⟩
  · rw [hpoll]
    exact hset s _ rfl (hready result)
  · rw [hpoll]
    exact hset s _ rfl ⟨rfl, rfl⟩
  · rw [hpoll]
    exact hset _ _ (publishers_setSubs _ s) (hwith _)
  · rw [hpoll]
    exact hset _ _ (publishers_setSubs _ s) (hwith _)

theorem publishStep_of_clientMove {e : ClientEvent} (h : ClientMove s e s') :
    PublishStep s (.client e) s' := by
  cases h with
  | handle e h => exact publishStep_of_eq rfl
  | giveUp alive => exact publishStep_of_eq rfl
  | publish c mode topic payload retain fresh =>
    obtain ⟨t, call, heq, hpub, -, hfut, hack, -⟩ :=
      exists_startPublish c mode topic payload retain s
    rw [heq]
    exact publishStep_setCall hpub hfut hack
  | register c cmd n call =>
    refine ⟨.register n cmd.packetId, Or.inl ?_, ?_⟩
    · simp only [publishLabel, call]
    · rw [registerPublish, publishers_setCall, PublishFuture.new, publishers_insert]
      exact .register c n cmd.packetId
  | sent c call cmd found sends alive => exact publishStep_sent found sends alive
  | sendFailed c call cmd found sends dead =>
    unfold System.sendFailed
    split
    · exact publishStep_drop found rfl _
    · exact publishStep_setCall rfl rfl rfl
  | queueFull c cmd found => exact publishStep_setCall rfl rfl rfl
  | pollPublish c fut found => exact publishStep_pollPublish found
  | pollSubscribe c call fut found waits =>
    refine ⟨_, Or.inr rfl, ?_⟩
    rw [publishers_pollSubscribe c call fut waits]
    exact .leave c
  | cancelPublish c call fut found waits => exact publishStep_drop found waits _
  | cancelSubscribe c call fut found waits =>
    unfold System.cancelSubscribe
    rcases fut.drop_cases s.tx.shared with
      hdrop | ⟨-, slots, i, -, -, ⟨-, hdrop⟩ | ⟨slot, -, hdrop⟩⟩
    · rw [hdrop]
      exact publishStep_setCall rfl rfl rfl
    · rw [hdrop]
      exact publishStep_setCall rfl rfl rfl
    · rw [hdrop]
      exact publishStep_setCall (publishers_setSubs _ s) rfl rfl
  | cancelSend c call cmd found sends waits => exact publishStep_setCall rfl rfl rfl
  | subscribe c topic qos req fresh =>
    unfold startSubscribe
    split
    · exact publishStep_setCall rfl rfl rfl
    · exact publishStep_setCall rfl rfl rfl
    · exact publishStep_setCall (publishers_setSubs _ s) rfl rfl
  | build c topic qos req actual kind built found made =>
    refine publishStep_setCall ?_ rfl rfl
    rw [buildKind_frame made]
    exact publishers_congr (fun n => by cases n <;> rfl) rfl (fun _ => rfl) rfl rfl
  | buildPanics c topic qos req actual found panics => exact publishStep_setCall rfl rfl rfl
  | command e c cmd fresh other => exact publishStep_setCall rfl rfl rfl
  | mail e ch f => exact publishStep_of_eq rfl

theorem subscribeStep_sent {c : Nat} {call : Call} {cmd : Command}
    (found : s.calls.lookup c = some call) (sends : call.command = some cmd)
    (alive : s.receiverAlive = true) :
    SubscribeStep s (.client (.send c)) ((s.enqueue cmd).setCall c call.sent) := by
  have hview : (s.enqueue cmd).subscribers = s.subscribers := rfl
  cases call with
  | sendingPublish pub fut => cases fut <;> exact subscribeStep_setCall hview rfl
  | tryingPublish pub => exact subscribeStep_setCall hview rfl
  | sendingSubscribe sub actual =>
    cases actual with
    | some qos => exact subscribeStep_setCall hview rfl
    | none =>
      refine ⟨.join sub.topic, Or.inl ?_, ?_⟩
      · simp only [subscribeLabel, found, if_pos alive]
      · rw [subscribers_setCall, hview]
        exact .join c sub.topic
  | sending cmd => exact subscribeStep_setCall hview rfl
  | _ => cases sends

theorem subscribeStep_start {c : Nat} {topic : Str} (qos : QoS) (req : SubscriptionRequest)
    (fresh : s.calls.lookup c = none) :
    SubscribeStep s (.client (.subscribe c topic qos req)) (s.startSubscribe c topic qos req) := by
  unfold startSubscribe
  match hstate : s.tx.shared.subs.lookup topic with
  | some (.existing actual) => exact subscribeStep_setCall rfl rfl
  | some (.pending slots) =>
    refine ⟨.join topic, Or.inl ?_, ?_⟩
    · simp only [subscribeLabel, hstate]
    · rw [subscribers_setCall]
      exact .join c topic
  | none =>
    refine ⟨.start topic, Or.inl ?_, ?_⟩
    · simp only [subscribeLabel, hstate]
    · have hnone : s.subscribers.future c = none := by
        show (s.calls.lookup c).bind _ = _
        rw [fresh]
        rfl
      rw [subscribers_setCall, subscribers_insert]
      show Subscribers.Step _ _ (Subscribers.setFuture c none _)
      rw [Subscribers.setFuture_none (v := s.subscribers.setEntry topic _) hnone]
      exact .start topic hstate

section Futures

variable {e : Event} {c : Nat} {call : Call} {fut : SubscribeFuture}
  (found : s.calls.lookup c = some call) (waits : call.subscribeFuture = some fut)

include found waits

theorem future_subscribers : s.subscribers.future c = some fut := by
  show (s.calls.lookup c).bind _ = _
  rw [found]
  exact waits

theorem subscribeStep_poll : SubscribeStep s e (s.pollSubscribe c call fut) := by
  have hfound := future_subscribers found waits
  have hwith : ∀ fut', (call.withSubscribeFuture fut').subscribeFuture = some fut' := by
    intro fut'
    cases call <;> first | rfl | cases waits
  have hready : ∀ result, (call.subscribeReady result).subscribeFuture = none := by
    intro result
    cases call <;> cases result <;> rfl
  have hstore : ∀ (state : SubscriptionState) (fut' : SubscribeFuture),
      Subscribers.Step s.subscribers .silent
        ((s.subscribers.setEntry fut.topic (some state)).setFuture c (some fut')) →
      SubscribeStep s e ((s.setShared (s.tx.shared.setSubs
        (s.tx.shared.subs.insert fut.topic state))).setCall c
          (call.withSubscribeFuture fut')) := by
    intro state fut' hstep
    refine ⟨_, Or.inr rfl, ?_⟩
    rw [subscribers_setCall, subscribers_insert, hwith]
    exact hstep
  unfold pollSubscribe
  rcases fut.poll_cases c s.polls s.tx.shared with
    ⟨result, fut', hpoll⟩ | ⟨-, slots, hslots,
      ⟨i, -, -, hpoll⟩ | ⟨i, slot, hi, hslot, hpoll⟩ | ⟨hi, hpoll⟩⟩
  · rw [hpoll]
    exact subscribeStep_setCall (t := s) rfl (hready result)
  · rw [hpoll]
    exact subscribeStep_setCall (t := s) rfl rfl
  · rw [hpoll]
    exact hstore _ _ (.store c fut s.polls slots i slot hfound hslots hi hslot)
  · rw [hpoll]
    exact hstore _ _ (.push c fut s.polls slots hfound hslots hi)

theorem subscribeStep_cancel : SubscribeStep s e (s.cancelSubscribe c fut) := by
  unfold cancelSubscribe
  rcases fut.drop_cases s.tx.shared with
    hdrop | ⟨-, slots, i, hslots, hi, ⟨-, hdrop⟩ | ⟨slot, hslot, hdrop⟩⟩
  · rw [hdrop]
    exact subscribeStep_setCall rfl rfl
  · rw [hdrop]
    exact subscribeStep_setCall rfl rfl
  · rw [hdrop]
    refine ⟨_, Or.inr rfl, ?_⟩
    rw [subscribers_setCall, subscribers_insert]
    exact .cancel c fut slots i slot (future_subscribers found waits) hslots hi hslot

end Futures

theorem subscribeStep_of_clientMove {e : ClientEvent} (h : ClientMove s e s') :
    SubscribeStep s (.client e) s' := by
  cases h with
  | handle e h => exact subscribeStep_of_eq rfl
  | giveUp alive => exact subscribeStep_of_eq rfl
  | publish c mode topic payload retain fresh =>
    obtain ⟨t, call, heq, -, hsub, -, -, hfut⟩ :=
      exists_startPublish c mode topic payload retain s
    rw [heq]
    exact subscribeStep_setCall hsub hfut
  | register c cmd n call =>
    exact subscribeStep_setCall (subscribers_setNotifierMap _ _ s) rfl
  | sent c call cmd found sends alive => exact subscribeStep_sent found sends alive
  | sendFailed c call cmd found sends dead =>
    unfold System.sendFailed
    split
    · exact subscribeStep_setCall (subscribers_dropPublish _ s) rfl
    · exact subscribeStep_setCall rfl rfl
  | queueFull c cmd found => exact subscribeStep_setCall rfl rfl
  | pollPublish c fut found =>
    unfold System.pollPublish
    rcases fut.poll_cases s.polls s.tx.shared with ⟨ended, fut', hpoll⟩ | ⟨r, -, -, -, hpoll⟩
    · rw [hpoll]
      exact subscribeStep_setCall (t := s) rfl rfl
    · rw [hpoll]
      refine subscribeStep_setCall (subscribers_setNotifierMap _ _ s) ?_
      exact (rfl : (Call.awaitingPublish _).subscribeFuture = none)
  | pollSubscribe c call fut found waits => exact subscribeStep_poll found waits
  | cancelPublish c call fut found waits =>
    exact subscribeStep_setCall (subscribers_dropPublish fut s) rfl
  | cancelSubscribe c call fut found waits => exact subscribeStep_cancel found waits
  | cancelSend c call cmd found sends waits => exact subscribeStep_setCall rfl rfl
  | subscribe c topic qos req fresh => exact subscribeStep_start qos req fresh
  | build c topic qos req actual kind built found made =>
    refine subscribeStep_setCall ?_ rfl
    rw [buildKind_frame made]
    rfl
  | buildPanics c topic qos req actual found panics => exact subscribeStep_setCall rfl rfl
  | command e c cmd fresh other => exact subscribeStep_setCall rfl rfl
  | mail e ch f => exact subscribeStep_of_eq rfl

/-! ## Steps of the system -/

section Steps

variable [Transport τ] {e : Event}

/-- Every step of the system is one of the publishers. -/
theorem publishStep (h : s.step e = some s') : PublishStep s e s' := by
  cases e with
  | task e => exact publishStep_of_taskMove (taskMove_of_taskStep h)
  | client e => exact publishStep_of_clientMove (clientMove_of_clientStep h)

/-- Every step of the system is one of the subscribers. -/
theorem subscribeStep (h : s.step e = some s') : SubscribeStep s e s' := by
  cases e with
  | task e => exact subscribeStep_of_taskMove (taskMove_of_taskStep h)
  | client e => exact subscribeStep_of_clientMove (clientMove_of_clientStep h)

end Steps

end System

end Lmc
