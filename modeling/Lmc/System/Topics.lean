import Lmc.Client.Topic
import Lmc.System.Waiting

/-!
# Topics of the whole client

The system seen as one `Topic` for each topic string. Until the map of subscriptions is
drained, every step of the system is a step of each topic (`topicStep`), and for a step
with a label it is known what has caused it (`Cause`).
-/

namespace Lmc

/-! ## Views -/

/-- A `Subscribe` command for the topic. -/
def Command.asks (topic : Str) : Command → Bool
  | .subscribe cmd => cmd.topic == topic
  | _ => false

/-- The call is about to queue a `Subscribe` command for the topic. -/
def Call.asks (topic : Str) : Call → Bool
  | .building t _ _ _ => t == topic
  | call => call.command.any (Command.asks topic)

def PendingSub.asks (topic : Str) (sub : PendingSub) : Bool := sub.topic == topic

def SubscriptionState.standing : Option SubscriptionState → Standing
  | none => .absent
  | some (.pending _) => .pending
  | some (.existing _) => .existing

/-- A topic in the books, when `n` calls ask for it. -/
def Book.topic (b : Book) (n : Nat) (topic : Str) : Topic where
  standing := SubscriptionState.standing (b.shared.subs.lookup topic)
  asked := n + b.cmdQueue.countP (Command.asks topic)
  requested := Table.count (PendingSub.asks topic) b.pendingSubs
  subscribed := b.subscriptions.isSubscribed topic
  rejected := b.subscriptions.rejects topic

def System.topic {τ : Type} (s : System τ) (topic : Str) : Topic :=
  s.tx.topic (Table.count (Call.asks topic) s.calls) topic

theorem Call.asks_sent (topic : Str) (call : Call) : call.sent.asks topic = false := by
  rcases call.sent_cases with ⟨_, h⟩ | ⟨_, _, h⟩ | ⟨_, h⟩ <;> rw [h] <;> rfl

theorem Call.asks_of_command (topic : Str) {call : Call} {cmd : Command}
    (h : call.command = some cmd) : call.asks topic = cmd.asks topic := by
  cases call <;> cases h <;> rfl

/-! ## Packets -/

section Effects

variable {b b' : Book} {topic : Str} (n : Nat)

/-- The parts of the books that a topic is made of are the same. -/
theorem Book.topic_silent (hsubs : b'.shared.subs.lookup topic = b.shared.subs.lookup topic)
    (hleaf : b'.subscriptions.isSubscribed topic = b.subscriptions.isSubscribed topic)
    (hrejects : b.subscriptions.rejects topic = true → b'.subscriptions.rejects topic = true)
    (hqueue : b'.cmdQueue = b.cmdQueue) (hpending : b'.pendingSubs = b.pendingSubs) :
    Topic.Step (b.topic n topic) (b'.topic n topic) .silent :=
  .silent ⟨congrArg SubscriptionState.standing hsubs, hleaf, hrejects⟩
    (congrArg (fun queue => n + List.countP (Command.asks topic) queue) hqueue)
    (congrArg (Table.count (PendingSub.asks topic)) hpending)

/-- What a packet is to a topic. -/
inductive PacketCause (pkt : IncomingPacket) (b : Book) (topic : Str) : Topic.Label → Prop
  | silent : PacketCause pkt b topic .silent
  | void (ack : SubAckPacket) (sub : PendingSub) (packet : pkt = .subAck ack)
      (found : b.pendingSubs.lookup ack.packetId = some sub) (here : sub.topic = topic)
      (results : ack.subResults = []) : PacketCause pkt b topic .void
  | refuse (ack : SubAckPacket) (sub : PendingSub) (packet : pkt = .subAck ack)
      (found : b.pendingSubs.lookup ack.packetId = some sub) (here : sub.topic = topic)
      (results : ∃ rest, ack.subResults = .error () :: rest) : PacketCause pkt b topic .refuse

theorem PacketCause.of_logReceived {pkt pkt' : IncomingPacket} {l : Topic.Label}
    (h : PacketCause pkt (b.logReceived pkt') topic l) : PacketCause pkt b topic l := by
  cases h with
  | silent => exact .silent
  | void ack sub packet found here results => exact .void ack sub packet found here results
  | refuse ack sub packet found here results => exact .refuse ack sub packet found here results

theorem Book.topic_acknowledge (key : IdType) (m : Notifier) (b : Book) :
    Topic.Step (b.topic n topic) ((b.acknowledge key m).topic n topic) .silent := by
  rcases b.acknowledge_cases key m with ⟨-, heq⟩ | ⟨-, heq⟩
  · rw [heq]
    exact Book.topic_silent n rfl rfl id rfl rfl
  · rw [heq]
    refine Book.topic_silent n ?_ rfl id rfl rfl
    exact congrArg (AList.lookup topic) (b.shared.subs_setNotifierMap m _)

/-- A request is taken from the pending ones. -/
theorem Book.requested_erase (topic : Str) {id : UInt16} {sub : PendingSub}
    (found : b.pendingSubs.lookup id = some sub) :
    Table.count (PendingSub.asks topic) b.pendingSubs =
      Table.count (PendingSub.asks topic) (b.pendingSubs.erase id) +
        if sub.topic = topic then 1 else 0 := by
  have hcount := Table.count_erase (PendingSub.asks topic) id b.pendingSubs
  rw [found, Table.hit_some] at hcount
  rw [← hcount]
  simp [PendingSub.asks]

theorem Book.topicStep_processSubAck (ack : SubAckPacket) (b : Book) :
    ∃ l, Topic.Step (b.topic n topic) ((b.processSubAck ack).topic n topic) l ∧
      PacketCause (.subAck ack) b topic l := by
  rcases b.processSubAck_cases ack with
    ⟨-, heq⟩ | ⟨sub, found, hcases⟩
  · rw [heq]
    exact ⟨_, Book.topic_silent n rfl rfl id rfl rfl, .silent⟩
  have hcount := Book.requested_erase topic found
  by_cases here : sub.topic = topic
  · rw [if_pos here] at hcount
    subst here
    rcases hcases with ⟨results, heq⟩ | ⟨qos, heq⟩ | ⟨results, heq⟩
    · rw [heq]
      exact ⟨_, .void ⟨rfl, rfl, id⟩ rfl hcount,
        .void ack sub rfl found rfl results⟩
    · rw [heq]
      refine ⟨_, .accept ?_ ?_ rfl hcount, .silent⟩
      · show SubscriptionState.standing ((b.shared.subs.insert sub.topic _).lookup _) = _
        rw [AList.lookup_insert]
        rfl
      · exact SubscriptionSet.getOrCreate_self (fun leaf => Subscription.subscribed_add _ _)
          b.subscriptions sub.topic
    · rw [heq]
      refine ⟨_, .refuse ?_ rfl rfl hcount, .refuse ack sub rfl found rfl results⟩
      show SubscriptionState.standing ((b.shared.subs.erase sub.topic).lookup _) = _
      rw [AList.lookup_erase]
      rfl
  · rw [if_neg here, Nat.add_zero] at hcount
    have hne : topic ≠ sub.topic := Ne.symm here
    refine ⟨_, ?_, .silent⟩
    rcases hcases with ⟨-, heq⟩ | ⟨qos, heq⟩ | ⟨-, heq⟩
    · rw [heq]
      exact .silent ⟨rfl, rfl, id⟩ rfl hcount.symm
    · rw [heq]
      refine .silent ⟨congrArg SubscriptionState.standing ?_, ?_, ?_⟩ rfl hcount.symm
      · exact AList.lookup_insert_ne hne
      · exact SubscriptionSet.isSubscribed_getOrCreate_ne _ hne
      · exact SubscriptionSet.rejects_getOrCreate _ _
    · rw [heq]
      refine .silent ⟨congrArg SubscriptionState.standing ?_, rfl, id⟩ rfl hcount.symm
      exact AList.lookup_erase_ne hne

theorem PacketEffect.topicStep {pkt : IncomingPacket} (h : PacketEffect pkt b b') :
    ∃ l, Topic.Step (b.topic n topic) (b'.topic n topic) l ∧ PacketCause pkt b topic l := by
  cases h with
  | subAck ack => exact b.topicStep_processSubAck n ack
  | dispatch msg | recordDispatch msg pkt =>
    refine ⟨_, Book.topic_silent n rfl ?_ ?_ rfl rfl, .silent⟩
    · exact SubscriptionSet.isSubscribed_dispatch msg _ _ topic
    · exact SubscriptionSet.rejects_dispatch msg _
  | pubAck ack => exact ⟨_, b.topic_acknowledge n _ _, .silent⟩
  | pubRecAgain rec => exact ⟨_, b.topic_acknowledge n _ _, .silent⟩
  | pubRec rec pkt =>
    exact ⟨_, (b.insertPending _ pkt).topic_acknowledge n _ _, .silent⟩
  | pubComp comp => exact ⟨_, b.topic_acknowledge n _ _, .silent⟩
  | _ => exact ⟨_, Book.topic_silent n rfl rfl id rfl rfl, .silent⟩

/-! ## Commands -/

/-- What a command is to a topic, when it ends in the panic if there is one. -/
inductive CommandCause (q : Option Panic) (cmd : Command) (b : Book) (topic : Str) :
    Topic.Label → Prop
  | silent : CommandCause q cmd b topic .silent
  | lose (p : Panic) (panics : q = some p) : CommandCause q cmd b topic .lose
  | reject (sub : SubscribeCommand) (command : cmd = .subscribe sub) (here : sub.topic = topic)
      (rejects : b.subscriptions.rejects sub.topic = true) : CommandCause q cmd b topic .reject
  | replace (sub : SubscribeCommand) (old : PendingSub) (command : cmd = .subscribe sub)
      (accepted : b.subscriptions.rejects sub.topic = false)
      (unsubscribed : b.subscriptions.isSubscribed sub.topic = false)
      (used : b.pendingSubs.lookup b.shared.nextPacketId = some old) :
      CommandCause q cmd b topic .replace
  | forget (command : cmd = .unsub ⟨topic, .immediate⟩)
      (subscribed : b.subscriptions.isSubscribed topic = true) : CommandCause q cmd b topic .forget

theorem CommandCause.of_queue {q : Option Panic} {cmd : Command} {queue : List Command}
    {l : Topic.Label} (h : CommandCause q cmd { b with cmdQueue := queue } topic l) :
    CommandCause q cmd b topic l := by
  cases h with
  | silent => exact .silent
  | lose p panics => exact .lose p panics
  | reject sub command here rejects => exact .reject sub command here rejects
  | replace sub old command accepted unsubscribed used =>
    exact .replace sub old command accepted unsubscribed used
  | forget command subscribed => exact .forget command subscribed

/-- A command that was in the queue counts as asked for. -/
def Command.weight (topic : Str) (cmd : Command) : Nat := if cmd.asks topic then 1 else 0

theorem Command.weight_subscribe_self (cmd : SubscribeCommand) :
    (Command.subscribe cmd).weight cmd.topic = 1 := if_pos (beq_self_eq_true _)

theorem Command.weight_subscribe_ne {cmd : SubscribeCommand} (h : cmd.topic ≠ topic) :
    (Command.subscribe cmd).weight topic = 0 :=
  if_neg fun hasks => h (beq_iff_eq.mp hasks)

/-- A `Subscribe` command that leaves the requests alone. -/
theorem Book.topicStep_consume {q : Option Panic} {cmd : SubscribeCommand} {l : Topic.Label}
    (hsubs : b'.shared.subs = b.shared.subs) (hqueue : b'.cmdQueue = b.cmdQueue)
    (hpending : b'.pendingSubs = b.pendingSubs)
    (hleaf : b'.subscriptions.isSubscribed topic = b.subscriptions.isSubscribed topic)
    (hrejects : b.subscriptions.rejects topic = true → b'.subscriptions.rejects topic = true)
    (hself : cmd.topic = topic → Topic.Frame (b.topic (n + 1) topic) (b'.topic n topic) →
      (b.topic (n + 1) topic).asked = (b'.topic n topic).asked + 1 →
      (b'.topic n topic).requested = (b.topic (n + 1) topic).requested →
      Topic.Step (b.topic (n + 1) topic) (b'.topic n topic) l ∧
        CommandCause q (.subscribe cmd) b topic l) :
    ∃ l, Topic.Step (b.topic (n + (Command.subscribe cmd).weight topic) topic)
      (b'.topic n topic) l ∧ CommandCause q (.subscribe cmd) b topic l := by
  by_cases here : cmd.topic = topic
  · subst here
    rw [Command.weight_subscribe_self]
    refine ⟨l, hself rfl ⟨?_, hleaf, hrejects⟩ ?_ ?_⟩
    · simp only [Book.topic, hsubs]
    · simp only [Book.topic, hqueue]
      omega
    · simp only [Book.topic, hpending]
  · rw [Command.weight_subscribe_ne here]
    refine ⟨_, Book.topic_silent n ?_ hleaf hrejects hqueue hpending, .silent⟩
    rw [hsubs]

theorem Book.topicStep_requestSub {q : Option Panic} (cmd : SubscribeCommand) (pkt : Packet)
    (accepted : b.subscriptions.rejects cmd.topic = false)
    (unsubscribed : b.subscriptions.isSubscribed cmd.topic = false) :
    ∃ l, Topic.Step (b.topic (n + (Command.subscribe cmd).weight topic) topic)
      ((b.requestSub cmd pkt).topic n topic) l ∧ CommandCause q (.subscribe cmd) b topic l := by
  have hcount := Table.count_insert (PendingSub.asks topic) b.shared.nextPacketId
    ⟨cmd.topic, cmd.kind, pkt⟩ b.pendingSubs
  have hnew : Table.hit (PendingSub.asks topic) (some ⟨cmd.topic, cmd.kind, pkt⟩) =
      (Command.subscribe cmd).weight topic := rfl
  have hframe : Topic.Frame (b.topic (n + (Command.subscribe cmd).weight topic) topic)
      ((b.requestSub cmd pkt).topic n topic) := ⟨rfl, rfl, id⟩
  have hasked : (b.topic (n + (Command.subscribe cmd).weight topic) topic).asked =
      ((b.requestSub cmd pkt).topic n topic).asked + (Command.subscribe cmd).weight topic :=
    Nat.add_right_comm n _ _
  rw [hnew] at hcount
  cases hhit : Table.hit (PendingSub.asks topic) (b.pendingSubs.lookup b.shared.nextPacketId) with
  | zero =>
    rw [hhit, Nat.add_zero] at hcount
    by_cases here : cmd.topic = topic
    · subst here
      rw [Command.weight_subscribe_self] at hframe hasked hcount ⊢
      exact ⟨_, .request hframe unsubscribed accepted hasked hcount, .silent⟩
    · rw [Command.weight_subscribe_ne here] at hframe hasked hcount ⊢
      exact ⟨_, .silent hframe hasked.symm hcount, .silent⟩
  | succ k =>
    have hweight : (Command.subscribe cmd).weight topic ≤ 1 := by
      unfold Command.weight
      split <;> omega
    obtain ⟨old, hold⟩ : ∃ old, b.pendingSubs.lookup b.shared.nextPacketId = some old := by
      cases hused : b.pendingSubs.lookup b.shared.nextPacketId with
      | none =>
        rw [hused] at hhit
        cases hhit
      | some old => exact ⟨old, rfl⟩
    refine ⟨_, .replace hframe (by omega) ?_, .replace cmd old rfl accepted unsubscribed hold⟩
    show Table.count _ (b.pendingSubs.insert _ _) ≤ Table.count _ b.pendingSubs
    omega

theorem Book.topicStep_forget {q : Option Panic} (forgotten : Str)
    (subscribed : b.subscriptions.isSubscribed forgotten = true)
    (hsubs : b'.shared.subs = b.shared.subs.erase forgotten)
    (htree : b'.subscriptions = (b.subscriptions.clear forgotten).2)
    (hqueue : b'.cmdQueue = b.cmdQueue) (hpending : b'.pendingSubs = b.pendingSubs) :
    ∃ l, Topic.Step (b.topic n topic) (b'.topic n topic) l ∧
      CommandCause q (.unsub ⟨forgotten, .immediate⟩) b topic l := by
  have hcleared := SubscriptionSet.isSubscribed_clear b.subscriptions forgotten topic
  by_cases here : topic = forgotten
  · subst here
    refine ⟨_, .forget subscribed ?_ ?_ ?_ ?_, .forget rfl subscribed⟩
    · simp only [Book.topic, hsubs, AList.lookup_erase]
      rfl
    · simp only [Book.topic, htree, hcleared]
      simp
    · simp only [Book.topic, hqueue]
    · simp only [Book.topic, hpending]
  · refine ⟨_, Book.topic_silent n ?_ ?_ ?_ hqueue hpending, .silent⟩
    · rw [hsubs, AList.lookup_erase_ne here]
    · rw [htree, hcleared]
      simp [here]
    · rw [htree]
      exact SubscriptionSet.rejects_clear forgotten

theorem CommandEffect.topicStep {q : Option Panic} {cmd : Command}
    (h : CommandEffect q cmd b b') :
    ∃ l, Topic.Step (b.topic (n + cmd.weight topic) topic) (b'.topic n topic) l ∧
      CommandCause q cmd b topic l := by
  cases h with
  | silent q cmd other =>
    have hweight : cmd.weight topic = 0 := by
      cases cmd <;> first | rfl | exact absurd rfl (other _)
    rw [hweight]
    exact ⟨_, Book.topic_silent n rfl rfl id rfl rfl, .silent⟩
  | publish q cmd qos => exact ⟨_, Book.topic_silent n rfl rfl id rfl rfl, .silent⟩
  | reject q cmd _ rejects =>
    refine Book.topicStep_consume n (l := .reject) rfl rfl rfl rfl id ?_
    rintro rfl frame asked requested
    exact ⟨.reject frame rejects asked requested, .reject cmd rfl rfl rejects⟩
  | add q cmd _ subscribed =>
    have hleaf := SubscriptionSet.isSubscribed_update (Subscription.subscribed_add cmd.kind)
      b.subscriptions cmd.topic topic
    refine Book.topicStep_consume n (l := .silent) rfl rfl rfl hleaf
      (SubscriptionSet.rejects_update _ _) ?_
    rintro rfl frame asked requested
    exact ⟨.add frame subscribed asked requested, .silent⟩
  | subscribePanic p cmd =>
    refine Book.topicStep_consume n (l := .lose) rfl rfl rfl rfl id ?_
    rintro rfl frame asked requested
    exact ⟨.lose frame (by omega) requested, .lose p rfl⟩
  | subscribe q cmd pkt _ accepted unsubscribed =>
    exact Book.topicStep_requestSub n cmd pkt accepted unsubscribed
  | removeCallback q changed id' =>
    refine ⟨_, Book.topic_silent n rfl ?_ ?_ rfl rfl, .silent⟩
    · exact SubscriptionSet.isSubscribed_update (Subscription.subscribed_removeFastCallback id')
        b.subscriptions changed topic
    · exact SubscriptionSet.rejects_update _ _
  | unsubscribePanic p forgotten _ subscribed =>
    exact Book.topicStep_forget n forgotten subscribed rfl rfl rfl rfl
  | unsubscribe q forgotten pkt _ subscribed =>
    exact Book.topicStep_forget n forgotten subscribed rfl rfl rfl rfl

end Effects

namespace System

variable {τ : Type} {s s' : System τ} {e : Event} {topic : Str}

/-! ## Steps of the clients -/

section Causes

variable [Transport τ]

/-- What a step of the system is to a topic. -/
inductive Cause (s : System τ) (e : Event) (s' : System τ) (topic : Str) : Topic.Label → Prop
  | silent : Cause s e s' topic .silent
  | cancel (c : Nat) (cmd : Command) (event : e = .client (.cancel c))
      (sends : (s.calls.lookup c).bind Call.command = some cmd) (asks : cmd.asks topic = true) :
      Cause s e s' topic .lose
  /-- `func` panics. -/
  | panic (c : Nat) (qos : QoS) (req : SubscriptionRequest) (actual : Option QoS)
      (event : e = .client (.build c))
      (found : s.calls.lookup c = some (.building topic qos req actual))
      (panics : req.buildable = false) : Cause s e s' topic .lose
  /-- The receiver of commands is gone. -/
  | dead (gone : s'.receiverAlive = false) : Cause s e s' topic .lose
  | packet (te : TaskEvent) (pkt : IncomingPacket) (l : Topic.Label) (event : e = .task te)
      (arrived : s.arriving te = some pkt) (cause : PacketCause pkt s.tx.toBook topic l) :
      Cause s e s' topic l
  | command (te : TaskEvent) (cmd : Command) (l : Topic.Label) (event : e = .task te)
      (taken : s.consumed te = some cmd)
      (cause : CommandCause s'.phase.panic? cmd s.tx.toBook topic l) : Cause s e s' topic l

/-- A step to a topic, with what has caused it. -/
def TopicStep (s : System τ) (e : Event) (s' : System τ) (topic : Str) : Prop :=
  ∃ l, Topic.Step (s.topic topic) (s'.topic topic) l ∧ Cause s e s' topic l

end Causes

/-- The two books agree in what makes up the topics. -/
structure SameTopics (b b' : Book) : Prop where
  standing : ∀ topic, SubscriptionState.standing (b'.shared.subs.lookup topic) =
    SubscriptionState.standing (b.shared.subs.lookup topic)
  cmdQueue : b'.cmdQueue = b.cmdQueue
  pendingSubs : b'.pendingSubs = b.pendingSubs
  subscriptions : b'.subscriptions = b.subscriptions

theorem SameTopics.refl (b : Book) : SameTopics b b := ⟨fun _ => rfl, rfl, rfl, rfl⟩

theorem SameTopics.frame (h : SameTopics s.tx.toBook s'.tx.toBook) :
    Topic.Frame (s.topic topic) (s'.topic topic) where
  standing := h.standing topic
  subscribed := congrArg (SubscriptionSet.isSubscribed · topic) h.subscriptions
  rejected hrejects := (congrArg (SubscriptionSet.rejects · topic) h.subscriptions).trans hrejects

theorem SameTopics.requested (h : SameTopics s.tx.toBook s'.tx.toBook) :
    (s'.topic topic).requested = (s.topic topic).requested :=
  congrArg (Table.count (PendingSub.asks topic)) h.pendingSubs

/-- A call that goes on changes how often a topic is asked for. -/
theorem asked_insert (topic : Str) (t : System τ) {c : Nat} {call : Call}
    (hqueue : t.tx.cmdQueue = s.tx.cmdQueue) (hcalls : t.calls = s.calls.insert c call) :
    (t.topic topic).asked + Table.hit (Call.asks topic) (s.calls.lookup c) =
      (s.topic topic).asked + Table.hit (Call.asks topic) (some call) := by
  have hcount := Table.count_insert (Call.asks topic) c call s.calls
  show Table.count _ t.calls + t.tx.cmdQueue.countP _ + _ =
    Table.count _ s.calls + s.tx.cmdQueue.countP _ + _
  rw [hcalls, hqueue]
  omega

theorem hit_asks_of_idle {old : Option Call} (h : ∀ call ∈ old, call.asks topic = false) :
    Table.hit (Call.asks topic) old = 0 := by
  cases old with
  | none => rfl
  | some call =>
    rw [Table.hit_some, h call rfl]
    rfl

theorem sameTopics_setNotifierMap (n : Notifier) (m : NotifierMap) (b : Book) :
    SameTopics b (b.setShared (b.shared.setNotifierMap n m)) where
  standing topic := by
    show SubscriptionState.standing ((b.shared.setNotifierMap n m).subs.lookup topic) = _
    rw [ClientShared.subs_setNotifierMap]
  cmdQueue := rfl
  pendingSubs := rfl
  subscriptions := rfl

theorem sameTopics_dropPublish (fut : PublishFuture) (b : Book) :
    SameTopics b (b.setShared (fut.drop b.shared)) := by
  unfold PublishFuture.drop
  split
  · exact sameTopics_setNotifierMap _ _ b
  · exact .refl b

/-- The wakers of a pending topic change. -/
theorem sameTopics_slots {b : Book} {waited : Str} {slots : List Slot} (slots' : List Slot)
    (here : b.shared.subs.lookup waited = some (.pending slots)) :
    SameTopics b (b.setShared (b.shared.setSubs
      (b.shared.subs.insert waited (.pending slots')))) where
  standing topic := by
    show SubscriptionState.standing ((b.shared.subs.insert waited _).lookup topic) = _
    rw [Table.lookup_insert]
    split
    · subst waited
      rw [here]
      rfl
    · rfl
  cmdQueue := rfl
  pendingSubs := rfl
  subscriptions := rfl

section Clients

variable [Transport τ] {c : Nat} {call : Call}

theorem topicStep_same (h : SameTopics s.tx.toBook s'.tx.toBook) (hcalls : s'.calls = s.calls) :
    TopicStep s e s' topic := by
  refine ⟨_, .silent h.frame ?_ h.requested, .silent⟩
  simp only [System.topic, Book.topic, hcalls, h.cmdQueue]

/-- A call goes on and asks for the topic as before. -/
theorem topicStep_keep (h : SameTopics s.tx.toBook s'.tx.toBook)
    (hcalls : s'.calls = s.calls.insert c call)
    (hsame : Table.hit (Call.asks topic) (some call) =
      Table.hit (Call.asks topic) (s.calls.lookup c)) : TopicStep s e s' topic := by
  have hasked := asked_insert topic s' h.cmdQueue hcalls
  rw [hsame] at hasked
  exact ⟨_, .silent h.frame (Nat.add_right_cancel hasked) h.requested, .silent⟩

/-- A call goes on that asks for the topic neither before nor behind the step. -/
theorem topicStep_idle (h : SameTopics s.tx.toBook s'.tx.toBook)
    (hcalls : s'.calls = s.calls.insert c call)
    (hold : ∀ old ∈ s.calls.lookup c, old.asks topic = false) (hnew : call.asks topic = false) :
    TopicStep s e s' topic := by
  refine topicStep_keep h hcalls ?_
  rw [hit_asks_of_idle hold, Table.hit_some, hnew]
  rfl

/-- A call goes on to ask for an existing topic. -/
theorem topicStep_ask {name : Str} {qos actual : QoS} {req : SubscriptionRequest}
    (h : SameTopics s.tx.toBook s'.tx.toBook)
    (hcalls : s'.calls = s.calls.insert c (.building name qos req (some actual)))
    (hold : ∀ old ∈ s.calls.lookup c, old.asks topic = false)
    (entry : s.tx.shared.subs.lookup name = some (.existing actual)) :
    TopicStep s e s' topic := by
  by_cases here : name = topic
  · subst here
    have hself : (Call.building name qos req (some actual)).asks name = true :=
      beq_self_eq_true _
    have hasked := asked_insert name s' h.cmdQueue hcalls
    rw [hit_asks_of_idle hold, Table.hit_pos hself] at hasked
    refine ⟨_, .ask h.frame ?_ hasked h.requested, .silent⟩
    exact congrArg SubscriptionState.standing entry
  · exact topicStep_idle h hcalls hold (beq_eq_false_iff_ne.mpr here)

/-- A call ends. -/
theorem topicStep_lose {outcome : Outcome} (h : SameTopics s.tx.toBook s'.tx.toBook)
    (hcalls : s'.calls = s.calls.insert c (.done outcome))
    (hcause : ∀ old ∈ s.calls.lookup c, old.asks topic = true → Cause s e s' topic .lose) :
    TopicStep s e s' topic := by
  by_cases hold : ∀ old ∈ s.calls.lookup c, old.asks topic = false
  · exact topicStep_idle h hcalls hold rfl
  · simp only [not_forall, Bool.not_eq_false] at hold
    obtain ⟨old, hfound, hasks⟩ := hold
    have hasked := asked_insert topic s' h.cmdQueue hcalls
    have hzero : Table.hit (Call.asks topic) (some (.done outcome)) = 0 := rfl
    exact ⟨_, .lose h.frame (by omega) h.requested, hcause old hfound hasks⟩

theorem topicStep_publish (mode : PublishMode) (name : Str) (payload : List UInt8)
    (retain : Bool) (hold : ∀ old ∈ s.calls.lookup c, old.asks topic = false) :
    TopicStep s e (s.startPublish c mode name payload retain) topic := by
  have hencode : ∀ (u : System τ) p, SameTopics s.tx.toBook u.tx.toBook → u.calls = s.calls →
      TopicStep s e (u.encodePublish c mode p) topic := by
    intro u p hsame hcalls
    have hset : ∀ call, u.calls.insert c call = s.calls.insert c call := by
      intro call
      rw [hcalls]
    unfold encodePublish
    split
    · exact topicStep_idle hsame (hset _) hold rfl
    · refine topicStep_idle ⟨hsame.1, hsame.2, hsame.3, hsame.4⟩ (hset _) hold ?_
      cases mode <;> rfl
  unfold startPublish
  split
  · exact hencode s _ (.refl _) rfl
  · exact hencode _ _ ⟨fun _ => rfl, rfl, rfl, rfl⟩ rfl

theorem topicStep_sent {cmd : Command} (found : s.calls.lookup c = some call)
    (sends : call.command = some cmd) :
    TopicStep s e ((s.enqueue cmd).setCall c call.sent) topic := by
  have hcount := Table.count_insert (Call.asks topic) c call.sent s.calls
  have hold : Table.hit (Call.asks topic) (some call) = cmd.weight topic := by
    rw [Table.hit_some, Call.asks_of_command topic sends]
    rfl
  have hnew : Table.hit (Call.asks topic) (some call.sent) = 0 := by
    rw [Table.hit_some, Call.asks_sent]
    rfl
  rw [found, hold, hnew, Nat.add_zero] at hcount
  refine ⟨_, .silent ⟨rfl, rfl, id⟩ ?_ rfl, .silent⟩
  show Table.count _ (s.calls.insert c call.sent) + (s.tx.cmdQueue ++ [cmd]).countP _ =
    Table.count _ s.calls + s.tx.cmdQueue.countP _
  rw [List.countP_append, List.countP_singleton, ← hcount]
  exact (Nat.add_left_comm _ _ _).trans (Nat.add_comm _ _)

/-- The first critical section of a subscribe call. -/
theorem topicStep_subscribe (name : Str) (qos : QoS) (req : SubscriptionRequest)
    (hold : ∀ old ∈ s.calls.lookup c, old.asks topic = false) :
    TopicStep s e (s.startSubscribe c name qos req) topic := by
  unfold startSubscribe
  match hentry : s.tx.shared.subs.lookup name with
  | some (.existing actual) => exact topicStep_ask (.refl _) rfl hold hentry
  | some (.pending slots) => exact topicStep_idle (.refl _) rfl hold rfl
  | none =>
    have hasked := asked_insert (s := s) topic ((s.setShared (s.tx.shared.setSubs
      (s.tx.shared.subs.insert name (.pending [])))).setCall c
        (.building name qos req none)) rfl rfl
    rw [hit_asks_of_idle hold, Table.hit_some] at hasked
    by_cases here : name = topic
    · subst here
      rw [Call.asks, if_pos (beq_self_eq_true _)] at hasked
      refine ⟨_, .start (congrArg SubscriptionState.standing hentry) ?_ hasked rfl rfl, .silent⟩
      show SubscriptionState.standing ((s.tx.shared.subs.insert name _).lookup name) = _
      rw [AList.lookup_insert]
      rfl
    · rw [Call.asks, if_neg (fun h => here (beq_iff_eq.mp h))] at hasked
      refine ⟨_, .silent ⟨congrArg SubscriptionState.standing ?_, rfl, id⟩ hasked rfl, .silent⟩
      exact AList.lookup_insert_ne (Ne.symm here)

section Futures

variable {fut : SubscribeFuture} (found : s.calls.lookup c = some call)
  (waits : call.subscribeFuture = some fut)

include found waits

omit [Transport τ] in
theorem idle_of_waits (topic : Str) : ∀ old ∈ s.calls.lookup c, old.asks topic = false := by
  rw [found]
  rintro old ⟨⟩
  cases call <;> first | rfl | cases waits

/-- A subscribe future that is ready. A call that has waited for a topic to become existing
goes on to ask for it. -/
theorem topicStep_ready {result : Except Unit QoS} (h : SameTopics s.tx.toBook s'.tx.toBook)
    (hcalls : s'.calls = s.calls.insert c (call.subscribeReady result))
    (entry : ∀ qos, result = .ok qos → s.tx.shared.subs.lookup fut.topic = some (.existing qos)) :
    TopicStep s e s' topic := by
  have hold := idle_of_waits found waits topic
  cases call with
  | awaitingBefore fut' qos req =>
    cases waits
    cases result with
    | ok actual => exact topicStep_ask h hcalls hold (entry actual rfl)
    | error => exact topicStep_idle h hcalls hold rfl
  | awaitingAfter => cases result <;> exact topicStep_idle h hcalls hold rfl
  | _ => cases waits

theorem topicStep_poll (hlive : fut.result = none) :
    TopicStep s e (s.pollSubscribe c call fut) topic := by
  have hold := idle_of_waits found waits topic
  have hwith : ∀ fut', (call.withSubscribeFuture fut').asks topic = false := by
    intro fut'
    cases call <;> first | rfl | cases waits
  unfold pollSubscribe
  rcases fut.poll_cases c s.polls s.tx.shared with
    ⟨result, fut', hpoll⟩ | ⟨-, slots, hslots,
      ⟨i, -, -, hpoll⟩ | ⟨i, slot, -, -, hpoll⟩ | ⟨-, hpoll⟩⟩
  · have hentry : ∀ qos, result = .ok qos →
        s.tx.shared.subs.lookup fut.topic = some (.existing qos) :=
      fun qos hok => SubscribeFuture.entry_of_poll hpoll hok hlive
    rw [hpoll]
    exact topicStep_ready found waits ⟨fun _ => rfl, rfl, rfl, rfl⟩ rfl hentry
  · rw [hpoll]
    exact topicStep_idle (.refl _) rfl hold rfl
  · rw [hpoll]
    exact topicStep_idle (sameTopics_slots _ hslots) rfl hold (hwith _)
  · rw [hpoll]
    exact topicStep_idle (sameTopics_slots _ hslots) rfl hold (hwith _)

theorem topicStep_cancelSubscribe : TopicStep s e (s.cancelSubscribe c fut) topic := by
  have hold := idle_of_waits found waits topic
  unfold cancelSubscribe
  rcases fut.drop_cases s.tx.shared with
    hdrop | ⟨-, slots, i, hslots, -, ⟨-, hdrop⟩ | ⟨slot, -, hdrop⟩⟩
  · rw [hdrop]
    exact topicStep_idle (.refl _) rfl hold rfl
  · rw [hdrop]
    exact topicStep_idle (.refl _) rfl hold rfl
  · rw [hdrop]
    exact topicStep_idle (sameTopics_slots _ hslots) rfl hold rfl

end Futures

theorem topicStep_of_clientMove {e : ClientEvent} (hlive : s.subscribers.Live)
    (h : ClientMove s e s') : TopicStep s (.client e) s' topic := by
  have hfresh : ∀ {c}, s.calls.lookup c = none →
      ∀ old ∈ s.calls.lookup c, old.asks topic = false := by
    rintro c hnone old hold
    rw [hnone] at hold
    cases hold
  cases h with
  | handle e h => exact topicStep_same (.refl _) rfl
  | giveUp alive =>
    refine ⟨_, .silent ⟨rfl, rfl, id⟩ ?_ rfl, .silent⟩
    show _ + (s.tx.cmdQueue ++ [Command.disconnect]).countP _ = _
    rw [List.countP_append]
    rfl
  | publish c mode name payload retain fresh =>
    exact topicStep_publish mode name payload retain (hfresh fresh)
  | register c cmd n call =>
    refine topicStep_idle (sameTopics_setNotifierMap _ _ _) rfl ?_ rfl
    rw [call]
    rintro old ⟨⟩
    rfl
  | sent c call cmd found sends alive => exact topicStep_sent found sends
  | sendFailed c call cmd found sends dead =>
    unfold System.sendFailed
    split
    · exact topicStep_lose (sameTopics_dropPublish _ _) rfl fun _ _ _ => .dead dead
    · exact topicStep_lose (.refl _) rfl fun _ _ _ => .dead dead
  | queueFull c cmd found =>
    refine topicStep_idle (.refl _) rfl ?_ rfl
    rw [found]
    rintro old ⟨⟩
    rfl
  | pollPublish c fut found =>
    have hold : ∀ old ∈ s.calls.lookup c, old.asks topic = false := by
      rw [found]
      rintro old ⟨⟩
      rfl
    unfold System.pollPublish
    rcases fut.poll_cases s.polls s.tx.shared with ⟨ended, fut', hpoll⟩ | ⟨r, -, -, -, hpoll⟩
    · rw [hpoll]
      exact topicStep_idle (.refl _) rfl hold rfl
    · rw [hpoll]
      exact topicStep_idle (sameTopics_setNotifierMap _ _ _) rfl hold rfl
  | pollSubscribe c call fut found waits =>
    exact topicStep_poll found waits (hlive c fut (future_subscribers found waits))
  | cancelPublish c call fut found waits =>
    refine topicStep_idle (sameTopics_dropPublish _ _) rfl ?_ rfl
    rw [found]
    rintro old ⟨⟩
    cases call <;> first | rfl | cases waits
  | cancelSubscribe c call fut found waits => exact topicStep_cancelSubscribe found waits
  | cancelSend c call cmd found sends waits =>
    refine topicStep_lose (.refl _) rfl fun old hold hasks => ?_
    rw [found] at hold
    cases hold
    refine .cancel c cmd rfl ?_ ((Call.asks_of_command topic sends).symm.trans hasks)
    rw [found]
    exact sends
  | subscribe c name qos req fresh => exact topicStep_subscribe name qos req (hfresh fresh)
  | build c name qos req actual kind built found made =>
    have hsame : SameTopics s.tx.toBook built.tx.toBook := by
      rw [buildKind_frame made]
      exact ⟨fun _ => rfl, rfl, rfl, rfl⟩
    have hcalls : built.calls = s.calls := by rw [buildKind_frame made]
    refine topicStep_keep hsame (congrArg (AList.insert c _) hcalls) ?_
    rw [found]
    rfl
  | buildPanics c name qos req actual found panics =>
    refine topicStep_lose (.refl _) rfl fun old hold hasks => ?_
    rw [found] at hold
    cases hold
    obtain rfl : name = topic := beq_iff_eq.mp hasks
    exact .panic c qos req actual rfl found panics
  | command e c cmd fresh other =>
    refine topicStep_idle (.refl _) rfl (hfresh fresh) ?_
    cases cmd <;> first | rfl | cases other
  | mail e ch f => exact topicStep_same ⟨fun _ => rfl, rfl, rfl, rfl⟩ rfl

end Clients

/-! ## Steps of the task -/

section Task

variable [Transport τ]

theorem topicStep_of_taskMove {e : TaskEvent} (h : TaskMove s e s')
    (hopen : s'.phase.drained = false) : TopicStep s (.task e) s' topic := by
  cases h with
  | quiet tx p clean running next book =>
    exact topicStep_same (by rw [book]; exact .refl _) rfl
  | connAck tx p clean running next pkt arrived waiting book =>
    exact topicStep_same (by rw [book]; exact ⟨fun _ => rfl, rfl, rfl, rfl⟩) rfl
  | packet tx p clean running next pkt arrived connected effect =>
    obtain ⟨l, hstep, hcause⟩ := effect.topicStep (Table.count (Call.asks topic) s.calls)
    exact ⟨l, hstep, .packet e pkt l rfl arrived hcause.of_logReceived⟩
  | command tx p clean running next cmd rest queue taken connected effect =>
    obtain ⟨l, hstep, hcause⟩ := effect.topicStep (Table.count (Call.asks topic) s.calls)
    refine ⟨l, ?_, .command e cmd l rfl taken hcause.of_queue⟩
    have hbefore : s.topic topic = Book.topic { s.tx.toBook with cmdQueue := rest }
        (Table.count (Call.asks topic) s.calls + cmd.weight topic) topic := by
      simp only [System.topic, Book.topic, queue, List.countP_cons, Command.weight, Topic.mk.injEq]
      exact ⟨trivial, by omega, trivial, trivial, trivial⟩
    rw [hbefore]
    exact hstep
  | finish status ended => cases hopen
  | fail n next stage => exact topicStep_same (sameTopics_setNotifierMap n _ _) rfl
  | drain stage => cases hopen
  | wake stage => cases hopen
  | drop status ended => cases hopen

/-- Until the map of subscriptions is drained, every step of the system is one of each
topic. -/
theorem topicStep (hlive : s.subscribers.Live) (h : s.step e = some s')
    (hopen : s'.phase.drained = false) : TopicStep s e s' topic := by
  cases e with
  | task e => exact topicStep_of_taskMove (taskMove_of_taskStep h) hopen
  | client e => exact topicStep_of_clientMove hlive (clientMove_of_clientStep h)

end Task

end System

end Lmc
