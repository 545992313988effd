import Lmc.Task.Desk

/-!
# What the task does to its books

`PacketEffect` and `CommandEffect` list the books that handling a packet or a command can
leave behind, whatever the transport does and wherever it fails. They are what is left of
`PacketWork` and `CommandWork` when only the books are looked at; a tick of the alarm
leaves the books as they are.
-/

namespace Lmc

/-- The books that handling a packet can leave behind. -/
inductive PacketEffect : IncomingPacket → Book → Book → Prop
  /-- No change, or a failure before the first change. -/
  | silent (pkt : IncomingPacket) (b : Book) : PacketEffect pkt b b
  | subAck (ack : SubAckPacket) (b : Book) : PacketEffect (.subAck ack) b (b.processSubAck ack)
  | dispatch (msg : IncomingPublishPacket) (b : Book) :
      PacketEffect (.publish msg) b (b.dispatch msg)
  /-- A failure between the change of the pending packets and the dispatch. -/
  | record (msg : IncomingPublishPacket) (pkt : Packet) (b : Book) :
      PacketEffect (.publish msg) b (b.insertPending (.pubRec msg.info.packetId) pkt)
  | recordDispatch (msg : IncomingPublishPacket) (pkt : Packet) (b : Book) :
      PacketEffect (.publish msg) b
        ((b.insertPending (.pubRec msg.info.packetId) pkt).dispatch msg)
  | pubAck (ack : PubAckPacket) (b : Book) :
      PacketEffect (.pubAck ack) b (b.acknowledge (.publish ack.packetId) .pubAck)
  | pubRecAgain (rec : PubRecPacket) (b : Book) :
      PacketEffect (.pubRec rec) b (b.acknowledge (.publish rec.packetId) .pubRec)
  /-- A failure between the change of the pending packets and the notification. -/
  | release (rec : PubRecPacket) (pkt : Packet) (b : Book) :
      PacketEffect (.pubRec rec) b (b.insertPending (.pubRel rec.packetId) pkt)
  | pubRec (rec : PubRecPacket) (pkt : Packet) (b : Book) :
      PacketEffect (.pubRec rec) b ((b.insertPending (.pubRel rec.packetId) pkt).acknowledge
        (.publish rec.packetId) .pubRec)
  | pubRel (rel : PubRelPacket) (b : Book) :
      PacketEffect (.pubRel rel) b (b.erasePending (.pubRec rel.packetId))
  | pubComp (comp : PubCompPacket) (b : Book) :
      PacketEffect (.pubComp comp) b (b.acknowledge (.pubRel comp.packetId) .pubComp)
  | unsubAck (ack : UnsubAckPacket) (b : Book) :
      PacketEffect (.unsubAck ack) b (b.erasePending (.unsubscribe ack.packetId))

/-- The books that a command can leave behind, together with the panic if there is one. -/
inductive CommandEffect : Option Panic → Command → Book → Book → Prop
  | silent (q : Option Panic) (cmd : Command) (other : ∀ sub, cmd ≠ .subscribe sub) (b : Book) :
      CommandEffect q cmd b b
  | publish (q : Option Panic) (cmd : PublishCommand) (qos : cmd.qos ≠ .atMostOnce) (b : Book) :
      CommandEffect q (.publish cmd) b (b.insertPending (.publish cmd.packetId) cmd.packet)
  /-- The topic pattern is invalid. -/
  | reject (q : Option Panic) (cmd : SubscribeCommand) (b : Book)
      (rejects : b.subscriptions.rejects cmd.topic = true) : CommandEffect q (.subscribe cmd) b b
  | add (q : Option Panic) (cmd : SubscribeCommand) (b : Book)
      (subscribed : b.subscriptions.isSubscribed cmd.topic = true) :
      CommandEffect q (.subscribe cmd) b (b.updateLeaf (Subscription.add cmd.kind) cmd.topic)
  /-- The encoder has panicked. -/
  | subscribePanic (p : Panic) (cmd : SubscribeCommand) (b : Book)
      (accepted : b.subscriptions.rejects cmd.topic = false)
      (unsubscribed : b.subscriptions.isSubscribed cmd.topic = false) :
      CommandEffect (some p) (.subscribe cmd) b b.takePacketId
  | subscribe (q : Option Panic) (cmd : SubscribeCommand) (pkt : Packet) (b : Book)
      (accepted : b.subscriptions.rejects cmd.topic = false)
      (unsubscribed : b.subscriptions.isSubscribed cmd.topic = false) :
      CommandEffect q (.subscribe cmd) b (b.requestSub cmd pkt)
  | removeCallback (q : Option Panic) (topic : Str) (id : UInt32) (b : Book) :
      CommandEffect q (.unsub ⟨topic, .fastCallback id⟩) b
        (b.updateLeaf (Subscription.removeFastCallback id) topic)
  /-- The encoder has panicked. -/
  | unsubscribePanic (p : Panic) (topic : Str) (b : Book)
      (subscribed : b.subscriptions.isSubscribed topic = true) :
      CommandEffect (some p) (.unsub ⟨topic, .immediate⟩) b (b.forgetTopic topic)
  | unsubscribe (q : Option Panic) (topic : Str) (pkt : Packet) (b : Book)
      (subscribed : b.subscriptions.isSubscribed topic = true) :
      CommandEffect q (.unsub ⟨topic, .immediate⟩) b (b.requestUnsub topic pkt)

/-! ## From the desk to the books -/

variable {d d' : Desk}

theorem PacketWork.effect {pkt : IncomingPacket} {cut : Option IoError}
    (h : PacketWork pkt cut d d') : PacketEffect pkt d.book d'.book := by
  cases h with
  | connAck ack => exact .silent _ _
  | pingResp => exact .silent _ _
  | subAck ack => exact .subAck ack _
  | dispatch msg qos => exact .dispatch msg _
  | answer msg _ _ qos =>
    cases cut with
    | none => exact .dispatch msg _
    | some e => exact .silent _ _
  | answerAgain msg pkt _ _ qos known => exact .silent _ _
  | record msg t _ _ qos new =>
    cases cut with
    | none =>
      show PacketEffect _ _ (Book.dispatch msg (Desk.book (Desk.track t _ _ d)))
      rw [Desk.book_track]
      exact .recordDispatch msg _ _
    | some e =>
      show PacketEffect _ _ (Desk.book (Desk.track t _ _ d))
      rw [Desk.book_track]
      exact .record msg _ _
  | pubAck ack => exact .pubAck ack _
  | releaseAgain rec pkt _ _ known =>
    cases cut with
    | none => exact .pubRecAgain rec _
    | some e => exact .silent _ _
  | release rec t _ _ new =>
    cases cut with
    | none =>
      show PacketEffect _ _ (Book.acknowledge _ _ (Desk.book (Desk.track t _ _ d)))
      rw [Desk.book_track]
      exact .pubRec rec _ _
    | some e =>
      show PacketEffect _ _ (Desk.book (Desk.track t _ _ d))
      rw [Desk.book_track]
      exact .release rec _ _
  | pubRel rel cut => exact .pubRel rel _
  | pubComp comp => exact .pubComp comp _
  | unsubAck ack => exact .unsubAck ack _

theorem CommandWork.effect {cmd : Command} {o : Option Fault} (h : CommandWork cmd o d d') :
    CommandEffect (o.bind Fault.panic?) cmd d.book d'.book := by
  cases h with
  | publishOnce cmd _ io _ qos => exact .silent _ _ (by simp) _
  | publish cmd t _ io _ qos =>
    rw [Desk.book_hand, Desk.book_track]
    exact .publish _ cmd qos _
  | reject cmd _ rejects => exact .reject _ cmd _ rejects
  | add cmd _ subscribed => exact .add _ cmd _ subscribed
  | subscribePanic cmd p _ unsubscribed failed accepted =>
    exact .subscribePanic (.encoder p) cmd _ accepted unsubscribed
  | subscribe cmd pkt t _ accepted unsubscribed encoded =>
    exact .subscribe _ cmd pkt _ accepted unsubscribed
  | subscribeCut cmd pkt e _ accepted unsubscribed encoded =>
    exact .subscribe _ cmd pkt _ accepted unsubscribed
  | removeCallback topic id => exact .removeCallback _ topic id _
  | keep topic _ unsubscribed => exact .silent _ _ (by simp) _
  | unsubscribePanic topic p _ subscribed =>
    exact .unsubscribePanic (.encoder p) topic _ subscribed
  | unsubscribe topic pkt t _ io _ subscribed encoded =>
    rw [Desk.book_hand, Desk.book_track]
    exact .unsubscribe _ topic pkt _ subscribed
  | disconnect => exact .silent _ _ (by simp) _

theorem AlarmWork.book {cut : Option IoError} (h : AlarmWork d cut d') : d'.book = d.book := by
  induction h with
  | start => rfl
  | ping cut => rfl
  | settled d₁ before x rest queue gone ih => exact ih
  | resend d₁ before x rest queue pkt pending t ih => exact ih
  | resendCut d₁ before x rest queue pkt pending e ih => exact ih

/-! ## What the books keep -/

theorem PacketEffect.connect {pkt : IncomingPacket} {b b' : Book} (h : PacketEffect pkt b b') :
    b'.connectSig = b.connectSig ∧ b'.connectResult = b.connectResult := by
  have hack : ∀ id n (b : Book), (b.acknowledge id n).connectSig = b.connectSig ∧
      (b.acknowledge id n).connectResult = b.connectResult := by
    intro id n b
    rcases b.acknowledge_cases id n with ⟨-, heq⟩ | ⟨-, heq⟩ <;> rw [heq] <;> exact ⟨rfl, rfl⟩
  cases h with
  | subAck ack =>
    rcases b.processSubAck_cases ack with
      ⟨-, heq⟩ | ⟨sub, -, ⟨-, heq⟩ | ⟨qos, heq⟩ | ⟨-, heq⟩⟩ <;> rw [heq] <;> exact ⟨rfl, rfl⟩
  | pubAck ack => exact hack _ _ b
  | pubRecAgain rec => exact hack _ _ b
  | pubRec rec pkt => exact hack _ _ _
  | pubComp comp => exact hack _ _ b
  | _ => exact ⟨rfl, rfl⟩

/-- Packets are logged before they are handled. -/
theorem PacketEffect.received {pkt : IncomingPacket} {b b' : Book} (h : PacketEffect pkt b b') :
    b'.history.received = b.history.received := by
  have hack : ∀ id n (b : Book),
      (b.acknowledge id n).history.received = b.history.received := by
    intro id n b
    rcases b.acknowledge_cases id n with ⟨-, heq⟩ | ⟨-, heq⟩ <;> rw [heq] <;> rfl
  cases h with
  | subAck ack =>
    rcases b.processSubAck_cases ack with
      ⟨-, heq⟩ | ⟨sub, -, ⟨-, heq⟩ | ⟨qos, heq⟩ | ⟨-, heq⟩⟩ <;> rw [heq] <;> rfl
  | pubAck ack => exact hack _ _ b
  | pubRecAgain rec => exact hack _ _ b
  | pubRec rec pkt => exact hack _ _ _
  | pubComp comp => exact hack _ _ b
  | _ => rfl

theorem CommandEffect.received {q : Option Panic} {cmd : Command} {b b' : Book}
    (h : CommandEffect q cmd b b') : b'.history.received = b.history.received := by
  cases h <;> rfl

theorem CommandEffect.connect {q : Option Panic} {cmd : Command} {b b' : Book}
    (h : CommandEffect q cmd b b') :
    b'.connectSig = b.connectSig ∧ b'.connectResult = b.connectResult := by
  cases h <;> exact ⟨rfl, rfl⟩

end Lmc
