import Lmc.Task.Phases

/-!
# The desk of the task

A program of the task changes its books, hands packets over for transmission and keeps
timeouts for those that may have to be sent again. `Desk` is these three together, without
the state of the connection. `PacketWork`, `CommandWork` and `AlarmWork` list what handling
a packet, a command and a tick of the alarm do to the desk. Each of them is told the
failure of the transport that cut it short, if there was one: the packet in hand is then
handed over, and whatever was to be done behind it is not.

`Works Q x d` says that `x`, started at the desk `d`, ends at a desk in `Q`.
-/

namespace Lmc

open EStateLogic

/-! ## The output leaves the desk alone -/

namespace Link

variable {τ : Type}

/-- What a program of the output that hands nothing over can do: it may write, and it may
read the clock. -/
structure Calm (link link' : Link τ) : Prop where
  handed : link'.handed = link.handed
  accepted : link.accepted <+: link'.accepted
  clock : link'.clock = link.clock
  nows : link.nows ≤ link'.nows

theorem Calm.same {link link' : Link τ} (handed : link'.handed = link.handed)
    (accepted : link'.accepted = link.accepted) (clock : link'.clock = link.clock)
    (nows : link'.nows = link.nows) : Calm link link' :=
  ⟨handed, accepted ▸ List.prefix_rfl, clock, le_of_eq nows.symm⟩

theorem Calm.trans {a b c : Link τ} (h : Calm a b) (h' : Calm b c) : Calm a c :=
  ⟨h'.handed.trans h.handed, h.accepted.trans h'.accepted, h'.clock.trans h.clock,
    Nat.le_trans h.nows h'.nows⟩

instance : Std.Refl (Calm (τ := τ)) := ⟨fun _ => .same rfl rfl rfl rfl⟩

instance : IsTrans (Link τ) Calm := ⟨fun _ _ _ => Calm.trans⟩

theorem calm_now : Advances Calm (now : LinkM τ Nat) :=
  fun _ => ⟨rfl, List.prefix_rfl, rfl, Nat.le_succ _⟩

theorem calm_stampLastTx : Advances Calm (stampLastTx : LinkM τ Unit) :=
  calm_now.bind fun _ => .modify fun _ => .same rfl rfl rfl rfl

theorem calm_setTx (tx : Option TxPacket) : Advances Calm (modify (setTx tx) : LinkM τ PUnit) :=
  .modify fun _ => .same rfl rfl rfl rfl

variable [Transport τ]

theorem calm_write (src : List UInt8) (zero : Bool) :
    Advances Calm (write src zero : LinkM τ Nat) := by
  intro link
  simp only [after, write, EStateM.run_bind, EStateM.run_get]
  cases Transport.write link.transport src zero with
  | mk r t =>
    cases r with
    | ok n => exact ⟨rfl, List.prefix_append _ _, rfl, le_rfl⟩
    | error e => exact .same rfl rfl rfl rfl

theorem calm_flush : Advances Calm (flush : LinkM τ Unit) := by
  intro link
  simp only [after, flush, EStateM.run_bind, EStateM.run_get]
  cases Transport.flush link.transport with
  | mk r t => cases r <;> exact .same rfl rfl rfl rfl

/-- The parts of sending a packet. What each of them keeps is kept by
`try_send_packet`. -/
structure Sends (R : Link τ → Link τ → Prop) : Prop where
  write : ∀ src zero, Advances R (write src zero : LinkM τ Nat)
  flush : Advances R (flush : LinkM τ Unit)
  setTx : ∀ tx, Advances R (modify (setTx tx) : LinkM τ PUnit)

namespace Sends

variable {R : Link τ → Link τ → Prop} [Std.Refl R] [IsTrans (Link τ) R]

theorem writeFirst (h : Sends R) (packet : Packet) (setDup : Bool) :
    Advances R (Link.writeFirst packet setDup : LinkM τ Nat) := by
  refine .ite (.bind (h.write _ _) fun written => .ite ?_ (.pure _)) (h.write _ _)
  exact .bind (h.write _ _) fun _ => .pure _

theorem trySendPacket (h : Sends R) (packet : Packet) (setDup : Bool) :
    Advances R (Link.trySendPacket packet setDup : LinkM τ Unit) := by
  refine .bind .get fun link => .ite (.throw _) (.bind (h.writeFirst _ _) fun written => ?_)
  exact .ite h.flush (h.setTx _)

end Sends

theorem calm_sends : Sends (τ := τ) Calm := ⟨calm_write, calm_flush, calm_setTx⟩

theorem calm_sendQueued (q : List InternalPacket) :
    Advances Calm (sendQueued q : LinkM τ Unit) := by
  induction q with
  | nil => exact .pure _
  | cons pkt rest ih =>
    refine .bind (.modify fun _ => .same rfl rfl rfl rfl) fun _ => ?_
    exact .bind (calm_sends.trySendPacket _ _) fun _ => .bind .get fun _ => .ite (.pure _) ih

theorem calm_finishPacket : Advances Calm (finishPacket : LinkM τ Unit) := by
  refine .bind calm_flush fun _ => .bind ?_ fun _ => calm_stampLastTx
  exact .bind (calm_setTx _) fun _ => .bind .get fun _ => calm_sendQueued _

theorem calm_writeOnce : Advances Calm (writeOnce : LinkM τ (Option Bool)) := by
  refine .bind .get fun link => ?_
  cases link.txPkt with
  | none => exact .pure _
  | some tx =>
    refine .bind (calm_write _ _) fun written => .ite (.pure _) (.bind (calm_setTx _) fun _ => ?_)
    exact .bind (.ite calm_finishPacket (.pure _)) fun _ => .pure _

/-- A program that fails only because the transport does. -/
def IoFails {α : Type} (x : LinkM τ α) : Prop :=
  Triple (fun _ => True) x (fun _ _ => True) (fun e _ => ∃ err, e = .io err)

omit [Transport τ] in
theorem IoFails.bind {α β : Type} {x : LinkM τ α} {k : α → LinkM τ β} (hx : IoFails x)
    (hk : ∀ a, IoFails (k a)) : IoFails (x >>= k) := Triple.bind hx hk

omit [Transport τ] in
theorem IoFails.pure {α : Type} (a : α) : IoFails (pure a : LinkM τ α) := fun _ h => h

theorem ioFails_write (src : List UInt8) (zero : Bool) :
    IoFails (write src zero : LinkM τ Nat) := by
  intro link _
  simp only [write, EStateM.run_bind, EStateM.run_get]
  cases Transport.write link.transport src zero with
  | mk r t =>
    cases r with
    | ok n => trivial
    | error e => exact ⟨e, rfl⟩

theorem ioFails_flush : IoFails (flush : LinkM τ Unit) := by
  intro link _
  simp only [flush, EStateM.run_bind, EStateM.run_get]
  cases Transport.flush link.transport with
  | mk r t =>
    cases r with
    | ok u => trivial
    | error e => exact ⟨e, rfl⟩

theorem ioFails_writeFirst (packet : Packet) (setDup : Bool) :
    IoFails (writeFirst packet setDup : LinkM τ Nat) := by
  refine Triple.ite (fun _ => (ioFails_write _ _).bind fun written => ?_)
    fun _ => ioFails_write _ _
  exact Triple.ite (fun _ => (ioFails_write _ _).bind fun _ => .pure _) fun _ => IoFails.pure _

/-- A packet is handed over; then it is sent, or the transport fails. -/
inductive HandsOver (link : Link τ) (pkt : InternalPacket) (x : LinkM τ Unit) : Prop
  | ok (link' : Link τ) (run : x.run link = .ok () link') (calm : Calm (link.hand pkt) link')
  | failed (e : IoError) (link' : Link τ) (run : x.run link = .error (.io e) link')
      (calm : Calm (link.hand pkt) link')

theorem handsOver_sendPacket (packet : Packet) (setDup : Bool) {link : Link τ}
    (h : link.txPkt = none) : HandsOver link ⟨packet, setDup⟩ (sendPacket packet setDup) := by
  have hrest : (sendPacket packet setDup).run link = (do
      let written ← writeFirst packet setDup
      if written ≥ packet.bytes.length then flush
      else modify (setTx (some ⟨packet, written, setDup⟩)) : LinkM τ Unit).run
        (link.hand ⟨packet, setDup⟩) := by
    have hmod : (modify (hand ⟨packet, setDup⟩) : LinkM τ PUnit).run link =
        .ok .unit (link.hand ⟨packet, setDup⟩) := rfl
    have hidle : (link.hand ⟨packet, setDup⟩).txPkt.isSome = false := by
      show link.txPkt.isSome = false
      rw [h]
      rfl
    simp only [sendPacket, trySendPacket, EStateM.run_bind, hmod, EStateM.run_get, hidle,
      Bool.false_eq_true, if_false]
  have hcalm := (Advances.bind (calm_sends.writeFirst packet setDup) fun written =>
    Advances.ite (c := written ≥ packet.bytes.length) calm_flush
      (calm_setTx (some ⟨packet, written, setDup⟩))) (link.hand ⟨packet, setDup⟩)
  have hio := ((ioFails_writeFirst packet setDup).bind fun written =>
    Triple.ite (c := written ≥ packet.bytes.length) (fun _ => ioFails_flush)
      (fun _ => (Triple.modify fun _ h => h :
        IoFails (modify (setTx (some ⟨packet, written, setDup⟩)))))) (link.hand ⟨packet, setDup⟩)
          trivial
  cases hrun : (sendPacket packet setDup).run link with
  | ok u link' =>
    rw [after_of_ok (hrest.symm.trans hrun)] at hcalm
    exact .ok link' hrun hcalm
  | error e link' =>
    rw [after_of_error (hrest.symm.trans hrun)] at hcalm
    rw [hrest.symm.trans hrun] at hio
    obtain ⟨err, rfl⟩ := hio
    exact .failed err link' hrun hcalm

theorem handsOver_queueInternalPacket (packet : Packet) (setDup : Bool) (link : Link τ) :
    HandsOver link ⟨packet, setDup⟩ (queueInternalPacket packet setDup) := by
  cases htx : link.txPkt with
  | none =>
    have hsame : (queueInternalPacket packet setDup).run link =
        (sendPacket packet setDup).run link := by
      have hmod : (modify (hand ⟨packet, setDup⟩) : LinkM τ PUnit).run link =
          .ok .unit (link.hand ⟨packet, setDup⟩) := rfl
      have hidle : (link.hand ⟨packet, setDup⟩).txPkt.isNone = true := by
        show link.txPkt.isNone = true
        rw [htx]
        rfl
      simp only [queueInternalPacket, sendPacket, EStateM.run_bind, hmod, EStateM.run_get, hidle,
        if_true]
    cases handsOver_sendPacket packet setDup htx with
    | ok link' run calm => exact .ok link' (hsame.trans run) calm
    | failed e link' run calm => exact .failed e link' (hsame.trans run) calm
  | some tx =>
    refine .ok ((link.hand ⟨packet, setDup⟩).setQueue
      (link.internalPktQueue ++ [⟨packet, setDup⟩])) ?_ (.same rfl rfl rfl rfl)
    have hmod : (modify (hand ⟨packet, setDup⟩) : LinkM τ PUnit).run link =
        .ok .unit (link.hand ⟨packet, setDup⟩) := rfl
    have hbusy : (link.hand ⟨packet, setDup⟩).txPkt.isNone = false := by
      show link.txPkt.isNone = false
      rw [htx]
      rfl
    simp only [queueInternalPacket, EStateM.run_bind, hmod, EStateM.run_get, hbusy,
      Bool.false_eq_true, if_false]
    rfl

end Link

/-! ## Desks -/

def Fault.panic? : Fault → Option Panic
  | .io _ => none
  | .panic p => some p

/-- The books of the task, the packets it has handed over and its timeouts, together with
the `PINGREQ` packet it keeps. -/
structure Desk where
  book : Book
  handed : List InternalPacket
  timeouts : List Timeout
  pingReq : Packet

namespace Desk

def onBook (f : Book → Book) (d : Desk) : Desk := { d with book := f d.book }

def hand (pkt : InternalPacket) (d : Desk) : Desk := { d with handed := d.handed ++ [pkt] }

def schedule (t : Nat) (id : IdType) (d : Desk) : Desk :=
  { d with timeouts := d.timeouts ++ [⟨t, id⟩] }

/-- The packet becomes pending. Where one was pending under the key already there is a
timeout already. -/
def track (t : Nat) (id : IdType) (pkt : Packet) (d : Desk) : Desk :=
  if (d.book.pendingPackets.lookup id).isSome then d.onBook (Book.insertPending id pkt)
  else (d.onBook (Book.insertPending id pkt)).schedule t id

/-- The last change of the books, which a failure prevents. -/
def conclude (cut : Option IoError) (f : Book → Book) (d : Desk) : Desk :=
  if cut.isSome then d else d.onBook f

def pendingPacket (id : IdType) (d : Desk) : Option Packet :=
  if id.ty = .subscribe then (d.book.pendingSubs.lookup id.id).map PendingSub.packet
  else d.book.pendingPackets.lookup id

/-- A pending packet is a `SUBSCRIBE` of the pending subscriptions, or another one. -/
theorem pendingPacket_cases {id : IdType} {d : Desk} {pkt : Packet}
    (h : d.pendingPacket id = some pkt) :
    (id.ty = .subscribe ∧ ∃ sub, d.book.pendingSubs.lookup id.id = some sub ∧
      sub.packet = pkt) ∨
    id.ty ≠ .subscribe ∧ d.book.pendingPackets.lookup id = some pkt := by
  unfold pendingPacket at h
  split at h
  · exact Or.inl ⟨‹_›, Option.map_eq_some_iff.mp h⟩
  · exact Or.inr ⟨‹_›, h⟩

@[simp] theorem book_onBook (f : Book → Book) (d : Desk) : (d.onBook f).book = f d.book := rfl

@[simp] theorem book_hand (pkt : InternalPacket) (d : Desk) : (d.hand pkt).book = d.book := rfl

@[simp] theorem book_schedule (t : Nat) (id : IdType) (d : Desk) :
    (d.schedule t id).book = d.book := rfl

@[simp] theorem book_track (t : Nat) (id : IdType) (pkt : Packet) (d : Desk) :
    (d.track t id pkt).book = d.book.insertPending id pkt := by
  unfold track
  split <;> rfl

@[simp] theorem handed_onBook (f : Book → Book) (d : Desk) :
    (d.onBook f).handed = d.handed := rfl

@[simp] theorem handed_hand (pkt : InternalPacket) (d : Desk) :
    (d.hand pkt).handed = d.handed ++ [pkt] := rfl

@[simp] theorem handed_schedule (t : Nat) (id : IdType) (d : Desk) :
    (d.schedule t id).handed = d.handed := rfl

@[simp] theorem handed_track (t : Nat) (id : IdType) (pkt : Packet) (d : Desk) :
    (d.track t id pkt).handed = d.handed := by
  unfold track
  split <;> rfl

@[simp] theorem handed_conclude (cut : Option IoError) (f : Book → Book) (d : Desk) :
    (d.conclude cut f).handed = d.handed := by
  unfold conclude
  split <;> rfl

@[simp] theorem pingReq_track (t : Nat) (id : IdType) (pkt : Packet) (d : Desk) :
    (d.track t id pkt).pingReq = d.pingReq := by
  unfold track
  split <;> rfl

@[simp] theorem pingReq_conclude (cut : Option IoError) (f : Book → Book) (d : Desk) :
    (d.conclude cut f).pingReq = d.pingReq := by
  unfold conclude
  split <;> rfl

end Desk

/-! ## What the handlers do -/

/-- What handling a packet does to the desk. -/
inductive PacketWork : IncomingPacket → Option IoError → Desk → Desk → Prop
  | connAck (ack : ConnAckPacket) (d : Desk) : PacketWork (.connAck ack) none d d
  | pingResp (d : Desk) : PacketWork .pingResp none d d
  | subAck (ack : SubAckPacket) (d : Desk) :
      PacketWork (.subAck ack) none d (d.onBook (Book.processSubAck ack))
  | dispatch (msg : IncomingPublishPacket) (d : Desk) (qos : msg.info.flags.qos = .atMostOnce) :
      PacketWork (.publish msg) none d (d.onBook (Book.dispatch msg))
  | answer (msg : IncomingPublishPacket) (cut : Option IoError) (d : Desk)
      (qos : msg.info.flags.qos = .atLeastOnce) :
      PacketWork (.publish msg) cut d
        ((d.hand ⟨pubAckPacket msg.info.packetId, false⟩).conclude cut (Book.dispatch msg))
  /-- The message is a duplicate. -/
  | answerAgain (msg : IncomingPublishPacket) (pkt : Packet) (cut : Option IoError) (d : Desk)
      (qos : msg.info.flags.qos = .exactlyOnce)
      (known : d.book.pendingPackets.lookup (.pubRec msg.info.packetId) = some pkt) :
      PacketWork (.publish msg) cut d (d.hand ⟨pkt, false⟩)
  | record (msg : IncomingPublishPacket) (t : Nat) (cut : Option IoError) (d : Desk)
      (qos : msg.info.flags.qos = .exactlyOnce)
      (new : d.book.pendingPackets.lookup (.pubRec msg.info.packetId) = none) :
      PacketWork (.publish msg) cut d
        (((d.track t (.pubRec msg.info.packetId) (pubRecPacket msg.info.packetId)).hand
          ⟨pubRecPacket msg.info.packetId, false⟩).conclude cut (Book.dispatch msg))
  | pubAck (ack : PubAckPacket) (d : Desk) :
      PacketWork (.pubAck ack) none d
        (d.onBook (Book.acknowledge (.publish ack.packetId) .pubAck))
  /-- The release was sent before. -/
  | releaseAgain (rec : PubRecPacket) (pkt : Packet) (cut : Option IoError) (d : Desk)
      (known : d.book.pendingPackets.lookup (.pubRel rec.packetId) = some pkt) :
      PacketWork (.pubRec rec) cut d
        ((d.hand ⟨pkt, false⟩).conclude cut (Book.acknowledge (.publish rec.packetId) .pubRec))
  | release (rec : PubRecPacket) (t : Nat) (cut : Option IoError) (d : Desk)
      (new : d.book.pendingPackets.lookup (.pubRel rec.packetId) = none) :
      PacketWork (.pubRec rec) cut d
        (((d.track t (.pubRel rec.packetId) (pubRelPacket rec.packetId)).hand
          ⟨pubRelPacket rec.packetId, false⟩).conclude cut
            (Book.acknowledge (.publish rec.packetId) .pubRec))
  | pubRel (rel : PubRelPacket) (cut : Option IoError) (d : Desk) :
      PacketWork (.pubRel rel) cut d
        ((d.onBook (Book.erasePending (.pubRec rel.packetId))).hand
          ⟨pubCompPacket rel.packetId, false⟩)
  | pubComp (comp : PubCompPacket) (d : Desk) :
      PacketWork (.pubComp comp) none d
        (d.onBook (Book.acknowledge (.pubRel comp.packetId) .pubComp))
  | unsubAck (ack : UnsubAckPacket) (d : Desk) :
      PacketWork (.unsubAck ack) none d
        (d.onBook (Book.erasePending (.unsubscribe ack.packetId)))

namespace Book

/-- The books behind a `SUBSCRIBE` that was handed over. -/
def requestSub (cmd : SubscribeCommand) (pkt : Packet) (b : Book) : Book :=
  ((b.takePacketId).logEncoded (.subscribe ⟨b.shared.nextPacketId, [(cmd.topic, cmd.qos)]⟩))
    |>.insertPendingSub b.shared.nextPacketId ⟨cmd.topic, cmd.kind, pkt⟩

/-- The topic is forgotten and an identifier taken for its `UNSUBSCRIBE`. -/
def forgetTopic (topic : Str) (b : Book) : Book :=
  ({ b with subscriptions := (b.subscriptions.clear topic).2 }.eraseSub topic).takePacketId

/-- The books behind an `UNSUBSCRIBE` that was handed over. -/
def requestUnsub (topic : Str) (pkt : Packet) (b : Book) : Book :=
  ((b.forgetTopic topic).logEncoded (.unsubscribe ⟨b.shared.nextPacketId, [topic]⟩))
    |>.insertPending (.unsubscribe b.shared.nextPacketId) pkt

end Book

/-- What a command does to the desk, and how it ends. -/
inductive CommandWork : Command → Option Fault → Desk → Desk → Prop
  | publishOnce (cmd : PublishCommand) (cut : Option Fault) (io : cut.bind Fault.panic? = none)
      (d : Desk) (qos : cmd.qos = .atMostOnce) :
      CommandWork (.publish cmd) cut d (d.hand ⟨cmd.packet, false⟩)
  | publish (cmd : PublishCommand) (t : Nat) (cut : Option Fault)
      (io : cut.bind Fault.panic? = none) (d : Desk) (qos : cmd.qos ≠ .atMostOnce) :
      CommandWork (.publish cmd) cut d
        ((d.track t (.publish cmd.packetId) cmd.packet).hand ⟨cmd.packet, false⟩)
  /-- The topic pattern is invalid. -/
  | reject (cmd : SubscribeCommand) (d : Desk)
      (rejects : d.book.subscriptions.rejects cmd.topic = true) :
      CommandWork (.subscribe cmd) none d d
  | add (cmd : SubscribeCommand) (d : Desk)
      (subscribed : d.book.subscriptions.isSubscribed cmd.topic = true) :
      CommandWork (.subscribe cmd) none d
        (d.onBook (Book.updateLeaf (Subscription.add cmd.kind) cmd.topic))
  /-- The encoder has panicked. -/
  | subscribePanic (cmd : SubscribeCommand) (p : EncodePanic) (d : Desk)
      (unsubscribed : d.book.subscriptions.isSubscribed cmd.topic = false)
      (failed : makePacket (⟨d.book.shared.nextPacketId, [(cmd.topic, cmd.qos)]⟩ :
        SubscribePacket) = .error p)
      (accepted : d.book.subscriptions.rejects cmd.topic = false) :
      CommandWork (.subscribe cmd) (some (.panic (.encoder p))) d (d.onBook Book.takePacketId)
  | subscribe (cmd : SubscribeCommand) (pkt : Packet) (t : Nat) (d : Desk)
      (accepted : d.book.subscriptions.rejects cmd.topic = false)
      (unsubscribed : d.book.subscriptions.isSubscribed cmd.topic = false)
      (encoded : makePacket (⟨d.book.shared.nextPacketId, [(cmd.topic, cmd.qos)]⟩ :
        SubscribePacket) = .ok pkt) :
      CommandWork (.subscribe cmd) none d
        (((d.onBook (Book.requestSub cmd pkt)).hand ⟨pkt, false⟩).schedule t
          (.subscribe d.book.shared.nextPacketId))
  | subscribeCut (cmd : SubscribeCommand) (pkt : Packet) (e : IoError) (d : Desk)
      (accepted : d.book.subscriptions.rejects cmd.topic = false)
      (unsubscribed : d.book.subscriptions.isSubscribed cmd.topic = false)
      (encoded : makePacket (⟨d.book.shared.nextPacketId, [(cmd.topic, cmd.qos)]⟩ :
        SubscribePacket) = .ok pkt) :
      CommandWork (.subscribe cmd) (some (.io e)) d
        ((d.onBook (Book.requestSub cmd pkt)).hand ⟨pkt, false⟩)
  | removeCallback (topic : Str) (id : UInt32) (d : Desk) :
      CommandWork (.unsub ⟨topic, .fastCallback id⟩) none d
        (d.onBook (Book.updateLeaf (Subscription.removeFastCallback id) topic))
  /-- Nobody is subscribed. -/
  | keep (topic : Str) (d : Desk)
      (unsubscribed : d.book.subscriptions.isSubscribed topic = false) :
      CommandWork (.unsub ⟨topic, .immediate⟩) none d d
  /-- The encoder has panicked. -/
  | unsubscribePanic (topic : Str) (p : EncodePanic) (d : Desk)
      (subscribed : d.book.subscriptions.isSubscribed topic = true)
      (failed : makePacket (⟨d.book.shared.nextPacketId, [topic]⟩ : UnsubscribePacket) =
        .error p) :
      CommandWork (.unsub ⟨topic, .immediate⟩) (some (.panic (.encoder p))) d
        (d.onBook (Book.forgetTopic topic))
  | unsubscribe (topic : Str) (pkt : Packet) (t : Nat) (cut : Option Fault)
      (io : cut.bind Fault.panic? = none) (d : Desk)
      (subscribed : d.book.subscriptions.isSubscribed topic = true)
      (encoded : makePacket (⟨d.book.shared.nextPacketId, [topic]⟩ : UnsubscribePacket) =
        .ok pkt) :
      CommandWork (.unsub ⟨topic, .immediate⟩) cut d
        (((d.onBook fun b => (b.forgetTopic topic).logEncoded
          (.unsubscribe ⟨b.shared.nextPacketId, [topic]⟩)).track t
            (.unsubscribe d.book.shared.nextPacketId) pkt).hand ⟨pkt, false⟩)
  | disconnect (d : Desk) : CommandWork .disconnect none d d

/-- What a tick of the alarm does to the desk: it may send `PINGREQ`, and it goes through
expired timeouts from the oldest on. -/
inductive AlarmWork (d : Desk) : Option IoError → Desk → Prop
  | start : AlarmWork d none d
  | ping (cut : Option IoError) : AlarmWork d cut (d.hand ⟨d.pingReq, false⟩)
  /-- The packet was acknowledged in the meantime. -/
  | settled (d₁ : Desk) (before : AlarmWork d none d₁) (x : Timeout) (rest : List Timeout)
      (queue : d₁.timeouts = x :: rest) (gone : d₁.pendingPacket x.packetId = none) :
      AlarmWork d none { d₁ with timeouts := rest }
  | resend (d₁ : Desk) (before : AlarmWork d none d₁) (x : Timeout) (rest : List Timeout)
      (queue : d₁.timeouts = x :: rest) (pkt : Packet)
      (pending : d₁.pendingPacket x.packetId = some pkt) (t : Nat) :
      AlarmWork d none (({ d₁ with timeouts := rest }.hand
        ⟨pkt, x.packetId.ty == PacketType.publish⟩).schedule t x.packetId)
  | resendCut (d₁ : Desk) (before : AlarmWork d none d₁) (x : Timeout) (rest : List Timeout)
      (queue : d₁.timeouts = x :: rest) (pkt : Packet)
      (pending : d₁.pendingPacket x.packetId = some pkt) (e : IoError) :
      AlarmWork d (some e)
        ({ d₁ with timeouts := rest }.hand ⟨pkt, x.packetId.ty == PacketType.publish⟩)

namespace Transceiver

variable {τ α β : Type}

def desk (tx : Transceiver τ) : Desk := ⟨tx.toBook, tx.link.handed, tx.timeoutQueue, tx.pingReq⟩

/-! ## Rules -/

/-- Started at the desk `d`, the program ends at a desk in `Q`, which is told the failure
if there is one. -/
def Works (Q : Option Fault → Desk → Prop) (x : TaskM τ α) (d : Desk) : Prop :=
  Triple (fun tx => tx.desk = d) x (fun _ tx => Q none tx.desk) (fun e tx => Q (some e) tx.desk)

/-- The same with nothing in transmission at the start. -/
def WorksIdle (Q : Option Fault → Desk → Prop) (x : TaskM τ α) (d : Desk) : Prop :=
  Triple (fun tx => tx.desk = d ∧ tx.link.txPkt = none) x (fun _ tx => Q none tx.desk)
    (fun e tx => Q (some e) tx.desk)

/-- A program that the transport alone can cut short. -/
abbrev Cuts (R : Option IoError → Desk → Prop) (o : Option Fault) (d : Desk) : Prop :=
  ∃ cut : Option IoError, o = cut.map Fault.io ∧ R cut d

theorem Cuts.done {R : Option IoError → Desk → Prop} {d : Desk} (h : R none d) : Cuts R none d :=
  ⟨none, rfl, h⟩

theorem Cuts.failed {R : Option IoError → Desk → Prop} {d : Desk} {e : IoError}
    (h : R (some e) d) : Cuts R (some (.io e)) d := ⟨some e, rfl, h⟩

section Rules

variable {Q : Option Fault → Desk → Prop} {d : Desk}

theorem Works.idle {x : TaskM τ α} (h : Works Q x d) : WorksIdle Q x d :=
  h.conseq (fun _ hd => hd.1) (fun _ _ hq => hq) (fun _ _ hq => hq)

theorem Works.pure (a : α) (h : Q none d) : Works Q (pure a : TaskM τ α) d := by
  rintro tx rfl
  exact h

theorem Works.bind {R : Option Fault → Desk → Prop} {x : TaskM τ α} {k : α → TaskM τ β}
    (hx : Works R x d) (hfail : ∀ e d', R (some e) d' → Q (some e) d')
    (hk : ∀ a d', R none d' → Works Q (k a) d') : Works Q (x >>= k) d := by
  refine Triple.bind (R := fun _ tx => R none tx.desk) ?_ fun a tx h => hk a tx.desk h tx rfl
  exact Triple.conseq hx (fun _ h => h) (fun _ _ h => h) fun e tx h => hfail e tx.desk h

theorem Works.mono {R : Option Fault → Desk → Prop} {x : TaskM τ α} (hx : Works R x d)
    (h : ∀ o d', R o d' → Q o d') : Works Q x d :=
  Triple.conseq hx (fun _ hd => hd) (fun _ tx hq => h none tx.desk hq)
    (fun e tx hq => h (some e) tx.desk hq)

theorem Works.get_bind {k : Transceiver τ → TaskM τ β}
    (hk : ∀ tx, tx.desk = d → Works Q (k tx) d) : Works Q (get >>= k) d :=
  fun tx htx => hk tx htx tx htx

theorem Works.ite {c : Prop} [Decidable c] {x y : TaskM τ α} (hx : c → Works Q x d)
    (hy : ¬ c → Works Q y d) : Works Q (if c then x else y) d := Triple.ite hx hy

theorem Works.onBook_bind {f : Book → Book} {k : Unit → TaskM τ β}
    (hk : Works Q (k ()) (d.onBook f)) : Works Q (Transceiver.onBook f >>= k) d := by
  rintro tx rfl
  exact hk _ rfl

theorem Works.onBook {f : Book → Book} (h : Q none (d.onBook f)) :
    Works Q (Transceiver.onBook f : TaskM τ Unit) d := by
  rintro tx rfl
  exact h

theorem Works.encode_bind [Encode α] {p : α} {k : Packet → TaskM τ β}
    (h : ∀ e, makePacket p = .error e → Q (some (.panic (.encoder e))) d)
    (hk : ∀ pkt, makePacket p = .ok pkt → Works Q (k pkt) d) : Works Q (encode p >>= k) d := by
  unfold encode
  cases hp : makePacket p with
  | ok pkt => exact hk pkt hp
  | error e =>
    rintro tx rfl
    exact h e hp

/-- A packet that can always be encoded. -/
theorem Works.encoded_bind [Encode α] {p : α} {pkt : Packet} {k : Packet → TaskM τ β}
    (hp : makePacket p = .ok pkt) (hk : Works Q (k pkt) d) : Works Q (encode p >>= k) d := by
  refine .encode_bind (fun e he => ?_) fun pkt' hp' => ?_
  · cases hp.symm.trans he
  · cases hp.symm.trans hp'
    exact hk

theorem Works.now_bind {k : Nat → TaskM τ β} (hk : ∀ t, Works Q (k t) d) :
    Works Q (onLink Link.now >>= k) d := by
  rintro tx rfl
  exact hk _ _ rfl

theorem Works.schedule (id : IdType) (h : ∀ t, Q none (d.schedule t id)) :
    Works Q (scheduleTimeout id : TaskM τ Unit) d := by
  refine .now_bind fun t => ?_
  rintro tx rfl
  exact h t

theorem Works.schedule_bind {id : IdType} {k : Unit → TaskM τ β}
    (hk : ∀ t, Works Q (k ()) (d.schedule t id)) : Works Q (scheduleTimeout id >>= k) d := by
  rintro tx rfl
  exact hk _ _ rfl

theorem WorksIdle.get_bind {k : Transceiver τ → TaskM τ β}
    (hk : ∀ tx, tx.desk = d → WorksIdle Q (k tx) d) : WorksIdle Q (get >>= k) d :=
  fun tx htx => hk tx htx.1 tx htx

theorem WorksIdle.ite {c : Prop} [Decidable c] {x y : TaskM τ α} (hx : c → WorksIdle Q x d)
    (hy : ¬ c → WorksIdle Q y d) : WorksIdle Q (if c then x else y) d := Triple.ite hx hy

theorem WorksIdle.onBook_bind {f : Book → Book} {k : Unit → TaskM τ β}
    (hk : WorksIdle Q (k ()) (d.onBook f)) : WorksIdle Q (Transceiver.onBook f >>= k) d := by
  rintro tx ⟨rfl, hidle⟩
  exact hk _ ⟨rfl, hidle⟩

theorem WorksIdle.encode_bind [Encode α] {p : α} {k : Packet → TaskM τ β}
    (h : ∀ e, makePacket p = .error e → Q (some (.panic (.encoder e))) d)
    (hk : ∀ pkt, makePacket p = .ok pkt → WorksIdle Q (k pkt) d) :
    WorksIdle Q (encode p >>= k) d := by
  unfold encode
  cases hp : makePacket p with
  | ok pkt => exact hk pkt hp
  | error e =>
    rintro tx ⟨rfl, -⟩
    exact h e hp

/-- A program that leaves the desk alone. -/
abbrev Quiet (x : TaskM τ α) : Prop := Keeps Transceiver.desk x

theorem Works.quiet {x : TaskM τ α} (hx : Quiet x) (h : ∀ o, Q o d) : Works Q x d := by
  refine (Triple.of_keeps hx (· = d)).conseq (fun _ hd => hd) ?_ ?_
  · rintro _ tx rfl
    exact h none
  · rintro e tx rfl
    exact h (some e)

/-- A step of the output that hands a packet over. -/
theorem works_handsOver {x : LinkM τ Unit} {pkt : InternalPacket} {tx : Transceiver τ}
    (hx : Link.HandsOver tx.link pkt x)
    (h : ∀ cut : Option IoError, Q (cut.map .io) (tx.desk.hand pkt)) :
    Triple (· = tx) (onLink x) (fun _ tx' => Q none tx'.desk)
      (fun e tx' => Q (some e) tx'.desk) := by
  rintro tx rfl
  have hdesk : ∀ link, Link.Calm (tx.link.hand pkt) link →
      desk { tx with link } = tx.desk.hand pkt := by
    intro link hcalm
    simp only [desk, Desk.hand, hcalm.handed]
    rfl
  rw [onLink, run_zoom]
  cases hx with
  | ok link run calm =>
    simp only [run]
    rw [hdesk link calm]
    exact h none
  | failed e link run calm =>
    simp only [run]
    rw [hdesk link calm]
    exact h (some e)

variable [Transport τ]

theorem Works.queue (pkt : Packet) (setDup : Bool)
    (h : ∀ cut : Option IoError, Q (cut.map .io) (d.hand ⟨pkt, setDup⟩)) :
    Works Q (queueInternalPacket pkt setDup : TaskM τ Unit) d := by
  rintro tx rfl
  exact works_handsOver (Link.handsOver_queueInternalPacket pkt setDup tx.link) h tx rfl

theorem Works.queue_bind {pkt : Packet} {setDup : Bool} {k : Unit → TaskM τ β}
    (h : ∀ e, Q (some (.io e)) (d.hand ⟨pkt, setDup⟩))
    (hk : Works Q (k ()) (d.hand ⟨pkt, setDup⟩)) :
    Works Q (queueInternalPacket pkt setDup >>= k) d := by
  refine Works.bind (R := Cuts fun _ d' => d' = d.hand ⟨pkt, setDup⟩)
    (.queue pkt setDup fun cut => ⟨cut, rfl, rfl⟩) ?_ ?_
  · rintro e d' ⟨cut, hcut, rfl⟩
    cases cut with
    | none => cases hcut
    | some err =>
      cases hcut
      exact h err
  · rintro _ d' ⟨_, _, rfl⟩
    exact hk

theorem WorksIdle.send (pkt : Packet)
    (h : ∀ cut : Option IoError, Q (cut.map .io) (d.hand ⟨pkt, false⟩)) :
    WorksIdle Q (onLink (Link.sendPacket pkt false) : TaskM τ Unit) d := by
  rintro tx ⟨rfl, hidle⟩
  exact works_handsOver (Link.handsOver_sendPacket pkt false hidle) h tx rfl

theorem WorksIdle.send_bind {pkt : Packet} {k : Unit → TaskM τ β}
    (h : ∀ e, Q (some (.io e)) (d.hand ⟨pkt, false⟩)) (hk : Works Q (k ()) (d.hand ⟨pkt, false⟩)) :
    WorksIdle Q (onLink (Link.sendPacket pkt false) >>= k) d := by
  have hsend : WorksIdle (τ := τ) (Cuts fun _ d' => d' = d.hand ⟨pkt, false⟩)
      (onLink (Link.sendPacket pkt false)) d := .send pkt fun cut => ⟨cut, rfl, rfl⟩
  refine Triple.bind (R := fun _ (tx : Transceiver τ) => tx.desk = d.hand ⟨pkt, false⟩) ?_
    fun _ => hk
  refine Triple.conseq hsend (fun _ hd => hd) ?_ ?_
  · rintro _ tx ⟨_, _, hd⟩
    exact hd
  · rintro e tx ⟨cut, hcut, hd⟩
    cases cut with
    | none => cases hcut
    | some err =>
      cases hcut
      rw [hd]
      exact h err

theorem Works.track_bind {pkt : Packet} {id : IdType} {k : Unit → TaskM τ β}
    (h : ∀ t e, Q (some (.io e)) ((d.track t id pkt).hand ⟨pkt, false⟩))
    (hk : ∀ t, Works Q (k ()) ((d.track t id pkt).hand ⟨pkt, false⟩)) :
    Works Q (queueInternalPacketWithTimeout pkt id >>= k) d := by
  simp only [queueInternalPacketWithTimeout, bind_assoc]
  refine .get_bind fun tx htx => .onBook_bind ?_
  subst htx
  cases hknown : (tx.pendingPackets.lookup id).isSome with
  | true =>
    have htrack : ∀ t, tx.desk.track t id pkt = tx.desk.onBook (Book.insertPending id pkt) :=
      fun t => if_pos hknown
    simp only [if_true, pure_bind]
    refine .queue_bind (fun e => ?_) ?_
    · rw [← htrack 0]
      exact h 0 e
    · rw [← htrack 0]
      exact hk 0
  | false =>
    have htrack : ∀ t, tx.desk.track t id pkt =
        (tx.desk.onBook (Book.insertPending id pkt)).schedule t id :=
      fun t => if_neg (ne_true_of_eq_false hknown)
    simp only [Bool.false_eq_true, if_false]
    refine .schedule_bind fun t => ?_
    rw [← htrack t]
    exact .queue_bind (h t) (hk t)

theorem Works.track (pkt : Packet) (id : IdType)
    (h : ∀ t, ∀ cut : Option IoError, Q (cut.map .io) ((d.track t id pkt).hand ⟨pkt, false⟩)) :
    Works Q (queueInternalPacketWithTimeout pkt id : TaskM τ Unit) d := by
  have hbind := Works.track_bind (τ := τ) (k := Pure.pure) (fun t e => h t (some e))
    fun t => .pure _ (h t none)
  rwa [bind_pure] at hbind

end Rules

/-! ## Programs that leave the desk alone -/

theorem quiet_onLink {x : LinkM τ α} (hx : Advances Link.Calm x) : Quiet (onLink x) := by
  intro tx
  rw [onLink, after_zoom]
  simp only [desk, (hx tx.link).handed]

theorem calm_onTransport (op : τ → Except IoError α × τ) : Advances Link.Calm (do
    let link ← get
    set { link with transport := (op link.transport).2 }
    match (op link.transport).1 with
    | .ok a => return a
    | .error e => throw (.io e) : LinkM τ α) := by
  intro link
  simp only [after, EStateM.run_bind, EStateM.run_get, EStateM.run_set]
  cases (op link.transport).1 <;> exact .same rfl rfl rfl rfl

theorem quiet_onTransport (op : τ → Except IoError α × τ) : Quiet (onTransport op) :=
  quiet_onLink (calm_onTransport op)

theorem quiet_awaitReady (ready : Except IoError Unit) :
    Quiet (awaitReady ready : TaskM τ Unit) := by
  cases ready with
  | ok u => exact .pure _
  | error e => exact .throw _

section Quiet

variable [Transport τ]

theorem quiet_writeRound (onClosed again next : Phase) :
    Quiet (writeRound onClosed again next : TaskM τ Phase) := by
  refine .bind (.recover (quiet_onLink Link.calm_writeOnce) _) fun r => ?_
  match r with
  | some true => exact .pure _
  | some false => exact .pure _
  | none => exact .pure _

theorem quiet_readyWrite (ready : Except IoError Unit) (next : Phase) :
    Quiet (readyWrite ready next : TaskM τ Phase) :=
  .bind (quiet_awaitReady _) fun _ => .bind (quiet_onTransport _) fun _ => .pure _

theorem quiet_readyRead (ready : Except IoError Unit) (next idle : Phase) :
    Quiet (readyRead ready next idle : TaskM τ Phase) :=
  .bind (quiet_awaitReady _) fun _ => .bind (quiet_onTransport _) fun _ => .pure _

theorem quiet_recvPacket : Quiet (recvPacket : TaskM τ Incoming) := by
  intro tx
  have hrun : recvPacket.run tx = recvPacket tx := rfl
  rw [after, hrun, recvPacket]
  cases PacketReader.recv.run (⟨tx.rxPkt, tx.link.transport⟩ : Rx τ) with
  | ok state rx => rfl
  | error e rx => cases e <;> rfl

end Quiet

/-! ## Packets -/

section Handlers

variable [Transport τ] {d : Desk}

theorem works_processPublish (msg : IncomingPublishPacket) (d : Desk) :
    Works (Cuts fun cut => PacketWork (.publish msg) cut d) (processPublish msg : TaskM τ Unit)
      d := by
  unfold processPublish
  cases hqos : msg.info.flags.qos with
  | atMostOnce => exact .onBook (.done (.dispatch msg d hqos))
  | atLeastOnce =>
    refine .encoded_bind (makePacket_pubAck _) (.queue_bind (fun e => ?_) (.onBook ?_))
    · exact .failed (.answer msg (some e) d hqos)
    · exact .done (.answer msg none d hqos)
  | exactlyOnce =>
    refine .get_bind fun tx htx => ?_
    subst htx
    cases hfound : tx.pendingPackets.lookup (.pubRec msg.info.packetId) with
    | some existing =>
      exact .queue _ _ fun cut => ⟨cut, rfl, .answerAgain msg existing cut _ hqos hfound⟩
    | none =>
      refine .encoded_bind (makePacket_pubRec _) (.track_bind (fun t e => ?_) fun t => .onBook ?_)
      · exact .failed (.record msg t (some e) _ hqos hfound)
      · exact .done (.record msg t none _ hqos hfound)

theorem works_processPubRec (rec : PubRecPacket) (d : Desk) :
    Works (Cuts fun cut => PacketWork (.pubRec rec) cut d)
      (processPubRec rec.packetId : TaskM τ Unit) d := by
  simp only [processPubRec, replyPubRel, bind_assoc]
  refine .get_bind fun tx htx => ?_
  subst htx
  cases hfound : tx.pendingPackets.lookup (.pubRel rec.packetId) with
  | some existing =>
    refine .queue_bind (fun e => ?_) (.onBook ?_)
    · exact .failed (.releaseAgain rec existing (some e) _ hfound)
    · exact .done (.releaseAgain rec existing none _ hfound)
  | none =>
    simp only [bind_assoc]
    refine .encoded_bind (makePacket_pubRel _) (.track_bind (fun t e => ?_) fun t => .onBook ?_)
    · exact .failed (.release rec t (some e) _ hfound)
    · exact .done (.release rec t none _ hfound)

theorem works_handlePacket (pkt : IncomingPacket) (d : Desk) :
    Works (Cuts fun cut => PacketWork pkt cut d) (handlePacket pkt : TaskM τ Unit) d := by
  cases pkt with
  | connAck ack => exact .pure _ (.done (.connAck ack d))
  | subAck ack => exact .onBook (.done (.subAck ack d))
  | publish msg => exact works_processPublish msg d
  | pubAck ack => exact .onBook (.done (.pubAck ack d))
  | pubRec rec => exact works_processPubRec rec d
  | pubRel rel =>
    refine .onBook_bind (.encoded_bind (makePacket_pubComp _) (.queue _ _ fun cut => ?_))
    exact ⟨cut, rfl, .pubRel rel cut d⟩
  | pubComp comp => exact .onBook (.done (.pubComp comp d))
  | unsubAck ack => exact .onBook (.done (.unsubAck ack d))
  | pingResp => exact .pure _ (.done (.pingResp d))

/-! ## Commands -/

theorem panic?_map_io (cut : Option IoError) : (cut.map Fault.io).bind Fault.panic? = none := by
  cases cut <;> rfl

theorem worksIdle_sendSubscribe (cmd : SubscribeCommand)
    (accepted : d.book.subscriptions.rejects cmd.topic = false)
    (unsubscribed : d.book.subscriptions.isSubscribed cmd.topic = false) :
    WorksIdle (fun o => CommandWork (.subscribe cmd) o d) (sendSubscribe cmd : TaskM τ Unit)
      d := by
  refine .get_bind fun tx htx => ?_
  subst htx
  refine .onBook_bind <| .encode_bind (fun e he => ?_) fun pkt hp => .onBook_bind <|
    .onBook_bind <| .send_bind (fun e => ?_) (.schedule _ fun t => ?_)
  · exact .subscribePanic cmd e tx.desk unsubscribed he accepted
  · exact .subscribeCut cmd pkt e tx.desk accepted unsubscribed hp
  · exact .subscribe cmd pkt t tx.desk accepted unsubscribed hp

theorem worksIdle_onSubscribe (cmd : SubscribeCommand) (d : Desk) :
    WorksIdle (fun o => CommandWork (.subscribe cmd) o d) (onSubscribe cmd : TaskM τ Unit) d := by
  refine .get_bind fun tx htx => ?_
  subst htx
  cases hget : tx.subscriptions.get cmd.topic with
  | error u =>
    exact Works.idle (.pure _ (.reject cmd _ (SubscriptionSet.rejects_iff_get.mpr hget)))
  | ok found =>
    have haccepted : tx.subscriptions.rejects cmd.topic = false := by
      rw [← Bool.not_eq_true, SubscriptionSet.rejects_iff_get, hget]
      rintro ⟨⟩
    cases found with
    | none =>
      exact worksIdle_sendSubscribe cmd haccepted (SubscriptionSet.isSubscribed_of_get_none hget)
    | some sub =>
      have hsub := SubscriptionSet.isSubscribed_of_get hget
      refine .ite (fun h => ?_) fun h => ?_
      · exact Works.idle (.onBook (.add cmd _ (hsub.trans h)))
      · exact worksIdle_sendSubscribe cmd haccepted (hsub.trans (by simpa using h))

theorem works_unsubImmediate (topic : Str)
    (subscribed : d.book.subscriptions.isSubscribed topic = true) :
    Works (fun o => CommandWork (.unsub ⟨topic, .immediate⟩) o d)
      (unsubImmediate topic : TaskM τ Unit)
      (d.onBook fun b => { b with subscriptions := (b.subscriptions.clear topic).2 }) := by
  refine .onBook_bind <| .get_bind fun tx htx => ?_
  have hid : tx.shared.nextPacketId = d.book.shared.nextPacketId := by
    show tx.desk.book.shared.nextPacketId = _
    rw [htx]
    rfl
  rw [hid]
  refine .onBook_bind <| .encode_bind (fun e he => ?_) fun pkt hp => .onBook_bind ?_
  · exact .unsubscribePanic topic e d subscribed he
  · exact .track _ _ fun t cut =>
      .unsubscribe topic pkt t _ (panic?_map_io cut) d subscribed hp

theorem works_onUnsub (cmd : UnsubCommand) (d : Desk) :
    Works (fun o => CommandWork (.unsub cmd) o d) (onUnsub cmd : TaskM τ Unit) d := by
  obtain ⟨topic, kind⟩ := cmd
  cases kind with
  | fastCallback id => exact .onBook (.removeCallback topic id d)
  | immediate =>
    refine .get_bind fun tx htx => .onBook_bind ?_
    subst htx
    split
    · rename_i hcleared
      exact works_unsubImmediate topic (SubscriptionSet.clear_true_iff.mp hcleared)
    · rename_i hcleared
      have hsame := SubscriptionSet.clear_of_ne_true hcleared
      have hunsubscribed : tx.subscriptions.isSubscribed topic = false := by
        rw [← Bool.not_eq_true]
        exact fun h => hcleared (SubscriptionSet.clear_true_iff.mpr h)
      refine .pure _ ?_
      simp only [hsame]
      exact .keep topic _ hunsubscribed

theorem worksIdle_onPublish (cmd : PublishCommand) (d : Desk) :
    WorksIdle (fun o => CommandWork (.publish cmd) o d) (onPublish cmd : TaskM τ Unit) d := by
  unfold onPublish
  split
  · rename_i hqos
    exact .send _ fun cut => .publishOnce cmd _ (panic?_map_io cut) d hqos
  · rename_i hqos
    exact Works.idle (.track _ _ fun t cut => .publish cmd t _ (panic?_map_io cut) d hqos)

theorem worksIdle_onCommand (cmd : Command) (d : Desk) :
    WorksIdle (fun o => CommandWork cmd o d) (onCommand (some cmd) : TaskM τ Bool) d := by
  have hrun : WorksIdle (fun o => CommandWork cmd o d) (runCommand cmd : TaskM τ Unit) d := by
    cases cmd with
    | publish cmd => exact worksIdle_onPublish cmd d
    | subscribe cmd => exact worksIdle_onSubscribe cmd d
    | unsub cmd => exact (works_onUnsub cmd d).idle
    | disconnect => exact Works.idle (.pure _ (.disconnect d))
  have hbind : WorksIdle (fun o => CommandWork cmd o d)
      (do runCommand cmd; return false : TaskM τ Bool) d :=
    Triple.bind hrun fun _ _ h => h
  cases cmd with
  | disconnect => exact Works.idle (.pure _ (.disconnect d))
  | publish cmd => exact hbind
  | subscribe cmd => exact hbind
  | unsub cmd => exact hbind

/-! ## The alarm -/

theorem works_pingIfIdle (d : Desk) :
    Works (Cuts (AlarmWork d)) (pingIfIdle : TaskM τ Unit) d := by
  refine .now_bind fun t => .get_bind fun tx htx => .ite (fun _ => ?_) fun _ => ?_
  · subst htx
    have hstamp : Works (fun o d' => o = none ∧ d' = tx.desk)
        (onLink Link.stampLastTx : TaskM τ Unit) tx.desk := by
      rintro tx' htx'
      exact ⟨rfl, htx'⟩
    refine hstamp.bind (fun e d' h => ?_) ?_
    · cases h.1
    · rintro _ d' ⟨-, rfl⟩
      exact .queue _ _ fun cut => ⟨cut, rfl, .ping cut⟩
  · exact .pure _ (.done .start)

/-- There are at least as many timeouts as rounds, so the loop does not run out of them. -/
theorem works_resendLoop (n : Nat) : ∀ d₁ : Desk, n ≤ d₁.timeouts.length →
    AlarmWork d none d₁ → Works (Cuts (AlarmWork d)) (resendLoop n : TaskM τ Unit) d₁ := by
  induction n with
  | zero => exact fun d₁ _ h => .pure _ (.done h)
  | succ n ih =>
    intro d₁ hlen h
    refine .get_bind fun tx htx => ?_
    have hqueue : d₁.timeouts = tx.timeoutQueue := congrArg Desk.timeouts htx.symm
    cases hx : tx.timeoutQueue with
    | nil =>
      rw [hqueue, hx] at hlen
      cases hlen
    | cons x rest =>
      rw [hx] at hqueue
      rw [hqueue, List.length_cons] at hlen
      have hrest : n ≤ rest.length := Nat.le_of_succ_le_succ hlen
      refine .now_bind fun t => .get_bind fun tx' _ => .ite (fun _ => .pure _ (.done h)) fun _ => ?_
      have hpop : Works (fun o d' => o = none ∧ d' = { d₁ with timeouts := rest })
          (modify fun tx => { tx with timeoutQueue := rest } : TaskM τ Unit) d₁ := by
        rintro tx'' rfl
        exact ⟨rfl, rfl⟩
      refine hpop.bind (fun e d' hd => ?_) ?_
      · cases hd.1
      rintro _ d' ⟨-, rfl⟩
      simp only [resend, bind_assoc]
      refine .get_bind fun tx₂ htx₂ => ?_
      have hfound : tx₂.pendingPacket x.packetId = d₁.pendingPacket x.packetId := by
        show tx₂.desk.pendingPacket x.packetId = _
        rw [htx₂]
        rfl
      rw [hfound]
      cases hpkt : d₁.pendingPacket x.packetId with
      | none => exact ih _ hrest (.settled d₁ h x rest hqueue hpkt)
      | some pkt =>
        simp only [bind_assoc]
        refine .queue_bind (fun e => .failed (.resendCut d₁ h x rest hqueue pkt hpkt e)) ?_
        refine .schedule_bind fun t => ih _ ?_ (.resend d₁ h x rest hqueue pkt hpkt t)
        show n ≤ (rest ++ [_]).length
        rw [List.length_append]
        omega

theorem works_onAlarm (d : Desk) :
    Works (Cuts (AlarmWork d)) (onAlarm : TaskM τ Unit) d := by
  refine .get_bind fun tx _ => .ite (fun _ => ?_) fun _ => .pure _ (.done .start)
  refine (works_pingIfIdle d).bind (fun _ _ h => h) ?_
  rintro _ d₁ ⟨cut, hcut, h⟩
  cases cut with
  | some e => cases hcut
  | none =>
    refine .get_bind fun tx htx => works_resendLoop _ d₁ (le_of_eq ?_) h
    rw [← htx]
    rfl

/-! ## Rounds of the phases -/

/-- What handling a packet does, or the connection result if the task waits for it. -/
inductive Reception (pkt : IncomingPacket) (d : Desk) : Option IoError → Desk → Prop
  | connAck (waiting : d.book.connectSig = true) : Reception pkt d none (d.onBook fun b =>
      { b with connectSig := false, connectResult := some (connResult pkt) })
  | work (connected : d.book.connectSig = false) (cut : Option IoError) (d' : Desk)
      (done : PacketWork pkt cut (d.onBook (Book.logReceived pkt)) d') : Reception pkt d cut d'

theorem works_processPacket (pkt : IncomingPacket) (d : Desk) :
    Works (Cuts (Reception pkt d)) (processPacket pkt : TaskM τ Bool) d := by
  refine .get_bind fun tx htx => ?_
  subst htx
  rcases Bool.eq_false_or_eq_true tx.connectSig with hsig | hsig
  · rw [if_pos hsig]
    exact .onBook_bind (.pure _ (.done (.connAck hsig)))
  · rw [if_neg (ne_true_of_eq_false hsig)]
    refine .onBook_bind ((works_handlePacket pkt _).bind ?_ ?_)
    · rintro e d' ⟨cut, hcut, hwork⟩
      exact ⟨cut, hcut, .work hsig cut d' hwork⟩
    · rintro _ d' ⟨cut, hcut, hwork⟩
      exact .pure _ ⟨cut, hcut, .work hsig cut d' hwork⟩

theorem works_processIncoming (pkt : IncomingPacket) (d : Desk) :
    Works (Cuts (Reception pkt d)) (processIncoming (.packet pkt) : TaskM τ Phase) d :=
  (works_processPacket pkt d).bind (fun _ _ h => h)
    fun _ _ h => .ite (fun _ => .pure _ h) fun _ => .pure _ h

theorem worksIdle_commandRound {cmd : Command} {rest : List Command}
    (h : d.book.cmdQueue = cmd :: rest) :
    WorksIdle (fun o => CommandWork cmd o (d.onBook fun b => { b with cmdQueue := rest }))
      (commandRound : TaskM τ Phase) d := by
  simp only [commandRound, takeCommand, bind_assoc]
  refine .get_bind fun tx htx => ?_
  subst htx
  have hqueue : tx.cmdQueue = cmd :: rest := h
  simp only [hqueue, bind_assoc, pure_bind]
  refine .onBook_bind (Triple.bind (worksIdle_onCommand cmd _) fun stop => ?_)
  exact Triple.ite (fun _ _ h => h) fun _ _ h => h

/-- No command is left and no sender either. -/
theorem works_commandRound_nil (h : d.book.cmdQueue = []) :
    Works (fun o d' => o = none ∧ d' = d) (commandRound : TaskM τ Phase) d := by
  simp only [commandRound, takeCommand, bind_assoc]
  refine .get_bind fun tx htx => ?_
  subst htx
  have hqueue : tx.cmdQueue = [] := h
  simp only [hqueue, onCommand, bind_assoc, pure_bind]
  rintro tx' htx'
  exact ⟨rfl, htx'⟩

theorem works_alarmRound (d : Desk) :
    Works (Cuts (AlarmWork d)) (alarmRound : TaskM τ Phase) d := by
  refine (works_onAlarm d).bind (fun _ _ h => h) ?_
  rintro _ d' h
  exact .pure _ h

theorem works_startDisconnect (d : Desk) :
    Works (Cuts fun _ d' => d' = d ∨ d.book.connectSig = false ∧
      d' = d.hand ⟨disconnectPacket, false⟩) (startDisconnect : TaskM τ Phase) d := by
  refine .get_bind fun tx htx => .ite (fun hconn => ?_) fun _ => .pure _ (.done (Or.inl rfl))
  have hsig : d.book.connectSig = false := by
    rw [← htx]
    show tx.connectSig = false
    simpa [Book.connected] using hconn
  exact .queue_bind (fun e => .failed (Or.inr ⟨hsig, rfl⟩)) (.pure _ (.done (Or.inr ⟨hsig, rfl⟩)))

/-- The packet in transmission is taken back and handed over. -/
theorem works_boot {tx : Transceiver τ} {pkt : TxPacket} (h : tx.link.txPkt = some pkt) :
    Triple (· = tx) (do bootstrap; return .select : TaskM τ Phase)
      (fun _ tx' => Cuts (fun _ d' => d' = tx.desk.hand ⟨pkt.packet, false⟩) none tx'.desk)
      (fun e tx' => Cuts (fun _ d' => d' = tx.desk.hand ⟨pkt.packet, false⟩) (some e)
        tx'.desk) := by
  rintro tx rfl
  have hsend : WorksIdle (τ := τ) (Cuts fun _ d' => d' = tx.desk.hand ⟨pkt.packet, false⟩)
      (do onLink (Link.sendPacket pkt.packet false); return Phase.select) tx.desk :=
    .send_bind (fun e => .failed rfl) (.pure _ (.done rfl))
  simp only [bootstrap, bind_assoc, EStateM.run_bind, EStateM.run_get, h]
  exact hsend { tx with link := tx.link.setTx none } ⟨rfl, rfl⟩

end Handlers

end Transceiver

end Lmc
