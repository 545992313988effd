import Lmc.Client.Shared
import Lmc.Task.Link
import Lmc.Wire.PacketReader

/-!
# The transceiver

The record of the transceiver task and what it does with an incoming packet, a command
and a tick of its alarm. The record is in three parts: `Link`, the output; `Book`, what
the task knows about packets, subscriptions and clients; and the rest, which serves the
reader and the alarm. A function that sends changes the output and stops at the first
failure of the transport, with the changes made until then; a function on the books
alone is a plain function on `Book`.

`History` records what happened and is read by no function: the packets received, the
messages dispatched, the wakers woken, the identifiers taken from the counter, the
packets encoded with one, and the topics for which an unexpected `SUBACK` was reported.
-/

namespace Lmc

/-! ## State -/

/-- Associates a packet with the time at which it was sent. -/
structure Timeout where
  t : Nat
  packetId : IdType
deriving DecidableEq, Repr

structure PendingSub where
  topic : Str
  kind : SubscriptionKind
  packet : Packet
deriving DecidableEq, Repr

/-- A packet that carries an identifier of the client, before it is encoded. -/
inductive Outgoing where
  | publish (p : OutgoingPublishPacket)
  | subscribe (p : SubscribePacket)
  | unsubscribe (p : UnsubscribePacket)
deriving DecidableEq, Repr

structure History where
  received : List IncomingPacket
  dispatched : List IncomingPublishPacket
  woken : List Waker
  allocated : Nat
  encoded : List Outgoing
  unexpectedSubAcks : List Str

def History.new : History := ⟨[], [], [], 0, [], []⟩

/-- What the task knows. `connectSig` is `true` while the sender of the connection result
has not been used, `connectResult` is what was sent with it. -/
structure Book where
  cmdQueue : List Command
  pendingPackets : LmcHashMap IdType Packet
  pendingSubs : LmcHashMap UInt16 PendingSub
  connectSig : Bool
  connectResult : Option (Except ServerConnectError Bool)
  shared : ClientShared
  subscriptions : SubscriptionSet
  mail : Mail
  history : History

structure Transceiver (τ : Type) extends Book where
  link : Link τ
  rxPkt : PacketReader
  timeoutQueue : List Timeout
  pingInterval : Nat
  pingReq : Packet
  packetResendDelay : Nat
  disconnectSent : Bool
  cmdQueueClosed : Bool

def pingReqPacket : Packet := ⟨0xc0, [0]⟩

theorem makePacket_pingReq : makePacket (⟨⟩ : PingReqPacket) = .ok pingReqPacket := rfl

def disconnectPacket : Packet := ⟨0xe0, [0]⟩

theorem makePacket_disconnect : makePacket (⟨⟩ : DisconnectPacket) = .ok disconnectPacket := rfl

/-- What a task is started with: its connection, the encoded `CONNECT` packet and the
durations from the options, together with the clock and the channels it will find. -/
structure Setup (τ : Type) where
  transport : τ
  connectPacket : Packet
  pingInterval : Nat
  packetResendDelay : Nat
  clock : Nat → Nat
  mail : Mail

/-- The fields `Transceiver::spawn` starts with. `CONNECT` is the packet in transmission. -/
def Transceiver.spawn {τ : Type} (setup : Setup τ) : Transceiver τ where
  cmdQueue := []
  pendingPackets := ∅
  pendingSubs := ∅
  rxPkt := .new
  connectSig := true
  connectResult := none
  pingInterval := setup.pingInterval
  timeoutQueue := []
  shared := .new
  subscriptions := default
  disconnectSent := false
  cmdQueueClosed := false
  pingReq := pingReqPacket
  packetResendDelay := setup.packetResendDelay
  mail := setup.mail
  history := .new
  link :=
    { transport := setup.transport
      txPkt := some ⟨setup.connectPacket, 0, false⟩
      internalPktQueue := []
      lastTx := setup.clock 0
      clock := setup.clock
      nows := 1
      accepted := []
      handed := [] }

/-! ## Books -/

namespace Book

def connected (b : Book) : Bool := !b.connectSig

def setShared (sh : ClientShared) (b : Book) : Book := { b with shared := sh }

/-- Take an identifier from the counter. The value taken is the one before. -/
def takePacketId (b : Book) : Book :=
  { b with
    shared := b.shared.bumpPacketId
    history := { b.history with allocated := b.history.allocated + 1 } }

def wake (wakers : List Waker) (b : Book) : Book :=
  { b with history := { b.history with woken := b.history.woken ++ wakers } }

def dispatch (msg : IncomingPublishPacket) (b : Book) : Book :=
  let (subscriptions, mail) := (b.subscriptions.dispatch msg).run b.mail
  { b with
    subscriptions, mail
    history := { b.history with dispatched := b.history.dispatched ++ [msg] } }

/-- Remove the entry of an acknowledged publish and wake whoever waits on it. -/
def notify (n : Notifier) (id : UInt16) (b : Book) : Book :=
  let m := b.shared.notifierMap n
  (b.setShared (b.shared.setNotifierMap n (m.erase id))).wake
    ((m.lookup id).bind NotifyResult.waker).toList

def insertPending (id : IdType) (pkt : Packet) (b : Book) : Book :=
  { b with pendingPackets := b.pendingPackets.insert id pkt }

def erasePending (id : IdType) (b : Book) : Book :=
  { b with pendingPackets := b.pendingPackets.erase id }

/-- `clear_packet_timeout`, and the notification if there was such a packet. -/
def acknowledge (id : IdType) (n : Notifier) (b : Book) : Book :=
  if (b.pendingPackets.lookup id).isSome then (b.erasePending id).notify n id.id
  else b.erasePending id

/-- The wakers of a topic that was pending are woken. For any other topic the `SUBACK`
was unexpected, which is only reported. -/
def settle (topic : Str) (state : Option SubscriptionState) (b : Book) : Book :=
  let pending := state.any SubscriptionState.isPending
  { b with history :=
    { b.history with
      woken := b.history.woken ++ state.elim [] SubscriptionState.wakers
      unexpectedSubAcks := b.history.unexpectedSubAcks ++ if pending then [] else [topic] } }

/-- The broker has accepted the subscription. -/
def acceptSub (sub : PendingSub) (qos : QoS) (b : Book) : Book :=
  let created := b.subscriptions.getOrCreate
    (fun leaf => leaf.setSubscribed.add sub.kind) sub.topic
  let state := b.shared.subs.lookup sub.topic
  let b := { b with subscriptions := created.2 }
  (b.setShared (b.shared.setSubs (b.shared.subs.insert sub.topic (.existing qos)))).settle
    sub.topic state

def eraseSub (topic : Str) (b : Book) : Book :=
  b.setShared (b.shared.setSubs (b.shared.subs.erase topic))

/-- The broker has refused the subscription. -/
def refuseSub (sub : PendingSub) (b : Book) : Book :=
  (b.eraseSub sub.topic).settle sub.topic (b.shared.subs.lookup sub.topic)

def insertPendingSub (id : UInt16) (sub : PendingSub) (b : Book) : Book :=
  { b with pendingSubs := b.pendingSubs.insert id sub }

def erasePendingSub (id : UInt16) (b : Book) : Book :=
  { b with pendingSubs := b.pendingSubs.erase id }

def updateLeaf (f : Subscription → Subscription) (topic : Str) (b : Book) : Book :=
  { b with subscriptions := b.subscriptions.update f topic }

def processSubAck (ack : SubAckPacket) (b : Book) : Book :=
  match b.pendingSubs.lookup ack.packetId with
  | none => b
  | some sub =>
    let b := b.erasePendingSub ack.packetId
    match ack.subResults with
    | [] => b
    | .ok qos :: _ => b.acceptSub sub qos
    | .error () :: _ => b.refuseSub sub

def logReceived (pkt : IncomingPacket) (b : Book) : Book :=
  { b with history := { b.history with received := b.history.received ++ [pkt] } }

def logEncoded (p : Outgoing) (b : Book) : Book :=
  { b with history := { b.history with encoded := b.history.encoded ++ [p] } }

theorem acknowledge_cases (id : IdType) (n : Notifier) (b : Book) :
    b.pendingPackets.lookup id = none ∧ b.acknowledge id n = b.erasePending id ∨
      (∃ pkt, b.pendingPackets.lookup id = some pkt) ∧
        b.acknowledge id n = (b.erasePending id).notify n id.id := by
  unfold acknowledge
  cases b.pendingPackets.lookup id with
  | none => exact Or.inl ⟨rfl, rfl⟩
  | some pkt => exact Or.inr ⟨⟨pkt, rfl⟩, rfl⟩

theorem pendingPackets_acknowledge (id : IdType) (n : Notifier) (b : Book) :
    (b.acknowledge id n).pendingPackets = b.pendingPackets.erase id := by
  rcases b.acknowledge_cases id n with ⟨-, heq⟩ | ⟨-, heq⟩ <;> rw [heq] <;> rfl

theorem cmdQueue_acknowledge (id : IdType) (n : Notifier) (b : Book) :
    (b.acknowledge id n).cmdQueue = b.cmdQueue := by
  rcases b.acknowledge_cases id n with ⟨-, heq⟩ | ⟨-, heq⟩ <;> rw [heq] <;> rfl

theorem pendingSubs_acknowledge (id : IdType) (n : Notifier) (b : Book) :
    (b.acknowledge id n).pendingSubs = b.pendingSubs := by
  rcases b.acknowledge_cases id n with ⟨-, heq⟩ | ⟨-, heq⟩ <;> rw [heq] <;> rfl

/-- A `SUBACK` is ignored if nothing is pending under its identifier. Otherwise the entry
is removed, and the first result decides. -/
theorem processSubAck_cases (ack : SubAckPacket) (b : Book) :
    b.pendingSubs.lookup ack.packetId = none ∧ b.processSubAck ack = b ∨
      ∃ sub, b.pendingSubs.lookup ack.packetId = some sub ∧
        (ack.subResults = [] ∧ b.processSubAck ack = b.erasePendingSub ack.packetId ∨
          (∃ qos, b.processSubAck ack = (b.erasePendingSub ack.packetId).acceptSub sub qos) ∨
          (∃ rest, ack.subResults = .error () :: rest) ∧
            b.processSubAck ack = (b.erasePendingSub ack.packetId).refuseSub sub) := by
  unfold processSubAck
  cases b.pendingSubs.lookup ack.packetId with
  | none => exact Or.inl ⟨rfl, rfl⟩
  | some sub =>
    refine Or.inr ⟨sub, rfl, ?_⟩
    match ack.subResults with
    | [] => exact Or.inl ⟨rfl, rfl⟩
    | .ok qos :: _ => exact Or.inr (Or.inl ⟨qos, rfl⟩)
    | .error () :: rest => exact Or.inr (Or.inr ⟨⟨rest, rfl⟩, rfl⟩)

theorem pendingPackets_processSubAck (ack : SubAckPacket) (b : Book) :
    (b.processSubAck ack).pendingPackets = b.pendingPackets := by
  rcases b.processSubAck_cases ack with
    ⟨-, heq⟩ | ⟨sub, -, ⟨-, heq⟩ | ⟨qos, heq⟩ | ⟨-, heq⟩⟩ <;> rw [heq] <;> rfl

/-- The entry of a `SUBACK` is gone behind it, whatever it says. -/
theorem lookup_pendingSubs_processSubAck (ack : SubAckPacket) (b : Book) (id : UInt16) :
    (b.processSubAck ack).pendingSubs.lookup id =
      if id = ack.packetId then none else b.pendingSubs.lookup id := by
  rcases b.processSubAck_cases ack with
    ⟨hnone, heq⟩ | ⟨sub, -, ⟨-, heq⟩ | ⟨qos, heq⟩ | ⟨-, heq⟩⟩ <;> rw [heq]
  · split
    · subst id
      exact hnone
    · rfl
  all_goals exact Table.lookup_erase _ _ _

end Book

/-! ## Programs of the task -/

abbrev TaskM (τ : Type) := EStateM Fault (Transceiver τ)

namespace Transceiver

open EStateLogic

variable {τ : Type}

/-- Run a program on the output. -/
def onLink {α : Type} (x : LinkM τ α) : TaskM τ α :=
  zoom Transceiver.link (fun link tx => { tx with link }) x

def onBook (f : Book → Book) : TaskM τ Unit :=
  modify fun tx => { tx with toBook := f tx.toBook }

/-- Encode a packet. A panic of the encoder is one of the task. -/
def encode {α : Type} [Encode α] (p : α) : TaskM τ Packet :=
  match makePacket p with
  | .ok pkt => return pkt
  | .error e => throw (.panic (.encoder e))

def scheduleTimeout (id : IdType) : TaskM τ Unit := do
  let t ← onLink Link.now
  modify fun tx => { tx with timeoutQueue := tx.timeoutQueue ++ [⟨t, id⟩] }

variable [Transport τ]

def queueInternalPacket (pkt : Packet) (setDup : Bool) : TaskM τ Unit :=
  onLink (Link.queueInternalPacket pkt setDup)

def queueInternalPacketWithTimeout (pkt : Packet) (id : IdType) : TaskM τ Unit := do
  let known := ((← get).pendingPackets.lookup id).isSome
  onBook (Book.insertPending id pkt)
  (if known then pure () else scheduleTimeout id)
  queueInternalPacket pkt false

/-! ### Incoming packets -/

def processPublish (msg : IncomingPublishPacket) : TaskM τ Unit := do
  match msg.info.flags.qos with
  | .atMostOnce => onBook (Book.dispatch msg)
  | .atLeastOnce =>
    let pkt ← encode (⟨msg.info.packetId⟩ : PubAckPacket)
    queueInternalPacket pkt false
    onBook (Book.dispatch msg)
  | .exactlyOnce =>
    match (← get).pendingPackets.lookup (.pubRec msg.info.packetId) with
    | some existing => queueInternalPacket existing false
    | none =>
      let pkt ← encode (⟨msg.info.packetId⟩ : PubRecPacket)
      queueInternalPacketWithTimeout pkt (.pubRec msg.info.packetId)
      onBook (Book.dispatch msg)

def replyPubRel (id : UInt16) : TaskM τ Unit := do
  match (← get).pendingPackets.lookup (.pubRel id) with
  | some existing => queueInternalPacket existing false
  | none =>
    let pkt ← encode (⟨id⟩ : PubRelPacket)
    queueInternalPacketWithTimeout pkt (.pubRel id)

def processPubRec (id : UInt16) : TaskM τ Unit := do
  replyPubRel id
  onBook (Book.acknowledge (.publish id) .pubRec)

def processPubRel (id : UInt16) : TaskM τ Unit := do
  onBook (Book.erasePending (.pubRec id))
  let pkt ← encode (⟨id⟩ : PubCompPacket)
  queueInternalPacket pkt false

/-- The answer to `CONNECT`. Any other packet is a protocol error. -/
def connResult : IncomingPacket → Except ServerConnectError Bool
  | .connAck ack => ack.result
  | _ => .error .protocolError

def processConnAck (pkt : IncomingPacket) : TaskM τ Bool := do
  onBook fun b => { b with connectSig := false, connectResult := some (connResult pkt) }
  return !(connResult pkt).isOk

/-- What a connected transceiver does with a packet. -/
def handlePacket (pkt : IncomingPacket) : TaskM τ Unit :=
  match pkt with
  | .connAck _ => pure ()
  | .subAck ack => onBook (Book.processSubAck ack)
  | .publish msg => processPublish msg
  | .pubAck ack => onBook (Book.acknowledge (.publish ack.packetId) .pubAck)
  | .pubRec rec => processPubRec rec.packetId
  | .pubRel rel => processPubRel rel.packetId
  | .pubComp comp => onBook (Book.acknowledge (.pubRel comp.packetId) .pubComp)
  | .unsubAck ack => onBook (Book.erasePending (.unsubscribe ack.packetId))
  | .pingResp => pure ()

/-- `process_packet`. `true` means that the task has to stop. -/
def processPacket (pkt : IncomingPacket) : TaskM τ Bool := do
  if (← get).connectSig then
    processConnAck pkt
  else
    onBook (Book.logReceived pkt)
    handlePacket pkt
    return false

/-! ### Commands -/

def unsubImmediate (topic : Str) : TaskM τ Unit := do
  onBook (Book.eraseSub topic)
  let packetId := (← get).shared.nextPacketId
  onBook Book.takePacketId
  let p : UnsubscribePacket := ⟨packetId, [topic]⟩
  let pkt ← encode p
  onBook (Book.logEncoded (.unsubscribe p))
  queueInternalPacketWithTimeout pkt (.unsubscribe packetId)

def onPublish (cmd : PublishCommand) : TaskM τ Unit :=
  match cmd.qos with
  | .atMostOnce => onLink (Link.sendPacket cmd.packet false)
  | _ => queueInternalPacketWithTimeout cmd.packet (.publish cmd.packetId)

/-- Request a subscription from the broker. -/
def sendSubscribe (cmd : SubscribeCommand) : TaskM τ Unit := do
  let packetId := (← get).shared.nextPacketId
  onBook Book.takePacketId
  let p : SubscribePacket := ⟨packetId, [(cmd.topic, cmd.qos)]⟩
  let pkt ← encode p
  onBook (Book.logEncoded (.subscribe p))
  onBook (Book.insertPendingSub packetId ⟨cmd.topic, cmd.kind, pkt⟩)
  onLink (Link.sendPacket pkt false)
  scheduleTimeout (.subscribe packetId)

def onSubscribe (cmd : SubscribeCommand) : TaskM τ Unit := do
  match (← get).subscriptions.get cmd.topic with
  | .ok (some sub) =>
    if sub.subscribed then
      onBook (Book.updateLeaf (Subscription.add cmd.kind) cmd.topic)
    else
      sendSubscribe cmd
  | .ok none => sendSubscribe cmd
  | .error () => pure ()

def onUnsub (cmd : UnsubCommand) : TaskM τ Unit := do
  match cmd.kind with
  | .fastCallback id => onBook (Book.updateLeaf (Subscription.removeFastCallback id) cmd.topic)
  | .immediate =>
    let cleared := (← get).subscriptions.clear cmd.topic
    onBook fun b => { b with subscriptions := cleared.2 }
    match cleared.1 with
    | .ok true => unsubImmediate cmd.topic
    | _ => pure ()

def runCommand (cmd : Command) : TaskM τ Unit :=
  match cmd with
  | .publish cmd => onPublish cmd
  | .subscribe cmd => onSubscribe cmd
  | .unsub cmd => onUnsub cmd
  | .disconnect => pure ()

/-- What the task does with the result of `recv` on the command queue. `true` means that
it has to stop. -/
def onCommand (cmd : Option Command) : TaskM τ Bool :=
  match cmd with
  | none => do
    modify fun tx => { tx with cmdQueueClosed := true }
    return false
  | some .disconnect => return true
  | some cmd => do
    runCommand cmd
    return false

/-! ### The alarm -/

def pingIfIdle : TaskM τ Unit := do
  let t ← onLink Link.now
  let tx ← get
  if t - tx.link.lastTx ≥ tx.pingInterval then
    onLink Link.stampLastTx
    queueInternalPacket tx.pingReq false
  else
    pure ()

/-- The packet a timeout stands for, if it is still pending. -/
def pendingPacket (tx : Transceiver τ) (id : IdType) : Option Packet :=
  if id.ty = .subscribe then (tx.pendingSubs.lookup id.id).map PendingSub.packet
  else tx.pendingPackets.lookup id

/-- Send the packet of an expired timeout again, if it is still pending. -/
def resend (id : IdType) : TaskM τ Unit := do
  match (← get).pendingPacket id with
  | none => pure ()
  | some pkt =>
    queueInternalPacket pkt (id.ty == .publish)
    scheduleTimeout id

/-- At most the given number of rounds of the loop over the timeouts. -/
def resendLoop : Nat → TaskM τ Unit
  | 0 => pure ()
  | n + 1 => do
    match (← get).timeoutQueue with
    | [] => throw (.panic .noTimeout)
    | timeout :: rest =>
      let t ← onLink Link.now
      if t - timeout.t < (← get).packetResendDelay then
        pure ()
      else
        modify fun tx => { tx with timeoutQueue := rest }
        resend timeout.packetId
        resendLoop n

def onAlarm : TaskM τ Unit := do
  if (← get).connected then
    pingIfIdle
    resendLoop (← get).timeoutQueue.length
  else
    pure ()

end Transceiver

end Lmc
