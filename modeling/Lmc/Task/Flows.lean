import Lmc.Task.Effects

/-!
# Sender and receiver flows

A client is the receiver of the messages that the broker sends, and the sender of its own.
The packets of the two flows carry identifiers that are given out by different parties, so
the same number may be in use in both, and both keep their packets in `pendingPackets`.
The books fall into two parts: `ReceiverPart`, with the `PUBREC`s that wait for their
release, the subscriptions and what was dispatched, and `SenderPart`, with every other
pending packet and what the clients share with the task. A packet of one flow reads and
changes the part of its flow only (`PacketWork.receiver`, `PacketWork.sender`), so a packet
of one flow and a packet of the other can be handled in either order (`flows_commute`).
-/

namespace Lmc

namespace IncomingPacket

/-- The packet belongs to a message from the broker. -/
def toReceiver : IncomingPacket → Bool
  | .publish _ | .pubRel _ => true
  | _ => false

/-- The packet answers a packet of the client. -/
def toSender : IncomingPacket → Bool
  | .pubAck _ | .pubRec _ | .pubComp _ | .unsubAck _ => true
  | _ => false

end IncomingPacket

/-- What handling a packet does to a part of the books, which packets are sent, and for
which keys there are new timeouts. -/
structure Reaction (π : Type) where
  part : π
  replies : List InternalPacket
  alarms : List IdType

/-! ## The part of the receiver -/

structure ReceiverPart where
  /-- The `PUBREC`s that have not been released, by the identifier of the message. -/
  pubRecs : UInt16 → Option Packet
  subscriptions : SubscriptionSet
  mail : Mail
  dispatched : List IncomingPublishPacket

namespace ReceiverPart

def setPubRec (id : UInt16) (pkt : Option Packet) (r : ReceiverPart) : ReceiverPart :=
  { r with pubRecs := fun id' => if id' = id then pkt else r.pubRecs id' }

def dispatch (msg : IncomingPublishPacket) (r : ReceiverPart) : ReceiverPart :=
  let (subscriptions, mail) := (r.subscriptions.dispatch msg).run r.mail
  { r with subscriptions, mail, dispatched := r.dispatched ++ [msg] }

def react (r : ReceiverPart) : IncomingPacket → Reaction ReceiverPart
  | .publish msg =>
    let id := msg.info.packetId
    match msg.info.flags.qos with
    | .atMostOnce => ⟨r.dispatch msg, [], []⟩
    | .atLeastOnce => ⟨r.dispatch msg, [⟨pubAckPacket id, false⟩], []⟩
    | .exactlyOnce =>
      match r.pubRecs id with
      | some pkt => ⟨r, [⟨pkt, false⟩], []⟩
      | none => ⟨(r.setPubRec id (some (pubRecPacket id))).dispatch msg,
          [⟨pubRecPacket id, false⟩], [.pubRec id]⟩
  | .pubRel rel => ⟨r.setPubRec rel.packetId none, [⟨pubCompPacket rel.packetId, false⟩], []⟩
  | _ => ⟨r, [], []⟩

end ReceiverPart

/-! ## The part of the sender -/

structure SenderPart where
  /-- The packets that wait for their acknowledgement. -/
  pending : IdType → Option Packet
  pendingSubs : LmcHashMap UInt16 PendingSub
  shared : ClientShared
  woken : List Waker

namespace SenderPart

def setPending (id : IdType) (pkt : Option Packet) (s : SenderPart) : SenderPart :=
  { s with pending := fun id' => if id' = id then pkt else s.pending id' }

def notify (n : Notifier) (id : UInt16) (s : SenderPart) : SenderPart :=
  let m := s.shared.notifierMap n
  { s with
    shared := s.shared.setNotifierMap n (m.erase id)
    woken := s.woken ++ ((m.lookup id).bind NotifyResult.waker).toList }

def acknowledge (id : IdType) (n : Notifier) (s : SenderPart) : SenderPart :=
  if (s.pending id).isSome then (s.setPending id none).notify n id.id else s.setPending id none

def react (s : SenderPart) : IncomingPacket → Reaction SenderPart
  | .pubAck ack => ⟨s.acknowledge (.publish ack.packetId) .pubAck, [], []⟩
  | .pubRec rec =>
    let id := rec.packetId
    match s.pending (.pubRel id) with
    | some pkt => ⟨s.acknowledge (.publish id) .pubRec, [⟨pkt, false⟩], []⟩
    | none =>
      let released := s.setPending (.pubRel id) (some (pubRelPacket id))
      ⟨released.acknowledge (.publish id) .pubRec, [⟨pubRelPacket id, false⟩], [.pubRel id]⟩
  | .pubComp comp => ⟨s.acknowledge (.pubRel comp.packetId) .pubComp, [], []⟩
  | .unsubAck ack => ⟨s.setPending (.unsubscribe ack.packetId) none, [], []⟩
  | _ => ⟨s, [], []⟩

end SenderPart

/-! ## The parts of the books -/

namespace Book

def receiverPart (b : Book) : ReceiverPart :=
  ⟨fun id => b.pendingPackets.lookup (.pubRec id), b.subscriptions, b.mail, b.history.dispatched⟩

def senderPart (b : Book) : SenderPart :=
  ⟨fun id => if id.ty = .pubRec then none else b.pendingPackets.lookup id, b.pendingSubs,
    b.shared, b.history.woken⟩

/-- The table of pending packets is changed at one key. -/
def Rekeyed (b : Book) (m : LmcHashMap IdType Packet) (id : IdType) (pkt : Option Packet) : Prop :=
  ∀ id', m.lookup id' = if id' = id then pkt else b.pendingPackets.lookup id'

variable {b : Book} {m : LmcHashMap IdType Packet} {pkt : Option Packet}

theorem Rekeyed.insert (b : Book) (id : IdType) (pkt : Packet) :
    Rekeyed b (b.pendingPackets.insert id pkt) id (some pkt) :=
  fun id' => Table.lookup_insert id id' pkt _

theorem Rekeyed.erase (b : Book) (id : IdType) :
    Rekeyed b (b.pendingPackets.erase id) id none := fun id' => Table.lookup_erase id id' _

/-- The keys of `PUBREC`s belong to the receiver. -/
theorem Rekeyed.receiver {id : UInt16} (h : Rekeyed b m (.pubRec id) pkt) :
    receiverPart { b with pendingPackets := m } = b.receiverPart.setPubRec id pkt ∧
      senderPart { b with pendingPackets := m } = b.senderPart := by
  constructor
  · have hkeys : (fun id' => m.lookup (.pubRec id')) =
        fun id' => if id' = id then pkt else b.pendingPackets.lookup (.pubRec id') := by
      funext id'
      rw [h]
      simp [IdType.pubRec]
    simp only [receiverPart, ReceiverPart.setPubRec, hkeys]
  · have hkeys : (fun id' : IdType => if id'.ty = .pubRec then none else m.lookup id') =
        fun id' => if id'.ty = .pubRec then none else b.pendingPackets.lookup id' := by
      funext id'
      split
      · rfl
      · rename_i hty
        have hne : id' ≠ .pubRec id := fun heq => hty (by rw [heq]; rfl)
        rw [h, if_neg hne]
    simp only [senderPart, hkeys]

/-- All other keys belong to the sender. -/
theorem Rekeyed.sender {id : IdType} (h : Rekeyed b m id pkt) (hid : id.ty ≠ .pubRec) :
    receiverPart { b with pendingPackets := m } = b.receiverPart ∧
      senderPart { b with pendingPackets := m } = b.senderPart.setPending id pkt := by
  constructor
  · have hkeys : (fun id' => m.lookup (.pubRec id')) =
        fun id' => b.pendingPackets.lookup (.pubRec id') := by
      funext id'
      have hne : IdType.pubRec id' ≠ id := fun heq => hid (by rw [← heq]; rfl)
      rw [h, if_neg hne]
    simp only [receiverPart, hkeys]
  · have hkeys : (fun id' : IdType => if id'.ty = .pubRec then none else m.lookup id') =
        fun id' => if id' = id then pkt else
          if id'.ty = .pubRec then none else b.pendingPackets.lookup id' := by
      funext id'
      rw [h]
      by_cases heq : id' = id
      · rw [heq, if_neg hid, if_pos rfl, if_pos rfl]
      · rw [if_neg heq, if_neg heq]
    simp only [senderPart, SenderPart.setPending, hkeys]

theorem pending_senderPart {id : IdType} (hid : id.ty ≠ .pubRec) :
    b.senderPart.pending id = b.pendingPackets.lookup id := if_neg hid

/-- An acknowledgement is the affair of the sender. -/
theorem parts_acknowledge (id : IdType) (n : Notifier) (b : Book) (hid : id.ty ≠ .pubRec) :
    (b.acknowledge id n).receiverPart = b.receiverPart ∧
      (b.acknowledge id n).senderPart = b.senderPart.acknowledge id n := by
  obtain ⟨hreceiver, hsender⟩ := (Rekeyed.erase b id).sender hid
  have hpending : b.senderPart.pending id = b.pendingPackets.lookup id := pending_senderPart hid
  unfold acknowledge SenderPart.acknowledge
  rw [hpending]
  cases (b.pendingPackets.lookup id).isSome with
  | true =>
    refine ⟨hreceiver, ?_⟩
    have hnotify : ((b.erasePending id).notify n id.id).senderPart =
        (b.erasePending id).senderPart.notify n id.id := rfl
    rw [if_pos rfl, if_pos rfl, hnotify]
    exact congrArg (SenderPart.notify n id.id) hsender
  | false => exact ⟨hreceiver, hsender⟩

end Book

/-! ## Packets -/

variable {d d' : Desk}

/-- Handling a packet gives this reaction, where `part` is the part of the books that is
concerned. -/
structure Desk.Reacts {π : Type} (part : Book → π) (r : Reaction π) (d d' : Desk) : Prop where
  part : part d'.book = r.part
  replies : d'.handed = d.handed ++ r.replies
  alarms : d'.timeouts.map Timeout.packetId = d.timeouts.map Timeout.packetId ++ r.alarms

theorem Desk.timeouts_track (t : Nat) {id : IdType} (pkt : Packet)
    (h : d.book.pendingPackets.lookup id = none) :
    (d.track t id pkt).timeouts.map Timeout.packetId =
      d.timeouts.map Timeout.packetId ++ [id] := by
  rw [Desk.track, h]
  exact List.map_append

theorem PacketWork.receiver {pkt : IncomingPacket} (h : PacketWork pkt none d d')
    (hpkt : pkt.toReceiver = true) :
    d.Reacts Book.receiverPart (d.book.receiverPart.react pkt) d' ∧
      d'.book.senderPart = d.book.senderPart := by
  cases h with
  | dispatch msg _ qos =>
    simp only [ReceiverPart.react, qos]
    exact ⟨⟨rfl, (List.append_nil _).symm, (List.append_nil _).symm⟩, rfl⟩
  | answer msg _ _ qos =>
    simp only [ReceiverPart.react, qos]
    exact ⟨⟨rfl, rfl, (List.append_nil _).symm⟩, rfl⟩
  | answerAgain msg pkt _ _ qos known =>
    have hknown : d.book.receiverPart.pubRecs msg.info.packetId = some pkt := known
    simp only [ReceiverPart.react, qos, hknown]
    exact ⟨⟨rfl, rfl, (List.append_nil _).symm⟩, rfl⟩
  | record msg t _ _ qos new =>
    have hnew : d.book.receiverPart.pubRecs msg.info.packetId = none := new
    obtain ⟨hreceiver, hsender⟩ := (Book.Rekeyed.insert d.book (.pubRec msg.info.packetId)
      (pubRecPacket msg.info.packetId)).receiver
    simp only [ReceiverPart.react, qos, hnew]
    refine ⟨⟨?_, ?_, Desk.timeouts_track t _ new⟩, ?_⟩
    · show (Book.dispatch msg (Desk.book (Desk.track t _ _ d))).receiverPart = _
      rw [Desk.book_track]
      exact congrArg (ReceiverPart.dispatch msg) hreceiver
    · show (Desk.track t _ _ d).handed ++ _ = _
      rw [Desk.handed_track]
    · show (Book.dispatch msg (Desk.book (Desk.track t _ _ d))).senderPart = _
      rw [Desk.book_track]
      exact hsender
  | pubRel rel =>
    obtain ⟨hreceiver, hsender⟩ := (Book.Rekeyed.erase d.book (.pubRec rel.packetId)).receiver
    exact ⟨⟨hreceiver, rfl, (List.append_nil _).symm⟩, hsender⟩
  | _ => cases hpkt

theorem PacketWork.sender {pkt : IncomingPacket} (h : PacketWork pkt none d d')
    (hpkt : pkt.toSender = true) :
    d.Reacts Book.senderPart (d.book.senderPart.react pkt) d' ∧
      d'.book.receiverPart = d.book.receiverPart := by
  cases h with
  | pubAck ack =>
    obtain ⟨hreceiver, hsender⟩ :=
      Book.parts_acknowledge (.publish ack.packetId) .pubAck d.book nofun
    exact ⟨⟨hsender, (List.append_nil _).symm, (List.append_nil _).symm⟩, hreceiver⟩
  | releaseAgain rec pkt _ _ known =>
    have hknown : d.book.senderPart.pending (.pubRel rec.packetId) = some pkt := known
    obtain ⟨hreceiver, hsender⟩ :=
      Book.parts_acknowledge (.publish rec.packetId) .pubRec d.book nofun
    simp only [SenderPart.react, hknown]
    exact ⟨⟨hsender, rfl, (List.append_nil _).symm⟩, hreceiver⟩
  | release rec t _ _ new =>
    have hnew : d.book.senderPart.pending (.pubRel rec.packetId) = none := new
    obtain ⟨hinsert, hpending⟩ := (Book.Rekeyed.insert d.book (.pubRel rec.packetId)
      (pubRelPacket rec.packetId)).sender nofun
    obtain ⟨hreceiver, hsender⟩ := Book.parts_acknowledge (.publish rec.packetId) .pubRec
      (d.book.insertPending (.pubRel rec.packetId) (pubRelPacket rec.packetId)) nofun
    simp only [SenderPart.react, hnew]
    refine ⟨⟨?_, ?_, Desk.timeouts_track t _ new⟩, ?_⟩
    · show (Book.acknowledge _ _ (Desk.book (Desk.track t _ _ d))).senderPart = _
      rw [Desk.book_track, hsender]
      exact congrArg (SenderPart.acknowledge _ _) hpending
    · show (Desk.track t _ _ d).handed ++ _ = _
      rw [Desk.handed_track]
    · show (Book.acknowledge _ _ (Desk.book (Desk.track t _ _ d))).receiverPart = _
      rw [Desk.book_track, hreceiver]
      exact hinsert
  | pubComp comp =>
    obtain ⟨hreceiver, hsender⟩ :=
      Book.parts_acknowledge (.pubRel comp.packetId) .pubComp d.book nofun
    exact ⟨⟨hsender, (List.append_nil _).symm, (List.append_nil _).symm⟩, hreceiver⟩
  | unsubAck ack =>
    obtain ⟨hreceiver, hsender⟩ :=
      (Book.Rekeyed.erase d.book (.unsubscribe ack.packetId)).sender nofun
    exact ⟨⟨hsender, (List.append_nil _).symm, (List.append_nil _).symm⟩, hreceiver⟩
  | _ => cases hpkt

/-! ## Both orders -/

namespace Transceiver

variable {τ : Type} [Transport τ] {tx tx' tx₁ tx₂ : Transceiver τ} {a b : IncomingPacket}

/-- What a connected task does with a packet when the transport does not fail. -/
theorem packetWork_of_run {stop : Bool} (hconn : tx.connectSig = false)
    (hrun : (processPacket a).run tx = .ok stop tx') :
    PacketWork a none (tx.desk.onBook (Book.logReceived a)) tx'.desk ∧ tx'.connectSig = false := by
  obtain ⟨cut, hcut, hreception⟩ := (works_processPacket a tx.desk).ok rfl hrun
  cases cut with
  | some e => cases hcut
  | none =>
    change _ ∧ tx'.desk.book.connectSig = false
    generalize tx'.desk = d' at hreception ⊢
    cases hreception with
    | connAck waiting => cases hconn.symm.trans waiting
    | work connected _ _ done => exact ⟨done, done.effect.connect.1.trans connected⟩

/-- A packet to the receiver: the reaction of its part, and nothing in the other part. -/
theorem receives {stop : Bool} (ha : a.toReceiver = true) (hconn : tx.connectSig = false)
    (hrun : (processPacket a).run tx = .ok stop tx') :
    tx.desk.Reacts Book.receiverPart (tx.receiverPart.react a) tx'.desk ∧
      tx'.senderPart = tx.senderPart ∧ tx'.connectSig = false := by
  obtain ⟨hwork, hconn'⟩ := packetWork_of_run hconn hrun
  obtain ⟨⟨hpart, hreplies, halarms⟩, hsender⟩ := hwork.receiver ha
  exact ⟨⟨hpart, hreplies, halarms⟩, hsender, hconn'⟩

theorem sends {stop : Bool} (hb : b.toSender = true) (hconn : tx.connectSig = false)
    (hrun : (processPacket b).run tx = .ok stop tx') :
    tx.desk.Reacts Book.senderPart (tx.senderPart.react b) tx'.desk ∧
      tx'.receiverPart = tx.receiverPart ∧ tx'.connectSig = false := by
  obtain ⟨hwork, hconn'⟩ := packetWork_of_run hconn hrun
  obtain ⟨⟨hpart, hreplies, halarms⟩, hreceiver⟩ := hwork.sender hb
  exact ⟨⟨hpart, hreplies, halarms⟩, hreceiver, hconn'⟩

theorem lookup_of_parts {b₁ b₂ : Book} (hreceiver : b₁.receiverPart = b₂.receiverPart)
    (hsender : b₁.senderPart = b₂.senderPart) (id : IdType) :
    b₁.pendingPackets.lookup id = b₂.pendingPackets.lookup id := by
  by_cases hty : id.ty = .pubRec
  · obtain ⟨ty, id⟩ := id
    cases hty
    exact congrFun (congrArg ReceiverPart.pubRecs hreceiver) id
  · rw [← Book.pending_senderPart hty, ← Book.pending_senderPart hty, hsender]

end Transceiver

open Transceiver in
/-- A packet of the receiver flow and a packet of the sender flow, which may carry the same
identifier, lead to the same books in either order, and each of them to the same replies
and timeouts, if the transport does not fail. -/
theorem flows_commute {τ : Type} [Transport τ] {tx txA txB tx₁ tx₂ : Transceiver τ}
    {a b : IncomingPacket} (ha : a.toReceiver = true) (hb : b.toSender = true)
    (hconn : tx.connected = true) {stop stop₁ stop₂ stop₃ : Bool}
    (hrunA : (processPacket a).run tx = .ok stop txA)
    (hrunAB : (processPacket b).run txA = .ok stop₁ tx₁)
    (hrunB : (processPacket b).run tx = .ok stop₂ txB)
    (hrunBA : (processPacket a).run txB = .ok stop₃ tx₂) :
    ((∀ id, tx₁.pendingPackets.lookup id = tx₂.pendingPackets.lookup id) ∧
      tx₁.pendingSubs = tx₂.pendingSubs ∧ tx₁.shared = tx₂.shared ∧
      tx₁.subscriptions = tx₂.subscriptions ∧ tx₁.mail = tx₂.mail ∧
      tx₁.history.dispatched = tx₂.history.dispatched ∧
      tx₁.history.woken = tx₂.history.woken) ∧
    (∃ repliesA repliesB, tx₁.link.handed = tx.link.handed ++ repliesA ++ repliesB ∧
      tx₂.link.handed = tx.link.handed ++ repliesB ++ repliesA) ∧
    ∃ alarmsA alarmsB, tx₁.timeoutQueue.map Timeout.packetId =
        tx.timeoutQueue.map Timeout.packetId ++ alarmsA ++ alarmsB ∧
      tx₂.timeoutQueue.map Timeout.packetId =
        tx.timeoutQueue.map Timeout.packetId ++ alarmsB ++ alarmsA := by
  have hsig : tx.connectSig = false := by simpa [Book.connected] using hconn
  obtain ⟨hA, hsenderA, hsigA⟩ := receives ha hsig hrunA
  obtain ⟨hAB, hreceiverAB, -⟩ := sends hb hsigA hrunAB
  obtain ⟨hB, hreceiverB, hsigB⟩ := sends hb hsig hrunB
  obtain ⟨hBA, hsenderBA, -⟩ := receives ha hsigB hrunBA
  rw [hsenderA] at hAB
  rw [hreceiverB] at hBA
  have hreceiver : tx₁.receiverPart = tx₂.receiverPart :=
    (hreceiverAB.trans hA.part).trans hBA.part.symm
  have hsender : tx₁.senderPart = tx₂.senderPart :=
    hAB.part.trans (hsenderBA.trans hB.part).symm
  refine ⟨⟨lookup_of_parts hreceiver hsender, congrArg SenderPart.pendingSubs hsender,
    congrArg SenderPart.shared hsender, congrArg ReceiverPart.subscriptions hreceiver,
    congrArg ReceiverPart.mail hreceiver, congrArg ReceiverPart.dispatched hreceiver,
    congrArg SenderPart.woken hsender⟩,
    ⟨(tx.receiverPart.react a).replies, (tx.senderPart.react b).replies, ?_, ?_⟩,
    ⟨(tx.receiverPart.react a).alarms, (tx.senderPart.react b).alarms, ?_, ?_⟩⟩
  · exact hAB.replies.trans (congrArg (· ++ _) hA.replies)
  · exact hBA.replies.trans (congrArg (· ++ _) hB.replies)
  · exact hAB.alarms.trans (congrArg (· ++ _) hA.alarms)
  · exact hBA.alarms.trans (congrArg (· ++ _) hB.alarms)

/-- A connected task that waits for the `PUBREC` of a message of its own. -/
def awaitingPubRec : Transceiver TcpTransport :=
  { Transceiver.spawn
      { transport := ⟨⟨[], false, []⟩⟩
        connectPacket := ⟨0x10, [0]⟩
        pingInterval := 0
        packetResendDelay := 0
        clock := id
        mail := ⟨fun _ => ⟨none, [], false⟩, []⟩ } with
    connectSig := false
    pendingPackets := (∅ : LmcHashMap IdType Packet).insert (.publish 1) ⟨0x34, [0]⟩ }

/-- A message with the same identifier. -/
def messageOne : IncomingPublishPacket := ⟨⟨1, .new false .exactlyOnce false, 1⟩, [0x74]⟩

theorem flows_commute_one :
    ∃ txA tx₁ txB tx₂,
      (Transceiver.processPacket (.publish messageOne)).run awaitingPubRec = .ok false txA ∧
      (Transceiver.processPacket (.pubRec ⟨1⟩)).run txA = .ok false tx₁ ∧
      (Transceiver.processPacket (.pubRec ⟨1⟩)).run awaitingPubRec = .ok false txB ∧
      (Transceiver.processPacket (.publish messageOne)).run txB = .ok false tx₂ ∧
      ∀ id, tx₁.pendingPackets.lookup id = tx₂.pendingPackets.lookup id := by
  obtain ⟨txA, hA⟩ : ∃ txA,
      (Transceiver.processPacket (.publish messageOne)).run awaitingPubRec = .ok false txA :=
    ⟨_, rfl⟩
  obtain ⟨tx₁, hAB⟩ : ∃ tx₁,
      (Transceiver.processPacket (.pubRec ⟨1⟩)).run txA = .ok false tx₁ := by
    cases hA
    exact ⟨_, rfl⟩
  obtain ⟨txB, hB⟩ : ∃ txB,
      (Transceiver.processPacket (.pubRec ⟨1⟩)).run awaitingPubRec = .ok false txB := ⟨_, rfl⟩
  obtain ⟨tx₂, hBA⟩ : ∃ tx₂,
      (Transceiver.processPacket (.publish messageOne)).run txB = .ok false tx₂ := by
    cases hB
    exact ⟨_, rfl⟩
  exact ⟨txA, tx₁, txB, tx₂, hA, hAB, hB, hBA, (flows_commute rfl rfl rfl hA hAB hB hBA).1.1⟩

end Lmc
