import Lmc.System.Reception
import Lmc.Task.Flows

/-!
# Duplicates

A broker that has seen no answer sends a packet again. What the packet was about is settled
when it has been handled once: the entry it acknowledges is gone, and the answer that may
have to be repeated is kept (`Book.Settled`). Handling a settled packet leaves the books as
they are and gives the answer again (`duplicates_harmless`).
-/

namespace Lmc

open EStateLogic

/-- The packets that may come twice without the message being meant twice. -/
def IncomingPacket.repeats : IncomingPacket → Bool
  | .pubAck _ | .pubRec _ | .pubRel _ | .pubComp _ | .subAck _ | .unsubAck _ => true
  | .publish msg => msg.info.flags.qos = .exactlyOnce
  | _ => false

/-! ## Settled packets -/

namespace Book

def Settled (b : Book) : IncomingPacket → Prop
  | .pubAck ack => b.pendingPackets.lookup (.publish ack.packetId) = none
  | .pubRec rec => b.pendingPackets.lookup (.publish rec.packetId) = none ∧
      ∃ pkt, b.pendingPackets.lookup (.pubRel rec.packetId) = some pkt
  | .pubRel rel => b.pendingPackets.lookup (.pubRec rel.packetId) = none
  | .pubComp comp => b.pendingPackets.lookup (.pubRel comp.packetId) = none
  | .subAck ack => b.pendingSubs.lookup ack.packetId = none
  | .unsubAck ack => b.pendingPackets.lookup (.unsubscribe ack.packetId) = none
  | .publish msg => ∃ pkt, b.pendingPackets.lookup (.pubRec msg.info.packetId) = some pkt
  | _ => True

/-- The answer to a settled packet. -/
def reply (b : Book) : IncomingPacket → List InternalPacket
  | .pubRec rec =>
    (b.pendingPackets.lookup (.pubRel rec.packetId)).toList.map fun pkt => ⟨pkt, false⟩
  | .pubRel rel => [⟨pubCompPacket rel.packetId, false⟩]
  | .publish msg =>
    (b.pendingPackets.lookup (.pubRec msg.info.packetId)).toList.map fun pkt => ⟨pkt, false⟩
  | _ => []

variable {b : Book}

theorem reply_pubRec {rec : PubRecPacket} {pkt : Packet}
    (h : b.pendingPackets.lookup (.pubRel rec.packetId) = some pkt) :
    b.reply (.pubRec rec) = [⟨pkt, false⟩] := by
  simp only [reply, h]
  rfl

theorem reply_publish {msg : IncomingPublishPacket} {pkt : Packet}
    (h : b.pendingPackets.lookup (.pubRec msg.info.packetId) = some pkt) :
    b.reply (.publish msg) = [⟨pkt, false⟩] := by
  simp only [reply, h]
  rfl

/-- Whether a packet is settled does not depend on the record of the packets received. -/
theorem settled_logReceived (pkt : IncomingPacket) :
    (b.logReceived pkt).Settled pkt ↔ b.Settled pkt := by
  cases pkt <;> exact Iff.rfl

theorem reply_logReceived (pkt : IncomingPacket) :
    (b.logReceived pkt).reply pkt = b.reply pkt := by
  cases pkt <;> rfl

theorem erasePending_of_none {id : IdType} (h : b.pendingPackets.lookup id = none) :
    b.erasePending id = b := by
  unfold erasePending
  rw [Table.erase_of_lookup_eq_none h]

theorem acknowledge_of_none {id : IdType} {n : Notifier} (h : b.pendingPackets.lookup id = none) :
    b.acknowledge id n = b := by
  unfold acknowledge
  rw [h]
  exact erasePending_of_none h

theorem lookup_acknowledged (id : IdType) (n : Notifier) (b : Book) :
    (b.acknowledge id n).pendingPackets.lookup id = none := by
  rw [pendingPackets_acknowledge, AList.lookup_erase]

/-- A release is not affected by the acknowledgement of its message. -/
theorem lookup_pubRel_acknowledge (id : UInt16) (n : Notifier) (b : Book) :
    (b.acknowledge (.publish id) n).pendingPackets.lookup (.pubRel id) =
      b.pendingPackets.lookup (.pubRel id) := by
  have hne : IdType.pubRel id ≠ .publish id := nofun
  rw [pendingPackets_acknowledge, AList.lookup_erase_ne hne]

theorem processSubAck_of_none {ack : SubAckPacket} (h : b.pendingSubs.lookup ack.packetId = none) :
    b.processSubAck ack = b := by
  unfold processSubAck
  rw [h]

end Book

/-! ## Handling a packet once and again -/

variable {d d' : Desk} {pkt : IncomingPacket}

theorem Desk.lookup_track (t : Nat) (id : IdType) (pkt : Packet) (d : Desk) :
    (d.track t id pkt).book.pendingPackets.lookup id = some pkt := by
  rw [Desk.book_track]
  exact AList.lookup_insert _

/-- A packet that has been handled is settled, and was answered. -/
theorem PacketWork.settles (h : PacketWork pkt none d d') (hpkt : pkt.repeats = true) :
    d'.book.Settled pkt ∧ d'.handed = d.handed ++ d'.book.reply pkt := by
  cases h with
  | connAck | pingResp => cases hpkt
  | dispatch msg _ qos => simp [IncomingPacket.repeats, qos] at hpkt
  | answer msg _ _ qos => simp [IncomingPacket.repeats, qos] at hpkt
  | subAck ack =>
    refine ⟨?_, (List.append_nil _).symm⟩
    exact (Book.lookup_pendingSubs_processSubAck ack _ _).trans (if_pos rfl)
  | answerAgain msg stored _ _ qos known =>
    exact ⟨⟨stored, known⟩, congrArg (d.handed ++ ·) (Book.reply_publish known).symm⟩
  | record msg t _ _ qos new =>
    have hstored := Desk.lookup_track t (.pubRec msg.info.packetId)
      (pubRecPacket msg.info.packetId) d
    refine ⟨⟨_, hstored⟩, ?_⟩
    show (Desk.track t _ _ d).handed ++ _ = _
    rw [Desk.handed_track]
    exact congrArg (d.handed ++ ·) (Book.reply_publish (b := Book.dispatch msg _) hstored).symm
  | pubAck ack => exact ⟨Book.lookup_acknowledged _ _ _, (List.append_nil _).symm⟩
  | releaseAgain rec stored _ _ known =>
    have hstored := (Book.lookup_pubRel_acknowledge rec.packetId .pubRec d.book).trans known
    refine ⟨⟨Book.lookup_acknowledged _ _ _, stored, hstored⟩, ?_⟩
    exact congrArg (d.handed ++ ·) (Book.reply_pubRec hstored).symm
  | release rec t _ _ new =>
    have hstored := (Book.lookup_pubRel_acknowledge rec.packetId .pubRec _).trans
      (Desk.lookup_track t (.pubRel rec.packetId) (pubRelPacket rec.packetId) d)
    refine ⟨⟨Book.lookup_acknowledged _ _ _, _, hstored⟩, ?_⟩
    show (Desk.track t _ _ d).handed ++ _ = _
    rw [Desk.handed_track]
    exact congrArg (d.handed ++ ·) (Book.reply_pubRec hstored).symm
  | pubRel rel => exact ⟨AList.lookup_erase _ _, rfl⟩
  | pubComp comp => exact ⟨Book.lookup_acknowledged _ _ _, (List.append_nil _).symm⟩
  | unsubAck ack => exact ⟨AList.lookup_erase _ _, (List.append_nil _).symm⟩

/-- A settled packet changes nothing. -/
theorem PacketWork.again (h : PacketWork pkt none d d') (hpkt : pkt.repeats = true)
    (hsettled : d.book.Settled pkt) : d'.book = d.book ∧ d'.timeouts = d.timeouts := by
  cases h with
  | connAck | pingResp => cases hpkt
  | dispatch msg _ qos => simp [IncomingPacket.repeats, qos] at hpkt
  | answer msg _ _ qos => simp [IncomingPacket.repeats, qos] at hpkt
  | subAck ack => exact ⟨Book.processSubAck_of_none hsettled, rfl⟩
  | answerAgain msg stored _ _ qos known => exact ⟨rfl, rfl⟩
  | record msg t _ _ qos new =>
    obtain ⟨stored, hstored⟩ := hsettled
    cases new.symm.trans hstored
  | pubAck ack => exact ⟨Book.acknowledge_of_none hsettled, rfl⟩
  | releaseAgain rec stored _ _ known => exact ⟨Book.acknowledge_of_none hsettled.1, rfl⟩
  | release rec t _ _ new =>
    obtain ⟨-, stored, hstored⟩ := hsettled
    cases new.symm.trans hstored
  | pubRel rel => exact ⟨Book.erasePending_of_none hsettled, rfl⟩
  | pubComp comp => exact ⟨Book.acknowledge_of_none hsettled, rfl⟩
  | unsubAck ack => exact ⟨Book.erasePending_of_none hsettled, rfl⟩

/-- The answer is the one of the protocol, as long as the packets that are kept for it are. -/
theorem PacketWork.reply_eq (h : PacketWork pkt none d d') (hpkt : pkt.repeats = true)
    (hreplies : d.book.Replies) : d'.book.reply pkt = Lmc.answer pkt := by
  cases h with
  | connAck | pingResp => cases hpkt
  | dispatch msg _ qos => simp [IncomingPacket.repeats, qos] at hpkt
  | answer msg _ _ qos => simp [IncomingPacket.repeats, qos] at hpkt
  | answerAgain msg stored _ _ qos known =>
    rw [Desk.book_hand, Book.reply_publish known, hreplies.pubRec _ _ known]
    simp only [Lmc.answer, qos]
  | record msg t _ _ qos new =>
    have hstored := Desk.lookup_track t (.pubRec msg.info.packetId)
      (pubRecPacket msg.info.packetId) d
    refine (Book.reply_publish (b := Book.dispatch msg _) hstored).trans ?_
    simp only [Lmc.answer, qos]
  | releaseAgain rec stored _ _ known =>
    have hstored := (Book.lookup_pubRel_acknowledge rec.packetId .pubRec d.book).trans known
    refine (Book.reply_pubRec hstored).trans ?_
    rw [hreplies.pubRel _ _ known]
    rfl
  | release rec t _ _ new =>
    exact Book.reply_pubRec ((Book.lookup_pubRel_acknowledge rec.packetId .pubRec _).trans
      (Desk.lookup_track t (.pubRel rec.packetId) (pubRelPacket rec.packetId) d))
  | _ => rfl

namespace Transceiver

variable {τ : Type} [Transport τ] {tx : Transceiver τ}

/-- Only the transport makes a connected task fail at a packet, and no packet makes it stop. -/
theorem run_processPacket (pkt : IncomingPacket) (hconn : tx.connectSig = false) :
    (∃ tx', (processPacket pkt).run tx = .ok false tx') ∨
      ∃ e tx', (processPacket pkt).run tx = .error (.io e) tx' := by
  cases hrun : (processPacket pkt).run tx with
  | ok stop tx' =>
    have hhandle : (processPacket pkt).run tx = (do handlePacket pkt; return false :
        TaskM τ Bool).run { tx with toBook := tx.logReceived pkt } := by
      simp only [processPacket, EStateM.run_bind, EStateM.run_get, hconn, Bool.false_eq_true,
        if_false]
      rfl
    rw [hhandle] at hrun
    rcases run_bind_cases (handlePacket pkt) (fun _ => (return false : TaskM τ Bool))
      { tx with toBook := tx.logReceived pkt } with ⟨_, tx₁, -, hb⟩ | ⟨e, tx₁, -, hb⟩
    · cases hb.symm.trans hrun
      exact Or.inl ⟨tx', rfl⟩
    · cases hb.symm.trans hrun
  | error f tx' =>
    obtain ⟨cut, hcut, -⟩ := (works_processPacket pkt tx.desk).error rfl hrun
    cases cut with
    | none => cases hcut
    | some e =>
      cases hcut
      exact Or.inr ⟨e, tx', rfl⟩

/-- What a connected task does with a packet that may come twice, if the transport does not
fail. -/
theorem settles_processPacket {tx₁ : Transceiver τ} {stop : Bool} (hpkt : pkt.repeats = true)
    (hconn : tx.connectSig = false) (hrun : (processPacket pkt).run tx = .ok stop tx₁) :
    tx₁.Settled pkt ∧ tx₁.link.handed = tx.link.handed ++ tx₁.reply pkt ∧
      tx₁.connectSig = false ∧ (tx.Settled pkt → tx₁.toBook = tx.logReceived pkt ∧
        tx₁.timeoutQueue = tx.timeoutQueue) ∧ (tx.Replies → tx₁.reply pkt = answer pkt) := by
  obtain ⟨hwork, hconn'⟩ := packetWork_of_run hconn hrun
  obtain ⟨hsettled, hhanded⟩ := hwork.settles hpkt
  refine ⟨hsettled, hhanded, hconn', fun h => hwork.again hpkt ?_, fun h => ?_⟩
  · exact (Book.settled_logReceived pkt).mpr h
  · exact hwork.reply_eq hpkt ⟨h.pubRec, h.pubRel⟩

end Transceiver

open Transceiver in
/-- A connected task that handles one of these packets twice in a row, and meets no failure of
the transport, is left with the same books, timeouts and subscriptions as after the first
time, except that the second packet is on record as received. The second time it
dispatches nothing and wakes nobody, and it gives the same answer as the first time, which
is the one of the protocol if the packets kept for it are. -/
theorem duplicates_harmless {τ : Type} [Transport τ] {tx : Transceiver τ}
    (hpkt : pkt.repeats = true) (hconn : tx.connected = true)
    (hok : ∀ e tx', (do let _ ← processPacket pkt; processPacket pkt : TaskM τ Bool).run tx ≠
      .error (.io e) tx') :
    ∃ tx₁ tx₂ reply, (processPacket pkt).run tx = .ok false tx₁ ∧
      (processPacket pkt).run tx₁ = .ok false tx₂ ∧
      tx₂.pendingPackets = tx₁.pendingPackets ∧ tx₂.pendingSubs = tx₁.pendingSubs ∧
      tx₂.timeoutQueue = tx₁.timeoutQueue ∧ tx₂.subscriptions = tx₁.subscriptions ∧
      tx₂.shared = tx₁.shared ∧ tx₂.mail = tx₁.mail ∧
      tx₂.history.dispatched = tx₁.history.dispatched ∧
      tx₂.history.woken = tx₁.history.woken ∧
      tx₁.link.handed = tx.link.handed ++ reply ∧ tx₂.link.handed = tx₁.link.handed ++ reply ∧
      (tx.Replies → reply = answer pkt) := by
  have hsig : tx.connectSig = false := by simpa [Book.connected] using hconn
  obtain ⟨tx₁, hrun₁⟩ | ⟨e, tx', hrun⟩ := run_processPacket pkt hsig
  swap
  · refine absurd ?_ (hok e tx')
    rw [EStateM.run_bind, hrun]
  obtain ⟨hsettled, hhanded₁, hsig₁, -, hanswer⟩ := settles_processPacket hpkt hsig hrun₁
  obtain ⟨tx₂, hrun₂⟩ | ⟨e, tx', hrun⟩ := run_processPacket pkt hsig₁
  swap
  · refine absurd ?_ (hok e tx')
    rw [EStateM.run_bind, hrun₁]
    exact hrun
  obtain ⟨-, hhanded₂, -, hsame, -⟩ := settles_processPacket hpkt hsig₁ hrun₂
  obtain ⟨hbook, htimeouts⟩ := hsame hsettled
  have hreply : tx₂.reply pkt = tx₁.reply pkt := by
    rw [hbook]
    exact Book.reply_logReceived pkt
  rw [hreply] at hhanded₂
  refine ⟨tx₁, tx₂, tx₁.reply pkt, hrun₁, hrun₂, ?_, ?_, htimeouts, ?_, ?_, ?_, ?_, ?_, hhanded₁,
    hhanded₂, hanswer⟩ <;> rw [hbook] <;> rfl

/-- A task behind the answer to `CONNECT`, with nothing in transmission. -/
def Transceiver.accepted {τ : Type} (setup : Setup τ) : Transceiver τ :=
  let tx := Transceiver.spawn setup
  { tx with connectSig := false, connectResult := some (.ok false), link := tx.link.setTx none }

open Transceiver in
theorem duplicates_harmless_pubRec : ∃ tx₁ tx₂ : Transceiver TcpTransport,
    (processPacket (.pubRec ⟨5⟩)).run (accepted (System.silentSetup false)) = .ok false tx₁ ∧
      (processPacket (.pubRec ⟨5⟩)).run tx₁ = .ok false tx₂ ∧
      tx₂.pendingPackets = tx₁.pendingPackets ∧ tx₂.timeoutQueue = tx₁.timeoutQueue ∧
      tx₂.link.handed = tx₁.link.handed ++ [⟨pubRelPacket 5, false⟩] := by
  have hrun : (match (do let _ ← processPacket (.pubRec ⟨5⟩); processPacket (.pubRec ⟨5⟩) :
      TaskM TcpTransport Bool).run (accepted (System.silentSetup false)) with
      | .ok _ _ => true
      | .error _ _ => false) = true := by
    decide +kernel
  obtain ⟨tx₁, tx₂, reply, hrun₁, hrun₂, hpending, -, htimeouts, -, -, -, -, -, -, hhanded,
      hreply⟩ :=
    @duplicates_harmless (.pubRec ⟨5⟩) TcpTransport _ (accepted (System.silentSetup false)) rfl rfl
      fun e tx' herror => by
        rw [herror] at hrun
        cases hrun
  rw [hreply ⟨nofun, nofun⟩] at hhanded
  exact ⟨tx₁, tx₂, hrun₁, hrun₂, hpending, htimeouts, hhanded⟩

end Lmc
