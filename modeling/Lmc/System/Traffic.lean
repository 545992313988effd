import Lmc.System.Identifiers
import Lmc.System.Schedule
import Lmc.Task.Output
import Lmc.Wire.Asked

/-!
# What a step hands over

The packets that the task keeps and the commands on their way to it are the encoded ones:
`Filed` says what each of them asks of the broker. With that, `Handing` lists what a packet
that a step hands over can be, and `Pends` what a packet that is pending behind a step can
be, both in terms of the state before the step. The results about the order of packets on
the wire are shown on these two lists.

`received` is what the broker can have read: the packets handed over whose bytes the
transport has accepted to the last one.
-/

namespace Lmc

open EStateLogic

/-! ## What packets ask -/

/-- The packet as it is on the wire. -/
def InternalPacket.sent (p : InternalPacket) : Packet :=
  if p.setDup then p.packet.withDup else p.packet

def InternalPacket.asks (p : InternalPacket) : Asked := p.sent.asks

/-- The first transmission of a packet. -/
theorem InternalPacket.asks_first (pkt : Packet) : InternalPacket.asks ⟨pkt, false⟩ = pkt.asks :=
  rfl

def PublishCommand.asks (cmd : PublishCommand) : Asked :=
  if cmd.qos = .atMostOnce then .other else .publish cmd.qos cmd.packetId

/-- The packet of the command asks for what the command says, however often it is sent. -/
def PublishCommand.Fits (cmd : PublishCommand) : Prop :=
  ∀ dup, InternalPacket.asks ⟨cmd.packet, dup⟩ = cmd.asks

def Command.Fits : Command → Prop
  | .publish cmd => cmd.Fits
  | _ => True

def Call.Fits : Call → Prop
  | .registering cmd _ => cmd.Fits
  | call => ∀ cmd, call.command = some cmd → cmd.Fits

/-- `P` holds of the command if it publishes. -/
def Command.Publishes (P : PublishCommand → Prop) : Command → Prop
  | .publish cmd => P cmd
  | _ => True

/-- `P` holds of the publish on its way through the call, if there is one. -/
def Call.Publishes (P : PublishCommand → Prop) : Call → Prop
  | .registering cmd _ => P cmd
  | call => ∀ cmd, call.command = some cmd → cmd.Publishes P

theorem Command.publishes_fits (cmd : Command) :
    cmd.Publishes PublishCommand.Fits ↔ cmd.Fits := by
  cases cmd <;> exact Iff.rfl

theorem Call.publishes_fits (call : Call) : call.Publishes PublishCommand.Fits ↔ call.Fits := by
  cases call with
  | registering cmd n => exact Iff.rfl
  | _ => exact forall₂_congr fun cmd _ => cmd.publishes_fits

/-- The packet asks for what it is kept for. -/
def IdType.Fits (key : IdType) (pkt : Packet) : Prop :=
  match key.ty with
  | .publish => ∃ qos, ∀ dup, InternalPacket.asks ⟨pkt, dup⟩ = .publish qos key.id
  | .pubRec => pkt = pubRecPacket key.id
  | .pubRel => pkt = pubRelPacket key.id
  | .unsubscribe => ∃ topic, pkt.asks = .unsubscribe key.id topic
  | _ => False

theorem PublishCommand.fits_of_encoded {cmd : PublishCommand} {p : OutgoingPublishPacket}
    (h : makePacket p = .ok cmd.packet) (hqos : p.flags.qos = cmd.qos)
    (hid : p.packetId = cmd.packetId) : cmd.Fits := by
  have hasks : p.asks = cmd.asks := by
    rw [OutgoingPublishPacket.asks, PublishCommand.asks, hqos, hid]
  obtain ⟨hfirst, hagain⟩ := asks_publish h
  intro dup
  cases dup with
  | false => exact hfirst.trans hasks
  | true => exact hagain.trans hasks

theorem PublishCommand.Fits.publish {cmd : PublishCommand} (h : cmd.Fits)
    (hqos : cmd.qos ≠ .atMostOnce) (dup : Bool) :
    InternalPacket.asks ⟨cmd.packet, dup⟩ = .publish cmd.qos cmd.packetId := by
  rw [h dup, PublishCommand.asks, if_neg hqos]

/-- What a packet asks for that is sent again. -/
theorem IdType.Fits.asks {key : IdType} {pkt : Packet} (h : key.Fits pkt) :
    (∃ qos, key = .publish key.id ∧
      InternalPacket.asks ⟨pkt, key.ty == PacketType.publish⟩ = .publish qos key.id) ∨
    InternalPacket.asks ⟨pkt, key.ty == PacketType.publish⟩ = .other ∨
    (key = .pubRel key.id ∧
      InternalPacket.asks ⟨pkt, key.ty == PacketType.publish⟩ = .release key.id) ∨
    ∃ topic, InternalPacket.asks ⟨pkt, key.ty == PacketType.publish⟩ =
      .unsubscribe key.id topic := by
  obtain ⟨ty, id⟩ := key
  cases ty with
  | publish =>
    obtain ⟨qos, hqos⟩ := h
    exact Or.inl ⟨qos, rfl, hqos _⟩
  | pubRec =>
    cases (show pkt = pubRecPacket id from h)
    exact Or.inr (Or.inl (asks_pubRec id))
  | pubRel =>
    cases (show pkt = pubRelPacket id from h)
    exact Or.inr (Or.inr (Or.inl ⟨rfl, asks_pubRel id⟩))
  | unsubscribe => exact Or.inr (Or.inr (Or.inr h))
  | _ => cases h

/-- Of the packets that are sent again only those of publishes ask for a publish. -/
theorem IdType.Fits.publish {key : IdType} {pkt : Packet} (h : key.Fits pkt) {qos : QoS}
    {id : UInt16} (hasks : InternalPacket.asks ⟨pkt, key.ty == PacketType.publish⟩ =
      .publish qos id) : key = .publish id := by
  rcases h.asks with ⟨_, hkey, hpub⟩ | hother | ⟨-, hrel⟩ | ⟨_, hunsub⟩
  · cases hpub.symm.trans hasks
    exact hkey
  · cases hother.symm.trans hasks
  · cases hrel.symm.trans hasks
  · cases hunsub.symm.trans hasks

/-- Of the packets that are sent again only those of releases ask for a release. -/
theorem IdType.Fits.release {key : IdType} {pkt : Packet} (h : key.Fits pkt) {id : UInt16}
    (hasks : InternalPacket.asks ⟨pkt, key.ty == PacketType.publish⟩ = .release id) :
    key = .pubRel id := by
  rcases h.asks with ⟨_, -, hpub⟩ | hother | ⟨hkey, hrel⟩ | ⟨_, hunsub⟩
  · cases hpub.symm.trans hasks
  · cases hother.symm.trans hasks
  · cases hrel.symm.trans hasks
    exact hkey
  · cases hunsub.symm.trans hasks

/-! ## Pending packets -/

section Works

variable {d d' : Desk}

/-- A packet that is pending behind the handling of a packet was pending before, or it was
just handed over. -/
theorem PacketWork.pends {incoming : IncomingPacket} {cut : Option IoError}
    (h : PacketWork incoming cut d d') {key : IdType} {pkt : Packet}
    (hp : d'.book.pendingPackets.lookup key = some pkt) :
    d.book.pendingPackets.lookup key = some pkt ∨
      ((∃ id, key = .pubRec id ∧ pkt = pubRecPacket id) ∨
        ∃ rec, incoming = .pubRec rec ∧ key = .pubRel rec.packetId ∧
          pkt = pubRelPacket rec.packetId) ∧ ⟨pkt, false⟩ ∈ d'.handed := by
  cases h with
  | connAck ack => exact Or.inl hp
  | pingResp => exact Or.inl hp
  | subAck ack =>
    rw [Desk.book_onBook, Book.pendingPackets_processSubAck] at hp
    exact Or.inl hp
  | dispatch msg qos => exact Or.inl hp
  | answer msg _ _ qos => cases cut <;> exact Or.inl hp
  | answerAgain msg pkt _ _ qos known => exact Or.inl hp
  | record msg t _ _ qos new =>
    have hins : (d.book.insertPending (.pubRec msg.info.packetId)
        (pubRecPacket msg.info.packetId)).pendingPackets.lookup key = some pkt := by
      rw [← Desk.book_track t]
      cases cut <;> exact hp
    change (d.book.pendingPackets.insert _ _).lookup key = some pkt at hins
    rw [Table.lookup_insert] at hins
    split at hins
    · rename_i hkey
      cases hins
      refine Or.inr ⟨Or.inl ⟨_, hkey, rfl⟩, ?_⟩
      rw [Desk.handed_conclude, Desk.handed_hand]
      exact List.mem_append_right _ List.mem_cons_self
    · exact Or.inl hins
  | pubAck ack =>
    rw [Desk.book_onBook, Book.pendingPackets_acknowledge] at hp
    exact Or.inl (lookup_of_erase hp)
  | releaseAgain rec pkt _ _ known =>
    cases cut with
    | some e => exact Or.inl hp
    | none =>
      change (Book.acknowledge _ _ d.book).pendingPackets.lookup key = _ at hp
      rw [Book.pendingPackets_acknowledge] at hp
      exact Or.inl (lookup_of_erase hp)
  | release rec t _ _ new =>
    have hins : (d.book.insertPending (.pubRel rec.packetId)
        (pubRelPacket rec.packetId)).pendingPackets.lookup key = some pkt := by
      rw [← Desk.book_track t]
      cases cut with
      | some e => exact hp
      | none =>
        change (Book.acknowledge _ _ (Desk.track t _ _ d).book).pendingPackets.lookup key = _ at hp
        rw [Book.pendingPackets_acknowledge] at hp
        exact lookup_of_erase hp
    change (d.book.pendingPackets.insert _ _).lookup key = some pkt at hins
    rw [Table.lookup_insert] at hins
    split at hins
    · rename_i hkey
      cases hins
      refine Or.inr ⟨Or.inr ⟨rec, rfl, hkey, rfl⟩, ?_⟩
      rw [Desk.handed_conclude, Desk.handed_hand]
      exact List.mem_append_right _ List.mem_cons_self
    · exact Or.inl hins
  | pubRel rel cut => exact Or.inl (lookup_of_erase hp)
  | pubComp comp =>
    rw [Desk.book_onBook, Book.pendingPackets_acknowledge] at hp
    exact Or.inl (lookup_of_erase hp)
  | unsubAck ack => exact Or.inl (lookup_of_erase hp)

/-- The same for a command. -/
theorem CommandWork.pends {cmd : Command} {o : Option Fault} (h : CommandWork cmd o d d')
    {key : IdType} {pkt : Packet} (hp : d'.book.pendingPackets.lookup key = some pkt) :
    d.book.pendingPackets.lookup key = some pkt ∨
      ((∃ pub, cmd = .publish pub ∧ pub.qos ≠ .atMostOnce ∧ key = .publish pub.packetId ∧
          pkt = pub.packet) ∨
        ∃ topic, cmd = .unsub ⟨topic, .immediate⟩ ∧
          key = .unsubscribe d.book.shared.nextPacketId ∧
          makePacket (⟨d.book.shared.nextPacketId, [topic]⟩ : UnsubscribePacket) = .ok pkt) ∧
        ⟨pkt, false⟩ ∈ d'.handed := by
  cases h with
  | publish cmd t _ io _ qos =>
    rw [Desk.book_hand, Desk.book_track] at hp
    change (d.book.pendingPackets.insert _ _).lookup key = some pkt at hp
    rw [Table.lookup_insert] at hp
    split at hp
    · rename_i hkey
      cases hp
      refine Or.inr ⟨Or.inl ⟨cmd, rfl, qos, hkey, rfl⟩, ?_⟩
      rw [Desk.handed_hand]
      exact List.mem_append_right _ List.mem_cons_self
    · exact Or.inl hp
  | unsubscribe topic packet t _ io _ subscribed encoded =>
    rw [Desk.book_hand, Desk.book_track] at hp
    change (d.book.pendingPackets.insert _ _).lookup key = some pkt at hp
    rw [Table.lookup_insert] at hp
    split at hp
    · rename_i hkey
      cases hp
      refine Or.inr ⟨Or.inr ⟨topic, rfl, hkey, encoded⟩, ?_⟩
      rw [Desk.handed_hand]
      exact List.mem_append_right _ List.mem_cons_self
    · exact Or.inl hp
  | _ => exact Or.inl hp

/-- The subscriptions that are pending behind a command. -/
theorem CommandWork.pendsSub {cmd : Command} {o : Option Fault} (h : CommandWork cmd o d d')
    {id : UInt16} {sub : PendingSub} (hp : d'.book.pendingSubs.lookup id = some sub) :
    d.book.pendingSubs.lookup id = some sub ∨
      ∃ req, cmd = .subscribe req ∧ id = d.book.shared.nextPacketId ∧
        sub.topic = req.topic ∧ sub.kind = req.kind ∧
        makePacket (⟨d.book.shared.nextPacketId, [(req.topic, req.qos)]⟩ : SubscribePacket) =
          .ok sub.packet ∧ d.book.subscriptions.rejects req.topic = false := by
  cases h with
  | subscribe cmd pkt t _ accepted unsubscribed encoded
  | subscribeCut cmd pkt e _ accepted unsubscribed encoded =>
    change (d.book.pendingSubs.insert _ _).lookup id = some sub at hp
    rw [Table.lookup_insert] at hp
    split at hp
    · rename_i hid
      cases hp
      exact Or.inr ⟨cmd, rfl, hid, rfl, rfl, encoded, accepted⟩
    · exact Or.inl hp
  | publish cmd t _ io _ qos =>
    rw [Desk.book_hand, Desk.book_track] at hp
    exact Or.inl hp
  | unsubscribe topic packet t _ io _ subscribed encoded =>
    rw [Desk.book_hand, Desk.book_track] at hp
    exact Or.inl hp
  | _ => exact Or.inl hp

end Works

namespace System

variable {τ : Type} [Transport τ] {s s' : System τ}

/-- Where a packet comes from that becomes pending in a step. -/
inductive Begins (s : System τ) (e : TaskEvent) (key : IdType) (pkt : Packet) : Prop
  | pubRec (id : UInt16) (kept : key = .pubRec id) (packet : pkt = pubRecPacket id)
  | pubRel (rec : PubRecPacket) (arrived : s.arriving e = some (.pubRec rec))
      (connected : s.tx.connectSig = false) (kept : key = .pubRel rec.packetId)
      (packet : pkt = pubRelPacket rec.packetId)
  | publish (cmd : PublishCommand) (taken : s.consumed e = some (.publish cmd))
      (qos : cmd.qos ≠ .atMostOnce) (kept : key = .publish cmd.packetId)
      (packet : pkt = cmd.packet)
  | unsubscribe (topic : Str) (taken : s.consumed e = some (.unsub ⟨topic, .immediate⟩))
      (kept : key = .unsubscribe s.tx.shared.nextPacketId)
      (encoded : makePacket (⟨s.tx.shared.nextPacketId, [topic]⟩ : UnsubscribePacket) = .ok pkt)

/-- A packet that is pending behind a program was pending before, or it was just handed
over. -/
theorem Work.pends {e : TaskEvent} {o : Option Fault} {d : Desk} (h : Work s e o d)
    {key : IdType} {pkt : Packet} (hp : d.book.pendingPackets.lookup key = some pkt) :
    s.tx.pendingPackets.lookup key = some pkt ∨
      Begins s e key pkt ∧ ⟨pkt, false⟩ ∈ d.handed := by
  cases h with
  | idle same =>
    rw [same] at hp
    exact Or.inl hp
  | connect pkt boot waits handed =>
    rw [handed] at hp
    exact Or.inl hp
  | connAck pkt arrived waiting book =>
    rw [book] at hp
    exact Or.inl hp
  | packet incoming cut arrived connected ends work =>
    rcases work.pends hp with hold | ⟨⟨id, hkey, hpkt⟩ | ⟨rec, rfl, hkey, hpkt⟩, hmem⟩
    · exact Or.inl hold
    · exact Or.inr ⟨.pubRec id hkey hpkt, hmem⟩
    · exact Or.inr ⟨.pubRel rec arrived connected hkey hpkt, hmem⟩
  | command cmd rest queue taken connected work =>
    rcases work.pends hp with
      hold | ⟨⟨pub, rfl, hqos, hkey, hpkt⟩ | ⟨topic, rfl, hkey, hpkt⟩, hmem⟩
    · exact Or.inl hold
    · exact Or.inr ⟨.publish pub taken hqos hkey hpkt, hmem⟩
    · exact Or.inr ⟨.unsubscribe topic taken hkey hpkt, hmem⟩
  | alarm cut ends work tick =>
    rw [work.book] at hp
    exact Or.inl hp
  | disconnect stopping connected handed =>
    rw [handed] at hp
    exact Or.inl hp

/-! ## What is kept -/

/-- Every packet that the task keeps, and every publish on its way to it, asks for what it
is kept for. -/
structure Filed (s : System τ) : Prop where
  packets : ∀ key pkt, s.tx.pendingPackets.lookup key = some pkt → key.Fits pkt
  subs : ∀ id sub, s.tx.pendingSubs.lookup id = some sub →
    sub.packet.asks = .subscribe id sub.topic
  queue : ∀ cmd ∈ s.tx.cmdQueue, cmd.Fits
  calls : ∀ c call, s.calls.lookup c = some call → call.Fits
  ping : s.tx.pingReq = pingReqPacket
  connect : s.phase = .boot → ∀ pkt, s.tx.link.txPkt = some pkt → pkt.packet.asks = .other

/-- `P` holds of every publish whose packet was encoded. -/
def EncodedPublishes (P : PublishCommand → Prop) : Prop :=
  ∀ (cmd : PublishCommand) (p : OutgoingPublishPacket), makePacket p = .ok cmd.packet →
    p.flags.qos = cmd.qos → p.packetId = cmd.packetId → P cmd

/-- `P` holds of every publish on its way to the task. -/
structure Published (P : PublishCommand → Prop) (s : System τ) : Prop where
  queue : ∀ cmd ∈ s.tx.cmdQueue, cmd.Publishes P
  calls : ∀ c call, s.calls.lookup c = some call → call.Publishes P

omit [Transport τ] in
theorem CallStep.publishes {P : PublishCommand → Prop} (hP : EncodedPublishes P)
    {old : Option Call} {call : Call} {cmds : List Command} (h : CallStep s s' old call cmds)
    (hold : ∀ c, old = some c → c.Publishes P) :
    call.Publishes P ∧ ∀ cmd ∈ cmds, cmd.Publishes P := by
  cases h with
  | publish mode cmd qos id encoded =>
    obtain ⟨topic, payload, retain, hpkt⟩ := encoded
    have hcmd : P cmd := by
      refine hP cmd _ hpkt ?_ rfl
      rw [PublishFlags.qos_new, qos]
    refine ⟨?_, List.forall_mem_nil _⟩
    cases mode with
    | tryPublish q | noWait q =>
      rintro _ ⟨⟩
      exact hcmd
    | qos1AwaitAck | qos2Received | qos2Complete => exact hcmd
  | register cmd n fut made =>
    refine ⟨?_, List.forall_mem_nil _⟩
    rintro _ ⟨⟩
    exact hold _ rfl
  | sent call cmd sends =>
    have hcmd : cmd.Publishes P := by
      have hcall := hold _ rfl
      cases call <;> first | exact hcall _ sends | cases sends
    refine ⟨?_, fun cmd' hmem => List.mem_singleton.mp hmem ▸ hcmd⟩
    rcases call.sent_cases with ⟨_, h⟩ | ⟨_, _, h⟩ | ⟨_, h⟩ <;> rw [h] <;> rintro _ ⟨⟩
  | command cmd other =>
    refine ⟨?_, List.forall_mem_nil _⟩
    rintro _ ⟨⟩
    cases cmd <;> trivial
  | build topic qos req actual kind =>
    refine ⟨?_, List.forall_mem_nil _⟩
    rintro _ ⟨⟩
    trivial
  | pollTopic call fut fut' waits =>
    refine ⟨?_, List.forall_mem_nil _⟩
    cases call <;> first | contradiction | rintro _ ⟨⟩
  | ready call fut result waits entry =>
    refine ⟨?_, List.forall_mem_nil _⟩
    cases call <;> cases result <;> first | contradiction | rintro _ ⟨⟩
  | _ =>
    refine ⟨?_, List.forall_mem_nil _⟩
    rintro _ ⟨⟩

omit [Transport τ] in
theorem Published.clientStep {P : PublishCommand → Prop} (hP : EncodedPublishes P)
    (h : Published P s) {e : ClientEvent} (hstep : s.clientStep e = some s') :
    Published P s' := by
  cases (clientMove_of_clientStep hstep).callMove with
  | none calls queue =>
    refine ⟨?_, by rw [calls]; exact h.calls⟩
    rcases queue with queue | queue <;> rw [queue]
    · exact h.queue
    · intro cmd hmem
      rcases List.mem_append.mp hmem with hmem | hmem
      · exact h.queue cmd hmem
      · cases List.mem_singleton.mp hmem
        trivial
  | step c call cmds calls queue goes =>
    obtain ⟨hcall, hcmds⟩ := goes.publishes hP (h.calls c)
    constructor
    · rw [queue]
      intro cmd hmem
      rcases List.mem_append.mp hmem with hmem | hmem
      · exact h.queue cmd hmem
      · exact hcmds cmd hmem
    · rw [calls]
      intro c' call' hcall'
      rw [Table.lookup_insert] at hcall'
      split at hcall'
      · cases hcall'
        exact hcall
      · exact h.calls c' call' hcall'

omit [Transport τ] in
theorem Filed.published (h : Filed s) : Published PublishCommand.Fits s where
  queue cmd hmem := cmd.publishes_fits.mpr (h.queue cmd hmem)
  calls c call hcall := call.publishes_fits.mpr (h.calls c call hcall)

omit [Transport τ] in
theorem filed_clientStep (h : Filed s) {e : ClientEvent} (hstep : s.clientStep e = some s') :
    Filed s' := by
  have hsame := (clientMove_of_clientStep hstep).sameTask
  have hpublished := h.published.clientStep
    (fun _ _ hpkt hqos hid => PublishCommand.fits_of_encoded hpkt hqos hid) hstep
  exact {
    packets := hsame.pendingPackets ▸ h.packets
    subs := hsame.pendingSubs ▸ h.subs
    queue := fun cmd hmem => cmd.publishes_fits.mp (hpublished.queue cmd hmem)
    calls := fun c call hcall => call.publishes_fits.mp (hpublished.calls c call hcall)
    ping := hsame.pingReq.trans h.ping
    connect := by
      rw [hsame.phase, hsame.link]
      exact h.connect }

omit [Transport τ] in
theorem consumed_mem {e : TaskEvent} {cmd : Command} (h : s.consumed e = some cmd) :
    cmd ∈ s.tx.cmdQueue := by
  unfold consumed at h
  split at h
  · exact List.mem_of_mem_head? h
  · cases h

/-- A packet that becomes pending asks for what it is kept for. -/
theorem Begins.fits {e : TaskEvent} {key : IdType} {pkt : Packet} (h : Begins s e key pkt)
    (hs : Filed s) : key.Fits pkt := by
  cases h with
  | pubRec id kept packet =>
    subst kept
    exact packet
  | pubRel rec arrived connected kept packet =>
    subst kept
    exact packet
  | publish cmd taken qos kept packet =>
    subst kept packet
    have hfits : cmd.Fits := hs.queue _ (consumed_mem taken)
    exact ⟨cmd.qos, hfits.publish qos⟩
  | unsubscribe topic taken kept encoded =>
    subst kept
    exact ⟨topic, asks_unsubscribe encoded⟩

theorem Work.pendsSub {e : TaskEvent} {o : Option Fault} {d : Desk} (h : Work s e o d)
    {id : UInt16} {sub : PendingSub} (hp : d.book.pendingSubs.lookup id = some sub) :
    s.tx.pendingSubs.lookup id = some sub ∨
      ∃ cmd, s.consumed e = some (.subscribe cmd) ∧ id = s.tx.shared.nextPacketId ∧
        sub.topic = cmd.topic ∧ sub.kind = cmd.kind ∧
        makePacket (⟨s.tx.shared.nextPacketId, [(cmd.topic, cmd.qos)]⟩ : SubscribePacket) =
          .ok sub.packet ∧ s.tx.subscriptions.rejects cmd.topic = false := by
  cases h with
  | idle same =>
    rw [same] at hp
    exact Or.inl hp
  | connect pkt boot waits handed =>
    rw [handed] at hp
    exact Or.inl hp
  | connAck pkt arrived waiting book =>
    rw [book] at hp
    exact Or.inl hp
  | packet incoming cut arrived connected ends work =>
    exact Or.inl (work.effect.pendingSub_cases hp)
  | command cmd rest queue taken connected work =>
    rcases work.pendsSub hp with hold | ⟨req, rfl, hreq⟩
    · exact Or.inl hold
    · exact Or.inr ⟨req, taken, hreq⟩
  | alarm cut ends work tick =>
    rw [work.book] at hp
    exact Or.inl hp
  | disconnect stopping connected handed =>
    rw [handed] at hp
    exact Or.inl hp

/-- The task takes commands from the front of the queue and puts none there. -/
theorem TaskMove.cmdQueue {e : TaskEvent} (h : TaskMove s e s') :
    s'.tx.cmdQueue <:+ s.tx.cmdQueue := by
  have hsame : ∀ {queue : List Command}, queue = s.tx.cmdQueue → queue <:+ s.tx.cmdQueue :=
    fun heq => heq ▸ List.suffix_rfl
  cases h with
  | quiet tx p clean running next book =>
    exact hsame (congrArg Book.cmdQueue book)
  | connAck tx p clean running next pkt arrived waiting book =>
    exact hsame (by rw [book])
  | packet tx p clean running next pkt arrived connected effect =>
    exact hsame effect.cmdQueue
  | command tx p clean running next cmd rest queue taken connected effect =>
    show tx.cmdQueue <:+ _
    rw [effect.cmdQueue, queue]
    exact List.suffix_cons cmd rest
  | drop status ended => exact List.nil_suffix
  | _ => exact List.suffix_rfl

/-- A command that is consumed has left the queue. -/
theorem cmdQueue_of_consumed {e : TaskEvent} {cmd : Command} (hstep : s.taskStep e = some s')
    (htaken : s.consumed e = some cmd) : s.tx.cmdQueue = cmd :: s'.tx.cmdQueue := by
  obtain ⟨-, rest, hqueue, hwork⟩ := commandWork_of_consumed hstep htaken
  rw [hqueue]
  exact congrArg _ hwork.effect.cmdQueue.symm

/-- A subscription that is pending behind a step was pending before, or its `SUBSCRIBE` was
just encoded. -/
theorem pendsSub_taskStep {e : TaskEvent} (hstep : s.taskStep e = some s') {id : UInt16}
    {sub : PendingSub} (hp : s'.tx.pendingSubs.lookup id = some sub) :
    s.tx.pendingSubs.lookup id = some sub ∨
      ∃ cmd, s.consumed e = some (.subscribe cmd) ∧ id = s.tx.shared.nextPacketId ∧
        sub.topic = cmd.topic ∧ sub.kind = cmd.kind ∧
        makePacket (⟨s.tx.shared.nextPacketId, [(cmd.topic, cmd.qos)]⟩ : SubscribePacket) =
          .ok sub.packet ∧ s.tx.subscriptions.rejects cmd.topic = false := by
  cases deskMove_of_taskStep hstep with
  | program tx p clean running leads work => exact work.pendsSub hp
  | _ => exact Or.inl hp

theorem Published.taskStep {P : PublishCommand → Prop} (h : Published P s) {e : TaskEvent}
    (hstep : s.taskStep e = some s') : Published P s' := by
  have hmove := (deskMove_of_taskStep hstep).taskMove
  refine ⟨fun cmd hmem => h.queue cmd (hmove.cmdQueue.subset hmem), ?_⟩
  have hcalls : s'.calls = s.calls := by cases hmove <;> rfl
  rw [hcalls]
  exact h.calls

theorem Published.step {P : PublishCommand → Prop} (hP : EncodedPublishes P)
    (h : Published P s) {e : Event} (hstep : s.step e = some s') : Published P s' := by
  cases e with
  | client e => exact h.clientStep hP hstep
  | task e => exact h.taskStep hstep

theorem filed_taskStep (h : Filed s) {e : TaskEvent} (hstep : s.taskStep e = some s') :
    Filed s' := by
  have hmove := deskMove_of_taskStep hstep
  have hpackets : ∀ key pkt, s'.tx.pendingPackets.lookup key = some pkt → key.Fits pkt := by
    intro key pkt hp
    cases hmove with
    | program tx p clean running leads work =>
      rcases work.pends hp with hold | ⟨hbegins, -⟩
      · exact h.packets key pkt hold
      · exact hbegins.fits h
    | _ => exact h.packets key pkt hp
  have hsubs : ∀ id sub, s'.tx.pendingSubs.lookup id = some sub →
      sub.packet.asks = .subscribe id sub.topic := by
    intro id sub hp
    rcases pendsSub_taskStep hstep hp with hold | ⟨cmd, -, hid, htopic, -, hencoded, -⟩
    · exact h.subs id sub hold
    · rw [hid, htopic]
      exact asks_subscribe hencoded
  exact {
    packets := hpackets
    subs := hsubs
    queue := fun cmd hmem => cmd.publishes_fits.mp ((h.published.taskStep hstep).queue cmd hmem)
    calls := fun c call hcall =>
      call.publishes_fits.mp ((h.published.taskStep hstep).calls c call hcall)
    ping := (onward_step (e := .task e) hstep).pingReq.trans h.ping
    connect := fun hboot => absurd hboot hmove.taskMove.not_boot }

theorem Filed.step (h : Filed s) {e : Event} (hstep : s.step e = some s') : Filed s' := by
  cases e with
  | client e => exact filed_clientStep h hstep
  | task e => exact filed_taskStep h hstep

omit [Transport τ] in
theorem filed_spawn {setup : Setup τ} {connect : ConnectPacket}
    (h : makePacket connect = .ok setup.connectPacket) : Filed (spawn setup) where
  packets _ _ hp := by cases hp
  subs _ _ hp := by cases hp
  queue _ hmem := by cases hmem
  calls _ _ hcall := by cases hcall
  ping := rfl
  connect _ pkt hpkt := by
    cases hpkt
    exact asks_connect h

/-! ## Packets handed over -/

/-- What a packet is that a step hands over. -/
inductive Handing (s : System τ) (e : TaskEvent) (d : Desk) (p : InternalPacket) : Prop
  | plain (asks : p.asks = .other)
  | publish (cmd : PublishCommand) (taken : s.consumed e = some (.publish cmd))
      (queue : s.tx.cmdQueue = .publish cmd :: d.book.cmdQueue) (qos : cmd.qos ≠ .atMostOnce)
      (packet : p = ⟨cmd.packet, false⟩) (connected : s.tx.connectSig = false)
  | release (rec : PubRecPacket) (arrived : s.arriving e = some (.pubRec rec))
      (connected : s.tx.connectSig = false) (packet : p = ⟨pubRelPacket rec.packetId, false⟩)
  | subscribe (cmd : SubscribeCommand) (taken : s.consumed e = some (.subscribe cmd))
      (asks : p.asks = .subscribe s.tx.shared.nextPacketId cmd.topic)
  | unsubscribe (topic : Str) (taken : s.consumed e = some (.unsub ⟨topic, .immediate⟩))
      (asks : p.asks = .unsubscribe s.tx.shared.nextPacketId topic)
  /-- The alarm sends a packet again. -/
  | again (key : IdType) (pkt : Packet) (tick : e = .alarm)
      (pending : s.tx.desk.pendingPacket key = some pkt)
      (packet : p = ⟨pkt, key.ty == PacketType.publish⟩)

/-- What a tick of the alarm hands over. -/
theorem alarm_handing {e : TaskEvent} {cut : Option IoError} {d : Desk}
    (h : AlarmWork s.tx.desk cut d) (hs : Filed s) (tick : e = .alarm) (d' : Desk) :
    ∃ ps, d.handed = s.tx.link.handed ++ ps ∧ ∀ p ∈ ps, Handing s e d' p := by
  have hpending : ∀ {d₁ : Desk} {x : Timeout} {pkt : Packet}, AlarmWork s.tx.desk none d₁ →
      d₁.pendingPacket x.packetId = some pkt →
      Handing s e d' ⟨pkt, x.packetId.ty == PacketType.publish⟩ := by
    intro d₁ x pkt hbefore hpkt
    refine .again x.packetId pkt tick ?_ rfl
    unfold Desk.pendingPacket at hpkt ⊢
    rwa [hbefore.book] at hpkt
  induction h with
  | start => exact ⟨[], (List.append_nil _).symm, List.forall_mem_nil _⟩
  | ping cut =>
    refine ⟨[_], rfl, fun p hp => ?_⟩
    rw [List.mem_singleton.mp hp]
    refine .plain ?_
    show s.tx.pingReq.asks = .other
    rw [hs.ping]
    exact asks_other makePacket_pingReq (by decide)
  | settled d₁ before x rest queue gone ih => exact ih
  | resend d₁ before x rest queue pkt pending t ih =>
    obtain ⟨ps, hps, hall⟩ := ih
    refine ⟨ps ++ [⟨pkt, x.packetId.ty == PacketType.publish⟩], ?_, fun p hp => ?_⟩
    · rw [← List.append_assoc, ← hps]
      rfl
    · rcases List.mem_append.mp hp with hp | hp
      · exact hall p hp
      · rw [List.mem_singleton.mp hp]
        exact hpending before pending
  | resendCut d₁ before x rest queue pkt pending e ih =>
    obtain ⟨ps, hps, hall⟩ := ih
    refine ⟨ps ++ [⟨pkt, x.packetId.ty == PacketType.publish⟩], ?_, fun p hp => ?_⟩
    · rw [← List.append_assoc, ← hps]
      rfl
    · rcases List.mem_append.mp hp with hp | hp
      · exact hall p hp
      · rw [List.mem_singleton.mp hp]
        exact hpending before pending

/-- What handling a packet hands over. -/
theorem packet_handing {e : TaskEvent} {pkt : IncomingPacket} {cut : Option IoError} {d : Desk}
    (h : PacketWork pkt cut (s.tx.desk.onBook (Book.logReceived pkt)) d) (hs : Filed s)
    (arrived : s.arriving e = some pkt) (connected : s.tx.connectSig = false) :
    ∃ ps, d.handed = s.tx.link.handed ++ ps ∧ ∀ p ∈ ps, Handing s e d p := by
  have hnone : d.handed = s.tx.link.handed →
      ∃ ps, d.handed = s.tx.link.handed ++ ps ∧ ∀ p ∈ ps, Handing s e d p :=
    fun hsame => ⟨[], by rw [hsame, List.append_nil], List.forall_mem_nil _⟩
  have hone : ∀ p, d.handed = s.tx.link.handed ++ [p] → Handing s e d p →
      ∃ ps, d.handed = s.tx.link.handed ++ ps ∧ ∀ p ∈ ps, Handing s e d p :=
    fun p hadd hp => ⟨[p], hadd, fun p' hp' => List.mem_singleton.mp hp' ▸ hp⟩
  cases h with
  | connAck ack | pingResp | subAck ack | dispatch msg _ qos | pubAck ack | pubComp comp
  | unsubAck ack => exact hnone rfl
  | answer msg _ _ qos =>
    refine hone _ (Desk.handed_conclude _ _ _) (.plain ?_)
    rw [InternalPacket.asks_first]
    exact asks_pubAck _
  | answerAgain msg kept _ _ qos known =>
    have hkept : kept = pubRecPacket msg.info.packetId := hs.packets _ _ known
    refine hone _ rfl (.plain ?_)
    rw [InternalPacket.asks_first, hkept]
    exact asks_pubRec _
  | record msg t _ _ qos new =>
    refine hone ⟨pubRecPacket msg.info.packetId, false⟩ ?_ (.plain ?_)
    · rw [Desk.handed_conclude, Desk.handed_hand, Desk.handed_track]
      rfl
    · rw [InternalPacket.asks_first]
      exact asks_pubRec _
  | releaseAgain rec kept _ _ known =>
    have hkept : kept = pubRelPacket rec.packetId := hs.packets _ _ known
    subst hkept
    exact hone _ (Desk.handed_conclude _ _ _) (.release rec arrived connected rfl)
  | release rec t _ _ new =>
    refine hone _ ?_ (.release rec arrived connected rfl)
    rw [Desk.handed_conclude, Desk.handed_hand, Desk.handed_track]
    rfl
  | pubRel rel _ =>
    refine hone _ rfl (.plain ?_)
    rw [InternalPacket.asks_first]
    exact asks_pubComp _

/-- What a command hands over. -/
theorem command_handing {e : TaskEvent} {cmd : Command} {rest : List Command} {o : Option Fault}
    {d : Desk} (h : CommandWork cmd o (s.tx.desk.onBook fun b => { b with cmdQueue := rest }) d)
    (hs : Filed s) (queue : s.tx.cmdQueue = cmd :: rest) (taken : s.consumed e = some cmd)
    (connected : s.tx.connectSig = false) :
    ∃ ps, d.handed = s.tx.link.handed ++ ps ∧ ∀ p ∈ ps, Handing s e d p := by
  have hone : ∀ p, d.handed = s.tx.link.handed ++ [p] → Handing s e d p →
      ∃ ps, d.handed = s.tx.link.handed ++ ps ∧ ∀ p ∈ ps, Handing s e d p :=
    fun p hadd hp => ⟨[p], hadd, fun p' hp' => List.mem_singleton.mp hp' ▸ hp⟩
  cases h with
  | publishOnce cmd _ io _ qos =>
    have hfits : cmd.Fits := hs.queue _ (consumed_mem taken)
    refine hone _ rfl (.plain ?_)
    rw [hfits false, PublishCommand.asks, if_pos qos]
  | publish cmd t _ io _ qos =>
    refine hone _ ?_ (.publish cmd taken ?_ qos rfl connected)
    · rw [Desk.handed_hand, Desk.handed_track]
      rfl
    · rw [Desk.book_hand, Desk.book_track]
      exact queue
  | subscribe cmd pkt t _ accepted unsubscribed encoded =>
    exact hone _ rfl (.subscribe cmd taken (asks_subscribe encoded))
  | subscribeCut cmd pkt e _ accepted unsubscribed encoded =>
    exact hone _ rfl (.subscribe cmd taken (asks_subscribe encoded))
  | unsubscribe topic pkt t _ io _ subscribed encoded =>
    refine hone ⟨pkt, false⟩ ?_ (.unsubscribe topic taken (asks_unsubscribe encoded))
    rw [Desk.handed_hand, Desk.handed_track]
    rfl
  | _ => exact ⟨[], (List.append_nil _).symm, List.forall_mem_nil _⟩

/-- What a program hands over. -/
theorem Work.handing {e : TaskEvent} {o : Option Fault} {d : Desk} (h : Work s e o d)
    (hs : Filed s) : ∃ ps, d.handed = s.tx.link.handed ++ ps ∧ ∀ p ∈ ps, Handing s e d p := by
  cases h with
  | idle same =>
    rw [same]
    exact ⟨[], (List.append_nil _).symm, List.forall_mem_nil _⟩
  | connect pkt boot waits handed =>
    rw [handed]
    refine ⟨[_], rfl, fun p hp => ?_⟩
    rw [List.mem_singleton.mp hp]
    exact .plain (hs.connect boot pkt waits)
  | connAck pkt arrived waiting book =>
    rw [book]
    exact ⟨[], (List.append_nil _).symm, List.forall_mem_nil _⟩
  | packet pkt cut arrived connected ends work => exact packet_handing work hs arrived connected
  | command cmd rest queue taken connected work =>
    exact command_handing work hs queue taken connected
  | alarm cut ends work tick => exact alarm_handing work hs tick d
  | disconnect stopping connected handed =>
    rw [handed]
    refine ⟨[_], rfl, fun p hp => ?_⟩
    rw [List.mem_singleton.mp hp]
    exact .plain (asks_other makePacket_disconnect (by decide))

/-- What a step of the task hands over. -/
theorem handing_of_taskStep (hs : Filed s) {e : TaskEvent} (hstep : s.taskStep e = some s') :
    ∃ ps, s'.tx.link.handed = s.tx.link.handed ++ ps ∧ ∀ p ∈ ps, Handing s e s'.tx.desk p := by
  cases deskMove_of_taskStep hstep with
  | program tx p clean running leads work => exact work.handing hs
  | _ => exact ⟨[], (List.append_nil _).symm, List.forall_mem_nil _⟩

/-! ## What the broker has received -/

end System

/-- The packets of a list whose bytes are all among the first ones. -/
def completed : Nat → List InternalPacket → List InternalPacket
  | _, [] => []
  | n, p :: ps => if p.wire.length ≤ n then p :: completed (n - p.wire.length) ps else []

theorem completed_initial (n : Nat) (ps : List InternalPacket) : completed n ps <+: ps := by
  induction ps generalizing n with
  | nil => exact List.prefix_rfl
  | cons p ps ih =>
    rw [completed]
    split
    · exact (List.prefix_cons_inj p).mpr (ih _)
    · exact List.nil_prefix

theorem completed_mono {n m : Nat} {ps qs : List InternalPacket} (hn : n ≤ m) (hps : ps <+: qs) :
    completed n ps <+: completed m qs := by
  induction ps generalizing n m qs with
  | nil => exact List.nil_prefix
  | cons p ps ih =>
    obtain ⟨more, rfl⟩ := hps
    rw [List.cons_append, completed, completed]
    split
    · rw [if_pos (by omega)]
      exact (List.prefix_cons_inj p).mpr (ih (by omega) (List.prefix_append ps more))
    · exact List.nil_prefix

namespace System

variable {τ : Type} [Transport τ] {s s' : System τ}

/-- The packets handed over that the transport has accepted to their last byte. -/
def received (s : System τ) : List InternalPacket :=
  completed s.tx.link.accepted.length s.tx.link.handed

omit [Transport τ] in
theorem mem_handed_of_received {p : InternalPacket} (h : p ∈ s.received) :
    p ∈ s.tx.link.handed := (completed_initial _ _).subset h

theorem received_step {e : Event} (hstep : s.step e = some s') {p : InternalPacket}
    (h : p ∈ s.received) : p ∈ s'.received := by
  have honward := onward_step hstep
  exact (completed_mono honward.accepted.length_le honward.handed).subset h

/-! ## Publishes handed over -/

omit [Transport τ] in
theorem mem_handed_of_append {ps : List InternalPacket} {before after : List InternalPacket}
    (h : after = before ++ ps) {p : InternalPacket} (hp : p ∈ after) : p ∈ before ∨ p ∈ ps :=
  List.mem_append.mp (h ▸ hp)

/-- A `PUBLISH` with the identifier was handed over. -/
def Publishes (s : System τ) (id : UInt16) : Prop :=
  ∃ p ∈ s.tx.link.handed, ∃ qos, p.asks = .publish qos id

/-- A publish is handed over when its command is taken from the queue, so a `PUBLISH` that
was handed over has no command on the way, and one that is pending was handed over. None
is before the connection was answered. -/
structure Outbound (s : System τ) : Prop where
  sent : ∀ id, s.Publishes id → s.unsent id = 0 ∧ Issued s.tx.history.allocated id
  pending : ∀ id pkt, s.tx.pendingPackets.lookup (.publish id) = some pkt → s.Publishes id
  opened : ∀ id, s.Publishes id → s.tx.connectSig = false

theorem publishes_step {e : Event} (hstep : s.step e = some s') {id : UInt16}
    (h : s.Publishes id) : s'.Publishes id := by
  obtain ⟨p, hp, hasks⟩ := h
  exact ⟨p, (onward_step hstep).handed.subset hp, hasks⟩

omit [Transport τ] in
/-- A command is not taken from the queue behind its own `PUBLISH`. -/
theorem Outbound.not_taken (h : Outbound s) {e : TaskEvent} {cmd : PublishCommand}
    (htaken : s.consumed e = some (.publish cmd)) (hqos : cmd.qos ≠ .atMostOnce) :
    ¬ s.Publishes cmd.packetId := by
  intro hpub
  have hcarries : (Command.publish cmd).carries cmd.packetId = true := by
    simp [Command.carries, PublishCommand.uses, hqos]
  have hcount : 0 < s.tx.cmdQueue.countP (Command.carries cmd.packetId) :=
    List.countP_pos_iff.mpr ⟨_, consumed_mem htaken, hcarries⟩
  have hzero := (h.sent _ hpub).1
  unfold System.unsent at hzero
  omega

theorem TaskMove.unsent {e : TaskEvent} (h : TaskMove s e s') (id : UInt16) :
    s'.unsent id ≤ s.unsent id := by
  have hcalls : s'.calls = s.calls := by cases h <;> rfl
  have hqueue := h.cmdQueue.sublist.countP_le (p := Command.carries id)
  unfold System.unsent
  rw [hcalls]
  omega

/-- The command that is taken was the only one with its identifier. -/
theorem unsent_of_taken (ho : Owned s) {e : TaskEvent} (hmove : TaskMove s e s')
    {cmd : PublishCommand} (hqueue : s.tx.cmdQueue = .publish cmd :: s'.tx.cmdQueue)
    (hqos : cmd.qos ≠ .atMostOnce) : s'.unsent cmd.packetId = 0 := by
  have hcalls : s'.calls = s.calls := by cases hmove <;> rfl
  have huses : (Command.publish cmd).carries cmd.packetId = true := by
    simp [Command.carries, PublishCommand.uses, hqos]
  have hle := ho.owners_le_one cmd.packetId
  unfold System.owners System.unsent at hle
  rw [hqueue, List.countP_cons, if_pos huses] at hle
  unfold System.unsent
  rw [hcalls]
  omega

omit [Transport τ] in
theorem outbound_clientStep (h : Outbound s) (ho : Owned s) {e : ClientEvent}
    (hroom : s'.tx.history.allocated ≤ 65536) (hstep : s.clientStep e = some s') :
    Outbound s' := by
  have hmove := clientMove_of_clientStep hstep
  have hsame := hmove.sameTask
  have hback : ∀ id, s'.Publishes id → s.Publishes id := by
    rintro id ⟨p, hp, hasks⟩
    exact ⟨p, hsame.link ▸ hp, hasks⟩
  refine ⟨fun id hid => ?_, fun id pkt hp => ?_,
    fun id hid => hsame.connectSig.trans (h.opened id (hback id hid))⟩
  · obtain ⟨hzero, hissued⟩ := h.sent id (hback id hid)
    refine ⟨?_, hissued.mono hmove.numbers.allocated_le⟩
    rcases hmove.unsent id with hle | ⟨rfl, hallocated, -⟩
    · omega
    · exact absurd hissued (ho.counted.fresh (by omega))
  · rw [hsame.pendingPackets] at hp
    obtain ⟨p, hmem, hasks⟩ := h.pending id pkt hp
    exact ⟨p, hsame.link ▸ hmem, hasks⟩

/-- A `PUBLISH` that a step of the task hands over is that of a command taken from the
queue, or it is sent again. -/
theorem Handing.publishes {e : TaskEvent} {d : Desk} {p : InternalPacket} (h : Handing s e d p)
    (hs : Filed s) {qos : QoS} {id : UInt16} (hasks : p.asks = .publish qos id) :
    (∃ cmd, s.consumed e = some (.publish cmd) ∧
        s.tx.cmdQueue = .publish cmd :: d.book.cmdQueue ∧ cmd.qos ≠ .atMostOnce ∧
        cmd.packetId = id ∧ cmd.qos = qos ∧ p.packet = cmd.packet ∧
        s.tx.connectSig = false) ∨
      e = .alarm ∧ s.tx.pendingPackets.lookup (.publish id) = some p.packet := by
  cases h with
  | plain other => cases other.symm.trans hasks
  | publish cmd taken queue hqos packet connected =>
    have hfits : cmd.Fits := hs.queue _ (consumed_mem taken)
    subst packet
    cases (hfits.publish hqos false).symm.trans hasks
    exact Or.inl ⟨cmd, taken, queue, hqos, rfl, rfl, rfl, connected⟩
  | release rec arrived connected packet =>
    subst packet
    rw [InternalPacket.asks_first, asks_pubRel] at hasks
    cases hasks
  | subscribe cmd taken asks => cases asks.symm.trans hasks
  | unsubscribe topic taken asks => cases asks.symm.trans hasks
  | again key pkt tick pending packet =>
    refine Or.inr ⟨tick, ?_⟩
    subst packet
    rcases Desk.pendingPacket_cases pending with ⟨hty, sub, hsub, rfl⟩ | ⟨-, pending⟩
    · rw [hty] at hasks
      cases (hs.subs _ _ hsub).symm.trans hasks
    · cases (hs.packets _ _ pending).publish hasks
      exact pending

theorem outbound_taskStep (h : Outbound s) (hs : Filed s) (ho : Owned s) {e : TaskEvent}
    (hstep : s.taskStep e = some s') : Outbound s' := by
  have hmove := deskMove_of_taskStep hstep
  have hle := (numbers_step (e := .task e) hstep).allocated_le
  obtain ⟨ps, hhanded, hps⟩ := handing_of_taskStep hs hstep
  refine ⟨fun id hid => ?_, fun id pkt hp => ?_, fun id hid => ?_⟩
  · obtain ⟨p, hp, qos, hasks⟩ := hid
    have hold : s.Publishes id → s'.unsent id = 0 ∧ Issued s'.tx.history.allocated id := by
      intro hpub
      obtain ⟨hzero, hissued⟩ := h.sent id hpub
      have hunsent := hmove.taskMove.unsent id
      exact ⟨by omega, hissued.mono hle⟩
    rcases mem_handed_of_append hhanded hp with hp | hp
    · exact hold ⟨p, hp, qos, hasks⟩
    · rcases (hps p hp).publishes hs hasks with ⟨cmd, htaken, hqueue, hqos, rfl, -⟩ | ⟨-, hpending⟩
      · have hcarries : (Command.publish cmd).carries cmd.packetId = true := by
          simp [Command.carries, PublishCommand.uses, hqos]
        have hpos := owners_pos_of_queued (consumed_mem htaken) hcarries
        exact ⟨unsent_of_taken ho hmove.taskMove hqueue hqos, (ho.owned _ hpos).mono hle⟩
      · exact hold (h.pending id _ hpending)
  · have hold : s.tx.pendingPackets.lookup (.publish id) = some pkt → s'.Publishes id :=
      fun hpkt => publishes_step (e := .task e) hstep (h.pending id pkt hpkt)
    cases hmove with
    | program tx ph clean running leads work =>
      rcases work.pends hp with hpkt | ⟨hbegins, hmem⟩
      · exact hold hpkt
      · cases hbegins with
        | publish cmd taken qos kept packet =>
          cases kept
          have hfits : cmd.Fits := hs.queue _ (consumed_mem taken)
          exact ⟨_, hmem, cmd.qos, packet ▸ hfits.publish qos false⟩
        | pubRec _ kept => cases kept
        | pubRel _ _ _ kept => cases kept
        | unsubscribe _ _ kept => cases kept
    | _ => exact hold hp
  · refine connected_step (e := .task e) hstep ?_
    obtain ⟨p, hp, qos, hasks⟩ := hid
    rcases mem_handed_of_append hhanded hp with hp | hp
    · exact h.opened id ⟨p, hp, qos, hasks⟩
    · rcases (hps p hp).publishes hs hasks with ⟨cmd, -, -, -, -, -, -, hconn⟩ | ⟨-, hpending⟩
      · exact hconn
      · exact h.opened id (h.pending id _ hpending)

theorem Outbound.step (h : Outbound s) (hs : Filed s) (ho : Owned s) {e : Event}
    (hroom : s'.tx.history.allocated ≤ 65536) (hstep : s.step e = some s') : Outbound s' := by
  cases e with
  | client e => exact outbound_clientStep h ho hroom hstep
  | task e => exact outbound_taskStep h hs ho hstep

omit [Transport τ] in
theorem outbound_spawn (setup : Setup τ) : Outbound (spawn setup) where
  sent _ h := by
    obtain ⟨p, hp, -⟩ := h
    cases hp
  pending _ _ hp := by cases hp
  opened _ h := by
    obtain ⟨p, hp, -⟩ := h
    cases hp

/-- The shortest connection request, for concrete runs. -/
def shortConnect : ConnectPacket := ⟨true, 30, ['c'], none, none, none⟩

end System

end Lmc
