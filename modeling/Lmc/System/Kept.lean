import Lmc.System.Receipts

/-!
# Packets that are kept until they are acknowledged

A publish above quality 0, a `PUBREC`, a `PUBREL`, a `SUBSCRIBE` and an `UNSUBSCRIBE` have to
be acknowledged. `Packet.awaits` reads from the bytes of a packet the key under which the task
keeps it, and `Packet.acknowledgedBy` says which packet of the broker acknowledges it.

What a step hands over of these packets is pending behind it (`Desk.Retains`). It stays
pending as long as it is not acknowledged, under two conditions on the steps: publishes are
answered in the kind of their quality of service, since `PUBACK` and `PUBREC` clear the same
key, and no command takes a key that is still in use. Together with the schedule of the
alarm this is `unacknowledged_kept`. Without the first condition a publish is forgotten.
-/

namespace Lmc

open Runs

/-! ## Packets and their acknowledgements -/

/-- The key under which a packet waits for its acknowledgement. -/
def Packet.awaits (p : Packet) : Option IdType :=
  match p.asks with
  | .publish _ id => some (.publish id)
  | .release id => some (.pubRel id)
  | .subscribe id _ => some (.subscribe id)
  | .unsubscribe id _ => some (.unsubscribe id)
  | .other => (p.receipt .pubRec).map .pubRec

/-- The packet of the broker acknowledges the packet. A publish of quality 1 is acknowledged
by `PUBACK`, one of quality 2 by `PUBREC`. -/
def Packet.acknowledgedBy (p : Packet) : IncomingPacket → Bool
  | .pubAck ack => p.asks == .publish .atLeastOnce ack.packetId
  | .pubRec rec => p.asks == .publish .exactlyOnce rec.packetId
  | .pubRel rel => p.awaits == some (.pubRec rel.packetId)
  | .pubComp comp => p.awaits == some (.pubRel comp.packetId)
  | .subAck ack => p.awaits == some (.subscribe ack.packetId)
  | .unsubAck ack => p.awaits == some (.unsubscribe ack.packetId)
  | _ => false

/-- A packet that is kept waits under the key for which it is kept. -/
theorem IdType.Fits.awaits {key : IdType} {pkt : Packet} (h : key.Fits pkt) :
    pkt.awaits = some key := by
  obtain ⟨ty, id⟩ := key
  cases ty with
  | publish =>
    obtain ⟨qos, hasks⟩ := h
    have hfirst : pkt.asks = .publish qos id := hasks false
    rw [Packet.awaits, hfirst]
    rfl
  | pubRec =>
    cases (show pkt = pubRecPacket id from h)
    rw [Packet.awaits, asks_pubRec]
    exact congrArg (Option.map IdType.pubRec) (receipt_idPacket rfl id)
  | pubRel =>
    cases (show pkt = pubRelPacket id from h)
    rw [Packet.awaits, asks_pubRel]
    rfl
  | unsubscribe =>
    obtain ⟨topic, hasks⟩ := h
    rw [Packet.awaits, hasks]
    rfl
  | _ => cases h

theorem Packet.awaits_of_subscribe {p : Packet} {id : UInt16} {topic : Str}
    (h : p.asks = .subscribe id topic) : p.awaits = some (.subscribe id) := by
  rw [Packet.awaits, h]

/-- A packet of another type waits for nothing. -/
theorem awaits_of_encoded {α : Type} [Encode α] {p : α} {pkt : Packet}
    (h : makePacket p = .ok pkt) (hasks : pkt.asks = .other)
    (hty : Encode.packetType α ≠ .pubRec) : pkt.awaits = none := by
  rw [Packet.awaits, hasks, receipt_of_encoded h hty]
  rfl

/-! ## What is handed over -/

namespace Desk

variable {d d' : Desk}

/-- What is handed over and has to be acknowledged is pending. -/
def Retains (d d' : Desk) : Prop :=
  ∃ ps, d'.handed = d.handed ++ ps ∧
    ∀ p ∈ ps, ∀ key, p.packet.awaits = some key → d'.pendingPacket key = some p.packet

theorem Retains.nothing (h : d'.handed = d.handed) : Retains d d' :=
  ⟨[], by rw [h, List.append_nil], List.forall_mem_nil _⟩

theorem Retains.one {p : InternalPacket} (key : IdType) (h : d'.handed = d.handed ++ [p])
    (hawaits : p.packet.awaits = some key) (hp : d'.pendingPacket key = some p.packet) :
    Retains d d' := by
  refine ⟨[p], h, List.forall_mem_singleton.mpr fun key' hkey => ?_⟩
  cases hawaits.symm.trans hkey
  exact hp

theorem Retains.plain {p : InternalPacket} (h : d'.handed = d.handed ++ [p])
    (hawaits : p.packet.awaits = none) : Retains d d' := by
  refine ⟨[p], h, List.forall_mem_singleton.mpr fun key hkey => ?_⟩
  cases hawaits.symm.trans hkey

/-- The maps in which a key of its type is looked up. -/
theorem pendingPacket_congr {key : IdType}
    (hpackets : key.ty ≠ .subscribe →
      d'.book.pendingPackets.lookup key = d.book.pendingPackets.lookup key)
    (hsubs : key.ty = .subscribe →
      d'.book.pendingSubs.lookup key.id = d.book.pendingSubs.lookup key.id) :
    d'.pendingPacket key = d.pendingPacket key := by
  unfold pendingPacket
  split
  · rw [hsubs ‹_›]
  · exact hpackets ‹_›

theorem pendingPacket_requestSub (cmd : SubscribeCommand) (pkt : Packet)
    (h : d'.book = d.book.requestSub cmd pkt) :
    d'.pendingPacket (.subscribe d.book.shared.nextPacketId) = some pkt := by
  show (d'.book.pendingSubs.lookup _).map PendingSub.packet = some pkt
  rw [h]
  show ((d.book.pendingSubs.insert d.book.shared.nextPacketId
    ⟨cmd.topic, cmd.kind, pkt⟩).lookup d.book.shared.nextPacketId).map PendingSub.packet = some pkt
  rw [AList.lookup_insert]
  rfl

variable {key : IdType} {p : Packet}

/-- A key of the other packets is looked up among them. -/
theorem lookup_of_pendingPacket (hkey : key.ty ≠ .subscribe)
    (hp : d.pendingPacket key = some p) : d.book.pendingPackets.lookup key = some p :=
  (pendingPacket_cases hp).elim (fun h => absurd h.1 hkey) And.right

/-- Another key is removed from the pending packets. -/
theorem pendingPacket_erase {other : IdType} (hp : d.pendingPacket key = some p)
    (hpackets : d'.book.pendingPackets = d.book.pendingPackets.erase other)
    (hsubs : d'.book.pendingSubs = d.book.pendingSubs) (hne : key ≠ other) :
    d'.pendingPacket key = some p := by
  refine (pendingPacket_congr (fun _ => ?_) (fun _ => by rw [hsubs])).trans hp
  rw [hpackets, Table.lookup_erase, if_neg hne]

/-- A key that was free is added to the pending packets. -/
theorem pendingPacket_track (n : Nat) (other : IdType) (q : Packet)
    (hother : other.ty ≠ .subscribe) (hp : d.pendingPacket key = some p)
    (hfree : d.book.pendingPackets.lookup other = none) :
    (d.track n other q).pendingPacket key = some p := by
  have hne : key ≠ other := by
    rintro rfl
    cases hfree.symm.trans (lookup_of_pendingPacket hother hp)
  refine (pendingPacket_congr (fun _ => ?_) (fun _ => by rw [book_track]; rfl)).trans hp
  rw [book_track]
  show (d.book.pendingPackets.insert other q).lookup key = _
  rw [Table.lookup_insert, if_neg hne]

theorem pendingPacket_same (hp : d.pendingPacket key = some p)
    (hpackets : d'.book.pendingPackets = d.book.pendingPackets)
    (hsubs : d'.book.pendingSubs = d.book.pendingSubs) : d'.pendingPacket key = some p :=
  (pendingPacket_congr (fun _ => by rw [hpackets]) (fun _ => by rw [hsubs])).trans hp

theorem pendingPacket_tracked (n : Nat) (key : IdType) (q : Packet) (hkey : key.ty ≠ .subscribe) :
    (d.track n key q).pendingPacket key = some q := by
  unfold pendingPacket
  rw [if_neg hkey, book_track]
  exact AList.lookup_insert _

end Desk

section Retains

open Desk

variable {d d' : Desk}

theorem PacketWork.retains {pkt : IncomingPacket} {cut : Option IoError}
    (h : PacketWork pkt cut d d')
    (hkept : ∀ key pkt, d.book.pendingPackets.lookup key = some pkt → key.Fits pkt) :
    Retains d d' := by
  cases h with
  | connAck | pingResp | subAck | dispatch | pubAck | pubComp | unsubAck => exact .nothing rfl
  | answer msg _ _ qos =>
    refine .plain (handed_conclude _ _ _) ?_
    exact awaits_of_encoded (makePacket_pubAck _) (asks_other (makePacket_pubAck _) (by decide))
      nofun
  | answerAgain msg kept _ _ qos known => exact .one _ rfl (hkept _ _ known).awaits known
  | record msg t _ _ qos new =>
    have hfits : (IdType.pubRec msg.info.packetId).Fits (pubRecPacket msg.info.packetId) := rfl
    have htracked := d.pendingPacket_tracked t (.pubRec msg.info.packetId)
      (pubRecPacket msg.info.packetId) nofun
    refine .one (p := ⟨pubRecPacket msg.info.packetId, false⟩) _ ?_ hfits.awaits ?_
    · rw [handed_conclude, handed_hand, handed_track]
    · cases cut <;> exact htracked
  | releaseAgain rec kept _ _ known =>
    refine .one _ (handed_conclude _ _ _) (hkept _ _ known).awaits ?_
    have hpending : d.pendingPacket (.pubRel rec.packetId) = some kept := known
    cases cut with
    | none =>
      exact pendingPacket_erase hpending (Book.pendingPackets_acknowledge _ _ _)
        (Book.pendingSubs_acknowledge _ _ _) nofun
    | some e => exact hpending
  | release rec t _ _ new =>
    have hfits : (IdType.pubRel rec.packetId).Fits (pubRelPacket rec.packetId) := rfl
    have htracked := d.pendingPacket_tracked t (.pubRel rec.packetId) (pubRelPacket rec.packetId)
      nofun
    refine .one (p := ⟨pubRelPacket rec.packetId, false⟩) _ ?_ hfits.awaits ?_
    · rw [handed_conclude, handed_hand, handed_track]
    · cases cut with
      | none =>
        exact pendingPacket_erase htracked (Book.pendingPackets_acknowledge _ _ _)
          (Book.pendingSubs_acknowledge _ _ _) nofun
      | some e => exact htracked
  | pubRel rel _ =>
    refine .plain rfl ?_
    exact awaits_of_encoded (makePacket_pubComp _) (asks_other (makePacket_pubComp _) (by decide))
      nofun

theorem CommandWork.retains {cmd : Command} {o : Option Fault} (h : CommandWork cmd o d d')
    (hfits : cmd.Fits) (htyped : cmd.Publishes PublishCommand.Typed) : Retains d d' := by
  cases h with
  | publishOnce cmd _ io _ qos =>
    obtain ⟨p, hp⟩ : cmd.Typed := htyped
    have hasks : cmd.packet.asks = cmd.asks := hfits false
    refine .plain rfl (awaits_of_encoded hp ?_ nofun)
    rw [hasks, PublishCommand.asks, if_pos qos]
  | publish cmd t _ io _ qos =>
    have hasks : cmd.packet.asks = .publish cmd.qos cmd.packetId :=
      PublishCommand.Fits.publish hfits qos false
    refine .one (p := ⟨cmd.packet, false⟩) (.publish cmd.packetId) ?_ ?_ ?_
    · rw [handed_hand, handed_track]
    · rw [Packet.awaits, hasks]
    · exact d.pendingPacket_tracked t (.publish cmd.packetId) cmd.packet (by rintro ⟨⟩)
  | reject | add | subscribePanic | removeCallback | keep | unsubscribePanic | disconnect =>
    exact .nothing rfl
  | subscribe cmd pkt t _ accepted unsubscribed encoded =>
    refine .one (p := ⟨pkt, false⟩) _ rfl (Packet.awaits_of_subscribe (asks_subscribe encoded)) ?_
    exact pendingPacket_requestSub cmd pkt rfl
  | subscribeCut cmd pkt e _ accepted unsubscribed encoded =>
    refine .one (p := ⟨pkt, false⟩) _ rfl (Packet.awaits_of_subscribe (asks_subscribe encoded)) ?_
    exact pendingPacket_requestSub cmd pkt rfl
  | unsubscribe topic pkt t _ io _ subscribed encoded =>
    refine .one (p := ⟨pkt, false⟩) (.unsubscribe d.book.shared.nextPacketId) ?_ ?_ ?_
    · rw [handed_hand, handed_track]
      rfl
    · rw [Packet.awaits, asks_unsubscribe encoded]
    · exact pendingPacket_tracked t (.unsubscribe d.book.shared.nextPacketId) pkt (by rintro ⟨⟩)

/-- The alarm sends what is pending. -/
theorem AlarmWork.retains {cut : Option IoError} (h : AlarmWork d cut d')
    (hping : d.pingReq = pingReqPacket)
    (hkept : ∀ key pkt, d.pendingPacket key = some pkt → pkt.awaits = some key) :
    Retains d d' := by
  have hadd : ∀ {d₁ d₂ : Desk} {x : Timeout} {pkt : Packet}, AlarmWork d none d₁ →
      d₁.pendingPacket x.packetId = some pkt → d₂.book = d₁.book →
      d₂.handed = d₁.handed ++ [⟨pkt, x.packetId.ty == PacketType.publish⟩] →
      Retains d d₁ → Retains d d₂ := by
    rintro d₁ d₂ x pkt before pending hbook hhanded ⟨ps, hps, hall⟩
    have hsame : ∀ key, d₂.pendingPacket key = d₁.pendingPacket key := fun key =>
      pendingPacket_congr (fun _ => by rw [hbook]) (fun _ => by rw [hbook])
    have hfirst : ∀ key, d₁.pendingPacket key = d.pendingPacket key := fun key =>
      pendingPacket_congr (fun _ => by rw [before.book]) (fun _ => by rw [before.book])
    refine ⟨ps ++ [⟨pkt, x.packetId.ty == PacketType.publish⟩], ?_, fun p hp key hkey => ?_⟩
    · rw [hhanded, hps, List.append_assoc]
    · rw [hsame]
      rcases List.mem_append.mp hp with hp | hp
      · exact hall p hp key hkey
      · rw [List.mem_singleton.mp hp] at hkey ⊢
        cases (hkept _ _ ((hfirst _).symm.trans pending)).symm.trans hkey
        exact pending
  induction h with
  | start => exact .nothing rfl
  | ping cut =>
    refine .plain rfl ?_
    show d.pingReq.awaits = none
    rw [hping]
    exact awaits_of_encoded makePacket_pingReq (asks_other makePacket_pingReq (by decide)) nofun
  | settled d₁ before x rest queue gone ih => exact ih
  | resend d₁ before x rest queue pkt pending t ih => exact hadd before pending rfl rfl ih
  | resendCut d₁ before x rest queue pkt pending e ih => exact hadd before pending rfl rfl ih

end Retains

/-! ## What stays pending -/

/-- A publish that is pending is answered in the kind of its quality of service. -/
def Book.ackInKind (b : Book) : IncomingPacket → Bool
  | .pubAck ack => (b.pendingPackets.lookup (.publish ack.packetId)).all fun p =>
      p.asks == .publish .atLeastOnce ack.packetId
  | .pubRec rec => (b.pendingPackets.lookup (.publish rec.packetId)).all fun p =>
      p.asks == .publish .exactlyOnce rec.packetId
  | _ => true

/-- What the command makes pending has a key that is not in use. -/
def Book.takesFree (b : Book) : Command → Bool
  | .publish cmd => cmd.qos == .atMostOnce ||
      (b.pendingPackets.lookup (.publish cmd.packetId)).isNone
  | .subscribe cmd => b.subscriptions.isSubscribed cmd.topic ||
      b.subscriptions.rejects cmd.topic || (b.pendingSubs.lookup b.shared.nextPacketId).isNone
  | .unsub ⟨topic, .immediate⟩ => !b.subscriptions.isSubscribed topic ||
      (b.pendingPackets.lookup (.unsubscribe b.shared.nextPacketId)).isNone
  | _ => true

section Keeps

open Desk

variable {d d' : Desk} {key : IdType} {p : Packet}

/-- A publish is not acknowledged by what does not answer it in kind. -/
theorem Desk.not_publish_key {id : UInt16} {qos : QoS} (hp : d.pendingPacket key = some p)
    (hkind : (d.book.pendingPackets.lookup (.publish id)).all
      (fun p => p.asks == .publish qos id) = true)
    (hack : (p.asks == .publish qos id) = false) : key ≠ .publish id := by
  rintro rfl
  have hlookup : d.book.pendingPackets.lookup (.publish id) = some p :=
    lookup_of_pendingPacket nofun hp
  rw [hlookup, Option.all_some, hack] at hkind
  cases hkind

theorem ne_of_awaits {other : IdType} (hawaits : p.awaits = some key)
    (hack : (p.awaits == some other) = false) : key ≠ other := by
  rintro rfl
  rw [hawaits, beq_self_eq_true] at hack
  cases hack

/-- A packet that is not acknowledged stays pending when another one is handled. -/
theorem PacketWork.keeps {pkt : IncomingPacket} {cut : Option IoError}
    (h : PacketWork pkt cut d d') (hp : d.pendingPacket key = some p)
    (hawaits : p.awaits = some key) (hkind : d.book.ackInKind pkt = true)
    (hack : p.acknowledgedBy pkt = false) : d'.pendingPacket key = some p := by
  cases h with
  | connAck | pingResp | dispatch | answerAgain => exact hp
  | answer msg _ _ qos => cases cut <;> exact hp
  | subAck ack =>
    refine (pendingPacket_congr (fun _ => ?_) (fun hty => ?_)).trans hp
    · rw [book_onBook, Book.pendingPackets_processSubAck]
    · have hne : key.id ≠ ack.packetId := by
        rintro hid
        refine ne_of_awaits hawaits hack ?_
        obtain ⟨ty, id⟩ := key
        cases hty
        cases hid
        rfl
      rw [book_onBook, Book.lookup_pendingSubs_processSubAck, if_neg hne]
  | record msg t _ _ qos new =>
    have htracked := pendingPacket_track t (.pubRec msg.info.packetId)
      (pubRecPacket msg.info.packetId) nofun hp new
    cases cut <;> exact htracked
  | pubAck ack =>
    exact pendingPacket_erase hp (Book.pendingPackets_acknowledge _ _ _)
      (Book.pendingSubs_acknowledge _ _ _) (not_publish_key hp hkind hack)
  | releaseAgain rec kept _ _ known =>
    cases cut with
    | none =>
      exact pendingPacket_erase hp (Book.pendingPackets_acknowledge _ _ _)
        (Book.pendingSubs_acknowledge _ _ _) (not_publish_key hp hkind hack)
    | some e => exact hp
  | release rec t _ _ new =>
    have htracked := pendingPacket_track t (.pubRel rec.packetId) (pubRelPacket rec.packetId)
      nofun hp new
    cases cut with
    | none =>
      exact pendingPacket_erase htracked (Book.pendingPackets_acknowledge _ _ _)
        (Book.pendingSubs_acknowledge _ _ _) (not_publish_key hp hkind hack)
    | some e => exact htracked
  | pubRel rel _ => exact pendingPacket_erase hp rfl rfl (ne_of_awaits hawaits hack)
  | pubComp comp =>
    exact pendingPacket_erase hp (Book.pendingPackets_acknowledge _ _ _)
      (Book.pendingSubs_acknowledge _ _ _) (ne_of_awaits hawaits hack)
  | unsubAck ack => exact pendingPacket_erase hp rfl rfl (ne_of_awaits hawaits hack)

/-- A packet stays pending behind a command that takes another key. -/
theorem CommandWork.keeps {cmd : Command} {o : Option Fault} (h : CommandWork cmd o d d')
    (hp : d.pendingPacket key = some p) (hfree : d.book.takesFree cmd = true) :
    d'.pendingPacket key = some p := by
  have hrequest : ∀ (cmd' : SubscribeCommand) (pkt : Packet), cmd = .subscribe cmd' →
      d.book.subscriptions.rejects cmd'.topic = false →
      d.book.subscriptions.isSubscribed cmd'.topic = false →
      d'.book = d.book.requestSub cmd' pkt → d'.pendingPacket key = some p := by
    rintro cmd' pkt rfl haccepted hunsub hbook
    have hnone : d.book.pendingSubs.lookup d.book.shared.nextPacketId = none := by
      simpa [Book.takesFree, haccepted, hunsub] using hfree
    refine (pendingPacket_congr (fun _ => by rw [hbook]; rfl) (fun hty => ?_)).trans hp
    have hne : key.id ≠ d.book.shared.nextPacketId := by
      intro hid
      rcases pendingPacket_cases hp with ⟨-, sub, hsub, -⟩ | ⟨hother, -⟩
      · rw [hid] at hsub
        cases hnone.symm.trans hsub
      · exact hother hty
    rw [hbook]
    show (d.book.pendingSubs.insert d.book.shared.nextPacketId _).lookup key.id = _
    rw [Table.lookup_insert, if_neg hne]
  cases h with
  | publishOnce | reject | add | subscribePanic | removeCallback | keep | unsubscribePanic
  | disconnect => exact hp
  | publish cmd t _ io _ qos =>
    have hnone : d.book.pendingPackets.lookup (.publish cmd.packetId) = none := by
      simpa [Book.takesFree, qos] using hfree
    exact pendingPacket_track t (.publish cmd.packetId) cmd.packet nofun hp hnone
  | subscribe cmd pkt t _ accepted unsubscribed encoded =>
    exact hrequest cmd pkt rfl accepted unsubscribed rfl
  | subscribeCut cmd pkt e _ accepted unsubscribed encoded =>
    exact hrequest cmd pkt rfl accepted unsubscribed rfl
  | unsubscribe topic pkt t _ io _ subscribed encoded =>
    have hnone : d.book.pendingPackets.lookup (.unsubscribe d.book.shared.nextPacketId) = none := by
      simpa [Book.takesFree, subscribed] using hfree
    have hforgotten : (d.onBook fun b => (b.forgetTopic topic).logEncoded
        (.unsubscribe ⟨b.shared.nextPacketId, [topic]⟩)).pendingPacket key = some p := hp
    exact pendingPacket_track t (.unsubscribe d.book.shared.nextPacketId) pkt nofun hforgotten hnone

end Keeps

/-! ## Runs -/

namespace System

variable {τ : Type} [Transport τ] {s s' t : System τ} {e : Event} {key : IdType} {p : Packet}

/-- Publishes are answered in the kind of their quality of service. -/
def answersInKind (s : System τ) : Event → Bool
  | .task e => (s.arriving e).all s.tx.ackInKind
  | .client _ => true

/-- No command takes a key that is in use. -/
def keysFree (s : System τ) : Event → Bool
  | .task e => (s.consumed e).all s.tx.takesFree
  | .client _ => true

/-- An acknowledgement of the packet is handled. -/
def acknowledges (s : System τ) (p : Packet) : Event → Bool
  | .task e => (s.arriving e).any p.acknowledgedBy
  | .client _ => false

/-- A step that answers in kind, takes no key that is in use, and does not acknowledge the
packet. -/
def leavesPending (s : System τ) (p : Packet) (e : Event) : Bool :=
  s.answersInKind e && s.keysFree e && !s.acknowledges p e

omit [Transport τ] in
theorem Filed.awaits (h : Filed s) (hp : s.tx.desk.pendingPacket key = some p) :
    p.awaits = some key := by
  rcases Desk.pendingPacket_cases hp with ⟨hty, sub, hsub, rfl⟩ | ⟨-, hp⟩
  · obtain ⟨ty, id⟩ := key
    cases hty
    exact Packet.awaits_of_subscribe (h.subs _ _ hsub)
  · exact (h.packets _ _ hp).awaits

/-- What a step hands over and has to be acknowledged is pending behind it. -/
theorem retains_step (h : Receipted s) (hstep : s.step e = some s') :
    s.tx.desk.Retains s'.tx.desk := by
  cases e with
  | client e => exact .nothing (congrArg Link.handed (clientMove_of_clientStep hstep).sameTask.link)
  | task e =>
    cases deskMove_of_taskStep hstep with
    | program tx q clean running leads work =>
      cases work with
      | idle same => exact .nothing (congrArg Desk.handed same)
      | connect pkt boot waits handed =>
        obtain ⟨connect, hconnect⟩ := h.connect boot pkt waits
        refine .plain (p := ⟨pkt.packet, false⟩) (congrArg Desk.handed handed) ?_
        exact awaits_of_encoded hconnect (h.filed.connect boot pkt waits) nofun
      | connAck pkt arrived waiting book =>
        exact .nothing ((congrArg Desk.handed book).trans (Desk.handed_onBook _ _))
      | packet pkt cut arrived connected ends work =>
        obtain ⟨ps, hps, hall⟩ := work.retains h.filed.packets
        exact ⟨ps, hps, hall⟩
      | command cmd rest queue taken connected work =>
        have hmem := consumed_mem taken
        obtain ⟨ps, hps, hall⟩ := work.retains (h.filed.queue cmd hmem) (h.typed.queue cmd hmem)
        exact ⟨ps, hps, hall⟩
      | alarm cut ends work tick =>
        exact work.retains h.filed.ping fun key pkt hpkt => h.filed.awaits hpkt
      | disconnect stopping connected handed =>
        refine .plain (congrArg Desk.handed handed) ?_
        exact awaits_of_encoded makePacket_disconnect
          (asks_other makePacket_disconnect (by decide)) nofun
    | _ => exact .nothing rfl

/-- A packet that is not acknowledged stays pending. -/
theorem pendingPacket_step (h : Filed s) (hp : s.tx.desk.pendingPacket key = some p)
    (hleaves : s.leavesPending p e = true) (hstep : s.step e = some s') :
    s'.tx.desk.pendingPacket key = some p := by
  simp only [leavesPending, Bool.and_eq_true, Bool.not_eq_true'] at hleaves
  obtain ⟨⟨hkind, hfree⟩, hack⟩ := hleaves
  cases e with
  | client e =>
    have hsame := (clientMove_of_clientStep hstep).sameTask
    exact Desk.pendingPacket_same hp hsame.pendingPackets hsame.pendingSubs
  | task e =>
    cases deskMove_of_taskStep hstep with
    | program tx q clean running leads work =>
      show tx.desk.pendingPacket key = some p
      cases work with
      | idle same => rwa [same]
      | connect pkt boot waits handed =>
        rw [handed]
        exact hp
      | connAck pkt arrived waiting book =>
        rw [book]
        exact hp
      | packet pkt cut arrived connected ends work =>
        rw [answersInKind, arrived, Option.all_some] at hkind
        rw [acknowledges, arrived, Option.any_some] at hack
        exact work.keeps hp (h.awaits hp) hkind hack
      | command cmd rest queue taken connected work =>
        rw [keysFree, taken, Option.all_some] at hfree
        exact work.keeps hp hfree
      | alarm cut ends work =>
        exact Desk.pendingPacket_same hp (by rw [work.book]) (by rw [work.book])
      | disconnect stopping connected handed =>
        rw [handed]
        exact hp
    | _ => exact hp

/-- In every run in which the transport does not fail and the clock does not go back, a
timeout stands for every packet that is pending, and the timeouts are in the order of their
times. A packet that is handed over in such a run and has to be acknowledged is pending, with
a timeout, in every state that is reached from there by steps that do not acknowledge it, in
which publishes are answered in kind and no command takes a key that is in use. -/
theorem unacknowledged_kept (setup : Setup τ) (hclock : Monotone setup.clock)
    {connect : ConnectPacket} (hconnect : makePacket connect = .ok setup.connectPacket)
    (h : Reaches System.step (fun s e => transportFails s e = false) (spawn setup) s) :
    ((∀ id pkt, s.tx.pendingPackets.lookup id = some pkt →
        ∃ x ∈ s.tx.timeoutQueue, x.packetId = id) ∧
      (∀ id sub, s.tx.pendingSubs.lookup id = some sub →
        ∃ x ∈ s.tx.timeoutQueue, x.packetId = .subscribe id) ∧
      s.tx.timeoutQueue.Pairwise fun a b => a.t ≤ b.t) ∧
    ∀ e s', s.transportFails e = false → s.step e = some s' →
      ∀ p ∈ s'.tx.link.handed.drop s.tx.link.handed.length,
      ∀ key, p.packet.awaits = some key →
      ∀ t, Reaches System.step (fun s e => transportFails s e = false ∧
        leavesPending s p.packet e = true) s' t →
      t.tx.pendingPacket key = some p.packet ∧ ∃ x ∈ t.tx.timeoutQueue, x.packetId = key := by
  have hinv : Receipted s ∧ s.tx.desk.Scheduled := by
    refine h.invariant (I := fun s => Receipted s ∧ s.tx.desk.Scheduled)
      ⟨receipted_spawn hconnect, scheduled_spawn setup⟩ ?_
    exact fun _ _ _ hs hok hstep => ⟨hs.1.step hstep, scheduled_step hs.2 hok hstep⟩
  refine ⟨⟨hinv.2.packets, hinv.2.subs, (ordered_of_reaches hclock h).2.sorted⟩, ?_⟩
  intro e s' hok hstep p hp key hkey t ht
  have hpending : s'.tx.desk.pendingPacket key = some p.packet := by
    obtain ⟨ps, hps, hall⟩ := retains_step hinv.1 hstep
    rw [show s'.tx.link.handed = s.tx.link.handed ++ ps from hps, List.drop_left] at hp
    exact hall p hp key hkey
  have hrun : Receipted t ∧ t.tx.desk.Scheduled ∧
      t.tx.desk.pendingPacket key = some p.packet := by
    refine ht.invariant (I := fun t => Receipted t ∧ t.tx.desk.Scheduled ∧
      t.tx.desk.pendingPacket key = some p.packet)
      ⟨hinv.1.step hstep, scheduled_step hinv.2 hok hstep, hpending⟩ ?_
    rintro t e t' ⟨hr, hs, hpkt⟩ ⟨hok, hleaves⟩ hstep
    exact ⟨hr.step hstep, scheduled_step hs hok hstep,
      pendingPacket_step hr.filed hpkt hleaves hstep⟩
  exact ⟨hrun.2.2, hrun.2.1.covers hrun.2.2⟩

/-! ## Concrete runs -/

/-- A client that connects properly, and a broker that accepts the connection and sends these
packets. -/
def repliesSetup (replies : List ReadEvent) : Setup TcpTransport :=
  { scripted ⟨[acceptance, .wouldBlock] ++ replies ++ [.wouldBlock], false, []⟩ with
    connectPacket := ⟨0x10, [13, 0, 4, 0x4d, 0x51, 0x54, 0x54, 4, 2, 0, 30, 0, 1, 99]⟩ }

/-- A call has queued a publish. -/
def publishes (qos : QoS) : List Event :=
  connecting ++ [.client (.publish 0 (.noWait qos) ['t'] [] false), .client (.send 0)]

/-- The publish that the call 0 makes, of quality 1 or 2. -/
def firstPublish (ctrl : UInt8) : InternalPacket := ⟨⟨ctrl, [5, 0, 1, 0x74, 0, 1]⟩, false⟩

/-- A publish of quality 2 is sent, then a subscription. The broker answers another identifier,
and the alarm sends everything again. -/
theorem unacknowledged_kept_repeating :
    ∃ s s' t, Reaches System.step (fun s e => transportFails s e = false)
        (spawn (repliesSetup [.data 0x50 [2, 0, 7]])) s ∧
      s.step (.task .command) = some s' ∧
      firstPublish 0x34 ∈ s'.tx.link.handed.drop s.tx.link.handed.length ∧
      Reaches System.step (fun s e => transportFails s e = false ∧
        leavesPending s (firstPublish 0x34).packet e = true) s' t ∧
      t.tx.link.handed.length = 7 ∧
      t.tx.pendingPacket (.publish 1) = some (firstPublish 0x34).packet ∧
      ∃ x ∈ t.tx.timeoutQueue, x.packetId = .publish 1 := by
  let setup := repliesSetup [.data 0x50 [2, 0, 7]]
  have hconnect : makePacket shortConnect = .ok setup.connectPacket := by decide +kernel
  have hrun : (runUnder System.step (fun s e => transportFails s e = false) (spawn setup)
      (publishes .exactlyOnce)).any (fun s => !s.transportFails (.task .command) &&
        (s.step (.task .command)).any fun s' =>
          (s'.tx.link.handed.drop s.tx.link.handed.length).contains (firstPublish 0x34) &&
          (runUnder System.step (fun s e => transportFails s e = false ∧
            leavesPending s (firstPublish 0x34).packet e = true) s'
            ([.client (.subscribe 1 ['a'] .atMostOnce .void), .client (.build 1),
              .client (.send 1), .task .command] ++ reading 1 ++ [.task .alarm])).any fun t =>
                t.tx.link.handed.length == 7) = true := by
    decide +kernel
  obtain ⟨s, hs, hp⟩ := exists_reaches _ hrun
  simp only [Bool.and_eq_true, Bool.not_eq_true', Option.any_eq_true, List.contains_iff_mem] at hp
  obtain ⟨hok, s', hstep, hmem, t, ht, hlength⟩ := hp
  have hreach := reaches_of_runUnder ht
  have hmono : Monotone setup.clock := fun _ _ h => h
  have hkept := (unacknowledged_kept setup hmono hconnect hs).2 _ s' hok hstep _ hmem
    (.publish 1) (by decide +kernel) t hreach
  exact ⟨s, s', t, hs, hstep, hmem, hreach, beq_iff_eq.mp hlength, hkept.1, hkept.2⟩

/-- A publish of quality 1 is answered with `PUBREC`. It is not acknowledged and not pending
any more. -/
theorem unacknowledged_forgotten :
    ∃ s s' t, Reaches System.step (fun s e => transportFails s e = false)
        (spawn (repliesSetup [.data 0x50 [2, 0, 1]])) s ∧
      s.step (.task .command) = some s' ∧
      firstPublish 0x32 ∈ s'.tx.link.handed.drop s.tx.link.handed.length ∧
      (firstPublish 0x32).packet.asks = .publish .atLeastOnce 1 ∧
      Reaches System.step (fun s e => transportFails s e = false ∧ s.keysFree e = true ∧
        acknowledges s (firstPublish 0x32).packet e = false) s' t ∧
      t.phase = .select ∧ t.tx.pendingPacket (.publish 1) = none := by
  have hrun : (runUnder System.step (fun s e => transportFails s e = false)
      (spawn (repliesSetup [.data 0x50 [2, 0, 1]])) (publishes .atLeastOnce)).any (fun s =>
        (s.step (.task .command)).any fun s' =>
          (s'.tx.link.handed.drop s.tx.link.handed.length).contains (firstPublish 0x32) &&
          (runUnder System.step (fun s e => transportFails s e = false ∧ s.keysFree e = true ∧
            acknowledges s (firstPublish 0x32).packet e = false) s' (reading 1)).any fun t =>
              t.phase == .select && t.tx.pendingPacket (.publish 1) == none) = true := by
    decide +kernel
  obtain ⟨s, hs, hp⟩ := exists_reaches _ hrun
  simp only [Bool.and_eq_true, Option.any_eq_true, List.contains_iff_mem, beq_iff_eq] at hp
  obtain ⟨s', hstep, hmem, t, ht, hphase, hpending⟩ := hp
  exact ⟨s, s', t, hs, hstep, hmem, by decide +kernel, reaches_of_runUnder ht, hphase, hpending⟩

end System

end Lmc
