import Lmc.System.Stream

/-!
# Reception of messages

What a connected client owes the broker is stated over the list of the packets received
so far: which messages are dispatched (`deliveries`) and what each packet is answered
with (`answer`). A message of quality 2 is dispatched unless an earlier one with its
identifier still waits for its release (`awaitsRelease`).

The transceiver has no list of received identifiers. It looks for its own `PUBREC` among
the packets to be sent again, under a key that no other flow uses. `Remembers` ties these
entries to the packets received; it is kept by every step, and with it the transceiver
does what is owed (`exactly_once_reception`).
-/

namespace Lmc

open EStateLogic

/-! ## What is owed -/

/-- How a packet changes whether an identifier waits for its release. -/
def releaseStep (id : UInt16) (waits : Bool) : IncomingPacket → Bool
  | .publish msg => waits || (msg.info.flags.qos = .exactlyOnce && msg.info.packetId = id)
  | .pubRel rel => waits && !(rel.packetId = id)
  | _ => waits

/-- A publish of quality 2 with this identifier was received and not released since. -/
def awaitsRelease (id : UInt16) (received : List IncomingPacket) : Bool :=
  received.foldl (releaseStep id) false

theorem awaitsRelease_append (id : UInt16) (received : List IncomingPacket)
    (pkt : IncomingPacket) :
    awaitsRelease id (received ++ [pkt]) = releaseStep id (awaitsRelease id received) pkt :=
  List.foldl_append

/-- The messages to dispatch for a packet, when others were received before. -/
def delivery (received : List IncomingPacket) : IncomingPacket → List IncomingPublishPacket
  | .publish msg =>
    if msg.info.flags.qos = .exactlyOnce ∧ awaitsRelease msg.info.packetId received = true
    then [] else [msg]
  | _ => []

/-- The messages to dispatch for a list of packets, behind those already received. -/
def deliveriesAfter (received : List IncomingPacket) :
    List IncomingPacket → List IncomingPublishPacket
  | [] => []
  | pkt :: rest => delivery received pkt ++ deliveriesAfter (received ++ [pkt]) rest

def deliveries (received : List IncomingPacket) : List IncomingPublishPacket :=
  deliveriesAfter [] received

/-- What a packet is answered with. -/
def answer : IncomingPacket → List InternalPacket
  | .publish msg =>
    match msg.info.flags.qos with
    | .atMostOnce => []
    | .atLeastOnce => [⟨pubAckPacket msg.info.packetId, false⟩]
    | .exactlyOnce => [⟨pubRecPacket msg.info.packetId, false⟩]
  | .pubRec rec => [⟨pubRelPacket rec.packetId, false⟩]
  | .pubRel rel => [⟨pubCompPacket rel.packetId, false⟩]
  | _ => []

theorem deliveriesAfter_append (xs ys : List IncomingPacket) : ∀ received,
    deliveriesAfter received (xs ++ ys) =
      deliveriesAfter received xs ++ deliveriesAfter (received ++ xs) ys := by
  induction xs with
  | nil =>
    intro received
    simp [deliveriesAfter]
  | cons pkt xs ih =>
    intro received
    simp only [List.cons_append, deliveriesAfter, ih]
    simp

theorem deliveries_append (received : List IncomingPacket) (pkt : IncomingPacket) :
    deliveries (received ++ [pkt]) = deliveries received ++ delivery received pkt := by
  rw [deliveries, deliveriesAfter_append]
  simp [deliveriesAfter, deliveries]

/-! ## What the transceiver does -/

namespace Book

/-- The books behind a packet that was handled without a failure. -/
def receive (pkt : IncomingPacket) (b : Book) : Book :=
  match pkt with
  | .connAck _ | .pingResp => b
  | .subAck ack => b.processSubAck ack
  | .publish msg =>
    match msg.info.flags.qos with
    | .atMostOnce | .atLeastOnce => b.dispatch msg
    | .exactlyOnce =>
      if (b.pendingPackets.lookup (.pubRec msg.info.packetId)).isSome then b
      else (b.insertPending (.pubRec msg.info.packetId)
        (pubRecPacket msg.info.packetId)).dispatch msg
  | .pubAck ack => b.acknowledge (.publish ack.packetId) .pubAck
  | .pubRec rec =>
    (if (b.pendingPackets.lookup (.pubRel rec.packetId)).isSome then b
      else b.insertPending (.pubRel rec.packetId) (pubRelPacket rec.packetId)).acknowledge
        (.publish rec.packetId) .pubRec
  | .pubRel rel => b.erasePending (.pubRec rel.packetId)
  | .pubComp comp => b.acknowledge (.pubRel comp.packetId) .pubComp
  | .unsubAck ack => b.erasePending (.unsubscribe ack.packetId)

theorem received_acknowledge (id : IdType) (n : Notifier) (b : Book) :
    (b.acknowledge id n).history.received = b.history.received := by
  rcases acknowledge_cases id n b with ⟨-, heq⟩ | ⟨-, heq⟩
  all_goals
    rw [heq]
    rfl

/-- Packets are logged by nothing else. -/
theorem received_receive (pkt : IncomingPacket) (b : Book) :
    (b.receive pkt).history.received = b.history.received := by
  cases pkt with
  | subAck ack =>
    rcases processSubAck_cases ack b with ⟨-, heq⟩ | ⟨sub, -, ⟨-, heq⟩ | ⟨qos, heq⟩ | ⟨-, heq⟩⟩
    · simp only [receive, heq]
    all_goals
      simp only [receive, heq]
      rfl
  | publish msg =>
    simp only [receive]
    cases msg.info.flags.qos with
    | exactlyOnce => dsimp only; split <;> rfl
    | _ => rfl
  | pubAck ack => exact received_acknowledge _ _ b
  | pubRec rec =>
    refine (received_acknowledge _ _ _).trans ?_
    split <;> rfl
  | pubComp comp => exact received_acknowledge _ _ b
  | _ => rfl

/-- The replies kept for retransmission are those of their keys. -/
structure Replies (b : Book) : Prop where
  pubRec : ∀ id pkt, b.pendingPackets.lookup (.pubRec id) = some pkt → pkt = pubRecPacket id
  pubRel : ∀ id pkt, b.pendingPackets.lookup (.pubRel id) = some pkt → pkt = pubRelPacket id

/-- They stand for the packets received. -/
structure Remembers (b : Book) : Prop extends Replies b where
  waits : ∀ id, (b.pendingPackets.lookup (.pubRec id)).isSome =
    awaitsRelease id b.history.received
  dispatched : b.history.dispatched = deliveries b.history.received

namespace Remembers

variable {b b' : Book}

/-- A change that concerns other packets. -/
theorem frame (h : Remembers b)
    (hrec : ∀ id, b'.pendingPackets.lookup (.pubRec id) = b.pendingPackets.lookup (.pubRec id))
    (hrel : ∀ id pkt, b'.pendingPackets.lookup (.pubRel id) = some pkt → pkt = pubRelPacket id)
    (hreceived : b'.history.received = b.history.received)
    (hdispatched : b'.history.dispatched = b.history.dispatched) : Remembers b' where
  pubRec id pkt hp := h.pubRec id pkt ((hrec id).symm.trans hp)
  pubRel := hrel
  waits id := by rw [hrec, hreceived, h.waits]
  dispatched := by rw [hdispatched, hreceived, h.dispatched]

theorem same (h : Remembers b) (hpending : b'.pendingPackets = b.pendingPackets)
    (hreceived : b'.history.received = b.history.received)
    (hdispatched : b'.history.dispatched = b.history.dispatched) : Remembers b' :=
  h.frame (fun _ => by rw [hpending]) (by rw [hpending]; exact h.pubRel) hreceived hdispatched

/-- A packet that is neither a publish nor a release changes nothing that is owed. -/
theorem log (h : Remembers b) {pkt : IncomingPacket}
    (hwaits : ∀ id waits, releaseStep id waits pkt = waits)
    (hdelivery : ∀ received, delivery received pkt = []) : Remembers (b.logReceived pkt) where
  pubRec := h.pubRec
  pubRel := h.pubRel
  waits id := by
    show _ = awaitsRelease id (b.history.received ++ [pkt])
    rw [awaitsRelease_append, hwaits]
    exact h.waits id
  dispatched := by
    show _ = deliveries (b.history.received ++ [pkt])
    rw [deliveries_append, hdelivery, List.append_nil]
    exact h.dispatched

theorem insertPending (h : Remembers b) {key : IdType} {pkt : Packet} (hkey : key.ty ≠ .pubRec)
    (hrel : ∀ id, key = .pubRel id → pkt = pubRelPacket id) :
    Remembers (b.insertPending key pkt) := by
  refine h.frame (fun id => ?_) (fun id found hfound => ?_) rfl rfl
  · refine AList.lookup_insert_ne ?_
    rintro rfl
    exact hkey rfl
  · by_cases hid : IdType.pubRel id = key
    · subst hid
      rw [Book.insertPending, AList.lookup_insert] at hfound
      cases hfound
      exact hrel id rfl
    · rw [Book.insertPending, AList.lookup_insert_ne hid] at hfound
      exact h.pubRel id found hfound

theorem erasePending (h : Remembers b) {key : IdType} (hkey : key.ty ≠ .pubRec) :
    Remembers (b.erasePending key) := by
  refine h.frame (fun id => ?_) (fun id found hfound => ?_) rfl rfl
  · refine AList.lookup_erase_ne ?_
    rintro rfl
    exact hkey rfl
  · by_cases hid : IdType.pubRel id = key
    · subst hid
      rw [Book.erasePending, AList.lookup_erase] at hfound
      cases hfound
    · rw [Book.erasePending, AList.lookup_erase_ne hid] at hfound
      exact h.pubRel id found hfound

theorem acknowledge (h : Remembers b) {key : IdType} (n : Notifier) (hkey : key.ty ≠ .pubRec) :
    Remembers (b.acknowledge key n) := by
  have herased := h.erasePending hkey
  rcases Book.acknowledge_cases key n b with ⟨-, heq⟩ | ⟨-, heq⟩
  · rw [heq]
    exact herased
  · rw [heq]
    exact herased.same rfl rfl rfl

theorem processSubAck (h : Remembers b) (ack : SubAckPacket) :
    Remembers (b.processSubAck ack) := by
  rcases Book.processSubAck_cases ack b with
    ⟨-, heq⟩ | ⟨sub, -, ⟨-, heq⟩ | ⟨qos, heq⟩ | ⟨-, heq⟩⟩
  · rw [heq]
    exact h
  all_goals
    rw [heq]
    exact h.same rfl rfl rfl

/-- A message of quality 0 or 1 is dispatched whenever it is received. -/
theorem dispatch (h : Remembers b) {msg : IncomingPublishPacket}
    (hqos : msg.info.flags.qos ≠ .exactlyOnce) :
    Remembers ((b.logReceived (.publish msg)).dispatch msg) where
  pubRec := h.pubRec
  pubRel := h.pubRel
  waits id := by
    show _ = awaitsRelease id (b.history.received ++ [.publish msg])
    rw [awaitsRelease_append, ← h.waits]
    simp [releaseStep, hqos]
    rfl
  dispatched := by
    show b.history.dispatched ++ [msg] = deliveries (b.history.received ++ [.publish msg])
    rw [deliveries_append, h.dispatched]
    simp [delivery, hqos]

/-- A message of quality 2 that waits for its release is not dispatched again. -/
theorem duplicate (h : Remembers b) {msg : IncomingPublishPacket}
    (hqos : msg.info.flags.qos = .exactlyOnce)
    (hfound : (b.pendingPackets.lookup (.pubRec msg.info.packetId)).isSome = true) :
    Remembers (b.logReceived (.publish msg)) where
  pubRec := h.pubRec
  pubRel := h.pubRel
  waits id := by
    show (b.pendingPackets.lookup (.pubRec id)).isSome =
      awaitsRelease id (b.history.received ++ [.publish msg])
    rw [awaitsRelease_append, ← h.waits]
    by_cases hid : msg.info.packetId = id
    · subst hid
      simp [releaseStep, hfound]
    · simp [releaseStep, hid]
  dispatched := by
    have hwaits := h.waits msg.info.packetId
    rw [hfound] at hwaits
    show b.history.dispatched = deliveries (b.history.received ++ [.publish msg])
    rw [deliveries_append, h.dispatched]
    simp [delivery, hqos, ← hwaits]

/-- The first message of quality 2 with its identifier is dispatched. -/
theorem first (h : Remembers b) {msg : IncomingPublishPacket}
    (hqos : msg.info.flags.qos = .exactlyOnce)
    (hfound : (b.pendingPackets.lookup (.pubRec msg.info.packetId)).isSome = false) :
    Remembers (((b.logReceived (.publish msg)).insertPending (.pubRec msg.info.packetId)
      (pubRecPacket msg.info.packetId)).dispatch msg) where
  pubRec id pkt hpkt := by
    by_cases hid : id = msg.info.packetId
    · subst hid
      have hinserted := AList.lookup_insert (a := IdType.pubRec msg.info.packetId)
        (b := pubRecPacket msg.info.packetId) b.pendingPackets
      exact Option.some.inj (hpkt.symm.trans hinserted)
    · have hother : b.pendingPackets.lookup (.pubRec id) = some pkt := by
        rw [← hpkt]
        exact (AList.lookup_insert_ne (by simpa [IdType.pubRec] using hid)).symm
      exact h.pubRec id pkt hother
  pubRel id pkt hpkt := by
    have hother : b.pendingPackets.lookup (.pubRel id) = some pkt := by
      rw [← hpkt]
      exact (AList.lookup_insert_ne (by simp [IdType.pubRec, IdType.pubRel])).symm
    exact h.pubRel id pkt hother
  waits id := by
    show ((b.pendingPackets.insert (.pubRec msg.info.packetId) _).lookup (.pubRec id)).isSome =
      awaitsRelease id (b.history.received ++ [.publish msg])
    rw [awaitsRelease_append, ← h.waits]
    by_cases hid : id = msg.info.packetId
    · subst hid
      simp [releaseStep, hqos]
    · have hkey : IdType.pubRec id ≠ .pubRec msg.info.packetId := by
        simpa [IdType.pubRec] using hid
      rw [AList.lookup_insert_ne hkey]
      simp [releaseStep, Ne.symm hid]
  dispatched := by
    have hwaits := h.waits msg.info.packetId
    rw [hfound] at hwaits
    show b.history.dispatched ++ [msg] = deliveries (b.history.received ++ [.publish msg])
    rw [deliveries_append, h.dispatched]
    simp [delivery, ← hwaits]

theorem publish (h : Remembers b) (msg : IncomingPublishPacket) :
    Remembers ((b.logReceived (.publish msg)).receive (.publish msg)) := by
  cases hqos : msg.info.flags.qos with
  | atMostOnce =>
    have hne : msg.info.flags.qos ≠ .exactlyOnce := by simp [hqos]
    simp only [Book.receive, hqos]
    exact h.dispatch hne
  | atLeastOnce =>
    have hne : msg.info.flags.qos ≠ .exactlyOnce := by simp [hqos]
    simp only [Book.receive, hqos]
    exact h.dispatch hne
  | exactlyOnce =>
    simp only [Book.receive, hqos]
    split
    · exact h.duplicate hqos ‹_›
    · rename_i hfound
      exact h.first hqos (Bool.eq_false_iff.mpr hfound)

theorem release (h : Remembers b) (rel : PubRelPacket) :
    Remembers ((b.logReceived (.pubRel rel)).erasePending (.pubRec rel.packetId)) := by
  have hne : ∀ id, id ≠ rel.packetId → IdType.pubRec id ≠ .pubRec rel.packetId := by
    intro id hid
    simpa [IdType.pubRec] using hid
  refine ⟨⟨fun id pkt hpkt => ?_, fun id pkt hpkt => ?_⟩, fun id => ?_, ?_⟩
  · by_cases hid : id = rel.packetId
    · subst hid
      have herased := AList.lookup_erase (IdType.pubRec rel.packetId) b.pendingPackets
      cases herased.symm.trans hpkt
    · have hother := AList.lookup_erase_ne (hne id hid) (s := b.pendingPackets)
      exact h.pubRec id pkt (hother.symm.trans hpkt)
  · have hkey : IdType.pubRel id ≠ .pubRec rel.packetId := by simp [IdType.pubRec, IdType.pubRel]
    have hother := AList.lookup_erase_ne hkey (s := b.pendingPackets)
    exact h.pubRel id pkt (hother.symm.trans hpkt)
  · show ((b.pendingPackets.erase (.pubRec rel.packetId)).lookup (.pubRec id)).isSome =
      awaitsRelease id (b.history.received ++ [.pubRel rel])
    rw [awaitsRelease_append, ← h.waits]
    by_cases hid : id = rel.packetId
    · subst hid
      simp [releaseStep]
    · rw [AList.lookup_erase_ne (hne id hid)]
      simp [releaseStep, Ne.symm hid]
  · show b.history.dispatched = deliveries (b.history.received ++ [.pubRel rel])
    rw [deliveries_append, h.dispatched]
    simp [delivery]

/-- Handling a packet keeps the books true to the packets received. -/
theorem receive (h : Remembers b) (pkt : IncomingPacket) :
    Remembers ((b.logReceived pkt).receive pkt) := by
  cases pkt with
  | connAck ack => exact h.log (fun _ _ => rfl) fun _ => rfl
  | subAck ack => exact (h.log (fun _ _ => rfl) fun _ => rfl).processSubAck ack
  | publish msg => exact h.publish msg
  | pubAck ack => exact (h.log (fun _ _ => rfl) fun _ => rfl).acknowledge _ PacketType.noConfusion
  | pubRec rec =>
    have hlog : Remembers (b.logReceived (.pubRec rec)) := h.log (fun _ _ => rfl) fun _ => rfl
    refine Remembers.acknowledge ?_ _ PacketType.noConfusion
    split
    · exact hlog
    · refine hlog.insertPending PacketType.noConfusion fun id hid => ?_
      cases hid
      rfl
  | pubRel rel => exact h.release rel
  | pubComp comp => exact (h.log (fun _ _ => rfl) fun _ => rfl).acknowledge _ PacketType.noConfusion
  | unsubAck ack => exact (h.log (fun _ _ => rfl) fun _ => rfl).erasePending PacketType.noConfusion
  | pingResp => exact h.log (fun _ _ => rfl) fun _ => rfl

/-- Commands use other keys. -/
theorem command (h : Remembers b) {q : Option Panic} {cmd : Command}
    (heffect : CommandEffect q cmd b b') : Remembers b' := by
  cases heffect with
  | publish _ cmd qos =>
    refine h.insertPending PacketType.noConfusion fun id hid => ?_
    cases hid
  | unsubscribe _ topic pkt _ subscribed =>
    have hforgot : Remembers ((b.forgetTopic topic).logEncoded
        (.unsubscribe ⟨b.shared.nextPacketId, [topic]⟩)) := h.same rfl rfl rfl
    refine hforgot.insertPending PacketType.noConfusion fun id hid => ?_
    cases hid
  | _ => exact h.same rfl rfl rfl

end Remembers

end Book

namespace Transceiver

variable {τ α : Type} [Transport τ] {good : τ → Prop}

/-- `x` succeeds, keeps the output in order, leaves the books `b` behind and hands over
`packets`. -/
def Hands (good : τ → Prop) (x : TaskM τ Unit) (tx : Transceiver τ) (b : Book)
    (packets : List InternalPacket) : Prop :=
  Link.Sound good tx.link → ∃ tx', x.run tx = .ok () tx' ∧ Link.Sound good tx'.link ∧
    tx'.toBook = b ∧ tx'.link.handed = tx.link.handed ++ packets

section Rules

variable {tx : Transceiver τ} {b b' : Book} {xs ys zs : List InternalPacket}

omit [Transport τ]

theorem hands_pure (h : tx.toBook = b) : Hands good (pure ()) tx b [] :=
  fun hs => ⟨tx, rfl, hs, h, (List.append_nil _).symm⟩

theorem hands_onBook (f : Book → Book) (h : tx.toBook = b) :
    Hands good (onBook f) tx (f b) [] :=
  fun hs => ⟨{ tx with toBook := f tx.toBook }, rfl, hs, congrArg f h, (List.append_nil _).symm⟩

theorem Hands.bind {x : TaskM τ Unit} {k : Unit → TaskM τ Unit} (hx : Hands good x tx b xs)
    (hk : ∀ tx', tx'.toBook = b → Hands good (k ()) tx' b' ys) (hpackets : xs ++ ys = zs) :
    Hands good (x >>= k) tx b' zs := by
  intro hs
  obtain ⟨tx₁, hrun₁, hs₁, hb₁, hh₁⟩ := hx hs
  obtain ⟨tx₂, hrun₂, hs₂, hb₂, hh₂⟩ := hk tx₁ hb₁ hs₁
  refine ⟨tx₂, ?_, hs₂, hb₂, ?_⟩
  · rw [EStateM.run_bind, hrun₁]
    exact hrun₂
  · rw [hh₂, hh₁, ← hpackets, List.append_assoc]

theorem Hands.get_bind {k : Transceiver τ → TaskM τ Unit} (hk : Hands good (k tx) tx b xs) :
    Hands good (get >>= k) tx b xs := hk

theorem Hands.encode_bind [Encode α] {p : α} {pkt : Packet} {k : Packet → TaskM τ Unit}
    (hp : makePacket p = .ok pkt) (hk : Hands good (k pkt) tx b xs) :
    Hands good (encode p >>= k) tx b xs := by
  unfold encode
  rw [hp]
  exact hk

theorem hands_scheduleTimeout (id : IdType) (h : tx.toBook = b) :
    Hands good (scheduleTimeout id) tx b [] := by
  intro hs
  refine ⟨{ tx with
    link := { tx.link with nows := tx.link.nows + 1 }
    timeoutQueue := tx.timeoutQueue ++ [⟨tx.link.clock tx.link.nows, id⟩] }, rfl, ?_, h, ?_⟩
  · exact ⟨⟨⟨hs.queue, hs.pos⟩, hs.stream⟩, hs.good⟩
  · exact (List.append_nil _).symm

end Rules

variable {tx : Transceiver τ} {b : Book} (hw : PartialWrites good)

include hw

theorem hands_queueInternalPacket (pkt : Packet) (setDup : Bool) (h : tx.toBook = b) :
    Hands good (queueInternalPacket pkt setDup) tx b [⟨pkt, setDup⟩] := by
  intro hs
  obtain ⟨link, hrun, hs', hh⟩ := Link.run_queueInternalPacket hw tx.link hs pkt setDup
  refine ⟨{ tx with link }, ?_, hs', h, hh⟩
  rw [queueInternalPacket, onLink, run_zoom, hrun]

theorem hands_queueWithTimeout (pkt : Packet) (id : IdType) (h : tx.toBook = b) :
    Hands good (queueInternalPacketWithTimeout pkt id) tx (b.insertPending id pkt)
      [⟨pkt, false⟩] := by
  have hschedule : ∀ (known : Bool) (tx' : Transceiver τ), tx'.toBook = b.insertPending id pkt →
      Hands good (if known then pure () else scheduleTimeout id) tx' (b.insertPending id pkt)
        [] := by
    intro known tx' h'
    cases known with
    | true => exact hands_pure h'
    | false => exact hands_scheduleTimeout id h'
  refine .get_bind ?_
  refine (hands_onBook _ h).bind (fun tx₁ h₁ => ?_) rfl
  refine (hschedule _ tx₁ h₁).bind (fun tx₂ h₂ => ?_) rfl
  exact hands_queueInternalPacket hw pkt false h₂

theorem hands_processPublish (hr : tx.Replies) (msg : IncomingPublishPacket) :
    Hands good (processPublish msg) tx (tx.receive (.publish msg)) (answer (.publish msg)) := by
  unfold processPublish
  simp only [answer, Book.receive]
  cases msg.info.flags.qos with
  | atMostOnce => exact hands_onBook _ rfl
  | atLeastOnce =>
    refine .encode_bind (makePacket_pubAck _) ?_
    exact (hands_queueInternalPacket hw _ false rfl).bind (fun _ h₁ => hands_onBook _ h₁) rfl
  | exactlyOnce =>
    refine .get_bind ?_
    cases hfound : tx.pendingPackets.lookup (.pubRec msg.info.packetId) with
    | some existing =>
      have hsame := hr.pubRec _ _ hfound
      subst hsame
      exact hands_queueInternalPacket hw _ false rfl
    | none =>
      refine .encode_bind (makePacket_pubRec _) ?_
      exact (hands_queueWithTimeout hw _ _ rfl).bind (fun _ h₁ => hands_onBook _ h₁) rfl

theorem hands_processPubRec (hr : tx.Replies) (rec : PubRecPacket) :
    Hands good (processPubRec rec.packetId) tx (tx.receive (.pubRec rec))
      (answer (.pubRec rec)) := by
  unfold processPubRec
  refine Hands.bind ?_ (fun _ h₁ => hands_onBook _ h₁) (List.append_nil _)
  refine .get_bind ?_
  cases hfound : tx.pendingPackets.lookup (.pubRel rec.packetId) with
  | some existing =>
    have hsame := hr.pubRel _ _ hfound
    subst hsame
    exact hands_queueInternalPacket hw _ false rfl
  | none =>
    exact .encode_bind (makePacket_pubRel _) (hands_queueWithTimeout hw _ _ rfl)

/-- A packet is handled and answered without a failure. -/
theorem hands_handlePacket (hr : tx.Replies) (pkt : IncomingPacket) :
    Hands good (handlePacket pkt) tx (tx.receive pkt) (answer pkt) := by
  cases pkt with
  | connAck ack => exact hands_pure rfl
  | subAck ack => exact hands_onBook _ rfl
  | publish msg => exact hands_processPublish hw hr msg
  | pubAck ack => exact hands_onBook _ rfl
  | pubRec rec => exact hands_processPubRec hw hr rec
  | pubRel rel =>
    refine (hands_onBook _ rfl).bind (fun tx₁ h₁ => ?_) rfl
    exact .encode_bind (makePacket_pubComp _) (hands_queueInternalPacket hw _ false h₁)
  | pubComp comp => exact hands_onBook _ rfl
  | unsubAck ack => exact hands_onBook _ rfl
  | pingResp => exact hands_pure rfl

/-- A connected transceiver handles the packet and reads on. -/
theorem run_processIncoming (pkt : IncomingPacket) (hr : tx.Replies)
    (hconn : tx.connectSig = false) (hs : Link.Sound good tx.link) :
    ∃ tx', (processIncoming (.packet pkt)).run tx = .ok .reading tx' ∧
      tx'.toBook = (tx.logReceived pkt).receive pkt ∧
      tx'.link.handed = tx.link.handed ++ answer pkt := by
  have hr' : Book.Replies (tx.logReceived pkt) := ⟨hr.pubRec, hr.pubRel⟩
  obtain ⟨tx', hrun, -, hbook, hhanded⟩ := @hands_handlePacket τ _ good
    { tx with toBook := tx.logReceived pkt } hw hr' pkt hs
  have hlog : (onBook (Book.logReceived pkt) : TaskM τ Unit).run tx =
      .ok () { tx with toBook := tx.logReceived pkt } := rfl
  have hproc : (processPacket pkt).run tx = .ok false tx' := by
    simp only [processPacket, EStateM.run_bind, EStateM.run_get, hconn, Bool.false_eq_true,
      if_false, hlog, hrun]
    rfl
  refine ⟨tx', ?_, hbook, hhanded⟩
  simp only [processIncoming, EStateM.run_bind, hproc]
  rfl

end Transceiver

/-! ## Runs -/

namespace System

open Runs

variable {τ : Type} [Transport τ] {good : τ → Prop}

/-- A connected transceiver handles the packet that arrives and answers it. -/
theorem step_arriving (hw : PartialWrites good) {s s' : System τ} {e : TaskEvent}
    {pkt : IncomingPacket} (hs : InOrder good s) (hr : s.tx.Replies)
    (hstep : s.taskStep e = some s') (harrived : s.arriving e = some pkt)
    (hconn : s.tx.connectSig = false) :
    s'.tx.toBook = (s.tx.logReceived pkt).receive pkt ∧
      s'.tx.link.handed = s.tx.link.handed ++ answer pkt := by
  unfold arriving at harrived
  split at harrived
  case isFalse => cases harrived
  rename_i hread
  obtain ⟨hphase, rfl⟩ := hread
  have hsound : Link.Sound good s.tx.link := hs.sound (by simp [hphase])
  cases hrecv : Transceiver.recvPacket.run s.tx with
  | error e tx => simp [hrecv] at harrived
  | ok found tx =>
    rw [hrecv] at harrived
    cases found with
    | packet pkt' =>
      cases harrived
      have hdesk : tx.desk = s.tx.desk := Transceiver.quiet_recvPacket.ok hrecv
      have hbook : tx.toBook = s.tx.toBook := congrArg Desk.book hdesk
      have hhanded : tx.link.handed = s.tx.link.handed := congrArg Desk.handed hdesk
      have htx : Link.Sound good tx.link := (Transceiver.steady_recvPacket hw).ok hsound hrecv
      have hr' : tx.Replies := by rw [hbook]; exact hr
      have hconn' : tx.connectSig = false := by rw [hbook]; exact hconn
      obtain ⟨tx', hproc, hbook', hhanded'⟩ :=
        Transceiver.run_processIncoming hw pkt hr' hconn' htx
      have hround : Transceiver.readRound.run s.tx = .ok .reading tx' := by
        rw [Transceiver.readRound, EStateM.run_bind, hrecv]
        exact hproc
      have hnext : s' = { s with tx := tx', phase := .reading } := by
        unfold taskStep at hstep
        rw [hphase] at hstep
        cases hstep
        show s.runProgram Transceiver.readRound = _
        rw [runProgram, hround]
      rw [hnext, ← hbook, ← hhanded]
      exact ⟨hbook', hhanded'⟩
    | _ => cases harrived

theorem remembers_step (hw : PartialWrites good) {s s' : System τ} {e : Event}
    (hs : InOrder good s) (h : s.tx.Remembers) (hstep : s.step e = some s') :
    s'.tx.Remembers := by
  cases e with
  | client e =>
    have hsame := (clientMove_of_clientStep hstep).sameTask
    exact h.same hsame.pendingPackets hsame.received hsame.dispatched
  | task e =>
    have hmove := taskMove_of_taskStep hstep
    cases hmove with
    | quiet tx p clean running next book =>
      show tx.toBook.Remembers
      rw [book]
      exact h
    | connAck tx p clean running next pkt arrived waiting book =>
      show tx.toBook.Remembers
      rw [book]
      exact h.same rfl rfl rfl
    | packet tx p clean running next pkt arrived connected effect =>
      have hbook := (step_arriving hw hs h.toReplies hstep arrived connected).1
      show tx.toBook.Remembers
      rw [show tx.toBook = _ from hbook]
      exact h.receive pkt
    | command tx p clean running next cmd rest queue taken connected effect =>
      have hrest : Book.Remembers { s.tx.toBook with cmdQueue := rest } := h.same rfl rfl rfl
      exact hrest.command effect
    | finish status ended => exact h
    | fail n next stage => exact h.same rfl rfl rfl
    | drain stage => exact h.same rfl rfl rfl
    | wake stage => exact h.same rfl rfl rfl
    | drop status ended => exact h.same rfl rfl rfl

/-- In every run over a transport without failures, the messages dispatched are those
that are owed for the packets received, and a packet that arrives is logged, delivered as
owed and answered. In particular a publish of quality 2 is dispatched if and only if no
earlier one with its identifier waits for its release, each of them is answered with a
`PUBREC`, and each release with a `PUBCOMP`. -/
theorem exactly_once_reception (hw : PartialWrites good) (setup : Setup τ)
    (hgood : good setup.transport) {s : System τ}
    (h : Reaches System.step always (spawn setup) s) :
    s.tx.history.dispatched = deliveries s.tx.history.received ∧
      ∀ e s' pkt, s.taskStep e = some s' → s.arriving e = some pkt → s.tx.connectSig = false →
        s'.tx.history.received = s.tx.history.received ++ [pkt] ∧
        s'.tx.history.dispatched =
          s.tx.history.dispatched ++ delivery s.tx.history.received pkt ∧
        s'.tx.link.handed = s.tx.link.handed ++ answer pkt := by
  have hinv : InOrder good s ∧ s.tx.Remembers := by
    refine h.invariant (I := fun s => InOrder good s ∧ s.tx.Remembers) ?_ ?_
    · refine ⟨inOrder_spawn hgood, ⟨fun _ _ hp => ?_, fun _ _ hp => ?_⟩, fun _ => rfl, rfl⟩
      all_goals cases hp
    · rintro s e s' ⟨hs, hr⟩ - hstep
      exact ⟨hs.step hw hstep, remembers_step hw hs hr hstep⟩
  obtain ⟨hs, hr⟩ := hinv
  refine ⟨hr.dispatched, fun e s' pkt hstep harrived hconn => ?_⟩
  obtain ⟨hbook, hhanded⟩ := step_arriving hw hs hr.toReplies hstep harrived hconn
  have hreceived : s'.tx.history.received = s.tx.history.received ++ [pkt] := by
    rw [hbook, Book.received_receive]
    rfl
  have hr' := remembers_step hw hs hr (e := .task e) hstep
  refine ⟨hreceived, ?_, hhanded⟩
  rw [hr'.dispatched, hreceived, deliveries_append, hr.dispatched]

/-- A broker that sends a message of quality 2 twice, releases it, and uses the
identifier again. -/
def duplicateSetup : Setup TcpTransport :=
  scripted ⟨[acceptance, .data 0x34 [6, 0, 1, 97, 0, 5, 7], .data 0x3c [6, 0, 1, 97, 0, 5, 7],
    .data 0x62 [2, 0, 5], .data 0x34 [6, 0, 1, 97, 0, 5, 8]], false, []⟩

theorem exactly_once_reception_duplicate :
    ∃ s, Reaches System.step always (spawn duplicateSetup) s ∧
      s.tx.history.received.length = 4 ∧ s.tx.history.dispatched.length = 2 ∧
      s.tx.history.dispatched = deliveries s.tx.history.received := by
  have hrun : (runUnder System.step always (spawn duplicateSetup)
      ([.task .proceed, .task (.readable (.ok ()))] ++ List.replicate 11 (.task .proceed))).any
      (fun s => s.tx.history.received.length == 4 && s.tx.history.dispatched.length == 2) =
        true := by
    decide +kernel
  obtain ⟨s, hs, hp⟩ := exists_reaches _ hrun
  simp only [Bool.and_eq_true, beq_iff_eq] at hp
  have hgood : duplicateSetup.transport.NoWriteError := by
    intro e
    simp [duplicateSetup, scripted]
  exact ⟨s, hs, hp.1, hp.2,
    (exactly_once_reception TcpTransport.partialWrites duplicateSetup hgood hs).1⟩

end System

end Lmc
