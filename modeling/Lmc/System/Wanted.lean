import Lmc.System.Admission
import Lmc.System.Topics
import Lmc.Task.Alarm

/-!
# What the task wants of a topic

A topic is wanted if its leaf is subscribed or a `SUBSCRIBE` for it is not acknowledged. A
broker goes by the last packet about a topic, so that should say what the task wants: a
topic that is wanted was last in a `SUBSCRIBE`, any other one in an `UNSUBSCRIBE` or nowhere
(`Desk.Voiced`).

The commands keep this up, unless they lose track of a request (`keepsTrack`), and a `SUBACK`
that accepts a topic leaves it wanted. The alarm sends again whatever is not acknowledged. A
`SUBSCRIBE` of these is wanted. An `UNSUBSCRIBE` may not be wanted any more, if the topic was
requested anew since then; `keepsTopics` excludes a tick at which such a packet is due.
-/

namespace Lmc

/-! ## The last packet about a topic -/

/-- What the packet makes of a topic: subscribed, not subscribed, or what it was. -/
def Asked.turns (topic : Str) : Asked → Option Bool
  | .subscribe _ t => if t = topic then some true else none
  | .unsubscribe _ t => if t = topic then some false else none
  | _ => none

/-- Whether a topic is subscribed behind the packets. -/
def turned (topic : Str) (ps : List InternalPacket) : Bool :=
  ps.foldl (fun on p => (p.asks.turns topic).getD on) false

theorem turned_concat (topic : Str) (ps : List InternalPacket) (p : InternalPacket) :
    turned topic (ps ++ [p]) = (p.asks.turns topic).getD (turned topic ps) := by
  rw [turned, List.foldl_append]
  rfl

/-- Packets that make nothing else of a topic than what it is. -/
theorem turned_append {topic : Str} {ps qs : List InternalPacket}
    (h : ∀ q ∈ qs, ∀ on, q.asks.turns topic = some on → on = turned topic ps) :
    turned topic (ps ++ qs) = turned topic ps := by
  induction qs generalizing ps with
  | nil => rw [List.append_nil]
  | cons q qs ih =>
    have hq : turned topic (ps ++ [q]) = turned topic ps := by
      rw [turned_concat]
      cases hon : q.asks.turns topic with
      | none => rfl
      | some on => exact h q List.mem_cons_self on hon
    rw [List.append_cons, ih, hq]
    intro q' hq' on hon
    rw [hq]
    exact h q' (List.mem_cons_of_mem _ hq') on hon

/-! ## What the task wants -/

/-- A `SUBSCRIBE` for the topic is not acknowledged. -/
def Book.requests (b : Book) (topic : Str) : Bool :=
  decide (0 < Table.count (PendingSub.asks topic) b.pendingSubs)

def Book.wanted (b : Book) (topic : Str) : Bool :=
  b.subscriptions.isSubscribed topic || b.requests topic

theorem Book.requests_of_lookup {b : Book} {id : UInt16} {sub : PendingSub}
    (h : b.pendingSubs.lookup id = some sub) : b.requests sub.topic = true := by
  have hasks : PendingSub.asks sub.topic sub = true := beq_self_eq_true _
  have hle := Table.hit_le_count (PendingSub.asks sub.topic) id b.pendingSubs
  rw [h, Table.hit_pos hasks] at hle
  exact decide_eq_true hle

theorem Book.requests_of_empty {b : Book} (h : ∀ id, b.pendingSubs.lookup id = none)
    (topic : Str) : b.requests topic = false := by
  have hzero : Table.count (PendingSub.asks topic) b.pendingSubs = 0 := by
    refine Table.count_eq_zero.mpr fun id sub hsub => ?_
    cases (h id).symm.trans hsub
  rw [Book.requests, hzero]
  rfl

theorem Book.wanted_congr {b b' : Book} {topic : Str}
    (htree : b'.subscriptions.isSubscribed topic = b.subscriptions.isSubscribed topic)
    (hsubs : b'.pendingSubs = b.pendingSubs) : b'.wanted topic = b.wanted topic := by
  rw [Book.wanted, Book.wanted, Book.requests, Book.requests, htree, hsubs]

/-- The packets handed over say last of each topic what the task wants of it. -/
def Desk.Voiced (d : Desk) : Prop := ∀ topic, turned topic d.handed = d.book.wanted topic

section Works

variable {d d' : Desk}

theorem Desk.Voiced.same (h : d.Voiced) (ps : List InternalPacket)
    (hhanded : d'.handed = d.handed ++ ps)
    (hwants : ∀ topic, d'.book.wanted topic = d.book.wanted topic)
    (hps : ∀ p ∈ ps, ∀ topic on, p.asks.turns topic = some on → on = d.book.wanted topic) :
    d'.Voiced := by
  intro topic
  rw [hhanded, hwants, ← h topic]
  refine turned_append fun p hp on hon => ?_
  rw [h topic]
  exact hps p hp topic on hon

/-! ## Packets -/

/-- The answer accepts what was requested. -/
def SubAckPacket.accepting (ack : SubAckPacket) : Prop := ∃ qos, ack.subResults = [.ok qos]

/-- An accepted topic that the tree can hold is wanted before and behind the answer. -/
theorem Book.wanted_processSubAck {b : Book} {ack : SubAckPacket} (haccepts : ack.accepting)
    (hvalid : ∀ id sub, b.pendingSubs.lookup id = some sub → validFilter sub.topic = true)
    (topic : Str) : (b.processSubAck ack).wanted topic = b.wanted topic := by
  obtain ⟨granted, hresults⟩ := haccepts
  rcases b.processSubAck_cases ack with
    ⟨-, heq⟩ | ⟨sub, hfound, ⟨hnone, -⟩ | ⟨qos, heq⟩ | ⟨⟨rest, herror⟩, -⟩⟩
  · rw [heq]
  · cases hresults.symm.trans hnone
  · rw [heq]
    by_cases here : sub.topic = topic
    · subst here
      have hafter : ((b.erasePendingSub ack.packetId).acceptSub sub qos).subscriptions.isSubscribed
          sub.topic = true := by
        refine (SubscriptionSet.getOrCreate_self (fun leaf => Subscription.subscribed_add _ _)
          b.subscriptions sub.topic).resolve_right fun hrejects => ?_
        cases (SubscriptionSet.rejects_of_valid (hvalid _ _ hfound)).symm.trans hrejects
      rw [Book.wanted, Book.wanted, hafter, Book.requests_of_lookup hfound, Bool.or_true]
      rfl
    · have htree : ((b.erasePendingSub ack.packetId).acceptSub sub qos).subscriptions.isSubscribed
          topic = b.subscriptions.isSubscribed topic :=
        SubscriptionSet.isSubscribed_getOrCreate_ne _ (Ne.symm here)
      have hcount := Book.requested_erase topic hfound
      rw [if_neg here, Nat.add_zero] at hcount
      have hrequests : ((b.erasePendingSub ack.packetId).acceptSub sub qos).requests topic =
          b.requests topic := by
        rw [Book.requests, Book.requests, hcount]
        rfl
      rw [Book.wanted, Book.wanted, htree, hrequests]
  · cases hresults.symm.trans herror

theorem Book.wanted_acknowledge (key : IdType) (n : Notifier) (b : Book) (topic : Str) :
    (b.acknowledge key n).wanted topic = b.wanted topic := by
  rcases b.acknowledge_cases key n with ⟨-, heq⟩ | ⟨-, heq⟩ <;> rw [heq] <;> rfl

theorem PacketEffect.wanted {pkt : IncomingPacket} {b b' : Book} (h : PacketEffect pkt b b')
    (haccepts : ∀ ack, pkt = .subAck ack → ack.accepting)
    (hvalid : ∀ id sub, b.pendingSubs.lookup id = some sub → validFilter sub.topic = true)
    (topic : Str) : b'.wanted topic = b.wanted topic := by
  cases h with
  | subAck ack => exact Book.wanted_processSubAck (haccepts ack rfl) hvalid topic
  | dispatch msg | recordDispatch msg pkt =>
    exact Book.wanted_congr (SubscriptionSet.isSubscribed_dispatch msg _ _ topic) rfl
  | pubAck ack | pubRecAgain rec | pubComp comp => exact b.wanted_acknowledge _ _ topic
  | pubRec rec pkt => exact (b.insertPending _ pkt).wanted_acknowledge _ _ topic
  | _ => rfl

/-! ## Commands -/

/-- The command does not lose track of a request. A `Subscribe` command does if its topic is
sent to the broker and the tree cannot hold it, or if it is requested with an identifier that
is still in use. An `Unsub` command does if the topic is subscribed and requested once more. -/
def Book.keepsTrack (b : Book) : Command → Bool
  | .subscribe cmd =>
    b.subscriptions.isSubscribed cmd.topic || b.subscriptions.rejects cmd.topic ||
      (validFilter cmd.topic && (b.pendingSubs.lookup b.shared.nextPacketId).isNone)
  | .unsub ⟨topic, .immediate⟩ => !(b.subscriptions.isSubscribed topic && b.requests topic)
  | _ => true

theorem Book.keepsTrack_request {b : Book} {cmd : SubscribeCommand}
    (h : b.keepsTrack (.subscribe cmd) = true)
    (hsub : b.subscriptions.isSubscribed cmd.topic = false)
    (haccepts : b.subscriptions.rejects cmd.topic = false) :
    validFilter cmd.topic = true ∧ b.pendingSubs.lookup b.shared.nextPacketId = none := by
  simpa [Book.keepsTrack, hsub, haccepts] using h

/-- A topic is requested with an identifier that is free. -/
theorem Book.wanted_requestSub {b : Book} {cmd : SubscribeCommand} (pkt : Packet)
    (hfree : b.pendingSubs.lookup b.shared.nextPacketId = none) (topic : Str) :
    (b.requestSub cmd pkt).wanted topic = (b.wanted topic || decide (cmd.topic = topic)) := by
  have hcount := Table.count_insert (PendingSub.asks topic) b.shared.nextPacketId
    ⟨cmd.topic, cmd.kind, pkt⟩ b.pendingSubs
  rw [hfree, Table.hit_none, Nat.add_zero, Table.hit_some] at hcount
  have hrequests : (b.requestSub cmd pkt).requests topic =
      (b.requests topic || decide (cmd.topic = topic)) := by
    show decide (0 < Table.count _ (b.pendingSubs.insert _ _)) = _
    rw [hcount, Book.requests]
    by_cases here : cmd.topic = topic <;> simp [PendingSub.asks, here]
  rw [Book.wanted, hrequests, Book.wanted, Bool.or_assoc]
  rfl

theorem Book.wanted_forgetTopic {b : Book} {forgotten : Str}
    (hidle : b.requests forgotten = false) (topic : Str) :
    (b.forgetTopic forgotten).wanted topic = (b.wanted topic && !decide (topic = forgotten)) := by
  have htree : (b.forgetTopic forgotten).subscriptions.isSubscribed topic = _ :=
    SubscriptionSet.isSubscribed_clear b.subscriptions forgotten topic
  have hrequests : (b.forgetTopic forgotten).requests topic = b.requests topic := rfl
  rw [Book.wanted, htree, hrequests, Book.wanted]
  by_cases here : topic = forgotten
  · subst here
    simp [hidle]
  · simp [here]

theorem PublishCommand.Fits.turns {cmd : PublishCommand} (h : cmd.Fits) (dup : Bool)
    (topic : Str) : (InternalPacket.asks ⟨cmd.packet, dup⟩).turns topic = none := by
  rw [h dup, PublishCommand.asks]
  split <;> rfl

/-- A command hands over what it makes of its topic. -/
theorem CommandWork.voiced {cmd : Command} {o : Option Fault} (h : CommandWork cmd o d d')
    (hd : d.Voiced) (hfits : cmd.Fits) (hkeeps : d.book.keepsTrack cmd = true)
    (hencoded : ∀ topic, d.book.subscriptions.isSubscribed topic = true →
      fitsField topic = true) : d'.Voiced := by
  have hnone : ∀ p : InternalPacket, (∀ topic, p.asks.turns topic = none) →
      ∀ p' ∈ [p], ∀ topic on, p'.asks.turns topic = some on → on = d.book.wanted topic := by
    intro p hp p' hp' topic on hon
    rw [List.mem_singleton.mp hp', hp topic] at hon
    cases hon
  have hquiet : d'.handed = d.handed →
      (∀ topic, d'.book.wanted topic = d.book.wanted topic) → d'.Voiced := by
    intro hhanded hwants
    refine hd.same [] ?_ hwants (List.forall_mem_nil _)
    rw [hhanded, List.append_nil]
  have hsubscribe : ∀ (cmd' : SubscribeCommand) (pkt : Packet), cmd = .subscribe cmd' →
      d.book.subscriptions.rejects cmd'.topic = false →
      d.book.subscriptions.isSubscribed cmd'.topic = false →
      makePacket (⟨d.book.shared.nextPacketId, [(cmd'.topic, cmd'.qos)]⟩ : SubscribePacket) =
        .ok pkt → d'.handed = d.handed ++ [⟨pkt, false⟩] →
      d'.book = d.book.requestSub cmd' pkt → d'.Voiced := by
    rintro cmd' pkt rfl haccepts hunsub hpkt hhanded hbook topic
    obtain ⟨-, hfree⟩ := Book.keepsTrack_request hkeeps hunsub haccepts
    rw [hhanded, turned_concat, hbook, Book.wanted_requestSub pkt hfree, hd topic,
      InternalPacket.asks_first, asks_subscribe hpkt, Asked.turns]
    by_cases here : cmd'.topic = topic <;> simp [here]
  cases h with
  | publishOnce cmd _ io _ qos =>
    exact hd.same _ rfl (fun _ => rfl) (hnone _ (PublishCommand.Fits.turns hfits false))
  | publish cmd t _ io _ qos =>
    refine hd.same [⟨cmd.packet, false⟩] ?_ (fun topic => ?_)
      (hnone _ (PublishCommand.Fits.turns hfits false))
    · rw [Desk.handed_hand, Desk.handed_track]
    · rw [Desk.book_hand, Desk.book_track]
      rfl
  | reject | subscribePanic | keep | disconnect => exact hquiet rfl fun _ => rfl
  | add cmd _ subscribed =>
    refine hquiet rfl fun topic => Book.wanted_congr ?_ rfl
    exact SubscriptionSet.isSubscribed_update (Subscription.subscribed_add cmd.kind)
      d.book.subscriptions cmd.topic topic
  | subscribe cmd pkt t _ accepted unsubscribed encoded =>
    exact hsubscribe cmd pkt rfl accepted unsubscribed encoded rfl rfl
  | subscribeCut cmd pkt e _ accepted unsubscribed encoded =>
    exact hsubscribe cmd pkt rfl accepted unsubscribed encoded rfl rfl
  | removeCallback changed id =>
    refine hquiet rfl fun topic => Book.wanted_congr ?_ rfl
    exact SubscriptionSet.isSubscribed_update (Subscription.subscribed_removeFastCallback id)
      d.book.subscriptions changed topic
  | unsubscribePanic forgotten p _ subscribed failed =>
    obtain ⟨pkt, hpkt⟩ := makeUnsubscribe_of_fits d.book.shared.nextPacketId
      (hencoded forgotten subscribed)
    cases hpkt.symm.trans failed
  | unsubscribe forgotten pkt t _ io _ subscribed encoded =>
    have hidle : d.book.requests forgotten = false := by
      simpa [Book.keepsTrack, subscribed] using hkeeps
    intro topic
    rw [Desk.handed_hand, Desk.handed_track, Desk.book_hand, Desk.book_track]
    show turned topic (d.handed ++ [_]) = (d.book.forgetTopic forgotten).wanted topic
    rw [turned_concat, Book.wanted_forgetTopic hidle, hd topic, InternalPacket.asks_first,
      asks_unsubscribe encoded, Asked.turns]
    by_cases here : topic = forgotten
    · simp [here]
    · simp [here, Ne.symm here]

end Works

/-- A `SUBSCRIBE` is not kept among the other packets. -/
theorem IdType.Fits.not_subscribe {key : IdType} {pkt : Packet} (h : key.Fits pkt) (id : UInt16)
    (topic : Str) : InternalPacket.asks ⟨pkt, key.ty == PacketType.publish⟩ ≠
      .subscribe id topic := by
  rcases h.asks with ⟨_, -, hasks⟩ | hasks | ⟨-, hasks⟩ | ⟨_, hasks⟩ <;> rw [hasks] <;> nofun

/-! ## Runs of the client -/

namespace System

variable {τ : Type} [Transport τ] {s s' : System τ}

/-- The packet does not unsubscribe a topic that the task wants. -/
def current (s : System τ) (p : InternalPacket) : Bool :=
  match p.asks with
  | .unsubscribe _ topic => !s.tx.wanted topic
  | _ => true

/-- No timeout that a tick can find expired is that of a pending `UNSUBSCRIBE` of a topic that
the task wants. -/
def alarmCurrent (s : System τ) : Bool :=
  s.tx.timeoutQueue.all fun x => !s.tx.expires x ||
    (s.tx.pendingPacket x.packetId).all fun pkt => s.current ⟨pkt, x.packetId.ty == .publish⟩

/-- When the alarm ticks, no `UNSUBSCRIBE` is due of a topic that is subscribed or requested
again, and no command loses track of a request. -/
def keepsTopics (s : System τ) : Event → Bool
  | .task .alarm => s.alarmCurrent
  | .task e => (s.consumed e).all s.tx.keepsTrack
  | .client _ => true

/-- What is known in runs under this condition. -/
structure Speaks (s : System τ) : Prop where
  filed : Filed s
  encodable : ∃ r, s.Encodable r
  valid : ∀ id sub, s.tx.pendingSubs.lookup id = some sub → validFilter sub.topic = true
  voiced : s.tx.desk.Voiced

omit [Transport τ] in
theorem Speaks.fits (h : Speaks s) {topic : Str}
    (hsub : s.tx.subscriptions.isSubscribed topic = true) : fitsField topic = true := by
  obtain ⟨r, hr⟩ := h.encodable
  exact hr.subscribed topic ((hr.established.isSubscribed topic).trans hsub)

omit [Transport τ] in
theorem not_alarm_of_consumed {e : TaskEvent} {cmd : Command} (h : s.consumed e = some cmd) :
    e ≠ .alarm := by
  rintro rfl
  cases (consumed_select h).2

omit [Transport τ] in
theorem keepsTrack_of_keepsTopics {e : TaskEvent} {cmd : Command}
    (hkeeps : s.keepsTopics (.task e) = true) (htaken : s.consumed e = some cmd) :
    s.tx.keepsTrack cmd = true := by
  have hne := not_alarm_of_consumed htaken
  cases e with
  | alarm => exact absurd rfl hne
  | _ => simpa [keepsTopics, htaken] using hkeeps

/-- Only the alarm and the commands say something about topics. -/
theorem Handing.silent {e : TaskEvent} {d : Desk} {p : InternalPacket} (h : Handing s e d p)
    (hcommand : s.consumed e = none) (halarm : e ≠ .alarm) (topic : Str) :
    p.asks.turns topic = none := by
  cases h with
  | plain asks =>
    rw [asks]
    rfl
  | publish cmd taken | subscribe cmd taken | unsubscribe _ taken =>
    cases hcommand.symm.trans taken
  | release rec arrived connected packet =>
    rw [packet, InternalPacket.asks_first, asks_pubRel]
    rfl
  | again key pkt tick => exact absurd tick halarm

/-- A `SUBSCRIBE` that the alarm sends again is one that is pending. -/
theorem Handing.subscribes {d : Desk} {p : InternalPacket} (h : Handing s .alarm d p)
    (hs : Filed s) {id : UInt16} {topic : Str} (hasks : p.asks = .subscribe id topic) :
    s.tx.requests topic = true := by
  cases h with
  | plain other => cases other.symm.trans hasks
  | publish cmd taken | subscribe cmd taken | unsubscribe _ taken =>
    exact absurd rfl (not_alarm_of_consumed taken)
  | release rec arrived => cases (arriving_reading arrived).2
  | again key pkt tick pending packet =>
    subst packet
    rcases Desk.pendingPacket_cases pending with ⟨hty, sub, hsub, rfl⟩ | ⟨-, pending⟩
    · rw [hty] at hasks
      cases (hs.subs _ _ hsub).symm.trans hasks
      exact Book.requests_of_lookup hsub
    · exact absurd hasks ((hs.packets _ _ pending).not_subscribe id topic)

/-- What the alarm sends again is what the task wants. -/
theorem Handing.wanted {d : Desk} {p : InternalPacket} (h : Handing s .alarm d p)
    (hs : Filed s) (hcurrent : s.current p = true) {topic : Str} {on : Bool}
    (hon : p.asks.turns topic = some on) : on = s.tx.wanted topic := by
  unfold Asked.turns at hon
  split at hon
  · rename_i id t hasks
    split at hon
    · rename_i here
      cases hon
      subst here
      rw [Book.wanted, h.subscribes hs hasks, Bool.or_true]
    · cases hon
  · rename_i id t hasks
    split at hon
    · rename_i here
      cases hon
      subst here
      simp only [current, hasks] at hcurrent
      exact (Bool.not_eq_true' _).mp hcurrent |>.symm
    · cases hon
  · cases hon

/-- The alarm sends nothing that the task does not want. -/
theorem current_of_alarm (hs : Filed s) (hkeeps : s.alarmCurrent = true)
    (hstep : s.taskStep .alarm = some s') {ps : List InternalPacket}
    (hps : s'.tx.link.handed = s.tx.link.handed ++ ps) : ps.all s.current = true := by
  obtain ⟨-, htx⟩ := alarm_taskStep hstep
  obtain ⟨qs, hqs, hall⟩ := Transceiver.handed_onAlarm s.tx
  rw [htx, hqs] at hps
  obtain rfl := List.append_cancel_left hps
  refine List.all_eq_true.mpr fun p hp => ?_
  rcases hall p hp with rfl | ⟨x, hx, hexpires, pkt, hpending, rfl⟩
  · have hping : s.tx.pingReq.asks = .other := by
      rw [hs.ping]
      exact asks_other makePacket_pingReq (by decide)
    rw [current, InternalPacket.asks_first, hping]
  · have hdue := List.all_eq_true.mp hkeeps x hx
    rwa [hexpires, Bool.not_true, Bool.false_or, hpending, Option.all_some] at hdue

/-- A packet that arrives changes nothing that the task wants. -/
theorem PacketWork.voiced {e : TaskEvent} {pkt : IncomingPacket} {cut : Option IoError} {d : Desk}
    (h : PacketWork pkt cut (s.tx.desk.onBook (Book.logReceived pkt)) d) (hs : Speaks s)
    (arrived : s.arriving e = some pkt) (connected : s.tx.connectSig = false)
    (haccepts : ∀ ack, pkt = .subAck ack → ack.accepting) : d.Voiced := by
  obtain ⟨ps, hhanded, hps⟩ := packet_handing h hs.filed arrived connected
  have halarm : e ≠ .alarm := by
    rintro rfl
    cases (arriving_reading arrived).2
  refine hs.voiced.same ps hhanded (fun topic => h.effect.wanted haccepts hs.valid topic) ?_
  intro p hp topic on hon
  cases ((hps p hp).silent (not_consumed arrived) halarm topic).symm.trans hon

theorem Work.voiced {e : TaskEvent} {o : Option Fault} {d : Desk} (h : Work s e o d)
    (hs : Speaks s) (hkeeps : s.keepsTopics (.task e) = true)
    (haccepts : ∀ ack, s.arriving e = some (.subAck ack) → ack.accepting)
    (hcurrent : e = .alarm → ∀ ps, d.handed = s.tx.link.handed ++ ps →
      ps.all s.current = true) : d.Voiced := by
  have hplain : ∀ p : InternalPacket, p.asks = .other →
      ∀ q ∈ [p], ∀ topic on, q.asks.turns topic = some on → on = s.tx.wanted topic := by
    intro p hp q hq topic on hon
    rw [List.mem_singleton.mp hq, hp] at hon
    cases hon
  cases h with
  | idle same =>
    rw [same]
    exact hs.voiced
  | connect pkt boot waits handed =>
    rw [handed]
    exact hs.voiced.same _ rfl (fun _ => rfl) (hplain _ (hs.filed.connect boot pkt waits))
  | connAck pkt arrived waiting book =>
    rw [book]
    exact hs.voiced
  | packet pkt cut arrived connected ends work =>
    exact PacketWork.voiced work hs arrived connected
      fun ack hack => haccepts ack (hack ▸ arrived)
  | command cmd rest queue taken connected work =>
    exact work.voiced hs.voiced (hs.filed.queue cmd (consumed_mem taken))
      (keepsTrack_of_keepsTopics hkeeps taken) fun topic hsub => hs.fits hsub
  | alarm cut ends work tick =>
    subst tick
    obtain ⟨ps, hhanded, hps⟩ := alarm_handing work hs.filed rfl d
    have hall := List.all_eq_true.mp (hcurrent rfl ps hhanded)
    refine hs.voiced.same ps hhanded (fun topic => by rw [work.book]) ?_
    intro p hp topic on hon
    exact (hps p hp).wanted hs.filed (hall p hp) hon
  | disconnect stopping connected handed =>
    rw [handed]
    exact hs.voiced.same _ rfl (fun _ => rfl)
      (hplain _ (asks_other makePacket_disconnect (by decide)))

/-- A topic is requested only if the tree can hold it. -/
theorem Speaks.valid_taskStep (h : Speaks s) {e : TaskEvent} (hstep : s.taskStep e = some s')
    (hkeeps : s.keepsTopics (.task e) = true) {id : UInt16} {sub : PendingSub}
    (hsub : s'.tx.pendingSubs.lookup id = some sub) : validFilter sub.topic = true := by
  rcases pendsSub_taskStep hstep hsub with hold | ⟨cmd, htaken, -, htopic, -, -, haccepts⟩
  · exact h.valid id sub hold
  rw [htopic]
  by_contra hinvalid
  rw [Bool.not_eq_true] at hinvalid
  have hunsub : s.tx.subscriptions.isSubscribed cmd.topic = false :=
    SubscriptionSet.isSubscribed_of_invalid hinvalid
  have hrequest := Book.keepsTrack_request (keepsTrack_of_keepsTopics hkeeps htaken) hunsub
    haccepts
  cases hinvalid.symm.trans hrequest.1

theorem Speaks.voiced_taskStep (h : Speaks s) {e : TaskEvent} (hstep : s.taskStep e = some s')
    (hkeeps : s.keepsTopics (.task e) = true)
    (haccepts : ∀ ack, s.arriving e = some (.subAck ack) → ack.accepting) :
    s'.tx.desk.Voiced := by
  have hcurrent : e = .alarm → ∀ ps, s'.tx.link.handed = s.tx.link.handed ++ ps →
      ps.all s.current = true := by
    rintro rfl ps hps
    exact current_of_alarm h.filed hkeeps hstep hps
  cases deskMove_of_taskStep hstep with
  | program tx p clean running leads work => exact work.voiced h hkeeps haccepts hcurrent
  | _ => exact h.voiced

theorem Speaks.step (h : Speaks s) {e : Event} (hstep : s.step e = some s')
    (hkeeps : s.keepsTopics e = true)
    (haccepts : ∀ te ack, e = .task te → s.arriving te = some (.subAck ack) → ack.accepting) :
    Speaks s' := by
  obtain ⟨r, hr⟩ := h.encodable
  have hencodable : ∃ r, s'.Encodable r := ⟨_, hr.step hstep⟩
  cases e with
  | client e =>
    have hsame := (clientMove_of_clientStep hstep).sameTask
    refine ⟨h.filed.step hstep, hencodable, hsame.pendingSubs ▸ h.valid, fun topic => ?_⟩
    have hwanted : s'.tx.wanted topic = s.tx.wanted topic :=
      Book.wanted_congr (congrArg (SubscriptionSet.isSubscribed · topic) hsame.subscriptions)
        hsame.pendingSubs
    show turned topic s'.tx.link.handed = s'.tx.wanted topic
    rw [hsame.link, hwanted]
    exact h.voiced topic
  | task e =>
    exact ⟨h.filed.step hstep, hencodable, fun _ _ => h.valid_taskStep hstep hkeeps,
      h.voiced_taskStep hstep hkeeps fun ack => haccepts e ack rfl⟩

theorem speaks_spawn {setup : Setup τ} {connect : ConnectPacket}
    (hconnect : makePacket connect = .ok setup.connectPacket) : Speaks (spawn setup) where
  filed := filed_spawn hconnect
  encodable := ⟨_, .empty setup, fun _ _ h => (by cases h), fun _ h => (by cases h)⟩
  valid _ _ h := by cases h
  voiced topic := (Bool.or_eq_false_iff.mpr ⟨SubscriptionSet.isSubscribed_default topic,
    Book.requests_of_empty (fun _ => rfl) topic⟩).symm

end System

end Lmc
