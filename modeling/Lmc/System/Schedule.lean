import Lmc.System.Moves
import Lmc.Task.Progress

/-!
# Packets that are sent until they are acknowledged

A packet that may have to be sent again is in `pendingPackets` or `pendingSubs`, and a
timeout in the queue of the alarm stands for it. The two are changed in different places:
an acknowledgement removes the packet and leaves its timeout behind, and the alarm takes
timeouts away before it schedules new ones. `Desk.Scheduled` says that no packet is
pending without a timeout. It is kept by every handler that is not cut short by a failure
of the transport, and so by every step of such a run. The timeouts are in the order of
their times, whatever the transport does, since each is made with the time of its making.
-/

namespace Lmc

/-! ## Desks -/

/-- Nothing is pending behind the change that was not pending before. -/
structure Book.Sheds (b b' : Book) : Prop where
  packets : ∀ id pkt, b'.pendingPackets.lookup id = some pkt →
    ∃ pkt', b.pendingPackets.lookup id = some pkt'
  subs : ∀ id sub, b'.pendingSubs.lookup id = some sub → b.pendingSubs.lookup id = some sub

namespace Book.Sheds

variable {b b' : Book}

theorem same (packets : b'.pendingPackets = b.pendingPackets)
    (subs : b'.pendingSubs = b.pendingSubs) : Sheds b b' where
  packets _ pkt h := ⟨pkt, packets ▸ h⟩
  subs _ _ h := subs ▸ h

theorem erasePending (id : IdType) (b : Book) : Sheds b (b.erasePending id) where
  packets id' pkt h := by
    change (b.pendingPackets.erase id).lookup id' = some pkt at h
    rw [Table.lookup_erase] at h
    split at h
    · cases h
    · exact ⟨pkt, h⟩
  subs _ _ h := h

theorem acknowledge (id : IdType) (n : Notifier) (b : Book) : Sheds b (b.acknowledge id n) := by
  rcases b.acknowledge_cases id n with ⟨-, heq⟩ | ⟨-, heq⟩ <;> rw [heq]
  · exact erasePending id b
  · exact ⟨(erasePending id b).packets, fun _ _ h => h⟩

theorem processSubAck (ack : SubAckPacket) (b : Book) : Sheds b (b.processSubAck ack) := by
  refine ⟨fun _ pkt h => ⟨pkt, ?_⟩, fun id sub h => ?_⟩
  · rwa [pendingPackets_processSubAck] at h
  · rw [lookup_pendingSubs_processSubAck] at h
    split at h
    · cases h
    · exact h

end Book.Sheds

namespace Desk

/-- A timeout stands for the key. -/
def Covers (d : Desk) (id : IdType) : Prop := ∃ x ∈ d.timeouts, x.packetId = id

/-- A timeout stands for every packet that is pending. -/
structure Scheduled (d : Desk) : Prop where
  packets : ∀ id pkt, d.book.pendingPackets.lookup id = some pkt → d.Covers id
  subs : ∀ id sub, d.book.pendingSubs.lookup id = some sub → d.Covers (.subscribe id)
  /-- The alarm looks for these in the other map. -/
  keys : ∀ id pkt, d.book.pendingPackets.lookup id = some pkt → id.ty ≠ .subscribe

variable {d d' : Desk}

theorem Scheduled.covers (h : Scheduled d) {id : IdType} {pkt : Packet}
    (hpkt : d.pendingPacket id = some pkt) : d.Covers id := by
  rcases pendingPacket_cases hpkt with ⟨hty, sub, hsub, -⟩ | ⟨-, hother⟩
  · obtain ⟨ty, id⟩ := id
    cases hty
    exact h.subs id sub hsub
  · exact h.packets id pkt hother

theorem Scheduled.shed (h : Scheduled d) (hbook : Book.Sheds d.book d'.book)
    (htimeouts : ∀ id, d.Covers id → d'.Covers id) : Scheduled d' where
  packets id pkt hpkt := by
    obtain ⟨pkt', hold⟩ := hbook.packets id pkt hpkt
    exact htimeouts _ (h.packets id pkt' hold)
  subs id sub hsub := htimeouts _ (h.subs id sub (hbook.subs id sub hsub))
  keys id pkt hpkt := by
    obtain ⟨pkt', hold⟩ := hbook.packets id pkt hpkt
    exact h.keys id pkt' hold

theorem Scheduled.onBook (h : Scheduled d) {f : Book → Book} (hf : Book.Sheds d.book (f d.book)) :
    Scheduled (d.onBook f) := h.shed hf fun _ hc => hc

theorem Scheduled.hand (h : Scheduled d) (pkt : InternalPacket) : Scheduled (d.hand pkt) :=
  h.shed (.same rfl rfl) fun _ hc => hc

theorem covers_schedule_self (t : Nat) (id : IdType) (d : Desk) : (d.schedule t id).Covers id :=
  ⟨⟨t, id⟩, List.mem_append_right _ List.mem_cons_self, rfl⟩

theorem Covers.schedule {id : IdType} (h : d.Covers id) (t : Nat) (id' : IdType) :
    (d.schedule t id').Covers id := by
  obtain ⟨x, hx, hid⟩ := h
  exact ⟨x, List.mem_append_left _ hx, hid⟩

/-- What becomes pending is scheduled, unless a timeout stands for its key already. -/
theorem Scheduled.track (h : Scheduled d) (t : Nat) {id : IdType} (hid : id.ty ≠ .subscribe)
    (pkt : Packet) : Scheduled (d.track t id pkt) := by
  have hcovers : ∀ id', d.Covers id' → (d.track t id pkt).Covers id' := by
    intro id' hc
    unfold Desk.track
    split
    · exact hc
    · exact hc.schedule t id
  have hself : (d.track t id pkt).Covers id := by
    cases hp : d.book.pendingPackets.lookup id with
    | some p => exact hcovers id (h.packets id p hp)
    | none =>
      rw [Desk.track, hp]
      exact covers_schedule_self t id _
  refine ⟨fun id' p hp => ?_, fun id' sub hsub => ?_, fun id' p hp => ?_⟩
  · rw [book_track] at hp
    change (d.book.pendingPackets.insert id pkt).lookup id' = some p at hp
    rw [Table.lookup_insert] at hp
    split at hp
    · rename_i heq
      exact heq ▸ hself
    · exact hcovers id' (h.packets id' p hp)
  · rw [book_track] at hsub
    exact hcovers _ (h.subs id' sub hsub)
  · rw [book_track] at hp
    change (d.book.pendingPackets.insert id pkt).lookup id' = some p at hp
    rw [Table.lookup_insert] at hp
    split at hp
    · rename_i heq
      exact heq ▸ hid
    · exact h.keys id' p hp

theorem Scheduled.requestSub (h : Scheduled d) (cmd : SubscribeCommand) (pkt : Packet) (t : Nat) :
    Scheduled (((d.onBook (Book.requestSub cmd pkt)).hand ⟨pkt, false⟩).schedule t
      (.subscribe d.book.shared.nextPacketId)) where
  packets id p hp := (h.packets id p hp : d.Covers id).schedule t _
  subs id sub hsub := by
    change (d.book.pendingSubs.insert d.book.shared.nextPacketId _).lookup id = some sub at hsub
    rw [Table.lookup_insert] at hsub
    split at hsub
    · rename_i heq
      exact heq ▸ covers_schedule_self t _ _
    · exact (h.subs id sub hsub : d.Covers _).schedule t _
  keys id p hp := h.keys id p hp

/-! ## Works -/

theorem Scheduled.packet {pkt : IncomingPacket} (h : Scheduled d)
    (hwork : PacketWork pkt none d d') : Scheduled d' := by
  have hdispatch : ∀ (msg : IncomingPublishPacket) (d : Desk), Scheduled d →
      Scheduled (d.onBook (Book.dispatch msg)) := fun msg d h => h.onBook (.same rfl rfl)
  cases hwork with
  | connAck ack => exact h
  | pingResp => exact h
  | subAck ack => exact h.onBook (.processSubAck ack _)
  | dispatch msg qos => exact hdispatch msg _ h
  | answer msg _ _ qos => exact hdispatch msg _ (h.hand _)
  | answerAgain msg pkt _ _ qos known => exact h.hand _
  | record msg t _ _ qos new =>
    exact hdispatch msg _ ((h.track t PacketType.noConfusion _).hand _)
  | pubAck ack => exact h.onBook (.acknowledge _ _ _)
  | releaseAgain rec pkt _ _ known => exact (h.hand _).onBook (.acknowledge _ _ _)
  | release rec t _ _ new =>
    exact ((h.track t PacketType.noConfusion _).hand _).onBook (.acknowledge _ _ _)
  | pubRel rel _ _ => exact (h.onBook (.erasePending _ _)).hand _
  | pubComp comp => exact h.onBook (.acknowledge _ _ _)
  | unsubAck ack => exact h.onBook (.erasePending _ _)

theorem Scheduled.command {cmd : Command} {o : Option Fault} (h : Scheduled d)
    (ho : ∀ e, o ≠ some (.io e)) (hwork : CommandWork cmd o d d') : Scheduled d' := by
  cases hwork with
  | publishOnce cmd _ io _ qos => exact h.hand _
  | publish cmd t _ io _ qos => exact (h.track t PacketType.noConfusion _).hand _
  | reject cmd _ rejects => exact h
  | add cmd _ subscribed => exact h.onBook (.same rfl rfl)
  | subscribePanic cmd p => exact h.onBook (.same rfl rfl)
  | subscribe cmd pkt t _ accepted unsubscribed encoded => exact h.requestSub cmd pkt t
  | subscribeCut cmd pkt e _ accepted unsubscribed encoded => exact absurd rfl (ho e)
  | removeCallback topic id => exact h.onBook (.same rfl rfl)
  | keep topic _ unsubscribed => exact h
  | unsubscribePanic topic p _ subscribed => exact h.onBook (.same rfl rfl)
  | unsubscribe topic pkt t _ io _ subscribed encoded =>
    exact ((h.onBook (.same rfl rfl)).track t PacketType.noConfusion _).hand _
  | disconnect => exact h

/-- A timeout that is taken away is scheduled again, or nothing is pending under its key. -/
theorem Scheduled.alarm {cut : Option IoError} (h : Scheduled d) (hwork : AlarmWork d cut d')
    (hcut : cut = none) : Scheduled d' := by
  have hrest : ∀ {d₁ : Desk} {x : Timeout} {rest : List Timeout}, d₁.timeouts = x :: rest →
      ∀ id, d₁.Covers id → id = x.packetId ∨ Covers { d₁ with timeouts := rest } id := by
    rintro d₁ x rest hqueue id ⟨y, hy, hid⟩
    rw [hqueue] at hy
    rcases List.mem_cons.mp hy with rfl | hy
    · exact Or.inl hid.symm
    · exact Or.inr ⟨y, hy, hid⟩
  induction hwork with
  | start => exact h
  | ping cut => exact h.hand _
  | settled d₁ before x rest queue gone ih =>
    have h₁ := ih rfl
    refine ⟨fun id pkt hpkt => ?_, fun id sub hsub => ?_, h₁.keys⟩
    · refine (hrest queue id (h₁.packets id pkt hpkt)).resolve_left ?_
      rintro rfl
      rw [pendingPacket, if_neg (h₁.keys _ pkt hpkt)] at gone
      cases gone.symm.trans hpkt
    · refine (hrest queue _ (h₁.subs id sub hsub)).resolve_left fun heq => ?_
      have hfound : d₁.pendingPacket (.subscribe id) = some sub.packet :=
        congrArg (Option.map PendingSub.packet) hsub
      rw [heq] at hfound
      cases gone.symm.trans hfound
  | resend d₁ before x rest queue pkt pending t ih =>
    have h₁ := ih rfl
    have hcovers : ∀ id, d₁.Covers id → Covers (({ d₁ with timeouts := rest }.hand
        ⟨pkt, x.packetId.ty == PacketType.publish⟩).schedule t x.packetId) id := by
      intro id hc
      rcases hrest queue id hc with rfl | hold
      · exact covers_schedule_self t _ _
      · exact Covers.schedule hold t _
    exact h₁.shed (.same rfl rfl) hcovers
  | resendCut d₁ before x rest queue pkt pending e ih => cases hcut

end Desk

/-! ## Runs -/

namespace System

open Runs Transceiver

variable {τ : Type} [Transport τ] {s s' : System τ} {e : Event}

/-- The transport fails in a step of the task. -/
def transportFails (s : System τ) : Event → Bool
  | .task e =>
    match s.outcome e with
    | some (.io _) => true
    | _ => false
  | .client _ => false

theorem outcome_ne_io {e : TaskEvent} (h : s.transportFails (.task e) = false) (err : IoError) :
    s.outcome e ≠ some (.io err) := by
  intro heq
  simp [transportFails, heq] at h

theorem cut_eq_none {e : TaskEvent} (h : s.transportFails (.task e) = false)
    {cut : Option IoError} (hcut : s.outcome e = cut.map .io) : cut = none := by
  cases cut with
  | none => rfl
  | some err => exact absurd hcut (outcome_ne_io h err)

/-- The rule for programs, for a step of the system. Clients and the sweep only change the
books. -/
theorem driven_step {R : Transceiver τ → Transceiver τ → Prop} [Std.Refl R]
    [IsTrans (Transceiver τ) R] (h : Driven R) (hstep : s.step e = some s')
    (hclose : s.phase = .select → e = .task .command → s.tx.cmdQueue = [] → s.handle = .dropped →
      R s.tx { s.tx with cmdQueueClosed := true })
    (hsent : s.phase = .flushing → e = .task .proceed →
      R s.tx { s.tx with disconnectSent := true }) : R s.tx s'.tx := by
  have hbook : ∀ b : Book, R s.tx { s.tx with toBook := b } := fun b => h.onBook (fun _ => b) s.tx
  cases e with
  | client e =>
    rw [(clientMove_of_clientStep hstep).onlyBook]
    exact hbook _
  | task e =>
    cases isTaskStep_of_taskStep hstep with
    | program x runs =>
      rw [tx_runProgram]
      refine h.program runs (fun hp he hqueue hgone => ?_) fun hp he => hsent hp (he ▸ rfl)
      exact hclose hp (he ▸ rfl) hqueue (of_decide_eq_true hgone)
    | _ => exact hbook _

theorem onward_step (hstep : s.step e = some s') : Onward s.tx s'.tx :=
  driven_step onward_driven hstep (fun _ _ _ _ => .same rfl rfl rfl rfl)
    fun _ _ => .same rfl rfl rfl rfl

omit [Transport τ] in
theorem scheduled_spawn (setup : Setup τ) : (spawn setup).tx.desk.Scheduled := by
  refine ⟨fun _ _ hp => ?_, fun _ _ hp => ?_, fun _ _ hp => ?_⟩ <;> cases hp

/-- A step in which the transport does not fail keeps everything scheduled. -/
theorem scheduled_step (h : s.tx.desk.Scheduled) (hok : s.transportFails e = false)
    (hstep : s.step e = some s') : s'.tx.desk.Scheduled := by
  cases e with
  | client e =>
    have hsame := (clientMove_of_clientStep hstep).sameTask
    refine h.shed (.same hsame.pendingPackets hsame.pendingSubs) fun id hc => ?_
    obtain ⟨x, hx, hid⟩ := hc
    exact ⟨x, by rw [show s'.tx.desk.timeouts = _ from hsame.timeoutQueue]; exact hx, hid⟩
  | task e =>
    cases deskMove_of_taskStep hstep with
    | program tx p clean running leads work =>
      show tx.desk.Scheduled
      cases work with
      | idle same => exact same ▸ h
      | connect pkt boot waits handed => exact handed ▸ h.hand _
      | connAck pkt arrived waiting book => exact book ▸ h.onBook (.same rfl rfl)
      | packet pkt cut arrived connected ends work =>
        cases cut_eq_none hok ends
        exact (h.onBook (.same rfl rfl)).packet work
      | command cmd rest queue taken connected work =>
        exact (h.onBook (.same rfl rfl)).command (outcome_ne_io hok) work
      | alarm cut ends work => exact h.alarm work (cut_eq_none hok ends)
      | disconnect stopping connected handed => exact handed ▸ h.hand _
    | finish status ended => exact h
    | fail n next stage => exact h.shed (.same rfl rfl) fun _ hc => hc
    | drain stage => exact h.shed (.same rfl rfl) fun _ hc => hc
    | wake stage => exact h.shed (.same rfl rfl) fun _ hc => hc
    | drop status ended => exact h.shed (.same rfl rfl) fun _ hc => hc

/-- In every run the timeouts are in order, if the clock does not go back. -/
theorem ordered_of_reaches {cond : System τ → Event → Prop} {setup : Setup τ}
    (hclock : Monotone setup.clock) (h : Reaches System.step cond (spawn setup) s) :
    Monotone s.tx.link.clock ∧ s.tx.Ordered := by
  refine h.invariant (I := fun s => Monotone s.tx.link.clock ∧ s.tx.Ordered)
    ⟨hclock, .nil, nofun⟩ ?_
  rintro s e s' ⟨hmono, hordered⟩ - hstep
  have honward := onward_step hstep
  exact ⟨honward.clock ▸ hmono, honward.ordered hmono hordered⟩

end System

end Lmc
