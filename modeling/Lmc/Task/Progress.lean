import Mathlib.Order.Monotone.Defs
import Lmc.Task.Desk
import Lmc.Wire.Liveness

/-!
# What only grows

The programs of the task are made of a few parts: changes of the books, timeouts, packets
handed over, and work of the output that hands over nothing. A preorder on the states of
the task that each part respects is respected by every program, however it ends; this is
the rule `Driven`.

The first use of it is `Onward`: the bytes that the transport has accepted and the packets
handed over are kept and more may be added, the timeouts stay in the order of their times
if the clock does not go back, and the packet reader is only changed by calls of `recv`.
-/

namespace Lmc

open EStateLogic

namespace Transceiver

variable {τ α β : Type} [Transport τ]

/-! ## Parts of a program -/

/-- The parts of the handlers of packets: a change of the books, a timeout, a packet to
be sent. What each of them keeps is kept by handling a packet. -/
structure Handled (R : Transceiver τ → Transceiver τ → Prop) : Prop where
  onBook : ∀ f, Advances R (onBook f : TaskM τ Unit)
  schedule : ∀ id, Advances R (scheduleTimeout id : TaskM τ Unit)
  queue : ∀ pkt setDup, Advances R (queueInternalPacket pkt setDup : TaskM τ Unit)

omit [Transport τ] in
theorem advances_encode {R : Transceiver τ → Transceiver τ → Prop} [Std.Refl R] [Encode α]
    (p : α) : Advances R (encode p : TaskM τ Packet) := by
  unfold encode
  cases makePacket p with
  | ok pkt => exact .pure _
  | error e => exact .throw _

namespace Handled

variable {R : Transceiver τ → Transceiver τ → Prop} [Std.Refl R] [IsTrans (Transceiver τ) R]

theorem queueWithTimeout (h : Handled R) (pkt : Packet) (id : IdType) :
    Advances R (queueInternalPacketWithTimeout pkt id : TaskM τ Unit) :=
  .bind .get fun _ => .bind (h.onBook _) fun _ =>
    .bind (.ite (.pure _) (h.schedule id)) fun _ => h.queue _ _

theorem processPublish (h : Handled R) (msg : IncomingPublishPacket) :
    Advances R (Transceiver.processPublish msg : TaskM τ Unit) := by
  unfold Transceiver.processPublish
  cases msg.info.flags.qos with
  | atMostOnce => exact h.onBook _
  | atLeastOnce =>
    exact .bind (advances_encode _) fun _ => .bind (h.queue _ _) fun _ => h.onBook _
  | exactlyOnce =>
    refine .bind .get fun tx => ?_
    cases tx.pendingPackets.lookup (.pubRec msg.info.packetId) with
    | some existing => exact h.queue _ _
    | none =>
      exact .bind (advances_encode _) fun _ => .bind (h.queueWithTimeout _ _) fun _ =>
        h.onBook _

theorem processPubRec (h : Handled R) (id : UInt16) :
    Advances R (Transceiver.processPubRec id : TaskM τ Unit) := by
  refine .bind (.bind .get fun tx => ?_) fun _ => h.onBook _
  cases tx.pendingPackets.lookup (.pubRel id) with
  | some existing => exact h.queue _ _
  | none => exact .bind (advances_encode _) fun _ => h.queueWithTimeout _ _

theorem handlePacket (h : Handled R) (pkt : IncomingPacket) :
    Advances R (Transceiver.handlePacket pkt : TaskM τ Unit) := by
  cases pkt with
  | connAck ack => exact .pure _
  | subAck ack => exact h.onBook _
  | publish msg => exact h.processPublish msg
  | pubAck ack => exact h.onBook _
  | pubRec rec => exact h.processPubRec _
  | pubRel rel =>
    exact .bind (h.onBook _) fun _ => .bind (advances_encode _) fun _ => h.queue _ _
  | pubComp comp => exact h.onBook _
  | unsubAck ack => exact h.onBook _
  | pingResp => exact .pure _

theorem processPacket (h : Handled R) (pkt : IncomingPacket) :
    Advances R (Transceiver.processPacket pkt : TaskM τ Bool) :=
  .bind .get fun _ => .ite (.bind (h.onBook _) fun _ => .pure _)
    (.bind (h.onBook _) fun _ => .bind (h.handlePacket pkt) fun _ => .pure _)

end Handled

/-- The parts of the programs of the phases. The two flags of the end of a run are not
among them. -/
structure Driven (R : Transceiver τ → Transceiver τ → Prop) : Prop extends Handled R where
  calm : ∀ {α : Type} {x : LinkM τ α}, Advances Link.Calm x → Advances R (onLink x)
  send : ∀ pkt setDup, Advances R (onLink (Link.sendPacket pkt setDup) : TaskM τ Unit)
  recv : Advances R (recvPacket : TaskM τ Incoming)
  popTimeout : ∀ tx x rest, tx.timeoutQueue = x :: rest → R tx { tx with timeoutQueue := rest }

namespace Driven

variable {R : Transceiver τ → Transceiver τ → Prop} [Std.Refl R] [IsTrans (Transceiver τ) R]

theorem sendSubscribe (h : Driven R) (cmd : SubscribeCommand) :
    Advances R (Transceiver.sendSubscribe cmd : TaskM τ Unit) :=
  .bind .get fun _ => .bind (h.onBook _) fun _ => .bind (advances_encode _) fun _ =>
    .bind (h.onBook _) fun _ => .bind (h.onBook _) fun _ =>
      .bind (h.send _ _) fun _ => h.schedule _

theorem onSubscribe (h : Driven R) (cmd : SubscribeCommand) :
    Advances R (Transceiver.onSubscribe cmd : TaskM τ Unit) := by
  refine .bind .get fun tx => ?_
  match tx.subscriptions.get cmd.topic with
  | .ok (some sub) => exact .ite (h.onBook _) (h.sendSubscribe cmd)
  | .ok none => exact h.sendSubscribe cmd
  | .error () => exact .pure _

theorem onUnsub (h : Driven R) (cmd : UnsubCommand) :
    Advances R (Transceiver.onUnsub cmd : TaskM τ Unit) := by
  unfold Transceiver.onUnsub
  cases cmd.kind with
  | fastCallback id => exact h.onBook _
  | immediate =>
    refine .bind .get fun tx => .bind (h.onBook _) fun _ => ?_
    split
    · exact .bind (h.onBook _) fun _ => .bind .get fun _ => .bind (h.onBook _) fun _ =>
        .bind (advances_encode _) fun _ => .bind (h.onBook _) fun _ => h.queueWithTimeout _ _
    · exact .pure _

theorem onPublish (h : Driven R) (cmd : PublishCommand) :
    Advances R (Transceiver.onPublish cmd : TaskM τ Unit) := by
  unfold Transceiver.onPublish
  split
  · exact h.send _ _
  · exact h.queueWithTimeout _ _

theorem onCommand (h : Driven R) (cmd : Command) :
    Advances R (Transceiver.onCommand (some cmd) : TaskM τ Bool) := by
  cases cmd with
  | disconnect => exact .pure _
  | publish cmd => exact .bind (h.onPublish cmd) fun _ => .pure _
  | subscribe cmd => exact .bind (h.onSubscribe cmd) fun _ => .pure _
  | unsub cmd => exact .bind (h.onUnsub cmd) fun _ => .pure _

/-- With no command left in the queue the round only closes it. -/
theorem commandRound (h : Driven R) {tx : Transceiver τ}
    (hclose : tx.cmdQueue = [] → R tx { tx with cmdQueueClosed := true }) :
    R tx (after Transceiver.commandRound tx) := by
  have htake : R tx (after takeCommand tx) ∧ ∀ cmd tx', takeCommand.run tx = .ok cmd tx' →
      cmd = none → tx.cmdQueue = [] ∧ tx' = tx := by
    unfold takeCommand
    refine ⟨Advances.bind .get (fun tx => ?_) tx, fun cmd tx' hrun hcmd => ?_⟩
    · cases tx.cmdQueue with
      | nil => exact .pure _
      | cons cmd rest => exact .bind (h.onBook _) fun _ => .pure _
    · rw [EStateM.run_bind, EStateM.run_get] at hrun
      cases hqueue : tx.cmdQueue with
      | nil =>
        simp only [hqueue] at hrun
        cases hrun
        exact ⟨rfl, rfl⟩
      | cons c rest =>
        simp only [hqueue] at hrun
        cases hrun
        cases hcmd
  refine Advances.bind_at htake.1 fun cmd tx' hrun => Advances.bind_at ?_ fun stop tx'' _ => ?_
  · cases cmd with
    | none =>
      obtain ⟨hqueue, rfl⟩ := htake.2 _ _ hrun rfl
      exact hclose hqueue
    | some cmd => exact h.onCommand cmd tx'
  · exact Advances.ite (.pure _) (.pure _) tx''

theorem resend (h : Driven R) (id : IdType) :
    Advances R (Transceiver.resend id : TaskM τ Unit) := by
  refine .bind .get fun tx => ?_
  cases tx.pendingPacket id with
  | none => exact .pure _
  | some pkt => exact .bind (h.queue _ _) fun _ => h.schedule _

/-- A timeout is taken from the front, which the reading of the clock in between leaves as
it is. -/
theorem resendLoop (h : Driven R) (n : Nat) :
    Advances R (Transceiver.resendLoop n : TaskM τ Unit) := by
  induction n with
  | zero => exact .pure _
  | succ n ih =>
    intro tx
    refine Advances.bind_at (refl_of R tx) ?_
    rintro _ _ ⟨⟩
    cases hqueue : tx.timeoutQueue with
    | nil => exact refl_of R tx
    | cons x rest =>
      refine Advances.bind_at (h.calm Link.calm_now tx) ?_
      rintro t _ ⟨⟩
      refine Advances.bind_at (refl_of R _) ?_
      rintro _ _ ⟨⟩
      split
      · exact refl_of R _
      · exact Advances.bind_at (h.popTimeout _ x rest hqueue) fun _ tx' _ =>
          Advances.bind (h.resend x.packetId) (fun _ => ih) tx'

theorem onAlarm (h : Driven R) : Advances R (Transceiver.onAlarm : TaskM τ Unit) := by
  refine .bind .get fun _ => .ite (.bind ?_ fun _ => .bind .get fun _ => h.resendLoop _) (.pure _)
  exact .bind (h.calm Link.calm_now) fun _ => .bind .get fun _ => .ite
    (.bind (h.calm Link.calm_stampLastTx) fun _ => h.queue _ _) (.pure _)

omit [Std.Refl R] [IsTrans (Transceiver τ) R] in
theorem onTransport (h : Driven R) (op : τ → Except IoError α × τ) :
    Advances R (Transceiver.onTransport op) := h.calm (calm_onTransport op)

theorem bootstrap (h : Driven R) : Advances R (Transceiver.bootstrap : TaskM τ Unit) := by
  refine .bind .get fun tx => ?_
  cases tx.link.txPkt with
  | none => exact .pure _
  | some pkt => exact .bind (h.calm (Link.calm_setTx _)) fun _ => h.send _ _

theorem writeRound (h : Driven R) (onClosed again next : Phase) :
    Advances R (Transceiver.writeRound onClosed again next : TaskM τ Phase) := by
  refine .bind (.recover (h.calm Link.calm_writeOnce) _) fun r => ?_
  match r with
  | some true => exact .pure _
  | some false => exact .pure _
  | none => exact .pure _

theorem readRound (h : Driven R) : Advances R (Transceiver.readRound : TaskM τ Phase) := by
  refine .bind h.recv fun found => ?_
  cases found with
  | packet pkt => exact .bind (h.processPacket pkt) fun _ => .ite (.pure _) (.pure _)
  | closed => exact .pure _
  | again => exact .pure _
  | idle => exact .pure _

omit [Transport τ] [IsTrans (Transceiver τ) R] in
theorem advances_awaitReady (ready : Except IoError Unit) :
    Advances R (awaitReady ready : TaskM τ Unit) := by
  cases ready with
  | ok u => exact .pure _
  | error e => exact .throw _

theorem readyWrite (h : Driven R) (ready : Except IoError Unit) (next : Phase) :
    Advances R (Transceiver.readyWrite ready next : TaskM τ Phase) :=
  .bind (advances_awaitReady _) fun _ => .bind (h.onTransport _) fun _ => .pure _

theorem readyRead (h : Driven R) (ready : Except IoError Unit) (next idle : Phase) :
    Advances R (Transceiver.readyRead ready next idle : TaskM τ Phase) :=
  .bind (advances_awaitReady _) fun _ => .bind (h.onTransport _) fun _ => .pure _

/-- Every program of the task is made of these parts, and of the two flags: the command
queue is marked closed when it is empty and the senders are gone, the disconnect as sent
at the end of its flush. -/
theorem program (h : Driven R) {tx : Transceiver τ} {gone : Bool} {p : Phase} {e : TaskEvent}
    {x : TaskM τ Phase} (hx : tx.program gone p e = some x)
    (hclose : p = .select → e = .command → tx.cmdQueue = [] → gone = true →
      R tx { tx with cmdQueueClosed := true })
    (hsent : p = .flushing → e = .proceed → R tx { tx with disconnectSent := true }) :
    R tx (after x tx) := by
  cases isProgram_of_program hx with
  | boot => exact Advances.bind h.bootstrap (fun _ => .pure _) tx
  | selectWritable r wanted | flushingWritable r wanted | notifyingWritable r wanted =>
    exact h.readyWrite _ _ tx
  | selectReadable r wanted | flushingReadable r wanted | notifyingReadable r wanted =>
    exact h.readyRead _ _ _ tx
  | command opened connected idle ready =>
    exact h.commandRound fun hqueue =>
      hclose rfl rfl hqueue (ready.resolve_left fun hne => hne hqueue)
  | alarm => exact Advances.bind h.onAlarm (fun _ => .pure _) tx
  | writing | flushWriting => exact h.writeRound _ _ _ tx
  | reading => exact h.readRound tx
  | stopping =>
    exact Advances.bind .get (fun _ => .ite (.bind (h.queue _ _) fun _ => .pure _) (.pure _)) tx
  | flushed readDone writeDone =>
    exact Advances.bind_at (hsent rfl rfl) fun _ _ _ => refl_of R _
  | closeNotify => exact Advances.bind (h.onTransport _) (fun _ => .pure _) tx
  | notified readDone writeDone => exact refl_of R tx

end Driven

/-! ## Fields that no part touches -/

/-- The two states agree in this field. -/
def Fixes {γ : Type} (f : Transceiver τ → γ) (tx tx' : Transceiver τ) : Prop := f tx' = f tx

omit [Transport τ] in
theorem Fixes.eq {γ : Type} {f : Transceiver τ → γ} {tx tx' : Transceiver τ}
    (h : Fixes f tx tx') : f tx' = f tx := h

instance {γ : Type} (f : Transceiver τ → γ) : Std.Refl (Fixes f) := ⟨fun _ => rfl⟩

instance {γ : Type} (f : Transceiver τ → γ) : IsTrans (Transceiver τ) (Fixes f) where
  trans _ _ _ hab hbc := Eq.trans hbc hab

theorem after_recvPacket (tx : Transceiver τ) :
    after recvPacket tx = tx.putRx (after PacketReader.recv ⟨tx.rxPkt, tx.link.transport⟩) := by
  have hrun : recvPacket.run tx = recvPacket tx := rfl
  rw [after, hrun, recvPacket]
  cases hrecv : PacketReader.recv.run (⟨tx.rxPkt, tx.link.transport⟩ : Rx τ) with
  | ok state rx =>
    rw [after_of_ok hrecv]
  | error e rx =>
    rw [after_of_error hrecv]
    cases e <;> rfl

/-- The parts of a program work on the books, the output, the reader and the timeouts. -/
theorem driven_fixes {γ : Type} {f : Transceiver τ → γ}
    (hf : ∀ tx b link rx timeouts, f { tx with
      toBook := b, link := link, rxPkt := rx, timeoutQueue := timeouts } = f tx) :
    Driven (Fixes f) := by
  have hlink : ∀ {α : Type} (x : LinkM τ α), Advances (Fixes f) (onLink x) := by
    intro α x tx
    unfold Fixes onLink
    rw [after_zoom]
    exact hf tx tx.toBook _ tx.rxPkt tx.timeoutQueue
  refine ⟨⟨fun g => ?_, fun id tx => ?_, fun pkt setDup => hlink _⟩, fun _ => hlink _,
    fun pkt setDup => hlink _, fun tx => ?_, fun tx x rest _ => ?_⟩
  · exact .modify fun tx => hf tx (g tx.toBook) tx.link tx.rxPkt tx.timeoutQueue
  · exact hf tx tx.toBook _ tx.rxPkt _
  · unfold Fixes
    rw [after_recvPacket]
    exact hf tx tx.toBook _ _ tx.timeoutQueue
  · exact hf tx tx.toBook tx.link tx.rxPkt rest

/-! ## Onward -/

/-- The timeouts are in order, and none of them is later than the next reading of the
clock. -/
structure Ordered (tx : Transceiver τ) : Prop where
  sorted : tx.timeoutQueue.Pairwise fun a b => a.t ≤ b.t
  past : ∀ x ∈ tx.timeoutQueue, x.t ≤ tx.link.clock tx.link.nows

structure Onward (tx tx' : Transceiver τ) : Prop where
  handed : tx.link.handed <+: tx'.link.handed
  accepted : tx.link.accepted <+: tx'.link.accepted
  pingReq : tx'.pingReq = tx.pingReq
  clock : tx'.link.clock = tx.link.clock
  ordered : Monotone tx.link.clock → tx.Ordered → tx'.Ordered
  reader : PacketReader.Reached τ tx.rxPkt → PacketReader.Reached τ tx'.rxPkt

theorem Onward.same {tx tx' : Transceiver τ} (link : tx'.link = tx.link)
    (timeouts : tx'.timeoutQueue = tx.timeoutQueue) (pingReq : tx'.pingReq = tx.pingReq)
    (rxPkt : tx'.rxPkt = tx.rxPkt) : Onward tx tx' where
  handed := link ▸ List.prefix_rfl
  accepted := link ▸ List.prefix_rfl
  pingReq := pingReq
  clock := by rw [link]
  ordered _ h := by
    constructor
    · rw [timeouts]
      exact h.sorted
    · rw [timeouts, link]
      exact h.past
  reader h := rxPkt ▸ h

instance : Std.Refl (Onward (τ := τ)) := ⟨fun _ => .same rfl rfl rfl rfl⟩

instance : IsTrans (Transceiver τ) Onward where
  trans a b c hab hbc :=
    { handed := hab.handed.trans hbc.handed
      accepted := hab.accepted.trans hbc.accepted
      pingReq := hbc.pingReq.trans hab.pingReq
      clock := hbc.clock.trans hab.clock
      ordered := fun hmono h =>
        hbc.ordered (by rw [hab.clock]; exact hmono) (hab.ordered hmono h)
      reader := fun h => hbc.reader (hab.reader h) }

theorem onward_onBook (f : Book → Book) : Advances Onward (onBook f : TaskM τ Unit) :=
  .modify fun _ => .same rfl rfl rfl rfl

theorem onward_onLink {x : LinkM τ α} (hx : Advances Link.Calm x) :
    Advances Onward (onLink x) := by
  refine advances_zoom (fun link tx hcalm => ?_) hx
  refine ⟨?_, hcalm.accepted, rfl, hcalm.clock, fun hmono h => ⟨h.sorted, fun x hx => ?_⟩, id⟩
  · exact hcalm.handed ▸ List.prefix_rfl
  · show x.t ≤ link.clock link.nows
    rw [hcalm.clock]
    exact (h.past x hx).trans (hmono hcalm.nows)

/-- The time of a new timeout has just been read from the clock. -/
theorem onward_scheduleTimeout (id : IdType) :
    Advances Onward (scheduleTimeout id : TaskM τ Unit) := by
  intro tx
  have hafter : after (scheduleTimeout id) tx = { tx with
      link := { tx.link with nows := tx.link.nows + 1 }
      timeoutQueue := tx.timeoutQueue ++ [⟨tx.link.clock tx.link.nows, id⟩] } := rfl
  rw [hafter]
  refine ⟨List.prefix_rfl, List.prefix_rfl, rfl, rfl,
    fun hmono h => ⟨?_, fun x hx => ?_⟩, fun h => h⟩
  · refine List.pairwise_append.mpr ⟨h.sorted, List.pairwise_singleton _ _, fun x hx y hy => ?_⟩
    rw [List.mem_singleton.mp hy]
    exact h.past x hx
  · have hstep : tx.link.clock tx.link.nows ≤ tx.link.clock (tx.link.nows + 1) :=
      hmono (Nat.le_succ _)
    rcases List.mem_append.mp hx with hold | hnew
    · exact (h.past x hold).trans hstep
    · rw [List.mem_singleton.mp hnew]
      exact hstep

/-- A packet that is handed over is added to the others. -/
theorem onward_hand {x : LinkM τ α} {pkt : InternalPacket} (hx : Advances Link.Calm x) :
    Advances Onward (onLink (do modify (Link.hand pkt); x)) := by
  refine fun tx => trans_of Onward ?_ (onward_onLink hx { tx with link := tx.link.hand pkt })
  exact ⟨List.prefix_append _ _, List.prefix_rfl, rfl, rfl, fun _ h => ⟨h.sorted, h.past⟩, id⟩

theorem onward_sendPacket (pkt : Packet) (setDup : Bool) :
    Advances Onward (onLink (Link.sendPacket pkt setDup) : TaskM τ Unit) :=
  onward_hand (Link.calm_sends.trySendPacket _ _)

theorem onward_queueInternalPacket (pkt : Packet) (setDup : Bool) :
    Advances Onward (queueInternalPacket pkt setDup : TaskM τ Unit) :=
  onward_hand <| .bind .get fun _ => .ite (Link.calm_sends.trySendPacket _ _)
    (.modify fun _ => .same rfl rfl rfl rfl)

theorem onward_recvPacket : Advances Onward (recvPacket : TaskM τ Incoming) := by
  intro tx
  rw [after_recvPacket]
  exact ⟨List.prefix_rfl, List.prefix_rfl, rfl, rfl, fun _ h => ⟨h.sorted, h.past⟩,
    fun h => h.recv tx.link.transport⟩

theorem onward_popTimeout (tx : Transceiver τ) (x : Timeout) (rest : List Timeout)
    (hqueue : tx.timeoutQueue = x :: rest) : Onward tx { tx with timeoutQueue := rest } := by
  refine ⟨List.prefix_rfl, List.prefix_rfl, rfl, rfl, fun _ h => ⟨?_, fun y hy => ?_⟩, id⟩
  · have hsorted := h.sorted
    rw [hqueue] at hsorted
    exact hsorted.of_cons
  · refine h.past y ?_
    rw [hqueue]
    exact List.mem_cons_of_mem _ hy

theorem onward_driven : Driven (τ := τ) Onward where
  onBook := onward_onBook
  schedule := onward_scheduleTimeout
  queue := onward_queueInternalPacket
  calm := onward_onLink
  send := onward_sendPacket
  recv := onward_recvPacket
  popTimeout := onward_popTimeout

end Transceiver

end Lmc
