import Lmc.System.Traffic
import Lmc.Tree.Registry

/-!
# Receivers of the whole client

A step of the task performs at most one operation on the subscription tree (`treeOp`), which
depends on the packet or command that it takes in. So the registry that the tree represents
goes on step by step (`represents_step`), and results about receivers are shown on
registries.

Before a receiver is in the tree it is somewhere on its way there: in a call that has yet to
queue its command, in the queue, or parked with a `SUBSCRIBE` that is not acknowledged.
`Placed` lists these places, and `placed_step` says that a receiver gets from one to the
next but does not appear out of nowhere.
-/

namespace Lmc

/-! ## Operations of the books -/

/-- The tree behind an operation, if there is one. -/
def SubscriptionSet.after (op : Option TreeOp) (set : SubscriptionSet) : SubscriptionSet :=
  op.elim set fun op => set.apply op

/-- The registry behind it. -/
def Registry.after (found : Str → Bool) (op : Option TreeOp) (r : Registry) : Registry :=
  op.elim r fun op => r.apply found op

/-- The receiving ends behind it. -/
def Mail.after (set : SubscriptionSet) (op : Option TreeOp) (mail : Mail) : Mail :=
  match op with
  | some (.dispatch msg _) => ((set.dispatch msg).run mail).2
  | _ => mail

theorem Represents.after {r : Registry} {set : SubscriptionSet} (h : Represents r set)
    (op : Option TreeOp) : Represents (r.after set.finds op) (set.after op) := by
  cases op with
  | none => exact h
  | some op => exact h.apply op

/-- The books have performed the operation. -/
structure Book.Performs (b b' : Book) (op : Option TreeOp) : Prop where
  tree : b'.subscriptions = b.subscriptions.after op
  mail : b'.mail = b.mail.after b.subscriptions op
  ids : b'.shared.nextCallbackId = b.shared.nextCallbackId

/-- Books that look the same. -/
def Book.Untouched (b b' : Book) : Prop :=
  b'.subscriptions = b.subscriptions ∧ b'.mail = b.mail ∧
    b'.shared.nextCallbackId = b.shared.nextCallbackId

theorem Book.Untouched.performs {b b' : Book} (h : b.Untouched b') : b.Performs b' none :=
  ⟨h.1, h.2.1, h.2.2⟩

theorem Book.Untouched.trans {b b₁ b₂ : Book} (h : b.Untouched b₁) (h' : b₁.Untouched b₂) :
    b.Untouched b₂ :=
  ⟨h'.1.trans h.1, h'.2.1.trans h.2.1, h'.2.2.trans h.2.2⟩

/-- The pending subscription that a `SUBACK` accepts. -/
def Book.accepts (b : Book) (ack : SubAckPacket) : Option PendingSub :=
  match b.pendingSubs.lookup ack.packetId, ack.subResults with
  | some sub, .ok _ :: _ => some sub
  | _, _ => none

/-- The message was received before and is not released. -/
def Book.repeats (b : Book) (msg : IncomingPublishPacket) : Bool :=
  msg.info.flags.qos == .exactlyOnce &&
    (b.pendingPackets.lookup (.pubRec msg.info.packetId)).isSome

/-- The operation of a packet, whose handling may be cut by a failure of the transport. -/
def Book.packetOp (b : Book) (completes : Bool) : IncomingPacket → Option TreeOp
  | .subAck ack => (b.accepts ack).map fun sub => .accept sub.topic sub.kind
  | .publish msg => if completes && !b.repeats msg then some (.dispatch msg b.mail) else none
  | _ => none

/-- The operation of a command. -/
def Book.commandOp (b : Book) : Command → Option TreeOp
  | .subscribe cmd =>
    if b.subscriptions.isSubscribed cmd.topic then some (.add cmd.topic cmd.kind) else none
  | .unsub ⟨topic, .fastCallback id⟩ => some (.removeCallback topic id)
  | .unsub ⟨topic, .immediate⟩ =>
    if b.subscriptions.isSubscribed topic then some (.clear topic) else none
  | _ => none

theorem Book.accepts_pending {b : Book} {ack : SubAckPacket} {sub : PendingSub}
    (h : b.accepts ack = some sub) : b.pendingSubs.lookup ack.packetId = some sub := by
  unfold accepts at h
  split at h
  · cases h
    assumption
  · cases h

theorem Book.performs_processSubAck (ack : SubAckPacket) (b : Book) :
    b.Performs (b.processSubAck ack) (b.packetOp true (.subAck ack)) := by
  rw [processSubAck, packetOp, accepts]
  cases b.pendingSubs.lookup ack.packetId with
  | none => exact ⟨rfl, rfl, rfl⟩
  | some sub =>
    match ack.subResults with
    | [] | .ok qos :: _ | .error () :: _ => exact ⟨rfl, rfl, rfl⟩

theorem Book.untouched_acknowledge (id : IdType) (n : Notifier) (b : Book) :
    b.Untouched (b.acknowledge id n) := by
  rcases b.acknowledge_cases id n with ⟨-, heq⟩ | ⟨-, heq⟩
  · rw [heq]
    exact ⟨rfl, rfl, rfl⟩
  · rw [heq]
    exact ⟨rfl, rfl, by cases n <;> rfl⟩

section Works

variable {d d' : Desk}

theorem Desk.untouched_track (t : Nat) (id : IdType) (pkt : Packet) (d : Desk) :
    d.book.Untouched (d.track t id pkt).book := by
  rw [Desk.book_track]
  exact ⟨rfl, rfl, rfl⟩

theorem Desk.untouched_conclude {cut : Option IoError} {f : Book → Book} (d : Desk)
    (h : ∀ b : Book, b.Untouched (f b)) : d.book.Untouched (d.conclude cut f).book := by
  cases cut with
  | none => exact h d.book
  | some e => exact ⟨rfl, rfl, rfl⟩

/-- A dispatch behind changes that do not matter here. -/
theorem Book.Untouched.dispatches {b b₁ : Book} (h : b.Untouched b₁)
    (msg : IncomingPublishPacket) :
    b.Performs (b₁.dispatch msg) (some (.dispatch msg b.mail)) := by
  obtain ⟨htree, hmail, hids⟩ := h
  constructor
  · rw [Book.dispatch, htree, hmail]
    rfl
  · rw [Book.dispatch, htree, hmail]
    rfl
  · exact hids

theorem PacketWork.treeOp {pkt : IncomingPacket} {cut : Option IoError}
    (h : PacketWork pkt cut d d') :
    d.book.Performs d'.book (d.book.packetOp cut.isNone pkt) := by
  cases h with
  | connAck ack | pingResp | pubRel rel | unsubAck ack => exact ⟨rfl, rfl, rfl⟩
  | subAck ack => exact d.book.performs_processSubAck ack
  | dispatch msg _ qos =>
    rw [Book.packetOp, Book.repeats, qos]
    exact ⟨rfl, rfl, rfl⟩
  | answer msg _ _ qos =>
    rw [Book.packetOp, Book.repeats, qos]
    cases cut <;> exact ⟨rfl, rfl, rfl⟩
  | answerAgain msg pkt _ _ qos known =>
    rw [Book.packetOp, Book.repeats, qos, known]
    cases cut <;> exact ⟨rfl, rfl, rfl⟩
  | record msg t _ _ qos new =>
    have htrack := d.untouched_track t (.pubRec msg.info.packetId) (pubRecPacket msg.info.packetId)
    rw [Book.packetOp, Book.repeats, qos, new]
    cases cut with
    | some e => exact htrack.performs
    | none => exact htrack.dispatches msg
  | pubAck ack => exact (d.book.untouched_acknowledge _ _).performs
  | releaseAgain rec pkt _ _ known =>
    exact (Desk.untouched_conclude (d.hand _) fun b => b.untouched_acknowledge _ _).performs
  | release rec t _ _ new =>
    exact ((d.untouched_track t _ _).trans (Desk.untouched_conclude ((d.track t _ _).hand _)
      fun b => b.untouched_acknowledge _ _)).performs
  | pubComp comp => exact (d.book.untouched_acknowledge _ _).performs

theorem CommandWork.treeOp {cmd : Command} {o : Option Fault} (h : CommandWork cmd o d d') :
    d.book.Performs d'.book (d.book.commandOp cmd) := by
  cases h with
  | publishOnce cmd | removeCallback topic id | disconnect => exact ⟨rfl, rfl, rfl⟩
  | publish cmd t _ io _ qos => exact (d.untouched_track t _ _).performs
  | reject cmd _ rejects =>
    rw [Book.commandOp, SubscriptionSet.isSubscribed_of_rejects rejects]
    exact ⟨rfl, rfl, rfl⟩
  | add cmd _ subscribed =>
    rw [Book.commandOp, subscribed]
    exact ⟨rfl, rfl, rfl⟩
  | subscribePanic cmd p _ unsubscribed | subscribe cmd pkt t _ accepted unsubscribed
  | subscribeCut cmd pkt e _ accepted unsubscribed | keep topic _ unsubscribed =>
    rw [Book.commandOp, unsubscribed]
    exact ⟨rfl, rfl, rfl⟩
  | unsubscribePanic topic p _ subscribed =>
    rw [Book.commandOp, subscribed]
    exact ⟨rfl, rfl, rfl⟩
  | unsubscribe topic pkt t _ io _ subscribed encoded =>
    rw [Book.commandOp, subscribed, Desk.book_hand, Desk.book_track]
    exact ⟨rfl, rfl, rfl⟩

end Works

namespace System

variable {τ : Type} {s s' : System τ}

/-! ## Operations of steps -/

section Task

variable [Transport τ]

/-- The operation that a step of the task performs. -/
def treeOp (s : System τ) (e : TaskEvent) : Option TreeOp :=
  match s.arriving e with
  | some pkt => if s.tx.connectSig then none else s.tx.packetOp (s.outcome e).isNone pkt
  | none => (s.consumed e).bind s.tx.commandOp

theorem treeOp_of_arriving {e : TaskEvent} {pkt : IncomingPacket} (h : s.arriving e = some pkt)
    (hconn : s.tx.connectSig = false) : s.treeOp e = s.tx.packetOp (s.outcome e).isNone pkt := by
  rw [treeOp, h, hconn]
  rfl

theorem treeOp_of_consumed {e : TaskEvent} {cmd : Command} (h : s.consumed e = some cmd) :
    s.treeOp e = s.tx.commandOp cmd := by
  have hnone : s.arriving e = none :=
    Option.eq_none_iff_forall_ne_some.mpr fun pkt hpkt => by simp [not_consumed hpkt] at h
  rw [treeOp, hnone, h]
  rfl

theorem treeOp_of_nothing {e : TaskEvent} (h : s.arriving e = none ∧ s.consumed e = none) :
    s.treeOp e = none := by
  rw [treeOp, h.1, h.2]
  rfl

/-- What an operation is due to. -/
inductive Causes (s : System τ) (e : TaskEvent) : TreeOp → Prop
  | accept (ack : SubAckPacket) (sub : PendingSub) (arrived : s.arriving e = some (.subAck ack))
      (found : s.tx.accepts ack = some sub) : Causes s e (.accept sub.topic sub.kind)
  | dispatch (msg : IncomingPublishPacket) (arrived : s.arriving e = some (.publish msg)) :
      Causes s e (.dispatch msg s.tx.mail)
  | add (cmd : SubscribeCommand) (taken : s.consumed e = some (.subscribe cmd))
      (subscribed : s.tx.subscriptions.isSubscribed cmd.topic = true) :
      Causes s e (.add cmd.topic cmd.kind)
  | removeCallback (topic : Str) (id : UInt32)
      (taken : s.consumed e = some (.unsub ⟨topic, .fastCallback id⟩)) :
      Causes s e (.removeCallback topic id)
  | clear (topic : Str) (taken : s.consumed e = some (.unsub ⟨topic, .immediate⟩))
      (subscribed : s.tx.subscriptions.isSubscribed topic = true) : Causes s e (.clear topic)

theorem causes_of_treeOp {e : TaskEvent} {op : TreeOp} (h : s.treeOp e = some op) :
    Causes s e op := by
  unfold treeOp at h
  split at h
  · rename_i pkt harrived
    split at h
    · cases h
    unfold Book.packetOp at h
    split at h
    · obtain ⟨sub, hsub, rfl⟩ := Option.map_eq_some_iff.mp h
      exact .accept _ sub harrived hsub
    · split at h
      · cases h
        exact .dispatch _ harrived
      · cases h
    · cases h
  · obtain ⟨cmd, htaken, hop⟩ := Option.bind_eq_some_iff.mp h
    unfold Book.commandOp at hop
    split at hop
    · split at hop
      · cases hop
        exact .add _ htaken ‹_›
      · cases hop
    · cases hop
      exact .removeCallback _ _ htaken
    · split at hop
      · cases hop
        exact .clear _ htaken ‹_›
      · cases hop
    · cases hop

theorem Work.treeOp {e : TaskEvent} {o : Option Fault} {d : Desk} (h : Work s e o d)
    (ho : s.outcome e = o) : s.tx.toBook.Performs d.book (s.treeOp e) := by
  cases h with
  | idle same nothing =>
    subst same
    rw [treeOp_of_nothing nothing]
    exact ⟨rfl, rfl, rfl⟩
  | connect pkt boot waits handed =>
    subst handed
    rw [treeOp_of_nothing (takes_nothing (by rw [boot]; rfl))]
    exact ⟨rfl, rfl, rfl⟩
  | connAck pkt arrived waiting book =>
    subst book
    rw [System.treeOp, arrived, waiting]
    exact ⟨rfl, rfl, rfl⟩
  | packet pkt cut arrived connected ends work =>
    have hop : s.treeOp e = s.tx.packetOp cut.isNone pkt := by
      rw [treeOp_of_arriving arrived connected, ho, ends, Option.isNone_map]
    rw [hop]
    exact ⟨work.treeOp.tree, work.treeOp.mail, work.treeOp.ids⟩
  | command cmd rest queue taken connected work =>
    rw [treeOp_of_consumed taken]
    exact ⟨work.treeOp.tree, work.treeOp.mail, work.treeOp.ids⟩
  | alarm cut ends work tick =>
    have hnothing : s.arriving e = none ∧ s.consumed e = none := by
      subst tick
      exact takes_nothing (by cases s.phase <;> rfl)
    rw [treeOp_of_nothing hnothing, work.book]
    exact ⟨rfl, rfl, rfl⟩
  | disconnect stopping connected handed =>
    subst handed
    rw [treeOp_of_nothing (takes_nothing (by rw [stopping]; rfl))]
    exact ⟨rfl, rfl, rfl⟩

/-- Every step of the task performs its operation. -/
theorem performs_taskStep {e : TaskEvent} (hstep : s.taskStep e = some s') :
    s.tx.toBook.Performs s'.tx.toBook (s.treeOp e) := by
  by_cases htakes : s.phase.takes e = true
  · exact (work_of_takes hstep htakes).treeOp rfl
  · have hnone := treeOp_of_nothing (takes_nothing (Bool.eq_false_iff.mpr htakes))
    cases deskMove_of_taskStep hstep with
    | program tx p clean running leads work => exact work.treeOp rfl
    | fail n next stage =>
      rw [hnone]
      exact ⟨rfl, rfl, s.tx.shared.nextCallbackId_setNotifierMap n _⟩
    | _ =>
      rw [hnone]
      exact ⟨rfl, rfl, rfl⟩

/-- A pending subscription stays so until it is acknowledged or its identifier is taken by
another one. -/
theorem keepsSub_taskStep {e : TaskEvent} (hstep : s.taskStep e = some s') {id : UInt16}
    {sub : PendingSub} (hp : s.tx.pendingSubs.lookup id = some sub) :
    s'.tx.pendingSubs.lookup id = some sub ∨
      (∃ ack, s.arriving e = some (.subAck ack) ∧ ack.packetId = id) ∨
      ∃ cmd, s.consumed e = some (.subscribe cmd) ∧
        s.tx.subscriptions.isSubscribed cmd.topic = false ∧ id = s.tx.shared.nextPacketId := by
  cases taskMove_of_taskStep hstep with
  | quiet tx p clean running next book | connAck tx p clean running next pkt arrived waiting book =>
    refine Or.inl ?_
    show tx.pendingSubs.lookup id = some sub
    rw [book]
    exact hp
  | packet tx p clean running next pkt arrived connected effect =>
    rcases effect.keepsSub hp with hkept | ⟨ack, rfl, hid⟩
    · exact Or.inl hkept
    · exact Or.inr (Or.inl ⟨ack, arrived, hid⟩)
  | command tx p clean running next cmd rest queue taken connected effect =>
    rcases effect.keepsSub hp with hkept | ⟨req, rfl, hunsub, hid⟩
    · exact Or.inl hkept
    · exact Or.inr (Or.inr ⟨req, taken, hunsub, hid⟩)
  | _ => exact Or.inl hp

end Task

/-- Clients call no callbacks. -/
theorem ClientMove.mailCalls {e : ClientEvent} (h : ClientMove s e s') :
    s'.tx.mail.calls = s.tx.mail.calls := by
  obtain ⟨htx, -⟩ := h.frame
  rw [htx]

section Registries

variable [Transport τ]

/-- The registry behind a step. -/
def enrol (s : System τ) (e : Event) (r : Registry) : Registry :=
  match e with
  | .client _ => r
  | .task e => r.after s.tx.subscriptions.finds (s.treeOp e)

theorem represents_step {r : Registry} (hr : Represents r s.tx.subscriptions) {e : Event}
    (hstep : s.step e = some s') : Represents (s.enrol e r) s'.tx.subscriptions := by
  cases e with
  | client e =>
    rw [(clientMove_of_clientStep hstep).sameTask.subscriptions]
    exact hr
  | task e =>
    have htree : s'.tx.subscriptions = s.tx.subscriptions.after (s.treeOp e) :=
      (performs_taskStep hstep).tree
    rw [htree]
    exact hr.after _

end Registries

end System

/-! ## On the way to the tree -/

/-- The receiver that a call has made, with its topic. -/
def Call.receiver : Call → Option (Str × SubscriptionKind)
  | .sendingSubscribe cmd _ | .sending (.subscribe cmd) => some (cmd.topic, cmd.kind)
  | .awaitingAfter fut kind => some (fut.topic, kind)
  | .done (.subscribed topic kind _) => some (topic, kind)
  | _ => none

theorem Call.receiver_of_command {call : Call} {cmd : SubscribeCommand}
    (h : call.command = some (.subscribe cmd)) : call.receiver = some (cmd.topic, cmd.kind) := by
  cases call <;> cases h <;> rfl

namespace System

variable {τ : Type} {s s' : System τ}

/-- The places of a receiver that is in the tree or will get there. -/
inductive Placed (s : System τ) (r : Registry) (topic : Str) (kind : SubscriptionKind) : Prop
  | call (c : Nat) (call : Call) (cmd : SubscribeCommand) (found : s.calls.lookup c = some call)
      (sends : call.command = some (.subscribe cmd)) (same : (cmd.topic, cmd.kind) = (topic, kind))
  | queued (cmd : SubscribeCommand) (mem : .subscribe cmd ∈ s.tx.cmdQueue)
      (same : (cmd.topic, cmd.kind) = (topic, kind))
  | parked (id : UInt16) (sub : PendingSub) (found : s.tx.pendingSubs.lookup id = some sub)
      (same : (sub.topic, sub.kind) = (topic, kind))
  | listed (mem : (topic, kind) ∈ r.entries)

/-- The call has made the receiver. -/
def Owns (s : System τ) (c : Nat) (topic : Str) (kind : SubscriptionKind) : Prop :=
  ∃ call, s.calls.lookup c = some call ∧ call.receiver = some (topic, kind)

/-- The call makes the receiver in this step. -/
structure Builds (s s' : System τ) (c : Nat) (topic : Str) (kind : SubscriptionKind)
    (req : SubscriptionRequest) : Prop where
  call : ∃ qos actual, s.calls.lookup c = some (.building topic qos req actual) ∧
    s'.calls = s.calls.insert c (.sendingSubscribe ⟨topic, qos, kind⟩ actual)
  made : Makes s s' req kind

/-- How a call comes to its receiver. -/
theorem CallStep.receiver {old : Option Call} {call : Call} {cmds : List Command}
    (h : CallStep s s' old call cmds) {topic : Str} {kind : SubscriptionKind}
    (hnew : call.receiver = some (topic, kind)) :
    old.bind Call.receiver = some (topic, kind) ∨
      ∃ qos req actual, old = some (.building topic qos req actual) ∧
        call = .sendingSubscribe ⟨topic, qos, kind⟩ actual ∧ Makes s s' req kind := by
  cases h with
  | publish mode cmd =>
    unfold PublishMode.firstStage at hnew
    split at hnew <;> cases hnew
  | command cmd other =>
    cases cmd with
    | publish cmd | subscribe cmd => cases other
    | _ => cases hnew
  | build topic qos req actual kind made =>
    cases hnew
    exact Or.inr ⟨qos, req, actual, rfl, rfl, made⟩
  | sent call cmd sends =>
    cases call with
    | sendingPublish cmd fut => cases fut <;> cases hnew
    | sendingSubscribe cmd actual => cases actual <;> exact Or.inl hnew
    | tryingPublish | sending => cases hnew
    | _ => cases sends
  | pollTopic call fut fut' waits same =>
    cases call with
    | awaitingAfter fut kind =>
      cases waits
      refine Or.inl (Eq.trans ?_ hnew)
      show some (fut.topic, kind) = some (fut'.topic, kind)
      rw [same]
    | awaitingBefore => cases hnew
    | _ => cases waits
  | ready call fut result waits =>
    cases call with
    | awaitingAfter fut kind => cases result <;> first | exact Or.inl hnew | cases hnew
    | awaitingBefore => cases result <;> cases hnew
    | _ => cases waits
  | ended old outcome left ends live =>
    rcases ends with hfails | ⟨rfl, -⟩
    · cases outcome with
      | subscribed => cases hfails
      | _ => cases hnew
    · cases hnew
  | _ => cases hnew

/-- A call puts at most the command into the queue that it was waiting to send. -/
theorem CallStep.queues {old : Option Call} {call : Call} {cmds : List Command}
    (h : CallStep s s' old call cmds) :
    cmds = [] ∨ ∃ prior cmd, old = some prior ∧ prior.command = some cmd ∧ cmds = [cmd] := by
  cases h with
  | sent call cmd sends => exact Or.inr ⟨call, cmd, rfl, sends, rfl⟩
  | _ => exact Or.inl rfl

theorem CallStep.sends {old : Option Call} {call : Call} {cmds : List Command}
    (h : CallStep s s' old call cmds) {cmd : Command} (hmem : cmd ∈ cmds) :
    ∃ prior, old = some prior ∧ prior.command = some cmd := by
  rcases h.queues with rfl | ⟨prior, cmd', hold, hcmd, rfl⟩
  · cases hmem
  · cases List.mem_singleton.mp hmem
    exact ⟨prior, hold, hcmd⟩

/-- What a call waits to send. -/
theorem CallStep.waits {old : Option Call} {call : Call} {cmds : List Command}
    (h : CallStep s s' old call cmds) {cmd : Command} (hsends : call.command = some cmd) :
    (∃ pub, cmd = .publish pub) ∨
      (∃ sub req actual, cmd = .subscribe sub ∧
        old = some (.building sub.topic sub.qos req actual)) ∨
      cmd.isOther = true ∧
        ∀ topic id, cmd = .unsub ⟨topic, .fastCallback id⟩ → s.Returned topic id := by
  have hsent : ∀ call : Call, call.sent.command = none := by
    intro call
    rcases call.sent_cases with ⟨_, h⟩ | ⟨_, _, h⟩ | ⟨_, h⟩ <;> rw [h] <;> rfl
  cases h with
  | publish mode pub =>
    refine Or.inl ⟨pub, ?_⟩
    unfold PublishMode.firstStage at hsends
    split at hsends <;> cases hsends <;> rfl
  | register pub n fut =>
    cases hsends
    exact Or.inl ⟨pub, rfl⟩
  | command cmd other returned =>
    cases hsends
    exact Or.inr (Or.inr ⟨other, returned⟩)
  | build topic qos req actual kind =>
    cases hsends
    exact Or.inr (Or.inl ⟨⟨topic, qos, kind⟩, req, actual, rfl, rfl⟩)
  | sent call cmd sends =>
    rw [hsent] at hsends
    cases hsends
  | pollTopic call fut fut' waits same =>
    cases call with
    | awaitingBefore | awaitingAfter => cases hsends
    | _ => cases waits
  | ready call fut result waits =>
    cases call with
    | awaitingBefore | awaitingAfter => cases result <;> cases hsends
    | _ => cases waits
  | _ => cases hsends

section Placement

variable [Transport τ] {r : Registry} {e : Event} {topic : Str} {kind : SubscriptionKind}

theorem owns_step (hstep : s.step e = some s') {c : Nat} (h : s'.Owns c topic kind) :
    s.Owns c topic kind ∨ ∃ req, Builds s s' c topic kind req := by
  obtain ⟨call, hcall, hreceiver⟩ := h
  cases e with
  | task e =>
    rw [calls_taskStep hstep] at hcall
    exact Or.inl ⟨call, hcall, hreceiver⟩
  | client e =>
    cases (clientMove_of_clientStep hstep).callMove with
    | none calls queue =>
      rw [calls] at hcall
      exact Or.inl ⟨call, hcall, hreceiver⟩
    | step c' call' cmds calls queue goes =>
      rw [calls, Table.lookup_insert] at hcall
      split at hcall
      · subst c'
        cases hcall
        rcases goes.receiver hreceiver with
          hold | ⟨qos, req, actual, hfound, rfl, hmade⟩
        · obtain ⟨prior, hprior, hsame⟩ := Option.bind_eq_some_iff.mp hold
          exact Or.inl ⟨prior, hprior, hsame⟩
        · exact Or.inr ⟨req, ⟨qos, actual, hfound, calls⟩, hmade⟩
      · exact Or.inl ⟨call, hcall, hreceiver⟩

/-- A receiver that has a place behind a step had one before, or a call has just made it. -/
theorem placed_step (hstep : s.step e = some s') (h : s'.Placed (s.enrol e r) topic kind) :
    s.Placed r topic kind ∨ ∃ c req, Builds s s' c topic kind req := by
  cases e with
  | client e =>
    have move := clientMove_of_clientStep hstep
    cases h with
    | parked id sub found same =>
      rw [move.sameTask.pendingSubs] at found
      exact Or.inl (.parked id sub found same)
    | listed mem => exact Or.inl (.listed mem)
    | queued cmd mem same =>
      cases move.callMove with
      | none calls queue =>
        refine Or.inl (.queued cmd ?_ same)
        rcases queue with hqueue | hqueue
        · rwa [hqueue] at mem
        · simpa [hqueue] using mem
      | step c call cmds calls queue goes =>
        rw [queue] at mem
        rcases List.mem_append.mp mem with hold | hnew
        · exact Or.inl (.queued cmd hold same)
        · obtain ⟨prior, hprior, hsends⟩ := goes.sends hnew
          exact Or.inl (.call c prior cmd hprior hsends same)
    | call c call cmd found sends same =>
      cases move.callMove with
      | none calls queue =>
        rw [calls] at found
        exact Or.inl (.call c call cmd found sends same)
      | step c' call' cmds calls queue goes =>
        rw [calls, Table.lookup_insert] at found
        split at found
        · cases found
          cases same
          subst c'
          rcases goes.receiver (Call.receiver_of_command sends) with
            hold | ⟨qos, req, actual, hfound, rfl, hmade⟩
          · rcases goes.waits sends with ⟨pub, ⟨⟩⟩ | ⟨sub, req, actual, -, hbuilding⟩ | ⟨⟨⟩, -⟩
            rw [hbuilding] at hold
            cases hold
          · exact Or.inr ⟨c, req, ⟨qos, actual, hfound, calls⟩, hmade⟩
        · exact Or.inl (.call c call cmd found sends same)
  | task e =>
    refine Or.inl ?_
    cases h with
    | call c call cmd found sends same =>
      rw [calls_taskStep hstep] at found
      exact .call c call cmd found sends same
    | queued cmd mem same =>
      exact .queued cmd ((taskMove_of_taskStep hstep).cmdQueue.subset mem) same
    | parked id sub found same =>
      rcases pendsSub_taskStep hstep found with hold | ⟨cmd, htaken, -, htopic, hkind, -⟩
      · exact .parked id sub hold same
      · rw [htopic, hkind] at same
        exact .queued cmd (consumed_mem htaken) same
    | listed mem =>
      change _ ∈ (r.after _ (s.treeOp e)).entries at mem
      cases hop : s.treeOp e with
      | none =>
        rw [hop] at mem
        exact .listed mem
      | some op =>
        rw [hop] at mem
        have hcauses := causes_of_treeOp hop
        rcases Registry.mem_apply mem with hold | rfl | rfl
        · exact .listed hold
        · cases hcauses with
          | accept ack sub arrived found => exact .parked _ sub (Book.accepts_pending found) rfl
        · cases hcauses with
          | add cmd taken subscribed => exact .queued cmd (consumed_mem taken) rfl

end Placement

/-! ## Numbers of receivers -/

/-- A step makes one receiver at most. -/
theorem Builds.unique {c c' : Nat} {topic topic' : Str} {kind kind' : SubscriptionKind}
    {req req' : SubscriptionRequest} (h : Builds s s' c topic kind req)
    (h' : Builds s s' c' topic' kind' req') : c' = c ∧ topic' = topic ∧ kind' = kind := by
  obtain ⟨qos, actual, found, calls⟩ := h.call
  obtain ⟨qos', actual', found', calls'⟩ := h'.call
  have hlookup : s'.calls.lookup c' = some (.sendingSubscribe ⟨topic', qos', kind'⟩ actual') := by
    rw [calls', AList.lookup_insert]
  rw [calls, Table.lookup_insert] at hlookup
  split at hlookup
  · rename_i hc
    cases hlookup
    exact ⟨hc, rfl, rfl⟩
  · rw [found'] at hlookup
    cases hlookup

/-- The receiver has a place, or the call has made it. -/
def Held (s : System τ) (r : Registry) (owner : Option Nat) (topic : Str)
    (kind : SubscriptionKind) : Prop :=
  match owner with
  | none => s.Placed r topic kind
  | some c => s.Owns c topic kind

/-- The receivers that have numbers are told apart by them. -/
structure Numbered (num : SubscriptionKind → Option Nat) (bound : System τ → Nat)
    (s : System τ) (r : Registry) : Prop where
  below : ∀ {o topic kind n}, s.Held r o topic kind → num kind = some n → n < bound s
  agree : ∀ {o p topic topic' kind kind' n}, s.Held r o topic kind → s.Held r p topic' kind' →
    num kind = some n → num kind' = some n → topic' = topic ∧ kind' = kind
  single : ∀ {c c' topic topic' kind kind' n}, s.Owns c topic kind → s.Owns c' topic' kind' →
    num kind = some n → num kind' = some n → c' = c

section Numbers

variable [Transport τ] {r : Registry} {e : Event}

theorem held_step (hstep : s.step e = some s') {owner : Option Nat} {topic : Str}
    {kind : SubscriptionKind} (h : s'.Held (s.enrol e r) owner topic kind) :
    s.Held r owner topic kind ∨ ∃ c req, Builds s s' c topic kind req := by
  cases owner with
  | none => exact placed_step hstep h
  | some c => exact (owns_step hstep h).imp_right fun ⟨req, hbuilds⟩ => ⟨c, req, hbuilds⟩

/-- A receiver that is made gets the next number. -/
theorem Numbered.step {num : SubscriptionKind → Option Nat} {bound : System τ → Nat}
    (h : Numbered num bound s r) (hstep : s.step e = some s') (hmono : bound s ≤ bound s')
    (hnext : ∀ {c topic kind req n}, Builds s s' c topic kind req → num kind = some n →
      n = bound s ∧ n < bound s') :
    Numbered num bound s' (s.enrol e r) := by
  -- a receiver that was just made has a number that was not in use
  have hfresh : ∀ {o c topic topic' kind kind' req n}, s.Held r o topic kind →
      Builds s s' c topic' kind' req → num kind = some n → num kind' = some n → False := by
    intro o c topic topic' kind kind' req n hheld hbuilds hn hn'
    have hlt := h.below hheld hn
    have heq := (hnext hbuilds hn').1
    omega
  constructor
  · intro owner topic kind n hheld hn
    rcases held_step hstep hheld with hold | ⟨c, req, hbuilds⟩
    · exact (h.below hold hn).trans_le hmono
    · exact (hnext hbuilds hn).2
  · intro owner owner' topic topic' kind kind' n hheld hheld' hn hn'
    rcases held_step hstep hheld with hold | ⟨c, req, hbuilds⟩
    · rcases held_step hstep hheld' with hold' | ⟨c', req', hbuilds'⟩
      · exact h.agree hold hold' hn hn'
      · exact (hfresh hold hbuilds' hn hn').elim
    · rcases held_step hstep hheld' with hold' | ⟨c', req', hbuilds'⟩
      · exact (hfresh hold' hbuilds hn' hn).elim
      · exact (hbuilds.unique hbuilds').2
  · intro c c' topic topic' kind kind' n howns howns' hn hn'
    rcases owns_step hstep howns with hold | ⟨req, hbuilds⟩
    · rcases owns_step hstep howns' with hold' | ⟨req', hbuilds'⟩
      · exact h.single hold hold' hn hn'
      · exact (hfresh (o := some c) hold hbuilds' hn hn').elim
    · rcases owns_step hstep howns' with hold' | ⟨req', hbuilds'⟩
      · exact (hfresh (o := some c') hold' hbuilds hn' hn).elim
      · exact (hbuilds.unique hbuilds').1

end Numbers

/-- At the start there are no receivers. -/
theorem not_held_spawn (setup : Setup τ) {o : Option Nat} {topic : Str}
    {kind : SubscriptionKind} : ¬ (spawn setup).Held .empty o topic kind := by
  cases o with
  | none =>
    rintro (⟨c, call, cmd, found, -⟩ | ⟨cmd, mem, -⟩ | ⟨id, sub, found, -⟩ | mem)
    · cases found
    · cases mem
    · cases found
    · cases mem
  | some c =>
    rintro ⟨call, found, -⟩
    cases found

theorem Numbered.initial (setup : Setup τ) (num : SubscriptionKind → Option Nat)
    (bound : System τ → Nat) : Numbered num bound (spawn setup) .empty where
  below h := (not_held_spawn setup h).elim
  agree h := (not_held_spawn setup h).elim
  single h := (not_held_spawn setup (o := some _) h).elim

/-- The counters go on only where a call makes a receiver. -/
theorem ClientMove.counters {e : ClientEvent} (h : ClientMove s e s') :
    (s'.channels = s.channels ∧ s'.tx.shared.nextCallbackId = s.tx.shared.nextCallbackId) ∨
      ∃ c topic qos req actual kind, e = .build c ∧
        s.calls.lookup c = some (.building topic qos req actual) ∧ Makes s s' req kind := by
  rcases h.counters_cases with
    ⟨c, mode, topic, payload, retain, -, rfl⟩ |
      ⟨c, topic, qos, req, actual, kind, built, rfl, found, made, rfl⟩ | hsame
  · unfold startPublish encodePublish
    split <;> split <;> exact Or.inl ⟨rfl, rfl⟩
  · exact Or.inr ⟨c, topic, qos, req, actual, kind, rfl, found, built, made, rfl, rfl⟩
  · exact Or.inl ⟨hsame.channels, hsame.nextCallbackId⟩

end System

end Lmc
