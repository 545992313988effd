import Lmc.System.Receivers
import Lmc.System.Reception
import Lmc.Task.Failures

/-!
# Messages for a subscription

The receiver of a first subscription is parked with the `SUBSCRIBE` and gets into the tree
with the `SUBACK`. From then on it stays there until it is given up, and every message with
a topic that matches is pushed to it (`matching_message_pushed`). A message that comes
between the two is dispatched to a tree in which the receiver is not
(`early_message_lost`).

A message is answered before it is dispatched. If the answer cannot be written the message is
not dispatched (`outcome_eq_none_iff`).
-/

namespace Lmc

open Runs

/-- The number of a channel. -/
def SubscriptionKind.channelNumber : SubscriptionKind → Option Nat
  | .lossy ch | .unbounded ch => some ch
  | _ => none

/-- A filter that matches something has `#` at most at its end. -/
theorem validFilter_of_matches {filter topic : Str} (h : filterMatches filter topic = true) :
    validFilter filter = true := by
  have hlevels : ∀ fs ts : List Str, levelsMatch fs ts = true →
      recursiveWildcard ∉ fs.dropLast := by
    intro fs
    induction fs with
    | nil => simp
    | cons f fs ih =>
      intro ts hmatch
      cases ts with
      | nil => cases hmatch
      | cons t ts =>
        rw [levelsMatch] at hmatch
        split at hmatch
        · rw [List.isEmpty_iff.mp hmatch]
          simp
        · rename_i hne
          have hrest := ih ts (Bool.and_eq_true_iff.mp hmatch).2
          cases fs with
          | nil => simp
          | cons f' fs =>
            rw [List.dropLast_cons_cons, List.mem_cons, not_or]
            exact ⟨Ne.symm hne, hrest⟩
  simpa [validFilter] using hlevels _ _ h

/-- The command does not give up the receiver of a subscription. -/
def Command.spares (cmd : SubscribeCommand) : Command → Bool
  | .unsub ⟨topic, .immediate⟩ => topic != cmd.topic
  | .unsub ⟨topic, .fastCallback id⟩ => !(topic == cmd.topic && cmd.kind.hasId id)
  | _ => true

/-- The leaf of the topic has no callback yet with the identifier of the receiver. -/
def SubscriptionSet.admits (set : SubscriptionSet) (topic : Str) : SubscriptionKind → Bool
  | .fastCallback cb => !(set.root.leaf (levels topic)).fastCallbacks.any fun c => c.id == cb.id
  | _ => true

theorem Represents.admits_of_set {r : Registry} {set : SubscriptionSet} (h : Represents r set)
    {topic : Str} {kind : SubscriptionKind} (hkind : kind ≠ .void)
    (hadmits : set.admits topic kind = true) : r.admits topic kind = true := by
  rw [h.admits]
  cases kind with
  | void => exact absurd rfl hkind
  | fastCallback cb => simpa [SubscriptionSet.admits, Subscription.Admits] using hadmits
  | _ => trivial

namespace Transceiver

open EStateLogic

variable {τ : Type} {tx : Transceiver τ}

theorem fault_eq_none_iff {α : Type} {x : TaskM τ α} :
    fault x tx = none ↔ completes x tx = true := by
  rw [fault, completes]
  cases x.run tx <;> simp

variable [Transport τ]

theorem completes_queueInternalPacket (pkt : Packet) (tx : Transceiver τ) :
    completes (queueInternalPacket pkt false) tx = !tx.link.queueFails pkt := by
  rw [queueInternalPacket, onLink, completes_zoom, Link.completes_queueInternalPacket]

theorem completes_queueInternalPacketWithTimeout (pkt : Packet) (id : IdType) :
    completes (queueInternalPacketWithTimeout pkt id) tx = !tx.link.queueFails pkt := by
  rw [queueInternalPacketWithTimeout, completes_bind_of_ok (EStateM.run_get tx)]
  have hbook : (onBook (Book.insertPending id pkt) : TaskM τ Unit).run tx =
      .ok () { tx with toBook := tx.insertPending id pkt } := rfl
  rw [completes_bind_of_ok hbook]
  -- the clock is not a part of the transport
  cases (tx.pendingPackets.lookup id).isSome with
  | true => exact completes_queueInternalPacket pkt _
  | false => exact completes_queueInternalPacket pkt _

/-- What can fail about a new message is its answer. -/
theorem completes_processPublish {msg : IncomingPublishPacket} (hnew : tx.repeats msg = false) :
    completes (processPublish msg) tx =
      !(answer (.publish msg)).any fun p => tx.link.queueFails p.packet := by
  rw [Book.repeats] at hnew
  have hdispatch : ∀ (_ : Unit) (tx : Transceiver τ),
      completes (onBook (Book.dispatch msg)) tx = true := fun _ _ => rfl
  unfold processPublish
  simp only [answer]
  cases hqos : msg.info.flags.qos with
  | atMostOnce => rfl
  | atLeastOnce =>
    have hencode : (encode (⟨msg.info.packetId⟩ : PubAckPacket)).run tx =
        .ok (pubAckPacket msg.info.packetId) tx := by
      rw [encode, makePacket_pubAck]
      rfl
    simp only [completes_bind_of_ok hencode, completes_bind hdispatch,
      completes_queueInternalPacket, List.any_cons, List.any_nil, Bool.or_false]
  | exactlyOnce =>
    have hencode : (encode (⟨msg.info.packetId⟩ : PubRecPacket)).run tx =
        .ok (pubRecPacket msg.info.packetId) tx := by
      rw [encode, makePacket_pubRec]
      rfl
    have hnone : tx.pendingPackets.lookup (.pubRec msg.info.packetId) = none := by
      simpa [hqos] using hnew
    simp only [completes_bind_of_ok (EStateM.run_get tx), hnone, completes_bind_of_ok hencode,
      completes_bind hdispatch, completes_queueInternalPacketWithTimeout, List.any_cons,
      List.any_nil, Bool.or_false]

theorem completes_processIncoming {msg : IncomingPublishPacket} (hconn : tx.connectSig = false)
    (hnew : tx.repeats msg = false) :
    completes (processIncoming (.packet (.publish msg))) tx =
      !(answer (.publish msg)).any fun p => tx.link.queueFails p.packet := by
  have hlog : (onBook (Book.logReceived (.publish msg)) : TaskM τ Unit).run tx =
      .ok () { tx with toBook := tx.logReceived (.publish msg) } := rfl
  have hnew' : Book.repeats (tx.logReceived (.publish msg)) msg = false := hnew
  have hrest : ∀ b s, completes (if b = true then pure Phase.stopping else pure Phase.reading :
      TaskM τ Phase) s = true := by
    intro b s
    cases b <;> rfl
  rw [processIncoming, completes_bind hrest, processPacket,
    completes_bind_of_ok (EStateM.run_get tx), hconn, if_neg Bool.false_ne_true,
    completes_bind_of_ok hlog, completes_bind (fun _ _ => rfl), handlePacket]
  exact completes_processPublish hnew'

end Transceiver

namespace System

variable {τ : Type} {s s' : System τ}

section Channels

variable [Transport τ] {e : Event}

/-- Channels are told apart by their numbers. -/
theorem Numbered.channel_step {r : Registry}
    (h : Numbered SubscriptionKind.channelNumber System.channels s r)
    (hstep : s.step e = some s') :
    Numbered SubscriptionKind.channelNumber System.channels s' (s.enrol e r) := by
  refine h.step hstep ?_ ?_
  · cases e with
    | task e =>
      have hsame : s'.channels = s.channels := by cases taskMove_of_taskStep hstep <;> rfl
      exact hsame.ge
    | client e =>
      rcases (clientMove_of_clientStep hstep).counters with
        ⟨hsame, -⟩ | ⟨c, topic, qos, req, actual, kind, -, -, built, hmade, hchannels, -⟩
      · exact hsame.ge
      · rw [hchannels]
        rcases buildKind_cases hmade with
          ⟨-, -, rfl⟩ | ⟨_, -, -, -, rfl⟩ | ⟨-, -, rfl⟩ | ⟨_, -, -, rfl⟩
        · exact Nat.le_refl _
        · exact Nat.le_succ _
        · exact Nat.le_succ _
        · exact Nat.le_refl _
  · intro c topic kind req n hbuilds hn
    obtain ⟨built, hmade, hchannels, -⟩ := hbuilds.made
    rw [hchannels]
    rcases buildKind_cases hmade with
      ⟨-, rfl, -⟩ | ⟨_, -, -, rfl, rfl⟩ | ⟨-, rfl, rfl⟩ | ⟨_, -, rfl, -⟩
    · cases hn
    · cases hn
      exact ⟨rfl, Nat.lt_succ_self _⟩
    · cases hn
      exact ⟨rfl, Nat.lt_succ_self _⟩
    · cases hn

end Channels

/-! ## Runs in which a subscription is kept -/

/-- The receiver of the command is parked under the identifier. -/
def parks (s : System τ) (id : UInt16) (cmd : SubscribeCommand) : Bool :=
  (s.tx.pendingSubs.lookup id).any fun sub => sub.topic == cmd.topic && sub.kind == cmd.kind

/-- A `SUBACK` for the parked receiver accepts it, and the leaf admits it. -/
def answers (s : System τ) (id : UInt16) (cmd : SubscribeCommand) : IncomingPacket → Bool
  | .subAck ack => !(s.parks id cmd && ack.packetId == id) ||
      (s.tx.accepts ack).isSome && s.tx.subscriptions.admits cmd.topic cmd.kind
  | _ => true

/-- No other request takes the identifier of the parked receiver. -/
def leavesId (s : System τ) (id : UInt16) (cmd : SubscribeCommand) : Command → Bool
  | .subscribe other => !(s.parks id cmd && s.tx.shared.nextPacketId == id) ||
      s.tx.subscriptions.isSubscribed other.topic
  | _ => true

/-- The step leaves the subscription in place: its channel is open, no command gives it up,
and it is accepted if it is answered. -/
def attends [Transport τ] (id : UInt16) (cmd : SubscribeCommand) (s : System τ) : Event → Bool
  | .client _ => true
  | .task e => !cmd.kind.isGone s.tx.mail.closed &&
      (s.consumed e).all (fun other => other.spares cmd && s.leavesId id cmd other) &&
      (s.arriving e).all (s.answers id cmd)

theorem parks_iff {id : UInt16} {cmd : SubscribeCommand} :
    s.parks id cmd = true ↔ ∃ sub, s.tx.pendingSubs.lookup id = some sub ∧
      sub.topic = cmd.topic ∧ sub.kind = cmd.kind := by
  simp [parks, Option.any_eq_true]

section Keeping

variable [Transport τ] {r : Registry} {id : UInt16} {cmd : SubscribeCommand}

/-- An entry of the registry stays as long as it is not given up. -/
theorem listed_taskStep {e : TaskEvent} (hattends : attends id cmd s (.task e) = true)
    (h : (cmd.topic, cmd.kind) ∈ r.entries) :
    (cmd.topic, cmd.kind) ∈ (s.enrol (.task e) r).entries := by
  rw [attends, Bool.and_eq_true, Bool.and_eq_true] at hattends
  obtain ⟨⟨hopen, hcommand⟩, -⟩ := hattends
  rw [enrol]
  cases hop : s.treeOp e with
  | none => exact h
  | some op =>
    refine Registry.mem_apply_of_mem h ?_
    cases causes_of_treeOp hop with
    | dispatch msg arrived =>
      rw [Bool.not_eq_true'] at hopen
      simp [TreeOp.keeps, hopen]
    | removeCallback topic id' taken =>
      rw [taken, Option.all_some, Bool.and_eq_true] at hcommand
      rw [TreeOp.keeps, Bool.beq_comm]
      exact hcommand.1
    | clear topic taken subscribed =>
      rw [taken, Option.all_some, Bool.and_eq_true] at hcommand
      rw [TreeOp.keeps, bne_comm]
      exact hcommand.1
    | _ => rfl

/-- A parked receiver that is accepted gets into the registry. -/
theorem listed_of_accepts {e : TaskEvent} {ack : SubAckPacket} {sub : PendingSub}
    (hr : Represents r s.tx.subscriptions) (hconn : s.tx.connectSig = false)
    (harrived : s.arriving e = some (.subAck ack)) (haccepts : s.tx.accepts ack = some sub)
    (hvalid : validFilter sub.topic = true) (hkind : sub.kind ≠ .void)
    (hadmits : s.tx.subscriptions.admits sub.topic sub.kind = true) :
    (sub.topic, sub.kind) ∈ (s.enrol (.task e) r).entries := by
  have hop : s.treeOp e = some (.accept sub.topic sub.kind) := by
    rw [treeOp_of_arriving harrived hconn, Book.packetOp, haccepts]
    rfl
  rw [enrol, hop]
  show _ ∈ (r.apply s.tx.subscriptions.finds (.accept sub.topic sub.kind)).entries
  rw [Registry.apply, if_pos hvalid]
  exact Registry.mem_register_self (hr.admits_of_set hkind hadmits)

/-- The receiver is parked or in the registry, through every step that attends to it. -/
theorem attended_step {e : Event} (hr : Represents r s.tx.subscriptions)
    (hconn : s.tx.connectSig = false) (hvalid : validFilter cmd.topic = true)
    (hkind : cmd.kind ≠ .void) (hattends : attends id cmd s e = true)
    (hstep : s.step e = some s')
    (h : s.parks id cmd = true ∨ (cmd.topic, cmd.kind) ∈ r.entries) :
    s'.parks id cmd = true ∨ (cmd.topic, cmd.kind) ∈ (s.enrol e r).entries := by
  cases e with
  | client e =>
    refine h.imp_left fun hparks => ?_
    rwa [parks, (clientMove_of_clientStep hstep).sameTask.pendingSubs]
  | task e =>
    rcases h with hparks | hlisted
    · obtain ⟨sub, hfound, htopic, hsub⟩ := parks_iff.mp hparks
      have hall := hattends
      rw [attends, Bool.and_eq_true, Bool.and_eq_true] at hall
      obtain ⟨⟨-, hcommand⟩, hpacket⟩ := hall
      rcases keepsSub_taskStep hstep hfound with
        hkept | ⟨ack, harrived, hack⟩ | ⟨other, htaken, hunsub, hid⟩
      · exact Or.inl (parks_iff.mpr ⟨sub, hkept, htopic, hsub⟩)
      · refine Or.inr ?_
        rw [harrived, Option.all_some, answers, hparks, hack] at hpacket
        simp only [beq_self_eq_true, Bool.and_self, Bool.not_true, Bool.false_or,
          Bool.and_eq_true, Option.isSome_iff_exists] at hpacket
        obtain ⟨⟨sub', haccepts⟩, hadmits⟩ := hpacket
        have hsame := Book.accepts_pending haccepts
        rw [hack, hfound] at hsame
        cases hsame
        rw [← htopic, ← hsub] at hadmits ⊢
        exact listed_of_accepts hr hconn harrived haccepts (htopic ▸ hvalid) (hsub ▸ hkind)
          hadmits
      · rw [htaken, Option.all_some, Bool.and_eq_true, leavesId, hparks, hid, hunsub] at hcommand
        simp at hcommand
    · exact Or.inr (listed_taskStep hattends hlisted)

/-- A first subscribe command parks its receiver. -/
theorem parks_of_consumed {e : TaskEvent} (htaken : s.consumed e = some (.subscribe cmd))
    (hfirst : s.tx.subscriptions.isSubscribed cmd.topic = false)
    (hvalid : validFilter cmd.topic = true) (hok : s.outcome e = none)
    (hstep : s.taskStep e = some s') : s'.parks s.tx.shared.nextPacketId cmd = true := by
  obtain ⟨-, rest, -, hwork⟩ := commandWork_of_consumed hstep htaken
  rw [hok] at hwork
  refine parks_iff.mpr ?_
  generalize hd : s'.tx.desk = d at hwork
  have hsubs : s'.tx.pendingSubs = d.book.pendingSubs := by
    rw [← hd]
    rfl
  rw [hsubs]
  cases hwork with
  | reject _ _ rejects =>
    cases (SubscriptionSet.rejects_of_valid hvalid).symm.trans rejects
  | add _ _ subscribed => cases hfirst.symm.trans subscribed
  | subscribe _ pkt t =>
    exact ⟨⟨cmd.topic, cmd.kind, pkt⟩, AList.lookup_insert _, rfl, rfl⟩

end Keeping

/-- A receiver gets a message. A channel without room for it drops it. -/
def Pushed (msg : IncomingPublishPacket) (mail mail' : Mail) : SubscriptionKind → Prop
  | .void => True
  | .lossy ch => ∃ n, 0 < n ∧ mail'.channels ch = (mail.channels ch).tryOffer n msg
  | .unbounded ch => ∃ n, 0 < n ∧ mail'.channels ch = (mail.channels ch).offer n msg
  | .fastCallback cb => ∃ called, mail'.calls = mail.calls ++ called ∧ (cb, msg) ∈ called

/-- A message is pushed to the receivers that are registered under a filter that matches. -/
theorem pushed_of_listed {r : Registry} {filter : Str} {kind : SubscriptionKind}
    {msg : IncomingPublishPacket} (hr : Represents r s.tx.subscriptions)
    (hnumbered : Numbered SubscriptionKind.channelNumber System.channels s r)
    (hlisted : (filter, kind) ∈ r.entries) (hmatches : filterMatches filter msg.topic = true)
    (hmail : s'.tx.mail = ((s.tx.subscriptions.dispatch msg).run s.tx.mail).2) :
    Pushed msg s.tx.mail s'.tx.mail kind := by
  have hrouted := hr.routed msg s.tx.mail
  rw [← hmail] at hrouted
  have hpos : 0 < r.entries.countP fun e => filterMatches e.1 msg.topic && e.2 == kind := by
    refine List.countP_pos_iff.mpr ⟨_, hlisted, ?_⟩
    simp [hmatches]
  -- A channel has one number, so it is not registered as a channel of the other kind.
  have hother : ∀ {ch : Nat} {other : SubscriptionKind}, kind.channelNumber = some ch →
      other.channelNumber = some ch → other ≠ kind →
      ∀ filter', (filter', other) ∉ r.entries := by
    intro ch other hch hch' hne filter' hmem
    exact hne (hnumbered.agree (o := none) (p := none) (.listed hlisted) (.listed hmem)
      hch hch').2
  cases kind with
  | void => trivial
  | lossy ch =>
    exact ⟨_, hpos, hrouted.lossy ch (hother rfl rfl (by simp))⟩
  | unbounded ch =>
    exact ⟨_, hpos, hrouted.unbounded ch (hother rfl rfl (by simp))⟩
  | fastCallback cb =>
    obtain ⟨called, hcalls, hcount⟩ := hrouted.calls
    refine ⟨called.map (·, msg), hcalls, List.mem_map.mpr ⟨cb, ?_, rfl⟩⟩
    rw [← List.count_pos_iff, hcount]
    exact hpos

/-- The answer to the message that arrives cannot be written. It is written behind the read. -/
def answerFails [Transport τ] (s : System τ) (msg : IncomingPublishPacket) : Bool :=
  (answer (.publish msg)).any fun p =>
    (EStateLogic.after Transceiver.recvPacket s.tx).link.queueFails p.packet

/-- A new message that arrives is handled to the end exactly if its answer is written. -/
theorem outcome_eq_none_iff [Transport τ] {e : TaskEvent} {msg : IncomingPublishPacket}
    (harrived : s.arriving e = some (.publish msg)) (hconn : s.tx.connectSig = false)
    (hnew : s.tx.repeats msg = false) : s.outcome e = none ↔ s.answerFails msg = false := by
  obtain ⟨hphase, rfl⟩ := arriving_reading harrived
  obtain ⟨tx, hrecv⟩ := recvPacket_of_arriving harrived
  have hbook : tx.toBook = s.tx.toBook :=
    congrArg Desk.book (Transceiver.quiet_recvPacket.ok hrecv)
  have hprog : s.tx.program (s.handle = .dropped) s.phase .proceed =
      some Transceiver.readRound := by
    rw [hphase]
    rfl
  rw [outcome, hprog, Option.bind_some, Transceiver.fault_eq_none_iff, answerFails,
    EStateLogic.after_of_ok hrecv, Transceiver.readRound,
    EStateLogic.completes_bind_of_ok hrecv,
    Transceiver.completes_processIncoming (by rw [hbook]; exact hconn) (by rw [hbook]; exact hnew),
    Bool.not_eq_true']

/-- A `SUBSCRIBE` for a first subscription was sent, and since then the subscription is kept
and accepted if it is answered. Then every message with a topic that matches is pushed to
its receiver, unless it comes while the receiver is parked, is a repetition, or cannot be
answered. -/
theorem matching_message_pushed [Transport τ] {setup : Setup τ} {s₀ s₁ : System τ}
    {e₀ e : TaskEvent} {cmd : SubscribeCommand} {msg : IncomingPublishPacket}
    (h₀ : Reaches System.step always (spawn setup) s₀)
    (htaken : s₀.consumed e₀ = some (.subscribe cmd))
    (hfirst : s₀.tx.subscriptions.isSubscribed cmd.topic = false)
    (hsend : s₀.step (.task e₀) = some s₁) (hsent : s₀.outcome e₀ = none)
    (hrun : Reaches System.step
      (fun s e => attends s₀.tx.shared.nextPacketId cmd s e = true) s₁ s)
    (hattends : attends s₀.tx.shared.nextPacketId cmd s (.task e) = true)
    (hanswered : s.parks s₀.tx.shared.nextPacketId cmd = false)
    (harrived : s.arriving e = some (.publish msg))
    (hmatches : filterMatches cmd.topic msg.topic = true) (hnew : s.tx.repeats msg = false)
    (hstep : s.step (.task e) = some s') (hanswers : s.answerFails msg = false) :
    (∀ cb, cmd.kind = .fastCallback cb → ∃ called,
      s'.tx.mail.calls = s.tx.mail.calls ++ called ∧ (cb, msg) ∈ called) ∧
    ∀ ch, cmd.kind = .unbounded ch → ∃ n, 0 < n ∧
      (s'.tx.mail.channels ch).queue =
        (s.tx.mail.channels ch).queue ++ List.replicate n msg := by
  by_cases hkind : cmd.kind = .void
  · rw [hkind]
    exact ⟨fun _ h => (by cases h), fun _ h => (by cases h)⟩
  have hvalid := validFilter_of_matches hmatches
  obtain ⟨r₀, hr₀, hnumbered₀⟩ := h₀.invariant
    (I := fun s => ∃ r, Represents r s.tx.subscriptions ∧
      Numbered SubscriptionKind.channelNumber System.channels s r)
    ⟨.empty, .empty, .initial setup _ _⟩ (by
      rintro s e s' ⟨r, hr, hnumbered⟩ - hstep
      exact ⟨_, represents_step hr hstep, hnumbered.channel_step hstep⟩)
  have hconn₀ := (commandWork_of_consumed hsend htaken).1
  obtain ⟨r, hr, hnumbered, hconn, hkept⟩ := hrun.invariant
    (I := fun s => ∃ r, Represents r s.tx.subscriptions ∧
      Numbered SubscriptionKind.channelNumber System.channels s r ∧ s.tx.connectSig = false ∧
      (s.parks s₀.tx.shared.nextPacketId cmd = true ∨ (cmd.topic, cmd.kind) ∈ r.entries))
    ⟨_, represents_step hr₀ hsend, hnumbered₀.channel_step hsend, connected_step hsend hconn₀,
      Or.inl (parks_of_consumed htaken hfirst hvalid hsent hsend)⟩ (by
      rintro s e s' ⟨r, hr, hnumbered, hconn, hkept⟩ hattends hstep
      exact ⟨_, represents_step hr hstep, hnumbered.channel_step hstep,
        connected_step hstep hconn,
        attended_step hr hconn hvalid hkind hattends hstep hkept⟩)
  rcases hkept with hparks | hlisted
  · cases hanswered.symm.trans hparks
  have hop : s.treeOp e = some (.dispatch msg s.tx.mail) := by
    rw [treeOp_of_arriving harrived hconn, Book.packetOp,
      (outcome_eq_none_iff harrived hconn hnew).mpr hanswers, hnew]
    rfl
  have hmail : s'.tx.mail = s.tx.mail.after s.tx.subscriptions (s.treeOp e) :=
    (performs_taskStep hstep).mail
  rw [hop] at hmail
  rw [attends, Bool.and_eq_true, Bool.and_eq_true, Bool.not_eq_true'] at hattends
  have hopen : cmd.kind.isGone s.tx.mail.closed = false := hattends.1.1
  have hpushed := pushed_of_listed hr hnumbered hlisted hmatches hmail
  refine ⟨fun cb hcb => ?_, fun ch hch => ?_⟩
  · rw [hcb] at hpushed
    exact hpushed
  · rw [hch] at hpushed hopen
    obtain ⟨n, hpos, hchannel⟩ := hpushed
    refine ⟨n, hpos, ?_⟩
    change (s.tx.mail.channels ch).closed = false at hopen
    rw [hchannel, Channel.offer, hopen]
    rfl

/-- A broker that accepts the connection and then sends these packets at once. -/
def sendingSetup (packets : List ReadEvent) : Setup TcpTransport :=
  scripted ⟨acceptance :: .wouldBlock :: packets ++ [.wouldBlock], false, []⟩

/-- The first subscription is for the topic `t`, with an unbounded queue. -/
def firstCommand : SubscribeCommand := ⟨['t'], .atMostOnce, .unbounded 0⟩

/-- A message with this topic, as it comes in. -/
def firstMessage : IncomingPublishPacket := ⟨⟨1, ⟨.new false .atMostOnce false, 0⟩⟩, [0x74]⟩

/-- A client asks for the subscription. -/
def firstRun : List Event :=
  connecting ++ [.client (.subscribe 0 ['t'] .atMostOnce .unbounded), .client (.build 0),
    .client (.send 0)]

/-- The next command is the subscribe command, and its `SUBSCRIBE` is sent under the
identifier 1. -/
def sendsFirst (s : System TcpTransport) : Bool :=
  s.consumed .command == some (.subscribe firstCommand) &&
    !s.tx.subscriptions.isSubscribed ['t'] && s.outcome .command == none &&
    s.tx.shared.nextPacketId == 1

/-- The next packet is the message, and it can be answered. -/
def receivesFirst (s : System TcpTransport) : Bool :=
  attends 1 firstCommand s (.task .proceed) &&
    s.arriving .proceed == some (.publish firstMessage) &&
    !s.tx.repeats firstMessage && !s.answerFails firstMessage

/-- The task starts to read. -/
def beginsReading : List Event := [.task (.readable (.ok ())), .task .proceed]

theorem matching_message_pushed_after :
    ∃ s s', Reaches System.step always
        (spawn (sendingSetup [.data 0x90 [3, 0, 1, 0], .data 0x30 [3, 0, 1, 0x74]])) s ∧
      s.step (.task .proceed) = some s' ∧ (s.tx.mail.channels 0).queue = [] ∧
      (s'.tx.mail.channels 0).queue ≠ [] := by
  have hrun : (runUnder System.step always
      (spawn (sendingSetup [.data 0x90 [3, 0, 1, 0], .data 0x30 [3, 0, 1, 0x74]]))
      firstRun).any (fun s₀ => s₀.sendsFirst && (s₀.step (.task .command)).any fun s₁ =>
        (runUnder System.step (fun s e => attends 1 firstCommand s e = true) s₁
          (beginsReading ++ [.task .proceed, .task .proceed])).any fun s =>
            s.receivesFirst && !s.parks 1 firstCommand && (s.tx.mail.channels 0).queue == [] &&
              (s.step (.task .proceed)).isSome) = true := by
    decide +kernel
  obtain ⟨s₀, h₀, hp⟩ := exists_reaches _ hrun
  obtain ⟨hsends, hnext⟩ := Bool.and_eq_true_iff.mp hp
  obtain ⟨s₁, hsend, hrest⟩ := (Option.any_eq_true _ _).mp hnext
  obtain ⟨s, hs, hp⟩ := exists_reaches _ hrest
  simp only [sendsFirst, receivesFirst, Bool.and_eq_true, Bool.not_eq_true', beq_iff_eq,
    Option.isSome_iff_exists] at hsends hp
  obtain ⟨⟨⟨htaken, hfirst⟩, hsent⟩, hid⟩ := hsends
  obtain ⟨⟨⟨⟨⟨⟨hattends, harrived⟩, hnew⟩, hanswers⟩, hanswered⟩, hempty⟩, s', hstep⟩ := hp
  rw [← hid] at hs hattends hanswered
  obtain ⟨n, hpos, hqueue⟩ := (matching_message_pushed h₀ htaken hfirst hsend hsent hs hattends
    hanswered harrived (by decide +kernel) hnew hstep hanswers).2 0 rfl
  refine ⟨s, s', h₀.trans (.trans (.tail .refl trivial hsend) (hs.mono fun _ _ _ => trivial)),
    hstep, hempty, ?_⟩
  rw [hqueue, hempty, List.nil_append]
  exact fun h => hpos.ne' (List.replicate_eq_nil_iff _ |>.mp h)

/-- The broker sends a message that matches before it answers the `SUBSCRIBE`. It is
dispatched when nobody is registered, and the queue is still empty when the subscription is
established. -/
theorem early_message_lost :
    ∃ s₀ s₁ s s' s'', Reaches System.step always
        (spawn (sendingSetup [.data 0x30 [3, 0, 1, 0x74], .data 0x90 [3, 0, 1, 0]])) s₀ ∧
      s₀.sendsFirst = true ∧ s₀.step (.task .command) = some s₁ ∧
      Reaches System.step (fun s e => attends 1 firstCommand s e = true) s₁ s ∧
      s.receivesFirst = true ∧ filterMatches ['t'] firstMessage.topic = true ∧
      s.step (.task .proceed) = some s' ∧ s'.tx.history.dispatched = [firstMessage] ∧
      Reaches System.step (fun s e => attends 1 firstCommand s e = true) s' s'' ∧
      s''.tx.subscriptions.isSubscribed ['t'] = true ∧ (s''.tx.mail.channels 0).queue = [] := by
  have hrun : (runUnder System.step always
      (spawn (sendingSetup [.data 0x30 [3, 0, 1, 0x74], .data 0x90 [3, 0, 1, 0]]))
      firstRun).any (fun s₀ => s₀.sendsFirst && (s₀.step (.task .command)).any fun s₁ =>
        (runUnder System.step (fun s e => attends 1 firstCommand s e = true) s₁
          beginsReading).any fun s => s.receivesFirst && (s.step (.task .proceed)).any fun s' =>
            s'.tx.history.dispatched == [firstMessage] &&
            (runUnder System.step (fun s e => attends 1 firstCommand s e = true) s'
              [.task .proceed, .task .proceed]).any fun s'' =>
                s''.tx.subscriptions.isSubscribed ['t'] &&
                  (s''.tx.mail.channels 0).queue == []) = true := by
    decide +kernel
  obtain ⟨s₀, h₀, hp⟩ := exists_reaches _ hrun
  obtain ⟨hsends, hnext⟩ := Bool.and_eq_true_iff.mp hp
  obtain ⟨s₁, hsend, hrest⟩ := (Option.any_eq_true _ _).mp hnext
  obtain ⟨s, hs, hp⟩ := exists_reaches _ hrest
  obtain ⟨hreceives, hnext⟩ := Bool.and_eq_true_iff.mp hp
  obtain ⟨s', hstep, hp⟩ := (Option.any_eq_true _ _).mp hnext
  obtain ⟨hdispatched, hrest⟩ := Bool.and_eq_true_iff.mp hp
  obtain ⟨s'', hs'', hp⟩ := exists_reaches _ hrest
  obtain ⟨hsubscribed, hempty⟩ := Bool.and_eq_true_iff.mp hp
  exact ⟨s₀, s₁, s, s', s'', h₀, hsends, hsend, hs, hreceives, by decide +kernel, hstep,
    beq_iff_eq.mp hdispatched, hs'', hsubscribed, beq_iff_eq.mp hempty⟩

end System

end Lmc
