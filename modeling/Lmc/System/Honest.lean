import Lmc.System.Awaited
import Lmc.System.Release

/-!
# Brokers that acknowledge what they have received

The broker sends `PUBACK` and `PUBREC` only for a `PUBLISH` that it has received with the
right quality of service, and `PUBCOMP` only for a `PUBREL` that it has received
(`acksReceived`). `Honest` collects what holds in such runs as long as identifiers do not
come back: who owns an entry, what is published under an identifier (`Carried`), and that a
broker of this kind answers publishes in the kind they ask for.

`entry_lost` accounts for every entry of the notifier maps that is gone: either its call has
ended by dropping its future, or the acknowledgement of the right kind has arrived.
-/

namespace Lmc

open Runs

/-! ## Acknowledgements -/

/-- The quality of service of the publishes that wait in a map. -/
def Notifier.qos : Notifier → QoS
  | .pubAck => .atLeastOnce
  | .pubRec | .pubComp => .exactlyOnce

/-- What the broker has to receive before it acknowledges. -/
def Notifier.asks (n : Notifier) (id : UInt16) : Asked :=
  match n with
  | .pubAck => .publish .atLeastOnce id
  | .pubRec => .publish .exactlyOnce id
  | .pubComp => .release id

/-- What is pending until it is acknowledged. -/
def Notifier.awaited (n : Notifier) (id : UInt16) : IdType :=
  match n with
  | .pubAck | .pubRec => .publish id
  | .pubComp => .pubRel id

/-- The wait that the packet ends. -/
def IncomingPacket.acknowledged : IncomingPacket → Option (Notifier × UInt16)
  | .pubAck ack => some (.pubAck, ack.packetId)
  | .pubRec rec => some (.pubRec, rec.packetId)
  | .pubComp comp => some (.pubComp, comp.packetId)
  | _ => none

/-! ## Lost entries -/

section Effects

variable {b b' : Book} {n : Notifier} {id : UInt16} {r : NotifyResult}

theorem PacketEffect.entry_lost {pkt : IncomingPacket} (h : PacketEffect pkt b b')
    (hr : (b.shared.notifierMap n).lookup id = some r)
    (hnone : (b'.shared.notifierMap n).lookup id = none) :
    pkt.acknowledged = some (n, id) := by
  have hack : ∀ key m (b₁ : Book), b₁.shared = b.shared →
      ((b₁.acknowledge key m).shared.notifierMap n).lookup id = none → n = m ∧ id = key.id := by
    intro key m b₁ hshared hgone
    rw [b₁.lookup_acknowledge] at hgone
    split at hgone
    · rename_i hkey
      exact hkey.2
    · rw [hshared, hr] at hgone
      cases hgone
  have hkept : ∀ sh : ClientShared, sh.notifierMap n = b.shared.notifierMap n →
      (sh.notifierMap n).lookup id ≠ none := by
    intro sh hsh hgone
    rw [hsh, hr] at hgone
    cases hgone
  cases h with
  | subAck ack =>
    rcases b.processSubAck_cases ack with
      ⟨-, heq⟩ | ⟨sub, -, ⟨-, heq⟩ | ⟨qos, heq⟩ | ⟨-, heq⟩⟩
    all_goals
      rw [heq] at hnone
      exact absurd hnone (hkept _ (by cases n <;> rfl))
  | pubAck ack =>
    obtain ⟨rfl, rfl⟩ := hack _ _ b rfl hnone
    rfl
  | pubRecAgain rec =>
    obtain ⟨rfl, rfl⟩ := hack _ _ b rfl hnone
    rfl
  | pubRec rec pkt =>
    obtain ⟨rfl, rfl⟩ := hack _ _ (b.insertPending _ pkt) rfl hnone
    rfl
  | pubComp comp =>
    obtain ⟨rfl, rfl⟩ := hack _ _ b rfl hnone
    rfl
  | _ => exact absurd hnone (hkept _ rfl)

theorem CommandEffect.notifierMap {q : Option Panic} {cmd : Command}
    (h : CommandEffect q cmd b b') : b'.shared.notifierMap n = b.shared.notifierMap n := by
  cases h <;> cases n <;> rfl

end Effects

namespace System

variable {τ : Type} {s s' : System τ} {n : Notifier} {id : UInt16} {r : NotifyResult}

/-- An entry that a client removes is that of a call that ends without success. -/
theorem ClientMove.entry_lost {e : ClientEvent} (h : ClientMove s e s')
    (hr : (s.tx.shared.notifierMap n).lookup id = some r)
    (hnone : (s'.tx.shared.notifierMap n).lookup id = none) :
    ∃ c call fut outcome, s.calls.lookup c = some call ∧ call.publishFuture = some fut ∧
      fut.notifier = n ∧ fut.packetId = id ∧ s'.calls.lookup c = some (.done outcome) ∧
      outcome ≠ .ok := by
  have hkept : s'.tx.shared.notifierMap n = s.tx.shared.notifierMap n → False := by
    intro hsame
    rw [hsame, hr] at hnone
    cases hnone
  have hinsert : ∀ sh : ClientShared, ∀ m id' r',
      ((sh.setNotifierMap m ((sh.notifierMap m).insert id' r')).notifierMap n).lookup id = none →
      (sh.notifierMap n).lookup id = none := by
    intro sh m id' r' hgone
    rw [ClientShared.notifierMap_setNotifierMap] at hgone
    split at hgone
    · subst m
      rw [Table.lookup_insert] at hgone
      split at hgone
      · cases hgone
      · exact hgone
    · exact hgone
  have hdrop : ∀ fut : PublishFuture,
      ((fut.drop s.tx.shared).notifierMap n).lookup id = none →
      fut.notifier = n ∧ fut.packetId = id := by
    intro fut hgone
    unfold PublishFuture.drop at hgone
    split at hgone
    · rw [ClientShared.notifierMap_setNotifierMap] at hgone
      split at hgone
      · subst n
        rw [Table.lookup_erase] at hgone
        split at hgone
        · exact ⟨rfl, Eq.symm ‹_›⟩
        · cases hr.symm.trans hgone
      · cases hr.symm.trans hgone
    · cases hr.symm.trans hgone
  cases h with
  | publish c mode topic payload retain fresh =>
    refine (hkept ?_).elim
    unfold startPublish encodePublish
    split <;> split <;> cases n <;> rfl
  | register c cmd m call => cases hr.symm.trans (hinsert _ _ _ _ hnone)
  | sendFailed c call cmd found sends dead =>
    unfold System.sendFailed at hnone hkept ⊢
    split at hnone
    · obtain ⟨hn, hid⟩ := hdrop _ hnone
      exact ⟨c, _, _, .terminated, found, rfl, hn, hid, AList.lookup_insert _,
        Outcome.noConfusion⟩
    · cases hr.symm.trans hnone
  | pollPublish c fut found =>
    unfold System.pollPublish at hnone
    rcases fut.poll_cases s.polls s.tx.shared with ⟨ended, fut', hpoll⟩ | ⟨r', -, -, -, hpoll⟩
    · rw [hpoll] at hnone
      cases hr.symm.trans hnone
    · rw [hpoll] at hnone
      cases hr.symm.trans (hinsert _ _ _ _ hnone)
  | pollSubscribe c call fut found waits =>
    refine (hkept ?_).elim
    unfold System.pollSubscribe
    rcases fut.poll_cases c s.polls s.tx.shared with
      ⟨result, fut', hpoll⟩ | ⟨-, slots, -, ⟨i, -, -, hpoll⟩ | ⟨i, slot, -, -, hpoll⟩ | ⟨-, hpoll⟩⟩
    all_goals
      rw [hpoll]
      cases n <;> rfl
  | cancelPublish c call fut found waits =>
    obtain ⟨hn, hid⟩ := hdrop fut hnone
    exact ⟨c, call, fut, .cancelled, found, waits, hn, hid, AList.lookup_insert _,
      Outcome.noConfusion⟩
  | cancelSubscribe c call fut found waits =>
    refine (hkept ?_).elim
    unfold System.cancelSubscribe
    rcases fut.drop_cases s.tx.shared with heq | ⟨-, slots, i, -, -, ⟨-, heq⟩ | ⟨slot, -, heq⟩⟩
    all_goals
      rw [heq]
      cases n <;> rfl
  | subscribe c topic qos req fresh =>
    refine (hkept ?_).elim
    unfold startSubscribe
    split <;> cases n <;> rfl
  | build c topic qos req actual kind built found made =>
    refine (hkept ?_).elim
    rw [buildKind_frame made]
    cases n <;> rfl
  | _ => exact (hkept rfl).elim

variable [Transport τ]

/-- An entry that the task removes was acknowledged. -/
theorem TaskMove.entry_lost {e : TaskEvent} (h : TaskMove s e s')
    (hr : (s.tx.shared.notifierMap n).lookup id = some r)
    (hnone : (s'.tx.shared.notifierMap n).lookup id = none) :
    (s.arriving e).bind IncomingPacket.acknowledged = some (n, id) := by
  cases h with
  | quiet tx p clean running next book =>
    change (tx.shared.notifierMap n).lookup id = none at hnone
    rw [book] at hnone
    cases hr.symm.trans hnone
  | connAck tx p clean running next pkt arrived waiting book =>
    change (tx.shared.notifierMap n).lookup id = none at hnone
    rw [book] at hnone
    cases hr.symm.trans hnone
  | packet tx p clean running next pkt arrived connected effect =>
    rw [arrived]
    exact effect.entry_lost hr hnone
  | command tx p clean running next cmd rest queue taken connected effect =>
    change (tx.shared.notifierMap n).lookup id = none at hnone
    rw [effect.notifierMap] at hnone
    cases hr.symm.trans hnone
  | fail m next stage =>
    change ((s.tx.shared.setNotifierMap m _).notifierMap n).lookup id = none at hnone
    rw [ClientShared.notifierMap_setNotifierMap] at hnone
    split at hnone
    · subst m
      rw [failNotifyMap, Table.lookup_mapVals, hr] at hnone
      cases hnone
    · cases hr.symm.trans hnone
  | drain stage =>
    change ((s.tx.shared.setSubs ∅).notifierMap n).lookup id = none at hnone
    rw [ClientShared.notifierMap_setSubs] at hnone
    cases hr.symm.trans hnone
  | _ => cases hr.symm.trans hnone

/-- The broker acknowledges only what it has received. -/
def acksReceived (s : System τ) : Event → Bool
  | .task e =>
    match (s.arriving e).bind IncomingPacket.acknowledged with
    | some (n, id) => s.received.any fun p => p.asks == n.asks id
    | none => true
  | .client _ => true

theorem exists_received {e : TaskEvent} (h : s.acksReceived (.task e) = true)
    (hack : (s.arriving e).bind IncomingPacket.acknowledged = some (n, id)) :
    ∃ p ∈ s.received, p.asks = n.asks id := by
  simp only [acksReceived, hack, List.any_eq_true, beq_iff_eq] at h
  exact h

end System

/-! ## Packets of calls -/

def Command.publish? : Command → Option PublishCommand
  | .publish cmd => some cmd
  | _ => none

/-- The publish command that a call has yet to send. -/
def Call.publishCommand : Call → Option PublishCommand
  | .registering cmd _ => some cmd
  | call => call.command.bind Command.publish?

/-- The call waits for this acknowledgement, or is about to. -/
def Call.Awaits (n : Notifier) (id : UInt16) : Call → Prop
  | .registering cmd m => m = n ∧ cmd.packetId = id
  | call => ∃ fut, call.publishFuture = some fut ∧ fut.notifier = n ∧ fut.packetId = id

theorem Call.Awaits.of_future {n : Notifier} {id : UInt16} {call : Call} {fut : PublishFuture}
    (h : call.publishFuture = some fut) (hn : fut.notifier = n) (hid : fut.packetId = id) :
    call.Awaits n id := by
  cases call <;> first | exact ⟨fut, h, hn, hid⟩ | cases h

theorem Call.Awaits.claims {n : Notifier} {id : UInt16} {call : Call} (h : call.Awaits n id)
    (hproper : call.Proper) : call.claims id = true := by
  cases call with
  | registering cmd m => exact beq_iff_eq.mpr h.2
  | _ =>
    obtain ⟨fut, hfut, -, rfl⟩ := h
    exact (hproper.future hfut).2

theorem Call.publishCommand_of_command {call : Call} {cmd : PublishCommand}
    (h : call.command = some (.publish cmd)) : call.publishCommand = some cmd := by
  cases call <;> cases h <;> rfl

theorem Call.holds_of_publishCommand {id : UInt16} {call : Call} {cmd : PublishCommand}
    (h : call.publishCommand = some cmd) (huses : cmd.uses id = true) :
    call.holds id = true := by
  cases call with
  | registering cmd' m =>
    cases h
    exact (Bool.and_eq_true_iff.mp huses).2
  | sendingPublish cmd' fut | tryingPublish cmd' =>
    cases h
    exact huses
  | sending cmd' =>
    cases cmd' with
    | publish cmd' =>
      cases h
      exact huses
    | _ => cases h
  | _ => cases h

theorem Call.publishCommand_sent (call : Call) : call.sent.publishCommand = none := by
  rcases call.sent_cases with ⟨_, h⟩ | ⟨_, _, h⟩ | ⟨_, h⟩ <;> rw [h] <;> rfl

namespace System

variable {τ : Type} {s s' : System τ} {n : Notifier} {id : UInt16}

/-- The packet publishes under the identifier: its command is on the way, or it is pending,
or it was handed over. -/
inductive Carried (s : System τ) (id : UInt16) : Packet → QoS → Prop
  | call (c : Nat) (call : Call) (cmd : PublishCommand) (found : s.calls.lookup c = some call)
      (works : call.publishCommand = some cmd) (uses : cmd.uses id = true) :
      Carried s id cmd.packet cmd.qos
  | queue (cmd : PublishCommand) (mem : .publish cmd ∈ s.tx.cmdQueue)
      (uses : cmd.uses id = true) : Carried s id cmd.packet cmd.qos
  | pending (pkt : Packet) (qos : QoS)
      (kept : s.tx.pendingPackets.lookup (.publish id) = some pkt)
      (asks : InternalPacket.asks ⟨pkt, false⟩ = .publish qos id) : Carried s id pkt qos
  | handed (p : InternalPacket) (qos : QoS) (mem : p ∈ s.tx.link.handed)
      (asks : p.asks = .publish qos id) : Carried s id p.packet qos

/-- A publish call starts in the step and takes the identifier. -/
def Starts (s s' : System τ) (id : UInt16) (qos : QoS) : Prop :=
  ∃ c mode cmd, s'.calls = s.calls.insert c (PublishMode.firstStage mode cmd) ∧
    cmd.packetId = id ∧ mode.qos = qos ∧ id = s.tx.shared.nextPacketId ∧
    s'.tx.history.allocated = s.tx.history.allocated + 1

theorem CallStep.publishCommand {old : Option Call} {call : Call} {cmds : List Command}
    (h : CallStep s s' old call cmds) {cmd : PublishCommand}
    (hcmd : call.publishCommand = some cmd) :
    (∃ c, old = some c ∧ c.publishCommand = some cmd) ∨
      ∃ mode, call = PublishMode.firstStage mode cmd ∧ cmd.qos = mode.qos ∧
        (mode.qos ≠ .atMostOnce → cmd.packetId = s.tx.shared.nextPacketId ∧
          s'.tx.history.allocated = s.tx.history.allocated + 1) := by
  cases h with
  | publish mode cmd' qos id encoded =>
    have heq : cmd' = cmd := by cases mode <;> exact Option.some.inj hcmd
    subst heq
    exact Or.inr ⟨mode, rfl, qos, id⟩
  | register cmd' n fut made entry => exact Or.inl ⟨_, rfl, hcmd⟩
  | sent call cmd' sends => cases (call.publishCommand_sent).symm.trans hcmd
  | command cmd' other => cases cmd' <;> contradiction
  | pollTopic call fut fut' waits => cases call <;> contradiction
  | ready call fut result waits entry =>
    cases call <;> cases result <;> contradiction
  | _ => cases hcmd

theorem CallStep.awaits {old : Option Call} {call : Call} {cmds : List Command}
    (h : CallStep s s' old call cmds) (hawaits : call.Awaits n id) :
    (∃ c, old = some c ∧ c.Awaits n id) ∨ id = s.tx.shared.nextPacketId ∧
      s'.tx.history.allocated = s.tx.history.allocated + 1 := by
  have hnone : call.publishFuture = none → (∀ cmd m, call ≠ .registering cmd m) → False := by
    intro hfut hreg
    cases call with
    | registering cmd m => exact hreg cmd m rfl
    | _ =>
      obtain ⟨fut, hsome, -⟩ := hawaits
      cases hfut.symm.trans hsome
  cases h with
  | publish mode cmd qos hid encoded =>
    cases mode with
    | tryPublish q | noWait q => exact (hnone rfl fun _ _ => Call.noConfusion).elim
    | qos1AwaitAck | qos2Received | qos2Complete =>
      obtain ⟨-, rfl⟩ := hawaits
      exact Or.inr (hid QoS.noConfusion)
  | register cmd m fut made entry =>
    subst made
    obtain ⟨_, ⟨⟩, hm, hid⟩ := hawaits
    exact Or.inl ⟨_, rfl, hm, hid⟩
  | sent call cmd sends =>
    refine Or.inl ⟨call, rfl, ?_⟩
    have hfuture : ∃ fut, call.sent.publishFuture = some fut ∧ fut.notifier = n ∧
        fut.packetId = id := by
      rcases call.sent_cases with ⟨_, h⟩ | ⟨_, _, h⟩ | ⟨_, h⟩ <;> rw [h] at hawaits ⊢ <;>
        exact hawaits
    obtain ⟨fut, hfut, hn, hid⟩ := hfuture
    rw [Call.publishFuture_sent sends] at hfut
    exact .of_future hfut hn hid
  | pollAck fut w =>
    obtain ⟨_, ⟨⟩, hn, hid⟩ := hawaits
    exact Or.inl ⟨_, rfl, fut, rfl, hn, hid⟩
  | pollTopic call fut fut' waits =>
    refine (hnone ?_ fun cmd m => ?_).elim <;> cases call <;> first | contradiction | rfl | skip
    all_goals exact Call.noConfusion
  | ready call fut result waits entry =>
    refine (hnone ?_ fun cmd m => ?_).elim <;> cases call <;> cases result <;>
      first | contradiction | rfl | skip
    all_goals exact Call.noConfusion
  | _ => exact (hnone rfl fun _ _ => Call.noConfusion).elim

variable [Transport τ]

omit [Transport τ] in
/-- A packet that publishes under an identifier did so before, or a call has just taken
the identifier. -/
theorem carried_clientStep {e : ClientEvent} (hstep : s.clientStep e = some s') {pkt : Packet}
    {qos : QoS} (h : s'.Carried id pkt qos) : s.Carried id pkt qos ∨ s.Starts s' id qos := by
  have hmove := clientMove_of_clientStep hstep
  have hsame := hmove.sameTask
  cases h with
  | pending pkt qos kept asks =>
    rw [hsame.pendingPackets] at kept
    exact Or.inl (.pending pkt qos kept asks)
  | handed p qos mem asks =>
    rw [hsame.link] at mem
    exact Or.inl (.handed p qos mem asks)
  | call c call cmd found works uses =>
    cases hmove.callMove with
    | none calls queue =>
      rw [calls] at found
      exact Or.inl (.call c call cmd found works uses)
    | step c' call' cmds calls queue goes =>
      rw [calls, Table.lookup_insert] at found
      split at found
      · cases found
        rcases goes.publishCommand works with ⟨old, hold, hcmd⟩ | ⟨mode, rfl, hqos, hid⟩
        · exact Or.inl (.call c' old cmd hold hcmd uses)
        · obtain ⟨hne, heq⟩ := Bool.and_eq_true_iff.mp uses
          rw [hqos] at hne ⊢
          obtain ⟨hnext, hallocated⟩ := hid (bne_iff_ne.mp hne)
          have hpid := beq_iff_eq.mp heq
          exact Or.inr ⟨c', mode, cmd, calls, hpid, rfl, hpid.symm.trans hnext, hallocated⟩
      · exact Or.inl (.call c call cmd found works uses)
  | queue cmd mem uses =>
    cases hmove.callMove with
    | none calls queue =>
      rcases queue with queue | queue <;> rw [queue] at mem
      · exact Or.inl (.queue cmd mem uses)
      · rcases List.mem_append.mp mem with mem | mem
        · exact Or.inl (.queue cmd mem uses)
        · cases List.mem_singleton.mp mem
    | step c call cmds calls queue goes =>
      rw [queue] at mem
      rcases List.mem_append.mp mem with mem | mem
      · exact Or.inl (.queue cmd mem uses)
      · generalize hold : s.calls.lookup c = old at goes
        cases goes with
        | sent call cmd' sends =>
          cases List.mem_singleton.mp mem
          exact Or.inl (.call c call cmd hold (Call.publishCommand_of_command sends) uses)
        | _ => cases mem

theorem carried_taskStep (hs : Filed s) {e : TaskEvent} (hstep : s.taskStep e = some s')
    {pkt : Packet} {qos : QoS} (h : s'.Carried id pkt qos) : s.Carried id pkt qos := by
  have hmove := deskMove_of_taskStep hstep
  have htaken : ∀ cmd, s.consumed e = some (.publish cmd) → cmd.qos ≠ .atMostOnce →
      cmd.packetId = id → s.Carried id cmd.packet cmd.qos := by
    intro cmd htaken hqos hid
    refine .queue cmd (consumed_mem htaken) ?_
    rw [← hid]
    exact PublishCommand.uses_self hqos
  cases h with
  | call c call cmd found works uses =>
    rw [calls_taskStep hstep] at found
    exact .call c call cmd found works uses
  | queue cmd mem uses => exact .queue cmd (hmove.taskMove.cmdQueue.subset mem) uses
  | pending pkt qos kept asks =>
    cases hmove with
    | program tx ph clean running leads work =>
      rcases work.pends kept with hold | ⟨hbegins, -⟩
      · exact .pending pkt qos hold asks
      · cases hbegins with
        | publish cmd taken hqos kept packet =>
          cases kept
          subst packet
          have hfits : cmd.Fits := hs.queue _ (consumed_mem taken)
          cases (hfits.publish hqos false).symm.trans asks
          exact htaken cmd taken hqos rfl
        | pubRec _ kept => cases kept
        | pubRel _ _ _ kept => cases kept
        | unsubscribe _ _ kept => cases kept
    | _ => exact .pending pkt qos kept asks
  | handed p qos mem asks =>
    obtain ⟨ps, hhanded, hps⟩ := handing_of_taskStep hs hstep
    rcases mem_handed_of_append hhanded mem with hp | hp
    · exact .handed p qos hp asks
    · rcases (hps p hp).publishes hs asks with
        ⟨cmd, taken, -, hqos, hid, rfl, hpacket, -⟩ | ⟨-, hpending⟩
      · rw [hpacket]
        exact htaken cmd taken hqos hid
      · obtain ⟨qos', hfits⟩ := hs.packets _ _ hpending
        cases (hfits p.setDup).symm.trans asks
        exact .pending p.packet qos hpending (hfits false)

theorem carried_step (hs : Filed s) {e : Event} (hstep : s.step e = some s') {pkt : Packet}
    {qos : QoS} (h : s'.Carried id pkt qos) : s.Carried id pkt qos ∨ s.Starts s' id qos := by
  cases e with
  | client e => exact carried_clientStep hstep h
  | task e => exact Or.inl (carried_taskStep hs hstep h)

omit [Transport τ] in
theorem Carried.issued {pkt : Packet} {qos : QoS} (h : s.Carried id pkt qos) (ho : Owned s)
    (hout : Outbound s) : Issued s.tx.history.allocated id := by
  cases h with
  | call c call cmd found works uses =>
    refine ho.owned id ?_
    have hholds := Call.holds_of_publishCommand works uses
    have hcount := Table.hit_le_count (Call.holds id) c s.calls
    rw [found, Table.hit_pos hholds] at hcount
    unfold owners unsent
    omega
  | queue cmd mem uses => exact ho.owned id (owners_pos_of_queued mem uses)
  | pending pkt qos kept asks => exact (hout.sent id (hout.pending id pkt kept)).2
  | handed p qos mem asks => exact (hout.sent id ⟨p, mem, qos, asks⟩).2

/-- Everything that is published under the identifier of a call that waits has the quality
of service of its map. -/
def Kinds (s : System τ) : Prop :=
  ∀ c call n id, s.calls.lookup c = some call → call.Awaits n id →
    ∀ pkt qos, s.Carried id pkt qos → qos = n.qos

omit [Transport τ] in
theorem Claims.issued_of_awaits (h : Claims s) {c : Nat} {call : Call}
    (hcall : s.calls.lookup c = some call) (hawaits : call.Awaits n id) :
    Issued s.tx.history.allocated id := by
  have hclaims := hawaits.claims (h.proper c call hcall)
  have hcount := Table.hit_le_count (Call.claims id) c s.calls
  rw [hcall, Table.hit_pos hclaims] at hcount
  exact h.issued id hcount

/-- A call that waits behind a step did so before, or has just taken its identifier. -/
theorem awaits_step {e : Event} (hstep : s.step e = some s') {c : Nat} {call : Call}
    (hcall : s'.calls.lookup c = some call) (hawaits : call.Awaits n id) :
    (∃ old, s.calls.lookup c = some old ∧ old.Awaits n id) ∨
      id = s.tx.shared.nextPacketId ∧
        s'.tx.history.allocated = s.tx.history.allocated + 1 := by
  cases e with
  | task e =>
    rw [calls_taskStep hstep] at hcall
    exact Or.inl ⟨call, hcall, hawaits⟩
  | client e =>
    cases (clientMove_of_clientStep hstep).callMove with
    | none calls queue =>
      rw [calls] at hcall
      exact Or.inl ⟨call, hcall, hawaits⟩
    | step c' call' cmds calls queue goes =>
      rw [calls, Table.lookup_insert] at hcall
      split at hcall
      · cases hcall
        rename_i hc
        rw [hc]
        exact goes.awaits hawaits
      · exact Or.inl ⟨call, hcall, hawaits⟩

theorem Kinds.step (h : Kinds s) (hs : Filed s) (ho : Owned s) (hout : Outbound s)
    (hclaims : Claims s) {e : Event} (hroom : s'.tx.history.allocated ≤ 65536)
    (hstep : s.step e = some s') : Kinds s' := by
  intro c call n id hcall hawaits pkt qos hcarried
  rcases carried_step hs hstep hcarried with hold | ⟨c', mode, cmd, hcalls, hid, rfl, hnext, hone⟩
  · rcases awaits_step hstep hcall hawaits with ⟨old, hcall', hawaits'⟩ | ⟨rfl, hone⟩
    · exact h c old n id hcall' hawaits' pkt qos hold
    · exact absurd (hold.issued ho hout) (ho.counted.fresh (by omega))
  · rw [hcalls, Table.lookup_insert] at hcall
    split at hcall
    · -- The call that has taken the identifier publishes in the kind it waits for.
      cases hcall
      cases mode with
      | tryPublish q | noWait q =>
        obtain ⟨fut, hfut, -⟩ := hawaits
        cases hfut
      | qos1AwaitAck | qos2Received | qos2Complete =>
        cases hawaits.1
        rfl
    · subst hnext
      exact absurd (hclaims.issued_of_awaits hcall hawaits) (ho.counted.fresh (by omega))

/-- What was released was received before, and a call that waits for `PUBCOMP` of a message
that was released has its `PUBREL` pending. -/
structure Relayed (s : System τ) : Prop where
  released : ∀ p ∈ s.tx.link.handed, ∀ id, p.asks = .release id →
    p.packet = pubRelPacket id ∧ ∃ q ∈ s.received, q.asks = .publish .exactlyOnce id
  pending : ∀ id pkt, s.tx.pendingPackets.lookup (.pubRel id) = some pkt →
    ∃ q ∈ s.received, q.asks = .publish .exactlyOnce id
  kept : ∀ id r, (s.tx.shared.notifierMap .pubComp).lookup id = some r → r.isWaiting = true →
    s.Releases id → (s.tx.pendingPackets.lookup (.pubRel id)).isSome = true

end System

section Works

variable {b b' : Book} {id : UInt16} {r : NotifyResult}

/-- A `PUBREL` stays pending as long as the call waits for its `PUBCOMP`. -/
theorem PacketEffect.relKept {pkt : IncomingPacket} (h : PacketEffect pkt b b')
    (hr : (b'.shared.notifierMap .pubComp).lookup id = some r)
    (hold : (b.pendingPackets.lookup (.pubRel id)).isSome = true) :
    (b'.pendingPackets.lookup (.pubRel id)).isSome = true := by
  cases h with
  | subAck ack =>
    rw [Book.pendingPackets_processSubAck]
    exact hold
  | record msg pkt => exact Table.isSome_insert hold _ pkt
  | recordDispatch msg pkt => exact Table.isSome_insert hold _ pkt
  | pubAck ack =>
    rw [Book.pendingPackets_acknowledge]
    exact Table.isSome_erase (by rintro ⟨⟩) hold
  | pubRecAgain rec =>
    rw [Book.pendingPackets_acknowledge]
    exact Table.isSome_erase (by rintro ⟨⟩) hold
  | release rec pkt => exact Table.isSome_insert hold _ pkt
  | pubRec rec pkt =>
    rw [Book.pendingPackets_acknowledge]
    exact Table.isSome_erase (by rintro ⟨⟩) (Table.isSome_insert hold _ pkt)
  | pubRel rel => exact Table.isSome_erase (by rintro ⟨⟩) hold
  | pubComp comp =>
    rw [b.lookup_acknowledge] at hr
    split at hr
    · cases hr
    · rename_i hother
      rw [Book.pendingPackets_acknowledge]
      refine Table.isSome_erase ?_ hold
      rintro ⟨⟩
      exact hother ⟨hold, rfl, rfl⟩
  | unsubAck ack => exact Table.isSome_erase (by rintro ⟨⟩) hold
  | _ => exact hold

theorem CommandEffect.isSome_pending {q : Option Panic} {cmd : Command}
    (h : CommandEffect q cmd b b') {key : IdType}
    (hold : (b.pendingPackets.lookup key).isSome = true) :
    (b'.pendingPackets.lookup key).isSome = true := by
  cases h with
  | publish q cmd qos => exact Table.isSome_insert hold _ _
  | unsubscribe q topic pkt subscribed => exact Table.isSome_insert hold _ pkt
  | _ => exact hold

/-- Behind a `PUBREC` the `PUBREL` is pending, whether it could be sent or not. -/
theorem PacketWork.released {rec : PubRecPacket} {cut : Option IoError} {d d' : Desk}
    (h : PacketWork (.pubRec rec) cut d d') :
    (d'.book.pendingPackets.lookup (.pubRel rec.packetId)).isSome = true := by
  have hcut : ∀ d₁ d₂ : Desk,
      d₂ = d₁.conclude cut (Book.acknowledge (.publish rec.packetId) .pubRec) →
      (d₁.book.pendingPackets.lookup (.pubRel rec.packetId)).isSome = true →
      (d₂.book.pendingPackets.lookup (.pubRel rec.packetId)).isSome = true := by
    rintro d₁ d₂ rfl hrel
    cases cut with
    | some e => exact hrel
    | none =>
      show ((Book.acknowledge _ _ d₁.book).pendingPackets.lookup _).isSome = true
      rw [Book.pendingPackets_acknowledge]
      exact Table.isSome_erase (by rintro ⟨⟩) hrel
  cases h with
  | releaseAgain rec pkt _ _ known =>
    refine hcut _ _ rfl ?_
    rw [Desk.book_hand, known]
    rfl
  | release rec t _ _ new =>
    refine hcut _ _ rfl ?_
    rw [Desk.book_hand, Desk.book_track]
    show ((d.book.pendingPackets.insert _ _).lookup _).isSome = true
    rw [AList.lookup_insert]
    rfl

end Works

namespace System

variable {τ : Type} [Transport τ] {s s' : System τ} {n : Notifier} {id : UInt16}

theorem TaskMove.relKept {e : TaskEvent} (h : TaskMove s e s') {r : NotifyResult}
    (hr : (s'.tx.shared.notifierMap .pubComp).lookup id = some r)
    (hold : (s.tx.pendingPackets.lookup (.pubRel id)).isSome = true) :
    (s'.tx.pendingPackets.lookup (.pubRel id)).isSome = true := by
  cases h with
  | quiet tx p clean running next book =>
    show (tx.pendingPackets.lookup _).isSome = true
    rw [book]
    exact hold
  | connAck tx p clean running next pkt arrived waiting book =>
    show (tx.pendingPackets.lookup _).isSome = true
    rw [book]
    exact hold
  | packet tx p clean running next pkt arrived connected effect => exact effect.relKept hr hold
  | command tx p clean running next cmd rest queue taken connected effect =>
    exact effect.isSome_pending hold
  | _ => exact hold

/-- The task registers nothing. -/
theorem not_registers {e : TaskEvent} (hstep : s.taskStep e = some s') {c : Nat}
    {cmd : PublishCommand} (hcall : s.calls.lookup c = some (.registering cmd n)) :
    s' ≠ s.registerPublish c cmd n := by
  rintro rfl
  have hcalls := calls_taskStep hstep
  have hnew : (s.registerPublish c cmd n).calls.lookup c = _ := AList.lookup_insert _
  rw [hcalls, hcall] at hnew
  cases hnew

theorem waiting_taskStep {e : TaskEvent} (hstep : s.taskStep e = some s') {r : NotifyResult}
    (hr : (s'.tx.shared.notifierMap n).lookup id = some r) (hwait : r.isWaiting = true) :
    ∃ r', (s.tx.shared.notifierMap n).lookup id = some r' ∧ r'.isWaiting = true := by
  rcases waiting_cases (e := .task e) hstep hr hwait with hold | ⟨c, cmd, hcall, -, heq⟩
  · exact hold
  · exact absurd heq (not_registers hstep hcall)

/-- A `PUBREC` that the broker sends comes behind the `PUBLISH`. -/
theorem received_of_pubRec {e : TaskEvent} {rec : PubRecPacket}
    (hhonest : s.acksReceived (.task e) = true) (harrived : s.arriving e = some (.pubRec rec)) :
    ∃ q ∈ s.received, q.asks = .publish .exactlyOnce rec.packetId := by
  refine exists_received (n := .pubRec) hhonest ?_
  rw [harrived]
  rfl

theorem received_mono {e : Event} (hstep : s.step e = some s') {asked : Asked}
    (h : ∃ q ∈ s.received, q.asks = asked) : ∃ q ∈ s'.received, q.asks = asked := by
  obtain ⟨q, hq, hasks⟩ := h
  exact ⟨q, received_step hstep hq, hasks⟩

theorem relayed_taskStep (h : Relayed s) (hs : Filed s) {e : TaskEvent}
    (hhonest : s.acksReceived (.task e) = true) (hstep : s.taskStep e = some s') :
    Relayed s' := by
  have hmono : ∀ id, (∃ q ∈ s.received, q.asks = .publish .exactlyOnce id) →
      ∃ q ∈ s'.received, q.asks = .publish .exactlyOnce id :=
    fun id => received_mono (e := .task e) hstep
  have hmove := deskMove_of_taskStep hstep
  obtain ⟨ps, hhanded, hps⟩ := handing_of_taskStep hs hstep
  refine ⟨fun p hp id hasks => ?_, fun id pkt hp => ?_, fun id r hr hwait hrel => ?_⟩
  · rcases mem_handed_of_append hhanded hp with hp | hp
    · obtain ⟨hpacket, hpublish⟩ := h.released p hp id hasks
      exact ⟨hpacket, hmono id hpublish⟩
    · obtain ⟨hpacket, ⟨rec, harrived, -, rfl⟩ | ⟨-, pkt, hpkt⟩⟩ := (hps p hp).releases hs hasks
      · exact ⟨hpacket, hmono _ (received_of_pubRec hhonest harrived)⟩
      · exact ⟨hpacket, hmono id (h.pending id pkt hpkt)⟩
  · cases hmove with
    | program tx ph clean running leads work =>
      rcases work.pends hp with hold | ⟨hbegins, -⟩
      · exact hmono id (h.pending id pkt hold)
      · cases hbegins with
        | pubRel rec arrived connected kept packet =>
          cases kept
          exact hmono _ (received_of_pubRec hhonest arrived)
        | publish _ _ _ kept => cases kept
        | pubRec _ kept => cases kept
        | unsubscribe _ _ kept => cases kept
    | _ => exact hmono id (h.pending id pkt hp)
  · have hold : (s.tx.pendingPackets.lookup (.pubRel id)).isSome = true →
        (s'.tx.pendingPackets.lookup (.pubRel id)).isSome = true := hmove.taskMove.relKept hr
    obtain ⟨p, hp, hasks⟩ := hrel
    rcases mem_handed_of_append hhanded hp with hp | hp
    · obtain ⟨r', hr', hwait'⟩ := waiting_taskStep hstep hr hwait
      exact hold (h.kept id r' hr' hwait' ⟨p, hp, hasks⟩)
    · rcases ((hps p hp).releases hs hasks).2 with ⟨rec, harrived, hconn, rfl⟩ | ⟨-, pkt, hpkt⟩
      · obtain ⟨cut, -, hwork⟩ := packetWork_of_arriving hstep harrived hconn
        exact hwork.released
      · refine hold ?_
        rw [hpkt]
        rfl

omit [Transport τ] in
theorem Relayed.publishes (h : Relayed s) (hrel : s.Releases id) : s.Publishes id := by
  obtain ⟨p, hp, hasks⟩ := hrel
  obtain ⟨-, q, hq, hpublish⟩ := h.released p hp id hasks
  exact ⟨q, mem_handed_of_received hq, .exactlyOnce, hpublish⟩

theorem Relayed.step (h : Relayed s) (hs : Filed s) (hout : Outbound s) {e : Event}
    (hhonest : s.acksReceived e = true) (hstep : s.step e = some s') : Relayed s' := by
  cases e with
  | task e => exact relayed_taskStep h hs hhonest hstep
  | client e =>
    have hsame := (clientMove_of_clientStep hstep).sameTask
    have hreceived : s'.received = s.received := by rw [received, hsame.link, received]
    refine ⟨?_, ?_, fun id r hr hwait hrel => ?_⟩
    · rw [hsame.link, hreceived]
      exact h.released
    · rw [hsame.pendingPackets, hreceived]
      exact h.pending
    · rw [hsame.pendingPackets]
      have hrel' : s.Releases id := by
        obtain ⟨p, hp, hasks⟩ := hrel
        exact ⟨p, hsame.link ▸ hp, hasks⟩
      rcases waiting_cases hstep hr hwait with ⟨r', hr', hwait'⟩ | ⟨c, cmd, hcall, rfl, -⟩
      · exact h.kept id r' hr' hwait' hrel'
      · -- What a call has yet to send was not published.
        have hzero := (hout.sent _ (h.publishes hrel')).1
        have hcount := Table.hit_le_count (Call.holds cmd.packetId) c s.calls
        rw [hcall, Table.hit_pos (show Call.holds _ (.registering cmd _) = true from
          beq_self_eq_true _)] at hcount
        unfold System.unsent at hzero
        omega

/-! ## Honest brokers -/

/-- What holds in the runs in which the broker acknowledges only what it has received. -/
structure Honest (s : System τ) : Prop where
  owned : Owned s
  outbound : Outbound s
  claims : Claims s
  kinds : Kinds s
  awaited : Awaited s
  relayed : Relayed s

/-- Such a broker answers publishes in the kind they ask for. -/
theorem acksInKind_of_received (hclaims : Claims s) (hkinds : Kinds s) {e : Event}
    (hhonest : s.acksReceived e = true) : s.acksInKind e = true := by
  cases e with
  | client e => rfl
  | task e =>
    have hother : ∀ n m id qos, (s.arriving e).bind IncomingPacket.acknowledged = some (n, id) →
        n.asks id = .publish qos id → qos ≠ m.qos → s.tx.waits m id = false := by
      intro n m id qos hack hqos hne
      obtain ⟨p, hp, hasks⟩ := exists_received hhonest hack
      rw [Book.waits]
      cases hr : (s.tx.shared.notifierMap m).lookup id with
      | none => rfl
      | some r =>
        refine Bool.eq_false_iff.mpr fun hwait => hne ?_
        obtain ⟨c, call, fut, hcall, hfut, hm, hid⟩ := hclaims.entries m id r hr hwait
        exact hkinds c call m id hcall (.of_future hfut hm hid) p.packet qos
          (.handed p qos (mem_handed_of_received hp) (hasks.trans hqos))
    show (s.arriving e).all s.tx.inKind = true
    cases harrived : s.arriving e with
    | none => rfl
    | some pkt =>
      rw [harrived] at hother
      cases pkt with
      | pubAck ack =>
        have hrec := hother .pubAck .pubRec ack.packetId _ rfl rfl QoS.noConfusion
        have hcomp := hother .pubAck .pubComp ack.packetId _ rfl rfl QoS.noConfusion
        simp [Book.inKind, hrec, hcomp]
      | pubRec rec =>
        have hack := hother .pubRec .pubAck rec.packetId _ rfl rfl QoS.noConfusion
        simp [Book.inKind, hack]
      | _ => rfl

theorem Honest.step (h : Honest s) (hs : Filed s) {e : Event}
    (hroom : s'.tx.history.allocated ≤ 65536) (hhonest : s.acksReceived e = true)
    (hstep : s.step e = some s') : Honest s' where
  owned := h.owned.step hroom hstep
  outbound := h.outbound.step hs h.owned hroom hstep
  claims := h.claims.step hroom hstep
  kinds := h.kinds.step hs h.owned h.outbound h.claims hroom hstep
  awaited := h.awaited.step h.claims (acksInKind_of_received h.claims h.kinds hhonest) hstep
  relayed := h.relayed.step hs h.outbound hhonest hstep

omit [Transport τ] in
theorem honest_spawn (setup : Setup τ) : Honest (spawn setup) where
  owned := owned_spawn setup
  outbound := outbound_spawn setup
  claims := claims_spawn setup
  kinds _ _ _ _ hcall := by cases hcall
  awaited _ n _ _ hr := by cases n <;> cases hr
  relayed := ⟨fun _ hp => (by cases hp), fun _ _ hp => (by cases hp), fun _ _ hr => (by cases hr)⟩

end System

end Lmc
