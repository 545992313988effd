import Lmc.System.Honest

/-!
# Acknowledged means received

A publish call that waits ends with success when it finds no entry under its identifier.
The entry was then removed by an acknowledgement, so a broker that acknowledges only what
it has received has the `PUBLISH` with that identifier, and as long as identifiers do not
come back this is the packet of that very call (`Sole`).

In the other direction, an acknowledgement that arrives while the call is registered finds
a pending packet, since what the broker has received left the queue before, so the entry is
erased and the next poll is ready (`Settled`).
-/

namespace Lmc

open Runs

namespace System

variable {τ : Type} [Transport τ] {s s' : System τ} {n : Notifier} {id : UInt16}

/-! ## Calls that succeed -/

/-- The broker has what the success of the call stands for. -/
def Arrived (s : System τ) (cmd : PublishCommand) (n : Notifier) : Prop :=
  (∃ p ∈ s.received, p.packet = cmd.packet) ∧
    (n = .pubComp → ∃ p ∈ s.received, p.packet = pubRelPacket cmd.packetId)

/-- Where a call stands that was about to register: if there is no entry any more, or if it
has succeeded, the broker has received what it waits for. -/
inductive Standing (s : System τ) (c : Nat) (cmd : PublishCommand) (n : Notifier) : Prop
  | registering (found : s.calls.lookup c = some (.registering cmd n))
  | waiting (call : Call) (fut : PublishFuture) (found : s.calls.lookup c = some call)
      (waits : call.publishFuture = some fut) (map : fut.notifier = n)
      (id : fut.packetId = cmd.packetId)
      (arrived : (s.tx.shared.notifierMap n).lookup cmd.packetId = none → s.Arrived cmd n)
  | ended (outcome : Outcome) (found : s.calls.lookup c = some (.done outcome))
      (arrived : outcome = .ok → s.Arrived cmd n)

/-- The identifier of the command is its own. -/
structure Sole (s : System τ) (cmd : PublishCommand) : Prop where
  issued : Issued s.tx.history.allocated cmd.packetId
  packet : ∀ pkt qos, s.Carried cmd.packetId pkt qos → pkt = cmd.packet

theorem Arrived.step {cmd : PublishCommand} (h : s.Arrived cmd n) {e : Event}
    (hstep : s.step e = some s') : s'.Arrived cmd n := by
  obtain ⟨⟨p, hp, hpkt⟩, hrel⟩ := h
  refine ⟨⟨p, received_step hstep hp, hpkt⟩, fun hn => ?_⟩
  obtain ⟨q, hq, hqpkt⟩ := hrel hn
  exact ⟨q, received_step hstep hq, hqpkt⟩

theorem Sole.step {cmd : PublishCommand} (h : s.Sole cmd) (hs : Filed s) (ho : Owned s)
    {e : Event} (hroom : s'.tx.history.allocated ≤ 65536) (hstep : s.step e = some s') :
    s'.Sole cmd := by
  refine ⟨h.issued.mono (numbers_step hstep).allocated_le, fun pkt qos hcarried => ?_⟩
  rcases carried_step hs hstep hcarried with hold | ⟨-, -, -, -, -, -, hnext, hone⟩
  · exact h.packet pkt qos hold
  · have hissued := h.issued
    rw [hnext] at hissued
    exact absurd hissued (ho.counted.fresh (by omega))

/-- An acknowledgement of the kind that the call waits for. -/
theorem arrived_of_ack (h : Honest s) {cmd : PublishCommand} (hsole : s.Sole cmd)
    {e : TaskEvent} (hhonest : s.acksReceived (.task e) = true)
    (hack : (s.arriving e).bind IncomingPacket.acknowledged = some (n, cmd.packetId)) :
    s.Arrived cmd n := by
  obtain ⟨p, hp, hasks⟩ := exists_received hhonest hack
  have hmem := mem_handed_of_received hp
  cases n with
  | pubAck =>
    exact ⟨⟨p, hp, hsole.packet _ _ (.handed p _ hmem hasks)⟩, fun hn => (by cases hn)⟩
  | pubRec =>
    exact ⟨⟨p, hp, hsole.packet _ _ (.handed p _ hmem hasks)⟩, fun hn => (by cases hn)⟩
  | pubComp =>
    obtain ⟨hpacket, q, hq, hpublish⟩ := h.relayed.released p hmem _ hasks
    have hqmem := mem_handed_of_received hq
    exact ⟨⟨q, hq, hsole.packet _ _ (.handed q _ hqmem hpublish)⟩, fun _ => ⟨p, hp, hpacket⟩⟩

theorem standing_taskStep {c : Nat} {cmd : PublishCommand} (h : s.Standing c cmd n)
    (hinv : Honest s) (hsole : s.Sole cmd) {e : TaskEvent}
    (hhonest : s.acksReceived (.task e) = true) (hstep : s.taskStep e = some s') :
    s'.Standing c cmd n := by
  have hcalls := calls_taskStep hstep
  have hmono : s.Arrived cmd n → s'.Arrived cmd n := fun h => h.step (e := .task e) hstep
  cases h with
  | registering found => exact .registering (hcalls ▸ found)
  | waiting call fut found waits map id arrived =>
    refine .waiting call fut (hcalls ▸ found) waits map id fun hnone => hmono ?_
    cases hr : (s.tx.shared.notifierMap n).lookup cmd.packetId with
    | none => exact arrived hr
    | some r =>
      exact arrived_of_ack hinv hsole hhonest ((taskMove_of_taskStep hstep).entry_lost hr hnone)
  | ended outcome found arrived =>
    exact .ended outcome (hcalls ▸ found) fun hok => hmono (arrived hok)

omit [Transport τ] in
/-- A call that is about to register does so, and nothing else. -/
theorem CallStep.standing {cmd : PublishCommand} {call : Call} {cmds : List Command} {c : Nat}
    (h : CallStep s s' (some (.registering cmd n)) call cmds)
    (hnew : s'.calls.lookup c = some call) : s'.Standing c cmd n := by
  cases h with
  | register _ _ fut made entry =>
    subst made
    refine .waiting _ _ hnew rfl rfl rfl fun hnone => ?_
    cases entry.symm.trans hnone
  | sent _ _ sends => cases sends
  | pollTopic _ _ _ waits => cases waits
  | ready _ _ _ waits => cases waits
  | ended _ outcome left ends =>
    refine .ended outcome hnew fun hok => ?_
    subst hok
    rcases ends with hfails | ⟨-, fut, hfut⟩
    · cases hfails
    · cases hfut

omit [Transport τ] in
/-- The futures of two calls do not share an identifier. -/
theorem Claims.same_call (h : Claims s) {c c' : Nat} {call call' : Call}
    {fut fut' : PublishFuture} (hcall : s.calls.lookup c = some call)
    (hcall' : s.calls.lookup c' = some call') (hfut : call.publishFuture = some fut)
    (hfut' : call'.publishFuture = some fut') (hid : fut'.packetId = fut.packetId) : c' = c := by
  have hclaims := ((h.proper c call hcall).future hfut).2
  have hclaims' := ((h.proper c' call' hcall').future hfut').2
  rw [hid] at hclaims'
  exact Table.eq_of_count_le_one (h.one fut.packetId) hcall' hcall hclaims' hclaims

theorem standing_clientStep {c : Nat} {cmd : PublishCommand} (h : s.Standing c cmd n)
    (hclaims : Claims s) {e : ClientEvent} (hstep : s.clientStep e = some s') :
    s'.Standing c cmd n := by
  have hmove := clientMove_of_clientStep hstep
  have hmono : s.Arrived cmd n → s'.Arrived cmd n := fun h => h.step (e := .client e) hstep
  cases h with
  | registering found =>
    cases hmove.callMove with
    | none calls queue => exact .registering (calls ▸ found)
    | step c' call cmds calls queue goes =>
      by_cases hc : c = c'
      · subst hc
        rw [found] at goes
        exact goes.standing (by rw [calls]; exact AList.lookup_insert _)
      · exact .registering (by rw [calls, AList.lookup_insert_ne hc]; exact found)
  | waiting call fut found waits map id arrived =>
    by_cases hlost : (s'.tx.shared.notifierMap n).lookup cmd.packetId = none ∧
        ∃ r, (s.tx.shared.notifierMap n).lookup cmd.packetId = some r
    · -- The call that has dropped the entry is this one.
      obtain ⟨hnone, r, hr⟩ := hlost
      obtain ⟨c', call', fut', outcome, found', waits', -, hid', hdone, hne⟩ :=
        hmove.entry_lost hr hnone
      have hc := hclaims.same_call found found' waits waits' (hid'.trans id.symm)
      subst hc
      exact .ended outcome hdone fun hok => absurd hok hne
    · have hkept : (s'.tx.shared.notifierMap n).lookup cmd.packetId = none →
          s'.Arrived cmd n := by
        intro hnone
        refine hmono (arrived (Option.eq_none_iff_forall_ne_some.mpr fun r hr => ?_))
        exact hlost ⟨hnone, r, hr⟩
      cases hmove.callMove with
      | none calls queue => exact .waiting call fut (calls ▸ found) waits map id hkept
      | step c' call' cmds calls queue goes =>
        by_cases hc : c = c'
        · subst hc
          rw [found] at goes
          have hnew : s'.calls.lookup c = some call' := by
            rw [calls]
            exact AList.lookup_insert _
          rcases goes.future (hclaims.proper c call found) waits with
            ⟨fut', hfut', hn', hid'⟩ | ⟨outcome, rfl, hends⟩
          · exact .waiting call' fut' hnew hfut' (hn'.trans map) (hid'.trans id) hkept
          · refine .ended outcome hnew fun hok => hmono (arrived ?_)
            rw [← map, ← id]
            exact hends.ok hok
        · refine .waiting call fut ?_ waits map id hkept
          rw [calls, AList.lookup_insert_ne hc]
          exact found
  | ended outcome found arrived =>
    exact .ended outcome (done_clientStep hstep found) fun hok => hmono (arrived hok)

/-! ## Acknowledgements are not lost -/

theorem unfailed_step {e : Event} (h : s.publishers.Unfailed) (hstep : s.step e = some s') :
    s'.publishers.Unfailed := by
  obtain ⟨l, -, hmove⟩ := publishStep hstep
  exact h.step hmove

omit [Transport τ] in
/-- An entry that waits for something that the broker has received has its packet pending. -/
theorem pending_of_received (h : Honest s) (hunfailed : s.publishers.Unfailed)
    (hphase : s.phase = .reading) {r : NotifyResult}
    (hr : (s.tx.shared.notifierMap n).lookup id = some r)
    (hreceived : ∃ p ∈ s.received, p.asks = n.asks id) :
    (s.tx.pendingPackets.lookup (n.awaited id)).isSome = true := by
  have hwait : r.isWaiting = true := by
    refine NotifyResult.isWaiting_of_ne ?_
    rintro rfl
    refine hunfailed n id ?_ hr
    show s.phase.swept n = false
    rw [hphase]
    rfl
  obtain ⟨p, hp, hasks⟩ := hreceived
  have hmem := mem_handed_of_received hp
  have halive : s.receiverAlive = true := by rw [receiverAlive, hphase]
  have hpublish : ∀ qos, p.asks = .publish qos id → n ≠ .pubComp →
      (s.tx.pendingPackets.lookup (.publish id)).isSome = true := by
    intro qos hqos hn
    have hzero := (h.outbound.sent id ⟨p, hmem, qos, hqos⟩).1
    unfold System.unsent at hzero
    rcases h.awaited halive n id r hr hwait with
      ⟨c, call, hcall, hholds⟩ | ⟨cmd, hcmd, hcarries⟩ | hpending | ⟨hcomp, -⟩
    · have hcount := Table.hit_le_count (Call.holds id) c s.calls
      rw [hcall, Table.hit_pos hholds] at hcount
      omega
    · have hcount : 0 < s.tx.cmdQueue.countP (Command.carries id) :=
        List.countP_pos_iff.mpr ⟨cmd, hcmd, hcarries⟩
      omega
    · exact hpending
    · exact absurd hcomp hn
  cases n with
  | pubAck => exact hpublish _ hasks Notifier.noConfusion
  | pubRec => exact hpublish _ hasks Notifier.noConfusion
  | pubComp => exact h.relayed.kept id r hr hwait ⟨p, hmem, hasks⟩

/-- An acknowledgement that arrives and is handled leaves no entry behind. -/
theorem entry_of_ack (h : Honest s) (hunfailed : s.publishers.Unfailed) {e : TaskEvent}
    (hhonest : s.acksReceived (.task e) = true)
    (hio : n = .pubRec → s.transportFails (.task e) = false)
    (hack : (s.arriving e).bind IncomingPacket.acknowledged = some (n, id))
    (hstep : s.taskStep e = some s') :
    (s'.tx.shared.notifierMap n).lookup id = none := by
  have hreceived := exists_received hhonest hack
  obtain ⟨pkt, harrived, hpkt⟩ := Option.bind_eq_some_iff.mp hack
  have hphase := (arriving_reading harrived).1
  have hconn : s.tx.connectSig = false := by
    obtain ⟨p, hp, hasks⟩ := hreceived
    have hmem := mem_handed_of_received hp
    cases n with
    | pubAck => exact h.outbound.opened id ⟨p, hmem, _, hasks⟩
    | pubRec => exact h.outbound.opened id ⟨p, hmem, _, hasks⟩
    | pubComp => exact h.outbound.opened id (h.relayed.publishes ⟨p, hmem, hasks⟩)
  have hgone : ∀ b : Book, b.shared = s.tx.shared →
      ((s.tx.pendingPackets.lookup (n.awaited id)).isSome = true →
        (b.pendingPackets.lookup (n.awaited id)).isSome = true) →
      ((b.acknowledge (n.awaited id) n).shared.notifierMap n).lookup id = none := by
    intro b hshared hpending
    rw [b.lookup_acknowledge, hshared]
    split
    · rfl
    · rename_i hother
      refine Option.eq_none_iff_forall_ne_some.mpr fun r hr => hother ⟨hpending ?_, rfl, ?_⟩
      · exact pending_of_received h hunfailed hphase hr hreceived
      · cases n <;> rfl
  obtain ⟨cut, hcut, hwork⟩ := packetWork_of_arriving hstep harrived hconn
  show (s'.tx.desk.book.shared.notifierMap n).lookup id = none
  generalize s'.tx.desk = d at hwork
  cases hwork with
  | pubAck ack =>
    cases hpkt
    exact hgone _ rfl fun hp => hp
  | releaseAgain rec pkt _ _ known =>
    cases hpkt
    cases cut_eq_none (hio rfl) hcut
    exact hgone _ rfl fun hp => hp
  | release rec t _ _ new =>
    cases hpkt
    cases cut_eq_none (hio rfl) hcut
    refine hgone (Desk.track t (.pubRel rec.packetId) (pubRelPacket rec.packetId) _).book ?_ ?_
    · rw [Desk.book_track]
      rfl
    · rw [Desk.book_track]
      exact fun hp => Table.isSome_insert hp _ _
  | pubComp comp =>
    cases hpkt
    exact hgone _ rfl fun hp => hp
  | _ => cases hpkt

/-- An entry behind a step was there before, or a call has just registered it. -/
theorem entry_origin {e : Event} (hstep : s.step e = some s') {r : NotifyResult}
    (hr : (s'.tx.shared.notifierMap n).lookup id = some r) :
    (∃ r', (s.tx.shared.notifierMap n).lookup id = some r') ∨
      ∃ c cmd, s.calls.lookup c = some (.registering cmd n) ∧ cmd.packetId = id := by
  obtain ⟨l, hl, hmove⟩ := publishStep hstep
  refine (hmove.entry_origin hr).imp_right fun hreg => ?_
  have hlabel := publishLabel_of hl hreg Publishers.Label.noConfusion
  obtain ⟨c, cmd, hcall, hid, -⟩ := register_of_label hlabel hstep
  exact ⟨c, cmd, hcall, hid⟩

/-- The call has nothing more to wait for: it holds its future and there is no entry, or it
has ended. -/
inductive Settled (s : System τ) (c : Nat) (n : Notifier) (id : UInt16) : Prop
  | waiting (call : Call) (fut : PublishFuture) (found : s.calls.lookup c = some call)
      (waits : call.publishFuture = some fut) (map : fut.notifier = n) (key : fut.packetId = id)
      (gone : (s.tx.shared.notifierMap n).lookup id = none)
  | ended (outcome : Outcome) (found : s.calls.lookup c = some (.done outcome))

theorem Settled.step {c : Nat} (h : s.Settled c n id) (hclaims : Claims s) {e : Event}
    (hstep : s.step e = some s') : s'.Settled c n id := by
  cases h with
  | ended outcome found => exact .ended outcome (done_step hstep found)
  | waiting call fut found waits map key gone =>
    have hproper := hclaims.proper c call found
    have hgone : (s'.tx.shared.notifierMap n).lookup id = none := by
      refine Option.eq_none_iff_forall_ne_some.mpr fun r hr => ?_
      rcases entry_origin hstep hr with ⟨r', hr'⟩ | ⟨c', cmd, hcall', hid⟩
      · cases gone.symm.trans hr'
      · -- No other call has the identifier, and this one has registered already.
        have hclaims' : Call.claims id (.registering cmd n) = true := beq_iff_eq.mpr hid
        have hc := Table.eq_of_count_le_one (hclaims.one id) hcall' found hclaims'
          (key ▸ (hproper.future waits).2)
        subst hc
        cases found.symm.trans hcall'
        cases waits
    cases e with
    | task e => exact .waiting call fut (calls_taskStep hstep ▸ found) waits map key hgone
    | client e =>
      cases (clientMove_of_clientStep hstep).callMove with
      | none calls queue => exact .waiting call fut (calls ▸ found) waits map key hgone
      | step c' call' cmds calls queue goes =>
        by_cases hc : c = c'
        · subst hc
          rw [found] at goes
          have hnew : s'.calls.lookup c = some call' := by
            rw [calls]
            exact AList.lookup_insert _
          rcases goes.future hproper waits with ⟨fut', hfut', hn', hid'⟩ | ⟨outcome, rfl, -⟩
          · exact .waiting call' fut' hnew hfut' (hn'.trans map) (hid'.trans key) hgone
          · exact .ended outcome hnew
        · refine .waiting call fut ?_ waits map key hgone
          rw [calls, AList.lookup_insert_ne hc]
          exact found

/-- The next poll of a call that has nothing to wait for is ready. -/
theorem Settled.poll {c : Nat} (h : s.Settled c n id) (hclaims : Claims s) {fut : PublishFuture}
    (hcall : s.calls.lookup c = some (.awaitingPublish fut)) :
    ∃ s', s.step (.client (.poll c)) = some s' ∧ s'.calls.lookup c = some (.done .ok) := by
  cases h with
  | ended outcome found => cases found.symm.trans hcall
  | waiting call fut' found waits map key gone =>
    cases found.symm.trans hcall
    cases waits
    have hresult : fut.result = none := hclaims.proper c _ hcall
    refine ⟨s.pollPublish c fut, ?_, ?_⟩
    · simp only [System.step, clientStep, stepPoll, hcall, Option.bind_eq_bind, Option.bind_some]
    · unfold System.pollPublish PublishFuture.poll
      rw [hresult]
      subst map key
      simp only [gone]
      exact AList.lookup_insert _

omit [Transport τ] in
/-- While a call is about to register, nothing else is published under its identifier. -/
theorem sole_of_registering (h : Honest s) {c : Nat} {cmd : PublishCommand}
    (hcall : s.calls.lookup c = some (.registering cmd n)) : s.Sole cmd := by
  have hholds : Call.holds cmd.packetId (.registering cmd n) = true := beq_self_eq_true _
  have hcount := Table.hit_le_count (Call.holds cmd.packetId) c s.calls
  rw [hcall, Table.hit_pos hholds] at hcount
  have hle := h.owned.owners_le_one cmd.packetId
  unfold owners unsent at hle
  refine ⟨h.claims.issued_of_awaits (n := n) hcall ⟨rfl, rfl⟩, fun pkt qos hcarried => ?_⟩
  cases hcarried with
  | call c' call' cmd' found works uses =>
    have hone : Table.count (Call.holds cmd.packetId) s.calls ≤ 1 := by omega
    have hc := Table.eq_of_count_le_one hone found hcall
      (Call.holds_of_publishCommand works uses) hholds
    subst hc
    cases found.symm.trans hcall
    cases works
    rfl
  | queue cmd' mem uses =>
    have hpos : 0 < s.tx.cmdQueue.countP (Command.carries cmd.packetId) :=
      List.countP_pos_iff.mpr ⟨_, mem, uses⟩
    omega
  | pending pkt qos kept asks =>
    rw [kept, Table.hit_pos rfl] at hle
    omega
  | handed p qos mem asks =>
    have hzero := (h.outbound.sent _ ⟨p, mem, qos, asks⟩).1
    unfold unsent at hzero
    omega

/-! ## The result -/

/-- The runs in which the broker acknowledges only what it has received. -/
def HonestRun (s s' : System τ) : Prop :=
  Reaches System.step (fun s e => acksReceived s e = true) s s'

/-- What every state of such a run has. -/
structure Upheld (s : System τ) : Prop where
  filed : Filed s
  unfailed : s.publishers.Unfailed
  honest : s.tx.history.allocated < 65536 → Honest s

theorem Upheld.step (h : Upheld s) {e : Event} (hhonest : s.acksReceived e = true)
    (hstep : s.step e = some s') : Upheld s' where
  filed := h.filed.step hstep
  unfailed := unfailed_step h.unfailed hstep
  honest hroom := by
    have hle := (numbers_step hstep).allocated_le
    exact (h.honest (by omega)).step h.filed (by omega) hhonest hstep

omit [Transport τ] in
theorem upheld_spawn {setup : Setup τ} {connect : ConnectPacket}
    (hconnect : makePacket connect = .ok setup.connectPacket) : Upheld (spawn setup) where
  filed := filed_spawn hconnect
  unfailed n id _ hr := by cases n <;> cases hr
  honest _ := honest_spawn setup

theorem Upheld.run {s s' : System τ} (h : Upheld s) (hrun : HonestRun s s') : Upheld s' :=
  Reaches.invariant h (fun _ _ _ hs hhonest hstep => hs.step hhonest hstep) hrun

/-- A call that was about to register stands as it should in every later state. -/
theorem standing_run {c : Nat} {cmd : PublishCommand} {s s' : System τ} (h : Upheld s)
    (hcall : s.calls.lookup c = some (.registering cmd n)) (hrun : HonestRun s s')
    (hroom : s'.tx.history.allocated < 65536) : s'.Standing c cmd n := by
  have hinv : Upheld s' ∧
      (s'.tx.history.allocated < 65536 → s'.Standing c cmd n ∧ s'.Sole cmd) := by
    refine Reaches.invariant (I := fun s => Upheld s ∧
      (s.tx.history.allocated < 65536 → s.Standing c cmd n ∧ s.Sole cmd)) ?_ ?_ hrun
    · exact ⟨h, fun hroom => ⟨.registering hcall, sole_of_registering (h.honest hroom) hcall⟩⟩
    · rintro s e s' ⟨hs, hrest⟩ hhonest hstep
      refine ⟨hs.step hhonest hstep, fun hroom' => ?_⟩
      have hle := (numbers_step hstep).allocated_le
      obtain ⟨hstanding, hsole⟩ := hrest (by omega)
      have hinv := hs.honest (by omega)
      refine ⟨?_, hsole.step hs.filed hinv.owned (by omega) hstep⟩
      cases e with
      | task e => exact standing_taskStep hstanding hinv hsole hhonest hstep
      | client e => exact standing_clientStep hstanding hinv.claims hstep
  exact (hinv.2 hroom).1

/-- A call that has nothing to wait for stays so. -/
theorem settled_run {c : Nat} {s s' : System τ} (h : Upheld s) (hsettled : s.Settled c n id)
    (hrun : HonestRun s s') (hroom : s'.tx.history.allocated < 65536) :
    s'.Settled c n id := by
  have hinv : Upheld s' ∧ (s'.tx.history.allocated < 65536 → s'.Settled c n id) := by
    refine Reaches.invariant (I := fun s => Upheld s ∧
      (s.tx.history.allocated < 65536 → s.Settled c n id)) ⟨h, fun _ => hsettled⟩ ?_ hrun
    rintro s e s' ⟨hs, hrest⟩ hhonest hstep
    refine ⟨hs.step hhonest hstep, fun hroom' => ?_⟩
    have hle := (numbers_step hstep).allocated_le
    exact (hrest (by omega)).step (hs.honest (by omega)).claims hstep
  exact hinv.2 hroom

/-- In every run in which the broker acknowledges only what it has received and fewer than
`2^16` identifiers were taken, for every call that was about to register: if it has
succeeded, the broker has received its `PUBLISH`, and also its `PUBREL` if the call waits
for `PUBCOMP`. If an acknowledgement of its kind is processed while it is registered, then
in every later state in which the call is still to be polled the next poll is ready with
success. Only the handling of `PUBREC` can be cut short, by a failure to send `PUBREL`. -/
theorem acknowledged_received (setup : Setup τ) {connect : ConnectPacket}
    (hconnect : makePacket connect = .ok setup.connectPacket) {s₁ s₂ : System τ} {c : Nat}
    {cmd : PublishCommand} (h₁ : HonestRun (spawn setup) s₁)
    (hcall : s₁.calls.lookup c = some (.registering cmd n)) (h₂ : HonestRun s₁ s₂)
    (hroom : s₂.tx.history.allocated < 65536) :
    (s₂.calls.lookup c = some (.done .ok) →
      (∃ p ∈ s₂.received, p.packet = cmd.packet) ∧
        (n = .pubComp → ∃ p ∈ s₂.received, p.packet = pubRelPacket cmd.packetId)) ∧
      ∀ e s₃ s₄ fut, s₂.calls.lookup c ≠ some (.registering cmd n) →
        s₂.acksReceived (.task e) = true →
        (n = .pubRec → s₂.transportFails (.task e) = false) →
        (s₂.arriving e).bind IncomingPacket.acknowledged = some (n, cmd.packetId) →
        s₂.step (.task e) = some s₃ → HonestRun s₃ s₄ → s₄.tx.history.allocated < 65536 →
        s₄.calls.lookup c = some (.awaitingPublish fut) →
        ∃ s₅, s₄.step (.client (.poll c)) = some s₅ ∧
          s₅.calls.lookup c = some (.done .ok) := by
  have hs₁ := (upheld_spawn hconnect).run h₁
  have hs₂ := hs₁.run h₂
  have hstanding := standing_run hs₁ hcall h₂ hroom
  refine ⟨fun hok => ?_, ?_⟩
  · cases hstanding with
    | registering found => cases found.symm.trans hok
    | waiting call fut found waits map id arrived =>
      cases found.symm.trans hok
      cases waits
    | ended outcome found arrived =>
      cases found.symm.trans hok
      exact arrived rfl
  · intro e s₃ s₄ fut hregistered hhonest hio hack hstep h₄ hroom₄ hpoll
    have hs₃ := hs₂.step hhonest hstep
    have hgone := entry_of_ack (hs₂.honest hroom) hs₂.unfailed hhonest hio hack hstep
    have hcalls := calls_taskStep hstep
    have hsettled : s₃.Settled c n cmd.packetId := by
      cases hstanding with
      | registering found => exact absurd found hregistered
      | waiting call fut found waits map id arrived =>
        exact .waiting call fut (hcalls ▸ found) waits map id hgone
      | ended outcome found arrived => exact .ended outcome (hcalls ▸ found)
    exact (settled_run hs₃ hsettled h₄ hroom₄).poll ((hs₃.run h₄).honest hroom₄).claims hpoll

/-! ## A concrete run -/

/-- A broker that accepts the connection and acknowledges the identifier 1 with `PUBACK`. -/
def ackSetup : Setup TcpTransport :=
  { scripted ⟨[acceptance, .wouldBlock, .data 0x40 [2, 0, 1], .wouldBlock], false, []⟩ with
    connectPacket := blockedSetup.connectPacket }

/-- What the call publishes in the run. -/
def ackedCommand : PublishCommand := ⟨1, .atLeastOnce, ⟨0x32, [5, 0, 1, 0x74, 0, 1]⟩⟩

/-- `PUBACK` is processed before the first poll. The poll is ready, and the broker has the
`PUBLISH`. -/
theorem acknowledged_received_publish :
    ∃ s, HonestRun (spawn ackSetup) s ∧ s.calls.lookup 0 = some (.done .ok) ∧
      ∃ p ∈ s.received, p.packet = ackedCommand.packet := by
  have hconnect : makePacket shortConnect = .ok ackSetup.connectPacket := by
    decide +kernel
  have hrun : (runUnder System.step (fun s e => acksReceived s e = true) (spawn ackSetup)
      (connecting ++ [.client (.publish 0 .qos1AwaitAck ['t'] [] false)])).any (fun s₁ =>
        s₁.calls.lookup 0 == some (.registering ackedCommand .pubAck) &&
        (runUnder System.step (fun s e => acksReceived s e = true) s₁ [.client (.register 0),
          .client (.send 0), .task .command, .task (.readable (.ok ())), .task .proceed]).any
          (fun s₂ => s₂.tx.history.allocated == 1 &&
            s₂.calls.lookup 0 != some (.registering ackedCommand .pubAck) &&
            s₂.acksReceived (.task .proceed) &&
            (s₂.arriving .proceed).bind IncomingPacket.acknowledged == some (.pubAck, 1) &&
            (s₂.step (.task .proceed)).any fun s₃ => s₃.tx.history.allocated == 1 &&
              s₃.calls.lookup 0 == some (.awaitingPublish ⟨1, .pubAck, none, none⟩) &&
              (s₃.step (.client (.poll 0))).any fun s₅ =>
                s₅.tx.history.allocated == 1)) = true := by
    decide +kernel
  obtain ⟨s₁, h₁, hp⟩ := exists_reaches _ hrun
  obtain ⟨hcall, hrest⟩ := Bool.and_eq_true_iff.mp hp
  obtain ⟨s₂, h₂, hp⟩ := exists_reaches _ hrest
  simp only [Bool.and_eq_true, beq_iff_eq, bne_iff_ne, Option.any_eq_true] at hp
  obtain ⟨⟨⟨⟨hone, hregistered⟩, hhonest⟩, hack⟩, s₃, hstep, ⟨hone₃, hawaiting⟩, s₅, hpoll,
    hone₅⟩ := hp
  have hcall := beq_iff_eq.mp hcall
  obtain ⟨s₅', hpoll', hok⟩ := (acknowledged_received ackSetup hconnect h₁ hcall h₂
    (by omega)).2 .proceed s₃ s₃ _ hregistered hhonest (fun hn => by cases hn) hack hstep .refl
      (by omega) hawaiting
  cases hpoll.symm.trans hpoll'
  have h₅ : HonestRun s₁ s₅ := (h₂.tail hhonest hstep).tail rfl hpoll
  exact ⟨s₅, h₁.trans h₅, hok,
    ((acknowledged_received ackSetup hconnect h₁ hcall h₅ (by omega)).1 hok).1⟩

end System

end Lmc
