import Lmc.System.Identifiers

/-!
# Awaited publishes

A publish call claims its identifier from the moment at which it takes it until it ends,
and while fewer than `2^16` identifiers were taken no other call claims it (`Claims`).
Every entry of the notifier maps that waits belongs to the call that claims its
identifier, so nothing but that call and the task can remove it.

`PUBACK` and `PUBREC` clear the same pending packet and notify different maps. As long as
the broker answers each publish in the kind it asks for, an entry that waits has its
command still on the way to the task, or a packet that is pending (`awaited_in_flight`).
A `PUBREC` for a publish of quality 1 leaves the entry behind with nothing in flight.
-/

namespace Lmc

open Runs

/-! ## Claims of calls -/

/-- The call works on the publish with the identifier. -/
def Call.claims (id : UInt16) : Call → Bool
  | .awaitingPublish fut => fut.packetId == id
  | call => call.holds id

/-- A call that waits, or is about to, publishes above quality 0, and its future stands
for its identifier and is not resolved. -/
def Call.Proper : Call → Prop
  | .registering cmd _ => cmd.qos ≠ .atMostOnce
  | .sendingPublish cmd (some fut) =>
    cmd.qos ≠ .atMostOnce ∧ fut.packetId = cmd.packetId ∧ fut.result = none
  | .awaitingPublish fut => fut.result = none
  | _ => True

theorem PublishCommand.uses_self {cmd : PublishCommand} (h : cmd.qos ≠ .atMostOnce) :
    cmd.uses cmd.packetId = true := by
  simp [PublishCommand.uses, h]

theorem Call.claims_of_holds {id : UInt16} {call : Call} (h : call.holds id = true) :
    call.claims id = true := by
  cases call <;> first | exact h | cases h

theorem Call.Proper.future {call : Call} {fut : PublishFuture} (h : call.Proper)
    (hfut : call.publishFuture = some fut) :
    fut.result = none ∧ call.claims fut.packetId = true := by
  cases call with
  | sendingPublish cmd f =>
    cases hfut
    obtain ⟨hqos, hid, hresult⟩ := h
    refine ⟨hresult, ?_⟩
    rw [hid]
    exact PublishCommand.uses_self hqos
  | awaitingPublish f =>
    cases hfut
    exact ⟨h, beq_self_eq_true _⟩
  | _ => cases hfut

/-- The future of a call goes on waiting behind the send. -/
theorem Call.publishFuture_sent {call : Call} {cmd : Command} (h : call.command = some cmd) :
    call.sent.publishFuture = call.publishFuture := by
  cases call with
  | sendingPublish _ fut => cases fut <;> rfl
  | sendingSubscribe _ qos => cases qos <;> rfl
  | tryingPublish | sending => rfl
  | _ => cases h

theorem Call.Proper.sent {call : Call} {cmd : Command} (h : call.Proper)
    (hcmd : call.command = some cmd) : call.sent.Proper := by
  cases call with
  | sendingPublish _ fut =>
    cases fut with
    | none => trivial
    | some fut => exact h.2.2
  | sendingSubscribe _ qos => cases qos <;> trivial
  | tryingPublish | sending => trivial
  | _ => cases hcmd

theorem Call.claims_sent {id : UInt16} {call : Call} {cmd : Command} (h : call.Proper)
    (hcmd : call.command = some cmd) (hclaims : call.sent.claims id = true) :
    call.claims id = true := by
  cases call with
  | sendingPublish cmd fut =>
    cases fut with
    | none => cases hclaims
    | some fut =>
      have hid : fut.packetId = id := beq_iff_eq.mp hclaims
      rw [← hid, h.2.1]
      exact PublishCommand.uses_self h.1
  | sendingSubscribe _ qos => cases qos <;> cases hclaims
  | tryingPublish | sending => cases hclaims
  | _ => cases hcmd

namespace System

variable {τ : Type} {s s' : System τ}

theorem CallStep.proper {old : Option Call} {call : Call} {cmds : List Command}
    (h : CallStep s s' old call cmds) (hold : ∀ c, old = some c → c.Proper) : call.Proper := by
  cases h with
  | publish mode cmd qos id encoded =>
    cases mode with
    | tryPublish q | noWait q => trivial
    | qos1AwaitAck | qos2Received | qos2Complete =>
      show cmd.qos ≠ .atMostOnce
      rw [qos]
      exact QoS.noConfusion
  | register cmd n fut made =>
    subst made
    exact ⟨hold _ rfl, rfl, rfl⟩
  | sent call cmd sends => exact (hold _ rfl).sent sends
  | pollAck fut w => exact hold (.awaitingPublish fut) rfl
  | pollTopic call fut fut' waits => cases call <;> trivial
  | ready call fut result waits entry => cases call <;> cases result <;> trivial
  | _ => trivial

/-- A call claims an identifier only if it did before or has just taken it. -/
theorem CallStep.claims {old : Option Call} {call : Call} {cmds : List Command}
    (h : CallStep s s' old call cmds) (hold : ∀ c, old = some c → c.Proper) {id : UInt16}
    (hclaims : call.claims id = true) :
    (∃ c, old = some c ∧ c.claims id = true) ∨ id = s.tx.shared.nextPacketId ∧
      s'.tx.history.allocated = s.tx.history.allocated + 1 := by
  cases h with
  | publish mode cmd qos hid encoded =>
    have huses : cmd.packetId = id ∧ mode.qos ≠ .atMostOnce := by
      cases mode with
      | tryPublish q | noWait q =>
        obtain ⟨hqos, hpid⟩ := Bool.and_eq_true_iff.mp hclaims
        exact ⟨beq_iff_eq.mp hpid, qos ▸ bne_iff_ne.mp hqos⟩
      | _ => exact ⟨beq_iff_eq.mp hclaims, QoS.noConfusion⟩
    obtain ⟨hnext, hallocated⟩ := hid huses.2
    exact Or.inr ⟨huses.1.symm.trans hnext, hallocated⟩
  | register cmd n fut made =>
    exact Or.inl ⟨_, rfl, (Bool.and_eq_true_iff.mp hclaims).2⟩
  | sent call cmd sends => exact Or.inl ⟨_, rfl, Call.claims_sent (hold _ rfl) sends hclaims⟩
  | pollAck fut w => exact Or.inl ⟨_, rfl, hclaims⟩
  | command cmd other => cases cmd <;> first | cases hclaims | cases other
  | pollTopic call fut fut' waits => cases call <;> first | cases hclaims | cases waits
  | ready call fut result waits entry =>
    cases call <;> cases result <;> first | cases hclaims | cases waits
  | _ => cases hclaims

/-- A call that has yet to send a publish goes on holding it, or has just sent it, or has
ended and left nothing waiting. -/
theorem CallStep.holds {old call : Call} {cmds : List Command}
    (h : CallStep s s' (some old) call cmds) (hproper : old.Proper) {id : UInt16}
    (hholds : old.holds id = true) :
    call.holds id = true ∨ (∃ cmd ∈ cmds, cmd.carries id = true) ∨
      ∀ fut, old.publishFuture = some fut → ∃ outcome, FutureEnds s s' fut outcome := by
  cases h with
  | build topic qos req actual kind => cases hholds
  | register cmd n fut made =>
    have hid : cmd.packetId = id := beq_iff_eq.mp hholds
    exact Or.inl (hid ▸ PublishCommand.uses_self hproper)
  | sent call cmd sends =>
    rw [Call.holds_command sends] at hholds
    exact Or.inr (Or.inl ⟨cmd, List.mem_cons_self, hholds⟩)
  | pollAck fut w => cases hholds
  | pollTopic call fut fut' waits => cases old <;> first | cases hholds | cases waits
  | ready call fut result waits entry => cases old <;> first | cases hholds | cases waits
  | ended old outcome left =>
    exact Or.inr (Or.inr fun fut hfut => ⟨outcome, left fut hfut (hproper.future hfut).1⟩)

/-- The future of a call goes on under the same key, or it has ended. -/
theorem CallStep.future {old call : Call} {cmds : List Command}
    (h : CallStep s s' (some old) call cmds) (hproper : old.Proper) {fut : PublishFuture}
    (hfut : old.publishFuture = some fut) :
    (∃ fut', call.publishFuture = some fut' ∧ fut'.notifier = fut.notifier ∧
      fut'.packetId = fut.packetId) ∨ ∃ outcome, call = .done outcome ∧
        FutureEnds s s' fut outcome := by
  cases h with
  | build topic qos req actual kind => cases hfut
  | register cmd n fut made => cases hfut
  | sent call cmd sends =>
    refine Or.inl ⟨fut, ?_, rfl, rfl⟩
    rw [Call.publishFuture_sent sends]
    exact hfut
  | pollAck f w =>
    cases hfut
    exact Or.inl ⟨_, rfl, rfl, rfl⟩
  | pollTopic call f fut' waits => cases (Call.publishFuture_of_subscribes waits).symm.trans hfut
  | ready call f result waits entry =>
    cases (Call.publishFuture_of_subscribes waits).symm.trans hfut
  | ended old outcome left =>
    exact Or.inr ⟨outcome, rfl, left fut hfut (hproper.future hfut).1⟩

/-! ## Every entry belongs to a call -/

/-- Every identifier is claimed by at most one call, and every entry that waits belongs to
the future of a call. -/
structure Claims (s : System τ) : Prop where
  counted : s.tx.Counted
  one : ∀ id, Table.count (Call.claims id) s.calls ≤ 1
  issued : ∀ id, 0 < Table.count (Call.claims id) s.calls → Issued s.tx.history.allocated id
  proper : ∀ c call, s.calls.lookup c = some call → call.Proper
  entries : ∀ n id r, (s.tx.shared.notifierMap n).lookup id = some r → r.isWaiting = true →
    ∃ c call fut, s.calls.lookup c = some call ∧ call.publishFuture = some fut ∧
      fut.notifier = n ∧ fut.packetId = id

/-- The call that claims an identifier owns the entries that wait under it. -/
theorem Claims.owner (h : Claims s) {n : Notifier} {id : UInt16} {r : NotifyResult}
    (hr : (s.tx.shared.notifierMap n).lookup id = some r) (hwait : r.isWaiting = true)
    {c : Nat} {call : Call} (hcall : s.calls.lookup c = some call)
    (hclaims : call.claims id = true) :
    ∃ fut, call.publishFuture = some fut ∧ fut.notifier = n ∧ fut.packetId = id := by
  obtain ⟨c', call', fut, hcall', hfut, hn, hid⟩ := h.entries n id r hr hwait
  have hclaims' : call'.claims id = true := hid ▸ ((h.proper c' call' hcall').future hfut).2
  have hc : c = c' := Table.eq_of_count_le_one (h.one id) hcall hcall' hclaims hclaims'
  subst hc
  cases hcall.symm.trans hcall'
  exact ⟨fut, hfut, hn, hid⟩

section Step

variable [Transport τ] {e : Event}

/-- The number of calls that claim an identifier. -/
theorem claims_step (h : Claims s) (hstep : s.step e = some s') (id : UInt16) :
    Table.count (Call.claims id) s'.calls ≤ Table.count (Call.claims id) s.calls ∨
      id = s.tx.shared.nextPacketId ∧
        s'.tx.history.allocated = s.tx.history.allocated + 1 ∧
        Table.count (Call.claims id) s'.calls ≤ Table.count (Call.claims id) s.calls + 1 := by
  cases e with
  | task e => exact Or.inl (le_of_eq (by rw [calls_taskStep hstep]))
  | client e =>
    cases (clientMove_of_clientStep hstep).callMove with
    | none calls queue => exact Or.inl (le_of_eq (by rw [calls]))
    | step c call cmds calls queue goes =>
      have hcount := Table.count_insert (Call.claims id) c call s.calls
      rw [calls]
      by_cases hclaims : call.claims id = true
      · rw [Table.hit_pos hclaims] at hcount
        rcases goes.claims (h.proper c) hclaims with ⟨old, hold, holds⟩ | ⟨hid, hallocated⟩
        · rw [hold, Table.hit_pos holds] at hcount
          exact Or.inl (by omega)
        · exact Or.inr ⟨hid, hallocated, by omega⟩
      · rw [Table.hit_some, if_neg hclaims] at hcount
        exact Or.inl (by omega)

theorem proper_step (h : Claims s) (hstep : s.step e = some s') {c : Nat} {call : Call}
    (hcall : s'.calls.lookup c = some call) : call.Proper := by
  cases e with
  | task e =>
    rw [calls_taskStep hstep] at hcall
    exact h.proper c call hcall
  | client e =>
    cases (clientMove_of_clientStep hstep).callMove with
    | none calls queue =>
      rw [calls] at hcall
      exact h.proper c call hcall
    | step c' call' cmds calls queue goes =>
      rw [calls, Table.lookup_insert] at hcall
      split at hcall
      · cases hcall
        exact goes.proper (h.proper c')
      · exact h.proper c call hcall

/-- An entry that waits behind a step waited before, or a call has just registered it. -/
theorem waiting_cases (hstep : s.step e = some s') {n : Notifier} {id : UInt16}
    {r : NotifyResult} (hr : (s'.tx.shared.notifierMap n).lookup id = some r)
    (hwait : r.isWaiting = true) :
    (∃ r', (s.tx.shared.notifierMap n).lookup id = some r' ∧ r'.isWaiting = true) ∨
      ∃ c cmd, s.calls.lookup c = some (.registering cmd n) ∧ cmd.packetId = id ∧
        s' = s.registerPublish c cmd n := by
  obtain ⟨l, hl, hmove⟩ := publishStep hstep
  refine (hmove.waiting_cases hr hwait).imp_right fun hreg => ?_
  have hlabel := publishLabel_of hl hreg Publishers.Label.noConfusion
  exact register_of_label hlabel hstep

theorem entries_step (h : Claims s) (hstep : s.step e = some s') {n : Notifier} {id : UInt16}
    {r : NotifyResult} (hr : (s'.tx.shared.notifierMap n).lookup id = some r)
    (hwait : r.isWaiting = true) :
    ∃ c call fut, s'.calls.lookup c = some call ∧ call.publishFuture = some fut ∧
      fut.notifier = n ∧ fut.packetId = id := by
  rcases waiting_cases hstep hr hwait with ⟨r', hr', hwait'⟩ | ⟨c, cmd, hcall, hid, rfl⟩
  · obtain ⟨c, call, fut, hcall, hfut, hn, hid⟩ := h.entries n id r' hr' hwait'
    cases e with
    | task e =>
      rw [calls_taskStep hstep]
      exact ⟨c, call, fut, hcall, hfut, hn, hid⟩
    | client e =>
      cases (clientMove_of_clientStep hstep).callMove with
      | none calls queue =>
        rw [calls]
        exact ⟨c, call, fut, hcall, hfut, hn, hid⟩
      | step c' call' cmds calls queue goes =>
        rw [calls]
        by_cases hc : c = c'
        · subst hc
          rw [hcall] at goes
          rcases goes.future (h.proper c call hcall) hfut with
            ⟨fut', hfut', hn', hid'⟩ | ⟨outcome, -, hends⟩
          · exact ⟨c, call', fut', AList.lookup_insert _, hfut', hn'.trans hn, hid'.trans hid⟩
          · -- The call has taken its entry with it.
            subst hn hid
            have hidle := hends.left r hr
            rw [hwait] at hidle
            cases hidle
        · exact ⟨c, call, fut, (AList.lookup_insert_ne hc).trans hcall, hfut, hn, hid⟩
  · exact ⟨c, _, _, AList.lookup_insert _, rfl, rfl, hid⟩

/-- The claims are kept until the counter has gone round. -/
theorem Claims.step (h : Claims s) (hroom : s'.tx.history.allocated ≤ 65536)
    (hstep : s.step e = some s') : Claims s' where
  counted := h.counted.step (numbers_step hstep)
  one id := by
    have hle := h.one id
    rcases claims_step h hstep id with hless | ⟨rfl, hallocated, hone⟩
    · omega
    · -- The identifier that is taken is not claimed yet.
      have hfresh := h.counted.fresh (by omega)
      have hzero : ¬ 0 < Table.count (Call.claims s.tx.shared.nextPacketId) s.calls :=
        fun hpos => hfresh (h.issued _ hpos)
      omega
  issued id hpos := by
    rcases claims_step h hstep id with hless | ⟨rfl, hallocated, hone⟩
    · exact (h.issued id (by omega)).mono (numbers_step hstep).allocated_le
    · rw [hallocated]
      exact h.counted.issued
  proper _ _ := proper_step h hstep
  entries _ _ _ := entries_step h hstep

omit [Transport τ] in
theorem claims_spawn (setup : Setup τ) : Claims (spawn setup) where
  counted := rfl
  one _ := Nat.zero_le 1
  issued _ hpos := absurd hpos (lt_irrefl 0)
  proper _ _ hcall := by cases hcall
  entries n _ _ hr := by cases n <;> cases hr

end Step

end System

/-! ## What is in flight -/

namespace Book

/-- Something waits under the identifier. -/
def waits (b : Book) (n : Notifier) (id : UInt16) : Bool :=
  ((b.shared.notifierMap n).lookup id).any NotifyResult.isWaiting

/-- The command is in the queue, or the `PUBLISH` is pending, or for a call that waits for
`PUBCOMP` the `PUBREL` is. -/
def InFlight (b : Book) (n : Notifier) (id : UInt16) : Prop :=
  (∃ cmd ∈ b.cmdQueue, cmd.carries id = true) ∨
    (b.pendingPackets.lookup (.publish id)).isSome = true ∨
    n = .pubComp ∧ (b.pendingPackets.lookup (.pubRel id)).isSome = true

/-- The broker answers the publish that is pending in the kind that the call waits for. -/
def inKind (b : Book) : IncomingPacket → Bool
  | .pubAck ack => (b.pendingPackets.lookup (.publish ack.packetId)).isNone ||
      !b.waits .pubRec ack.packetId && !b.waits .pubComp ack.packetId
  | .pubRec rec => (b.pendingPackets.lookup (.publish rec.packetId)).isNone ||
      !b.waits .pubAck rec.packetId
  | _ => true

variable {b b' : Book} {n : Notifier} {id : UInt16}

/-- Nothing is taken away that the identifier needs. -/
theorem InFlight.mono (h : b.InFlight n id) (hqueue : b'.cmdQueue = b.cmdQueue)
    (hpublish : (b.pendingPackets.lookup (.publish id)).isSome = true →
      b'.InFlight n id)
    (hrel : n = .pubComp → (b.pendingPackets.lookup (.pubRel id)).isSome = true →
      b'.InFlight n id) : b'.InFlight n id := by
  rcases h with hcmd | hpending | ⟨hn, hpending⟩
  · exact Or.inl (hqueue ▸ hcmd)
  · exact hpublish hpending
  · exact hrel hn hpending

theorem InFlight.same (h : b.InFlight n id) (hqueue : b'.cmdQueue = b.cmdQueue)
    (hpackets : b'.pendingPackets = b.pendingPackets) : b'.InFlight n id := by
  unfold InFlight
  rw [hqueue, hpackets]
  exact h

theorem InFlight.insertPending (h : b.InFlight n id) (key : IdType) (pkt : Packet) :
    (b.insertPending key pkt).InFlight n id :=
  h.mono rfl (fun hp => Or.inr (Or.inl (Table.isSome_insert hp key pkt)))
    (fun hn hp => Or.inr (Or.inr ⟨hn, Table.isSome_insert hp key pkt⟩))

/-- Of the keys that count only the one erased is lost. -/
theorem InFlight.erasePending (h : b.InFlight n id) {key : IdType}
    (hpublish : key ≠ .publish id) (hrel : n = .pubComp → key ≠ .pubRel id) :
    (b.erasePending key).InFlight n id :=
  h.mono rfl (fun hp => Or.inr (Or.inl (Table.isSome_erase hpublish.symm hp)))
    (fun hn hp => Or.inr (Or.inr ⟨hn, Table.isSome_erase (hrel hn).symm hp⟩))

theorem InFlight.acknowledge (h : b.InFlight n id) {key : IdType} {m : Notifier}
    (hkeys : (b.pendingPackets.lookup key).isSome = true →
      key ≠ .publish id ∧ (n = .pubComp → key ≠ .pubRel id)) :
    (b.acknowledge key m).InFlight n id := by
  have hsame : (b.erasePending key).InFlight n id → (b.acknowledge key m).InFlight n id :=
    fun herase => herase.same (b.cmdQueue_acknowledge key m) (b.pendingPackets_acknowledge key m)
  cases hpending : b.pendingPackets.lookup key with
  | none =>
    -- There is nothing to erase.
    have hne : ∀ key', (b.pendingPackets.lookup key').isSome = true → key' ≠ key := by
      rintro key' hsome rfl
      rw [hpending] at hsome
      cases hsome
    exact hsame (h.mono rfl (fun hp => Or.inr (Or.inl (Table.isSome_erase (hne _ hp) hp)))
      (fun hn hp => Or.inr (Or.inr ⟨hn, Table.isSome_erase (hne _ hp) hp⟩)))
  | some pkt =>
    rw [hpending] at hkeys
    exact hsame (h.erasePending (hkeys rfl).1 (hkeys rfl).2)

theorem waits_of_lookup {r : NotifyResult} (hr : (b.shared.notifierMap n).lookup id = some r)
    (hwait : r.isWaiting = true) : b.waits n id = true := by
  rw [waits, hr]
  exact hwait

/-- A `PUBREC` takes the `PUBLISH` away when the `PUBREL` is pending. -/
theorem InFlight.release (h : b.InFlight n id) {rec : UInt16} {r : NotifyResult}
    (hrel : (b.pendingPackets.lookup (.pubRel rec)).isSome = true)
    (hkind : (b.pendingPackets.lookup (.publish rec)).isSome = true → b.waits .pubAck rec = false)
    (hr : ((b.acknowledge (.publish rec) .pubRec).shared.notifierMap n).lookup id = some r)
    (hwait : r.isWaiting = true) : (b.acknowledge (.publish rec) .pubRec).InFlight n id := by
  rw [lookup_acknowledge] at hr
  split at hr
  · cases hr
  · rename_i hother
    by_cases hkey : (b.pendingPackets.lookup (.publish rec)).isSome = true ∧ id = rec
    · obtain ⟨hpending, rfl⟩ := hkey
      cases n with
      | pubAck =>
        have hwaits := waits_of_lookup hr hwait
        rw [hkind hpending] at hwaits
        cases hwaits
      | pubRec => exact absurd ⟨hpending, rfl, rfl⟩ hother
      | pubComp =>
        refine Or.inr (Or.inr ⟨rfl, ?_⟩)
        rw [pendingPackets_acknowledge, Table.lookup_erase, if_neg (by rintro ⟨⟩)]
        exact hrel
    · refine h.acknowledge fun hpending => ⟨?_, fun _ => by rintro ⟨⟩⟩
      rintro ⟨⟩
      exact hkey ⟨hpending, rfl⟩

end Book

section Works

variable {d d' : Desk} {n : Notifier} {id : UInt16} {r : NotifyResult}

/-- An entry that still waits behind a packet has something in flight. -/
theorem PacketWork.inFlight {pkt : IncomingPacket} {cut : Option IoError}
    (h : PacketWork pkt cut d d') (hkind : d.book.inKind pkt = true)
    (hr : (d'.book.shared.notifierMap n).lookup id = some r) (hwait : r.isWaiting = true)
    (hold : d.book.InFlight n id) : d'.book.InFlight n id := by
  cases h with
  | connAck ack => exact hold
  | pingResp => exact hold
  | subAck ack =>
    rcases d.book.processSubAck_cases ack with
      ⟨-, heq⟩ | ⟨sub, -, ⟨-, heq⟩ | ⟨qos, heq⟩ | ⟨-, heq⟩⟩
    all_goals
      rw [Desk.book_onBook, heq]
      exact hold.same rfl rfl
  | dispatch msg qos => exact hold.same rfl rfl
  | answer msg _ _ qos => cases cut <;> exact hold.same rfl rfl
  | answerAgain msg pkt _ _ qos known => exact hold
  | record msg t _ _ qos new =>
    have htrack := hold.insertPending (.pubRec msg.info.packetId)
      (pubRecPacket msg.info.packetId)
    rw [← Desk.book_track t] at htrack
    cases cut with
    | none => exact htrack.same rfl rfl
    | some e => exact htrack
  | pubAck ack =>
    rw [Desk.book_onBook, Book.lookup_acknowledge] at hr
    split at hr
    · cases hr
    · rename_i hother
      refine hold.acknowledge fun hpending => ⟨?_, fun _ => by rintro ⟨⟩⟩
      rintro ⟨⟩
      -- The call waits for another kind of acknowledgement.
      have hwaits := Book.waits_of_lookup hr hwait
      have hn : n = .pubRec ∨ n = .pubComp := by
        cases n with
        | pubAck => exact absurd ⟨hpending, rfl, rfl⟩ hother
        | pubRec => exact Or.inl rfl
        | pubComp => exact Or.inr rfl
      rcases hn with rfl | rfl <;> simp_all [Book.inKind]
  | releaseAgain rec pkt _ _ known =>
    cases cut with
    | some e => exact hold
    | none =>
      refine hold.release ?_ ?_ hr hwait
      · rw [known]
        rfl
      · intro hpending
        simpa [Book.inKind, Option.isSome_iff_ne_none.mp hpending] using hkind
  | release rec t _ _ new =>
    have htrack := hold.insertPending (.pubRel rec.packetId) (pubRelPacket rec.packetId)
    rw [← Desk.book_track t] at htrack
    cases cut with
    | some e => exact htrack
    | none =>
      refine htrack.release ?_ ?_ hr hwait
      · rw [Desk.book_track]
        show ((d.book.pendingPackets.insert _ _).lookup _).isSome = true
        rw [AList.lookup_insert]
        rfl
      · intro hpending
        rw [Desk.book_track] at hpending ⊢
        change ((d.book.pendingPackets.insert _ _).lookup _).isSome = true at hpending
        rw [AList.lookup_insert_ne (by rintro ⟨⟩)] at hpending
        have hwaits : d.book.waits .pubAck rec.packetId = false := by
          simpa [Book.inKind, Option.isSome_iff_ne_none.mp hpending] using hkind
        exact hwaits
  | pubRel rel cut =>
    exact hold.erasePending (by rintro ⟨⟩) (fun _ => by rintro ⟨⟩)
  | pubComp comp =>
    rw [Desk.book_onBook, Book.lookup_acknowledge] at hr
    split at hr
    · cases hr
    · rename_i hother
      refine hold.acknowledge fun hpending => ⟨by rintro ⟨⟩, ?_⟩
      rintro rfl ⟨⟩
      exact hother ⟨hpending, rfl, rfl⟩
  | unsubAck ack => exact hold.erasePending (by rintro ⟨⟩) (fun _ => by rintro ⟨⟩)

/-- The task takes a command on by making its packet pending. -/
theorem CommandWork.inFlight {cmd : Command} {o : Option Fault} (h : CommandWork cmd o d d')
    (hold : cmd.carries id = true ∨ d.book.InFlight n id) : d'.book.InFlight n id := by
  have hother : cmd.carries id = false → d.book.InFlight n id := by
    intro hcarries
    rw [hcarries] at hold
    exact hold.resolve_left Bool.false_ne_true
  cases h with
  | publishOnce cmd _ io _ qos =>
    refine hother ?_
    simp [Command.carries, PublishCommand.uses, qos]
  | publish cmd t _ io _ qos =>
    rw [Desk.book_hand, Desk.book_track]
    by_cases hid : cmd.packetId = id
    · subst hid
      refine Or.inr (Or.inl ?_)
      show ((d.book.pendingPackets.insert _ _).lookup _).isSome = true
      rw [AList.lookup_insert]
      rfl
    · refine (hother ?_).insertPending _ _
      simp [Command.carries, PublishCommand.uses, hid]
  | unsubscribe topic pkt t _ io _ subscribed encoded =>
    rw [Desk.book_hand, Desk.book_track]
    refine Book.InFlight.insertPending ?_ _ _
    exact (hother rfl).same rfl rfl
  | _ => exact (hother rfl).same rfl rfl

end Works

namespace System

variable {τ : Type} {s s' : System τ} {n : Notifier} {id : UInt16}

/-- The publish with the identifier is on its way: a call has yet to send its command, or
the task holds something of it. -/
def InFlight (s : System τ) (n : Notifier) (id : UInt16) : Prop :=
  (∃ c call, s.calls.lookup c = some call ∧ call.holds id = true) ∨ s.tx.InFlight n id

/-- Every entry that waits has something in flight as long as there is a task. -/
def Awaited (s : System τ) : Prop :=
  s.receiverAlive = true → ∀ n id r, (s.tx.shared.notifierMap n).lookup id = some r →
    r.isWaiting = true → s.InFlight n id

section Step

variable [Transport τ]

/-- The broker answers publishes in the kind they ask for. -/
def acksInKind (s : System τ) : Event → Bool
  | .task e => (s.arriving e).all s.tx.inKind
  | .client _ => true

omit [Transport τ] in
/-- A step of a client, for an entry that waited before. -/
theorem ClientMove.inFlight {e : ClientEvent} (h : ClientMove s e s') (hclaims : Claims s)
    {r r' : NotifyResult} (hr : (s.tx.shared.notifierMap n).lookup id = some r)
    (hwait : r.isWaiting = true)
    (hr' : (s'.tx.shared.notifierMap n).lookup id = some r') (hwait' : r'.isWaiting = true)
    (hold : s.InFlight n id) : s'.InFlight n id := by
  have hpending := h.sameTask.pendingPackets
  have hbook : (∀ cmd ∈ s.tx.cmdQueue, cmd ∈ s'.tx.cmdQueue) → s.tx.InFlight n id →
      s'.tx.InFlight n id := by
    rintro hmem (⟨cmd, hcmd, hcarries⟩ | hpub | hrel)
    · exact Or.inl ⟨cmd, hmem cmd hcmd, hcarries⟩
    · exact Or.inr (Or.inl (hpending ▸ hpub))
    · exact Or.inr (Or.inr (hpending ▸ hrel))
  cases h.callMove with
  | none calls queue =>
    have hmem : ∀ cmd ∈ s.tx.cmdQueue, cmd ∈ s'.tx.cmdQueue := by
      intro cmd hcmd
      rcases queue with queue | queue <;> rw [queue]
      · exact hcmd
      · exact List.mem_append_left _ hcmd
    rcases hold with hcall | hold
    · exact Or.inl (calls ▸ hcall)
    · exact Or.inr (hbook hmem hold)
  | step c call cmds calls queue goes =>
    have hmem : ∀ cmd ∈ s.tx.cmdQueue, cmd ∈ s'.tx.cmdQueue := by
      intro cmd hcmd
      rw [queue]
      exact List.mem_append_left _ hcmd
    rcases hold with ⟨c₀, call₀, hcall₀, hholds⟩ | hold
    · by_cases hc : c₀ = c
      · subst hc
        rw [hcall₀] at goes
        have hproper := hclaims.proper c₀ call₀ hcall₀
        rcases goes.holds hproper hholds with hnew | ⟨cmd, hcmd, hcarries⟩ | hends
        · exact Or.inl ⟨c₀, call, by rw [calls]; exact AList.lookup_insert _, hnew⟩
        · refine Or.inr (Or.inl ⟨cmd, ?_, hcarries⟩)
          rw [queue]
          exact List.mem_append_right _ hcmd
        · -- The call owns the entry and has taken it with it.
          obtain ⟨fut, hfut, rfl, rfl⟩ :=
            hclaims.owner hr hwait hcall₀ (Call.claims_of_holds hholds)
          obtain ⟨outcome, hleft⟩ := hends fut hfut
          have hidle := hleft.left r' hr'
          rw [hwait'] at hidle
          cases hidle
      · refine Or.inl ⟨c₀, call₀, ?_, hholds⟩
        rw [calls, AList.lookup_insert_ne hc]
        exact hcall₀
    · exact Or.inr (hbook hmem hold)

theorem DeskMove.inFlight {e : TaskEvent} (h : DeskMove s e s')
    (hkind : s.acksInKind (.task e) = true) (halive : s'.receiverAlive = true)
    {r : NotifyResult} (hr : (s'.tx.shared.notifierMap n).lookup id = some r)
    (hwait : r.isWaiting = true) (hold : s.InFlight n id) : s'.InFlight n id := by
  cases h with
  | program tx p clean running leads work =>
    refine hold.imp_right fun hbook => ?_
    show Book.InFlight tx.desk.book n id
    replace hr : (tx.desk.book.shared.notifierMap n).lookup id = some r := hr
    have hsame : ∀ b : Book, tx.desk.book = b → b.cmdQueue = s.tx.cmdQueue →
        b.pendingPackets = s.tx.pendingPackets → tx.desk.book.InFlight n id :=
      fun b hb hq hp => hb ▸ hbook.same hq hp
    cases work with
    | idle same => exact hsame _ (congrArg Desk.book same) rfl rfl
    | connect pkt boot waits handed => exact hsame _ (congrArg Desk.book handed) rfl rfl
    | connAck pkt arrived waiting book => exact hsame _ (congrArg Desk.book book) rfl rfl
    | packet pkt cut arrived connected ends work =>
      have hpkt : s.tx.inKind pkt = true := by
        simpa [acksInKind, arrived] using hkind
      exact work.inFlight hpkt hr hwait (hbook.same rfl rfl)
    | command cmd rest queue taken connected work =>
      refine work.inFlight ?_
      rcases hbook with ⟨cmd', hcmd', hcarries⟩ | hpending
      · rw [queue] at hcmd'
        rcases List.mem_cons.mp hcmd' with rfl | hrest
        · exact Or.inl hcarries
        · exact Or.inr (Or.inl ⟨cmd', hrest, hcarries⟩)
      · exact Or.inr (Or.inr hpending)
    | alarm cut ends work => exact hsame _ work.book rfl rfl
    | disconnect stopping connected handed => exact hsame _ (congrArg Desk.book handed) rfl rfl
  | finish status ended => exact hold
  | fail m next stage => exact hold
  | drain stage => exact hold
  | wake stage => exact hold
  | drop status ended => cases halive

theorem Awaited.step {e : Event} (h : Awaited s) (hclaims : Claims s)
    (hkind : s.acksInKind e = true)
    (hstep : s.step e = some s') : Awaited s' := by
  intro halive n id r hr hwait
  have hbefore := receiverAlive_of_step hstep halive
  rcases waiting_cases hstep hr hwait with ⟨r', hr', hwait'⟩ | ⟨c, cmd, hcall, rfl, rfl⟩
  · have hold := h hbefore n id r' hr' hwait'
    cases e with
    | task e => exact (deskMove_of_taskStep hstep).inFlight hkind halive hr hwait hold
    | client e =>
      exact (clientMove_of_clientStep hstep).inFlight hclaims hr' hwait' hr hwait hold
  · -- The call that has just registered has yet to send its command.
    have hproper : cmd.qos ≠ .atMostOnce := hclaims.proper c _ hcall
    exact Or.inl ⟨c, _, AList.lookup_insert _, PublishCommand.uses_self hproper⟩

/-- In every run in which the broker answers publishes in the kind they ask for and fewer
than `2^16` identifiers were taken: as long as the task is there, an entry of a notifier
map that has not failed has its command still to be consumed or its packet pending. -/
theorem awaited_in_flight (setup : Setup τ)
    (h : Reaches System.step (fun s e => acksInKind s e = true) (spawn setup) s)
    (hroom : s.tx.history.allocated < 65536) (halive : s.receiverAlive = true) :
    ∀ n id r, (s.tx.shared.notifierMap n).lookup id = some r → r ≠ .failed →
      s.InFlight n id := by
  have hinv : s.tx.history.allocated < 65536 → Claims s ∧ Awaited s := by
    refine h.invariant
      (I := fun s => s.tx.history.allocated < 65536 → Claims s ∧ Awaited s) ?_ ?_
    · exact fun _ => ⟨claims_spawn setup, fun _ n _ _ hr => by cases n <;> cases hr⟩
    · intro s e s' hs hkind hstep hroom'
      have hle := (numbers_step hstep).allocated_le
      obtain ⟨hclaims, hawaited⟩ := hs (by omega)
      exact ⟨hclaims.step (by omega) hstep, hawaited.step hclaims hkind hstep⟩
  intro n id r hr hne
  exact (hinv hroom).2 halive n id r hr (NotifyResult.isWaiting_of_ne hne)

end Step

/-! ## Concrete runs -/

/-- A broker that accepts the connection and answers the identifier 1 with `PUBREC`. -/
def receivingSetup : Setup TcpTransport :=
  scripted ⟨[acceptance, .wouldBlock, .data 0x50 [2, 0, 1], .wouldBlock], false, []⟩

/-- A call publishes and waits, and the task takes its command on. -/
def awaiting (mode : PublishMode) : List Event :=
  connecting ++ [.client (.publish 0 mode ['t'] [] false), .client (.register 0),
    .client (.send 0), .task .command]

theorem awaited_in_flight_complete :
    ∃ s, Reaches System.step (fun s e => acksInKind s e = true) (spawn receivingSetup) s ∧
      (s.tx.shared.notifierMap .pubComp).lookup 1 = some .withoutWaker ∧
      s.tx.pendingPackets.lookup (.publish 1) = none ∧ s.InFlight .pubComp 1 := by
  have hrun : (runUnder System.step (fun s e => acksInKind s e = true) (spawn receivingSetup)
      (awaiting .qos2Complete ++ reading 1)).any (fun s =>
        (s.tx.shared.notifierMap .pubComp).lookup 1 == some .withoutWaker &&
          s.tx.pendingPackets.lookup (.publish 1) == none &&
          s.tx.history.allocated == 1 && s.receiverAlive) = true := by
    decide +kernel
  obtain ⟨s, hs, hp⟩ := exists_reaches _ hrun
  simp only [Bool.and_eq_true, beq_iff_eq] at hp
  obtain ⟨⟨⟨hentry, hcleared⟩, hone⟩, halive⟩ := hp
  refine ⟨s, hs, hentry, hcleared, ?_⟩
  exact awaited_in_flight receivingSetup hs (by omega) halive .pubComp 1 _ hentry
    NotifyResult.noConfusion

/-- A publish of quality 1 is answered with `PUBREC`. Its call waits for `PUBACK`, and
nothing of the message is left. -/
theorem awaited_forgotten :
    ∃ s, Reaches System.step always (spawn receivingSetup) s ∧
      s.tx.history.allocated < 65536 ∧ s.phase = .select ∧
      (s.tx.shared.notifierMap .pubAck).lookup 1 = some .withoutWaker ∧
      ¬ s.InFlight .pubAck 1 := by
  have hrun : (runUnder System.step always (spawn receivingSetup)
      (awaiting .qos1AwaitAck ++ reading 1)).any (fun s =>
        s.tx.history.allocated == 1 && s.phase == .select &&
          (s.tx.shared.notifierMap .pubAck).lookup 1 == some .withoutWaker &&
          Table.count (Call.holds 1) s.calls == 0 && s.tx.cmdQueue == [] &&
          s.tx.pendingPackets.lookup (.publish 1) == none) = true := by
    decide +kernel
  obtain ⟨s, hs, hp⟩ := exists_reaches _ hrun
  simp only [Bool.and_eq_true, beq_iff_eq] at hp
  obtain ⟨⟨⟨⟨⟨hone, hphase⟩, hentry⟩, hcalls⟩, hqueue⟩, hcleared⟩ := hp
  refine ⟨s, hs, by omega, hphase, hentry, ?_⟩
  rintro (⟨c, call, hcall, hholds⟩ | ⟨cmd, hcmd, -⟩ | hpending | ⟨hn, -⟩)
  · rw [Table.count_eq_zero.mp hcalls c call hcall] at hholds
    cases hholds
  · rw [hqueue] at hcmd
    cases hcmd
  · rw [hcleared] at hpending
    cases hpending
  · cases hn

end System

end Lmc
