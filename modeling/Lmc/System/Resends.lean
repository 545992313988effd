import Lmc.System.Traffic
import Lmc.Task.Alarm

/-!
# What a tick sends again

A tick of the alarm sends again exactly what is due (`alarm_retransmits_due`): the packets of
the expired timeouts that are still pending, once each, as they were handed over the first
time apart from the flag of a second transmission. The timeouts of packets that were
acknowledged in the meantime are dropped, those that have not expired are kept in order, and
those of the packets sent again are refreshed.
-/

namespace Lmc

open EStateLogic

namespace Transceiver

variable {τ : Type}

/-- A tick from `tx` to `tx'` has sent again what was due: the timeouts of the rounds had
expired, those it keeps had not. -/
structure Retransmits (tx tx' : Transceiver τ) (ping : List InternalPacket) (rounds : List Round)
    (kept : List Timeout) : Prop where
  /-- `PINGREQ` comes first, if it is sent. -/
  sends : ping = [] ∨ ping = [⟨tx.pingReq, false⟩]
  split : tx.timeoutQueue = rounds.map Round.entry ++ kept
  /-- The loop has ended behind the rounds, or with one more for the first of `kept`. -/
  count : rounds.length + (if kept = [] then 0 else 1) ≤ tx.timeoutQueue.length
  expired : ∀ r ∈ rounds, Reading tx tx' r.checked ∧
    tx.packetResendDelay ≤ r.checked - r.entry.t
  unexpired : kept ≠ [] → ∃ t, Reading tx tx' t ∧ ∀ x ∈ kept, t - x.t < tx.packetResendDelay
  /-- The packet sent again is the one that is pending, if there is one. -/
  pending : ∀ r ∈ rounds, r.resent.map Prod.fst = tx.pendingPacket r.entry.packetId
  refreshed : ∀ r ∈ rounds, ∀ x ∈ r.refreshed, Reading tx tx' x.t
  handed : tx'.link.handed = tx.link.handed ++ (ping ++ rounds.filterMap Round.handed)
  /-- The second transmission differs from the first in the flag of a publish only. -/
  bytes : ∀ r ∈ rounds, ∀ p ∈ r.handed, ∃ pkt, tx.pendingPacket r.entry.packetId = some pkt ∧
    p.wire = (if r.entry.packetId.ty = .publish then pkt.ctrl ||| PublishFlags.dup
      else pkt.ctrl) :: pkt.rest
  queue : tx'.timeoutQueue = kept ++ rounds.filterMap Round.refreshed
  packets : tx'.pendingPackets = tx.pendingPackets
  subs : tx'.pendingSubs = tx.pendingSubs
  /-- Timeouts are made with the time of their making, which is not later than the next
  reading of the clock. -/
  ordered : (∀ x ∈ tx.timeoutQueue, x.t ≤ tx.time) → tx'.Ordered

variable [Transport τ] {tx tx' : Transceiver τ}

theorem retransmits_onAlarm (hconn : tx.connected = true)
    (hsorted : tx.timeoutQueue.Pairwise fun a b => a.t ≤ b.t) (hmono : Monotone tx.link.clock)
    (hrun : onAlarm.run tx = .ok () tx') : ∃ ping rounds kept,
      Retransmits tx tx' ping rounds kept := by
  obtain ⟨ping, tx₁, hpinged, ⟨⟨e, herror⟩, -⟩ | ⟨kept, back, tx₂, hswept, ⟨hok, hall⟩ |
    ⟨e, herror⟩⟩⟩ := run_onAlarm hconn
  · cases herror.symm.trans hrun
  · cases hok.symm.trans hrun
    have hreading : ∀ {t}, Reading tx₁ tx' t → Reading tx tx' t := fun h =>
      h.mono hpinged.clock hpinged.nows le_rfl
    have hpending : ∀ id, tx₁.pendingPacket id = tx.pendingPacket id :=
      pendingPacket_congr hpinged.book
    refine ⟨ping, tx.tick, kept, hpinged.sends, hswept.split, ?_, fun r hr => ?_, fun hkept => ?_,
      fun r hr => ?_, fun r hr x hx => ?_, ?_, fun r hr p hp => ?_, ?_, ?_, ?_, fun hpast => ?_⟩
    · have hlen := congrArg List.length hswept.split
      rw [List.length_append, List.length_map] at hlen
      cases kept with
      | nil => simpa using hlen.ge
      | cons x kept =>
        rw [List.length_cons] at hlen
        rw [if_neg (List.cons_ne_nil x kept)]
        omega
    · exact ⟨hreading (hswept.checked r hr), hpinged.delay ▸ hswept.expired r hr⟩
    · -- the first of them has not expired, and the others are not older
      cases kept with
      | nil => exact absurd rfl hkept
      | cons x kept =>
        obtain ⟨t, ht, hlt⟩ := hall.stopped x rfl
        rw [hpinged.delay] at hlt
        refine ⟨t, hreading ht, List.forall_mem_cons.mpr ⟨hlt, fun y hy => ?_⟩⟩
        rw [hswept.split, List.pairwise_append, List.pairwise_cons] at hsorted
        have hle := hsorted.2.1.1 y hy
        omega
    · exact (hswept.pending r hr).trans (hpending _)
    · refine hreading (hall.refreshed x ?_)
      rw [hall.all]
      exact List.mem_filterMap.mpr ⟨r, hr, hx⟩
    · rw [hswept.handed, hpinged.handed, List.append_assoc]
    · obtain ⟨⟨pkt, t⟩, hresent, rfl⟩ := Option.mem_map.mp hp
      have hpkt := (hswept.pending r hr).trans (hpending _)
      rw [Option.mem_def.mp hresent] at hpkt
      refine ⟨pkt, hpkt.symm, ?_⟩
      simp only [InternalPacket.wire, beq_iff_eq]
    · rw [hswept.queue, hall.all, List.nil_append]
    · rw [hswept.book, hpinged.book]
    · rw [hswept.book, hpinged.book]
    · have honward := onward_driven.onAlarm tx
      rw [after_of_ok hrun] at honward
      exact honward.ordered hmono ⟨hsorted, hpast⟩
  · cases herror.symm.trans hrun

end Transceiver

/-! ## The first transmission -/

/-- A subscription that is pending behind a command was pending before, or its `SUBSCRIBE` was
just handed over. -/
theorem CommandWork.handsSub {cmd : Command} {o : Option Fault} {d d' : Desk}
    (h : CommandWork cmd o d d') {id : UInt16} {sub : PendingSub}
    (hp : d'.book.pendingSubs.lookup id = some sub) :
    d.book.pendingSubs.lookup id = some sub ∨ ⟨sub.packet, false⟩ ∈ d'.handed := by
  rcases h.pendsSub hp with hold | ⟨req, rfl, -, -, -, hpkt, -⟩
  · exact Or.inl hold
  cases h with
  | reject _ _ _ => exact Or.inl hp
  | add _ _ _ => exact Or.inl hp
  | subscribePanic _ p _ unsubscribed failed accepted => cases failed.symm.trans hpkt
  | subscribe _ pkt t _ accepted unsubscribed encoded
  | subscribeCut _ pkt e _ accepted unsubscribed encoded =>
    cases encoded.symm.trans hpkt
    exact Or.inr (List.mem_append_right _ List.mem_cons_self)

namespace System

open Runs Transceiver

variable {τ : Type} [Transport τ] {s s' : System τ}

/-- Every packet that is kept to be sent again was handed over before. -/
def Transmitted (s : System τ) : Prop :=
  ∀ id pkt, s.tx.pendingPacket id = some pkt → ⟨pkt, false⟩ ∈ s.tx.link.handed

theorem Transmitted.step (h : Transmitted s) {e : Event} (hstep : s.step e = some s') :
    Transmitted s' := by
  have hkept : ∀ {p}, p ∈ s.tx.link.handed → p ∈ s'.tx.link.handed := fun hp =>
    (onward_step hstep).handed.subset hp
  cases e with
  | client e =>
    have hsame := (clientMove_of_clientStep hstep).sameTask
    intro id pkt hpkt
    refine hkept (h id pkt ?_)
    rwa [pendingPacket, hsame.pendingPackets, hsame.pendingSubs] at hpkt
  | task e =>
    intro id pkt hpkt
    by_cases hsub : id.ty = .subscribe
    · rw [pendingPacket, if_pos hsub] at hpkt
      obtain ⟨sub, hp, rfl⟩ := Option.map_eq_some_iff.mp hpkt
      have hold : s.tx.pendingSubs.lookup id.id = some sub →
          ⟨sub.packet, false⟩ ∈ s'.tx.link.handed := fun hp' =>
        hkept (h id _ (by rw [pendingPacket, if_pos hsub, hp']; rfl))
      rcases pendsSub_taskStep hstep hp with hp' | ⟨cmd, htaken, -⟩
      · exact hold hp'
      · obtain ⟨-, rest, -, hwork⟩ := commandWork_of_consumed hstep htaken
        rcases hwork.handsSub hp with hp' | hmem
        · exact hold hp'
        · exact hmem
    · rw [pendingPacket, if_neg hsub] at hpkt
      have hold : s.tx.pendingPackets.lookup id = some pkt → ⟨pkt, false⟩ ∈ s'.tx.link.handed :=
        fun hp => hkept (h id pkt (by rwa [pendingPacket, if_neg hsub]))
      cases deskMove_of_taskStep hstep with
      | program tx p clean running leads work =>
        rcases work.pends hpkt with hp | ⟨-, hmem⟩
        · exact hold hp
        · exact hmem
      | _ => exact hold hpkt

omit [Transport τ] in
theorem transmitted_spawn (setup : Setup τ) : Transmitted (spawn setup) := by
  intro id pkt hpkt
  change (if id.ty = .subscribe then _ else _) = _ at hpkt
  split at hpkt <;> cases hpkt

/-- A tick of the alarm sends again exactly what is due: in every connected state with an
ordered queue and for every clock that does not go back it does not panic and, if the transport
does not fail, it is one that `Retransmits` describes. In every state that is reached the packet
that it sends again was handed over before, without the flag of a second transmission, and the
queue is ordered with no timeout in the future. -/
theorem alarm_retransmits_due :
    (∀ tx : Transceiver τ, tx.connected = true →
      (tx.timeoutQueue.Pairwise fun a b => a.t ≤ b.t) → Monotone tx.link.clock →
      (∀ p tx', onAlarm.run tx ≠ .error (.panic p) tx') ∧
      ∀ tx', onAlarm.run tx = .ok () tx' → ∃ ping rounds kept,
        Retransmits tx tx' ping rounds kept) ∧
    ∀ (setup : Setup τ) (s : System τ), Reaches System.step always (spawn setup) s →
      (∀ id pkt, s.tx.pendingPacket id = some pkt → ⟨pkt, false⟩ ∈ s.tx.link.handed) ∧
      (Monotone setup.clock → Monotone s.tx.link.clock ∧ s.tx.Ordered) := by
  refine ⟨fun tx hconn hsorted hmono => ⟨fun p tx' hrun => ?_, fun tx' hrun =>
    retransmits_onAlarm hconn hsorted hmono hrun⟩, fun setup s hs => ?_⟩
  · obtain ⟨ping, tx₁, -, ⟨⟨e, herror⟩, -⟩ | ⟨kept, back, tx₂, -, ⟨hok, -⟩ | ⟨e, herror⟩⟩⟩ :=
      run_onAlarm hconn
    · cases herror.symm.trans hrun
    · cases hok.symm.trans hrun
    · cases herror.symm.trans hrun
  · exact ⟨hs.invariant (transmitted_spawn setup) fun _ _ _ h _ hstep => h.step hstep,
      fun hclock => ordered_of_reaches hclock hs⟩

/-- A connected task with three timeouts: the `PUBREL` of the first is acknowledged, the publish
of the second is overdue, and the third has not expired. -/
def overdue : Transceiver TcpTransport :=
  { Transceiver.spawn (silentSetup false) with
    connectSig := false
    packetResendDelay := 10
    pendingPackets := (∅ : LmcHashMap IdType Packet).insert (.publish 1) ⟨0x32, [0]⟩
    timeoutQueue := [⟨0, .pubRel 7⟩, ⟨1, .publish 1⟩, ⟨99, .publish 2⟩]
    link := { (Transceiver.spawn (silentSetup false)).link with clock := fun k => 100 + k } }

theorem alarm_retransmits_due_overdue :
    ∃ tx', onAlarm.run overdue = .ok () tx' ∧ tx'.timeoutQueue.length = 2 ∧
      ∃ ping rounds kept, Retransmits overdue tx' ping rounds kept := by
  have hok : (match onAlarm.run overdue with
      | .ok _ tx' => tx'.timeoutQueue.length == 2
      | .error _ _ => false) = true := by decide +kernel
  have hmono : Monotone overdue.link.clock := fun _ _ h => Nat.add_le_add_left h 100
  cases hrun : onAlarm.run overdue with
  | error e tx' =>
    rw [hrun] at hok
    cases hok
  | ok _ tx' =>
    rw [hrun] at hok
    exact ⟨tx', rfl, beq_iff_eq.mp hok,
      (alarm_retransmits_due.1 overdue rfl (by decide) hmono).2 tx' hrun⟩

end System

end Lmc
