import Lmc.System.Reception
import Lmc.System.Traffic

/-!
# Released messages

A message of quality 2 is released with `PUBREL` when its `PUBREC` has arrived. The alarm
may have queued the `PUBLISH` once more shortly before, but the `PUBREL` is queued behind
it, and from then on nothing has the `PUBLISH` any more: its command was taken from the
queue when it was first sent, and the pending packet is erased in the same step. So on
the wire no `PUBLISH` follows the `PUBREL` with its identifier
(`released_not_published_again`).
-/

namespace Lmc

open Runs

/-- The packet is a `PUBLISH` with the identifier. -/
def Asked.publishes (id : UInt16) : Asked → Bool
  | .publish _ id' => id' == id
  | _ => false

/-- The second packet does not publish what the first one has released. -/
def InternalPacket.Follows (p q : InternalPacket) : Prop :=
  ∀ id qos, p.asks = .release id → q.asks ≠ .publish qos id

namespace System

variable {τ : Type} [Transport τ] {s s' : System τ}

/-- A `PUBREL` with the identifier was handed over. -/
def Releases (s : System τ) (id : UInt16) : Prop :=
  ∃ p ∈ s.tx.link.handed, p.asks = .release id

/-- Nothing is left of the `PUBLISH` of a message that was released. -/
structure Released (s : System τ) : Prop where
  settled : ∀ id, s.Releases id →
    s.Publishes id ∧ s.tx.pendingPackets.lookup (.publish id) = none
  pending : ∀ id pkt, s.tx.pendingPackets.lookup (.pubRel id) = some pkt → s.Releases id
  order : s.tx.link.handed.Pairwise InternalPacket.Follows

/-- The broker sends `PUBREC` only for an identifier that it has received in a `PUBLISH`. -/
def recsReceived (s : System τ) : Event → Bool
  | .task e =>
    match s.arriving e with
    | some (.pubRec rec) => s.received.any fun p => p.asks.publishes rec.packetId
    | _ => true
  | .client _ => true

theorem publishes_of_received {e : TaskEvent} {rec : PubRecPacket}
    (h : s.recsReceived (.task e) = true) (harrived : s.arriving e = some (.pubRec rec)) :
    s.Publishes rec.packetId := by
  simp only [recsReceived, harrived, List.any_eq_true] at h
  obtain ⟨p, hp, hasks⟩ := h
  cases hq : p.asks with
  | publish qos id =>
    rw [hq] at hasks
    cases beq_iff_eq.mp hasks
    exact ⟨p, mem_handed_of_received hp, qos, hq⟩
  | _ =>
    rw [hq] at hasks
    cases hasks

theorem releases_step {e : Event} (hstep : s.step e = some s') {id : UInt16}
    (h : s.Releases id) : s'.Releases id := by
  obtain ⟨p, hp, hasks⟩ := h
  exact ⟨p, (onward_step hstep).handed.subset hp, hasks⟩

/-- A `PUBREL` that a step of the task hands over answers a `PUBREC`, or it is sent
again. -/
theorem Handing.releases {e : TaskEvent} {d : Desk} {p : InternalPacket} (h : Handing s e d p)
    (hs : Filed s) {id : UInt16} (hasks : p.asks = .release id) :
    p.packet = pubRelPacket id ∧
      ((∃ rec : PubRecPacket, s.arriving e = some (.pubRec rec) ∧ s.tx.connectSig = false ∧
          rec.packetId = id) ∨
        e = .alarm ∧ ∃ pkt, s.tx.pendingPackets.lookup (.pubRel id) = some pkt) := by
  cases h with
  | plain other => cases other.symm.trans hasks
  | publish cmd taken queue hqos packet =>
    have hfits : cmd.Fits := hs.queue _ (consumed_mem taken)
    subst packet
    cases (hfits.publish hqos false).symm.trans hasks
  | release rec arrived connected packet =>
    subst packet
    rw [InternalPacket.asks_first, asks_pubRel] at hasks
    cases hasks
    exact ⟨rfl, Or.inl ⟨rec, arrived, connected, rfl⟩⟩
  | subscribe cmd taken asks => cases asks.symm.trans hasks
  | unsubscribe topic taken asks => cases asks.symm.trans hasks
  | again key pkt tick pending packet =>
    subst packet
    rcases Desk.pendingPacket_cases pending with ⟨hty, sub, hsub, rfl⟩ | ⟨-, pending⟩
    · rw [hty] at hasks
      cases (hs.subs _ _ hsub).symm.trans hasks
    · cases (hs.packets _ _ pending).release hasks
      exact ⟨hs.packets _ _ pending, Or.inr ⟨tick, pkt, pending⟩⟩

/-- What was released before is not published by a step. -/
theorem Released.not_published (h : Released s) (hout : Outbound s) (hs : Filed s)
    {e : TaskEvent} {d : Desk} {p : InternalPacket} (hp : Handing s e d p) {qos : QoS}
    {id : UInt16} (hasks : p.asks = .publish qos id) : ¬ s.Releases id := by
  intro hreleases
  obtain ⟨hpub, hnone⟩ := h.settled id hreleases
  rcases hp.publishes hs hasks with ⟨cmd, htaken, -, hqos, rfl, -⟩ | ⟨-, hpending⟩
  · exact hout.not_taken htaken hqos hpub
  · cases hnone.symm.trans hpending

theorem order_taskStep (h : Released s) (hout : Outbound s) (hs : Filed s) {e : TaskEvent}
    (hstep : s.taskStep e = some s') : s'.tx.link.handed.Pairwise InternalPacket.Follows := by
  obtain ⟨ps, hhanded, hps⟩ := handing_of_taskStep hs hstep
  rw [hhanded, List.pairwise_append]
  refine ⟨h.order, List.pairwise_of_forall_mem_list ?_, ?_⟩
  · intro p hp q hq id qos hrel hpub
    rcases ((hps p hp).releases hs hrel).2 with ⟨rec, harrived, -, rfl⟩ | ⟨-, pkt, hpkt⟩
    · -- A step that reads neither takes a command nor ticks.
      obtain ⟨hphase, rfl⟩ := arriving_reading harrived
      rcases (hps q hq).publishes hs hpub with ⟨cmd, htaken, -⟩ | ⟨htick, -⟩
      · cases (consumed_select htaken).2
      · cases htick
    · exact h.not_published hout hs (hps q hq) hpub (h.pending id pkt hpkt)
  · intro p hp q hq id qos hrel hpub
    exact h.not_published hout hs (hps q hq) hpub ⟨p, hp, hrel⟩

/-- Behind a `PUBREC` that was handled without a failure the `PUBLISH` is not pending. -/
theorem cleared_of_pubRec {good : τ → Prop} (hw : PartialWrites good) (hin : InOrder good s)
    (hs : Filed s) {e : TaskEvent} {rec : PubRecPacket} (hstep : s.taskStep e = some s')
    (harrived : s.arriving e = some (.pubRec rec)) (hconn : s.tx.connectSig = false) :
    s'.tx.pendingPackets.lookup (.publish rec.packetId) = none := by
  have hreplies : s.tx.Replies := ⟨fun _ _ => hs.packets _ _, fun _ _ => hs.packets _ _⟩
  rw [(step_arriving hw hin hreplies hstep harrived hconn).1]
  simp only [Book.receive]
  rw [Book.pendingPackets_acknowledge]
  exact AList.lookup_erase _ _

theorem settled_taskStep {good : τ → Prop} (hw : PartialWrites good) (hin : InOrder good s)
    (h : Released s) (hout : Outbound s) (hs : Filed s) {e : TaskEvent}
    (hrec : s.recsReceived (.task e) = true) (hstep : s.taskStep e = some s') {id : UInt16}
    (hid : s'.Releases id) :
    s'.Publishes id ∧ s'.tx.pendingPackets.lookup (.publish id) = none := by
  have hpub : ∀ id, s.Publishes id → s'.Publishes id :=
    fun id => publishes_step (e := .task e) hstep
  have hold : s.Releases id →
      s'.Publishes id ∧ s'.tx.pendingPackets.lookup (.publish id) = none := by
    intro hreleases
    obtain ⟨hpublishes, hnone⟩ := h.settled id hreleases
    refine ⟨hpub id hpublishes, ?_⟩
    rw [Option.eq_none_iff_forall_ne_some]
    intro pkt hpkt
    cases deskMove_of_taskStep hstep with
    | program tx ph clean running leads work =>
      rcases work.pends hpkt with hbefore | ⟨hbegins, -⟩
      · cases hnone.symm.trans hbefore
      · cases hbegins with
        | publish cmd taken qos kept packet =>
          cases kept
          exact absurd hpublishes (hout.not_taken taken qos)
        | pubRec _ kept => cases kept
        | pubRel _ _ _ kept => cases kept
        | unsubscribe _ _ kept => cases kept
    | _ => cases hnone.symm.trans hpkt
  obtain ⟨ps, hhanded, hps⟩ := handing_of_taskStep hs hstep
  obtain ⟨p, hp, hasks⟩ := hid
  rcases mem_handed_of_append hhanded hp with hp | hp
  · exact hold ⟨p, hp, hasks⟩
  · rcases ((hps p hp).releases hs hasks).2 with ⟨rec, harrived, hconn, rfl⟩ | ⟨-, pkt, hpkt⟩
    · exact ⟨hpub _ (publishes_of_received hrec harrived),
        cleared_of_pubRec hw hin hs hstep harrived hconn⟩
    · exact hold (h.pending id pkt hpkt)

theorem Released.step {good : τ → Prop} (hw : PartialWrites good) (hin : InOrder good s)
    (h : Released s) (hout : Outbound s) (hs : Filed s) {e : Event}
    (hrec : s.recsReceived e = true) (hstep : s.step e = some s') : Released s' := by
  cases e with
  | client e =>
    have hsame := (clientMove_of_clientStep hstep).sameTask
    refine ⟨fun id hid => ?_, fun id pkt hp => ?_, ?_⟩
    · obtain ⟨p, hp, hasks⟩ := hid
      obtain ⟨⟨q, hq, hpub⟩, hnone⟩ := h.settled id ⟨p, hsame.link ▸ hp, hasks⟩
      exact ⟨⟨q, hsame.link ▸ hq, hpub⟩, hsame.pendingPackets ▸ hnone⟩
    · rw [hsame.pendingPackets] at hp
      exact releases_step (e := .client e) hstep (h.pending id pkt hp)
    · rw [hsame.link]
      exact h.order
  | task e =>
    refine ⟨fun id hid => settled_taskStep hw hin h hout hs hrec hstep hid, fun id pkt hp => ?_,
      order_taskStep h hout hs hstep⟩
    have hold : s.tx.pendingPackets.lookup (.pubRel id) = some pkt → s'.Releases id :=
      fun hpkt => releases_step (e := .task e) hstep (h.pending id pkt hpkt)
    cases deskMove_of_taskStep hstep with
    | program tx ph clean running leads work =>
      rcases work.pends hp with hbefore | ⟨hbegins, hmem⟩
      · exact hold hbefore
      · cases hbegins with
        | pubRel rec arrived connected kept packet =>
          cases kept
          refine ⟨_, hmem, ?_⟩
          rw [InternalPacket.asks_first, packet]
          exact asks_pubRel _
        | publish _ _ _ kept => cases kept
        | pubRec _ kept => cases kept
        | unsubscribe _ _ kept => cases kept
    | _ => exact hold hp

/-- In every run over a transport that cuts writes anywhere, in which the broker sends
`PUBREC` only for identifiers that it has received and fewer than `2^16` identifiers were
taken: the bytes on the wire are those of the packets handed over, in order, and among
these no `PUBLISH` stands behind a `PUBREL` with the same identifier. -/
theorem released_not_published_again {good : τ → Prop} (hw : PartialWrites good)
    (setup : Setup τ) (hgood : good setup.transport) {connect : ConnectPacket}
    (hconnect : makePacket connect = .ok setup.connectPacket)
    (h : Reaches System.step (fun s e => recsReceived s e = true) (spawn setup) s)
    (hroom : s.tx.history.allocated < 65536) :
    s.tx.link.accepted <+: s.tx.link.handed.flatMap InternalPacket.wire ∧
      s.tx.link.handed.Pairwise InternalPacket.Follows := by
  have hinv : InOrder good s ∧ Filed s ∧
      (s.tx.history.allocated < 65536 → Owned s ∧ Outbound s ∧ Released s) := by
    refine h.invariant (I := fun s => InOrder good s ∧ Filed s ∧
      (s.tx.history.allocated < 65536 → Owned s ∧ Outbound s ∧ Released s)) ?_ ?_
    · refine ⟨inOrder_spawn hgood, filed_spawn hconnect, fun _ => ⟨owned_spawn setup,
        outbound_spawn setup, ⟨?_, fun _ _ hp => (by cases hp), .nil⟩⟩⟩
      rintro id ⟨p, hp, -⟩
      cases hp
    · rintro s e s' ⟨hin, hs, hrest⟩ hrec hstep
      refine ⟨hin.step hw hstep, hs.step hstep, fun hroom' => ?_⟩
      have hle := (numbers_step hstep).allocated_le
      obtain ⟨ho, hout, hreleased⟩ := hrest (by omega)
      exact ⟨ho.step (by omega) hstep, hout.step hs ho (by omega) hstep,
        hreleased.step hw hin hout hs hrec hstep⟩
  obtain ⟨hin, hs, hrest⟩ := hinv
  refine ⟨?_, (hrest hroom).2.2.order⟩
  by_cases hboot : s.phase = .boot
  · rw [(hin.boot hboot).accepted]
    exact List.nil_prefix
  · have hstream := (hin.sound hboot).stream
    rw [List.append_assoc] at hstream
    exact ⟨_, hstream⟩

/-! ## A concrete run -/

/-- A broker that accepts the connection and answers the identifier 1 with `PUBREC`, over a
socket that blocks behind the first byte of the third packet. -/
def blockedSetup : Setup TcpTransport :=
  { scripted ⟨[acceptance, .wouldBlock, .data 0x50 [2, 0, 1], .wouldBlock], false,
      [.accept 100, .accept 100, .accept 1, .wouldBlock]⟩ with
    connectPacket := ⟨0x10, [13, 0, 4, 0x4d, 0x51, 0x54, 0x54, 4, 2, 0, 30, 0, 1, 99]⟩ }

/-- The alarm sends a publish of quality 2 again, twice, before its `PUBREC` arrives. One
copy is in transmission and one is queued, and the `PUBREL` stands behind them. -/
theorem released_not_published_again_blocked :
    ∃ s, Reaches System.step (fun s e => recsReceived s e = true) (spawn blockedSetup) s ∧
      s.tx.link.handed.map InternalPacket.asks = [.other, .publish .exactlyOnce 1,
        .publish .exactlyOnce 1, .publish .exactlyOnce 1, .release 1] ∧
      s.tx.link.internalPktQueue.length = 2 ∧
      s.tx.link.handed.Pairwise InternalPacket.Follows := by
  have hgood : blockedSetup.transport.NoWriteError := by
    intro e
    simp [blockedSetup, scripted]
  have hconnect : makePacket shortConnect = .ok blockedSetup.connectPacket := by
    decide +kernel
  have hrun : (runUnder System.step (fun s e => recsReceived s e = true) (spawn blockedSetup)
      (connecting ++ [.client (.publish 0 .qos2Complete ['t'] [] false), .client (.register 0),
        .client (.send 0), .task .command, .task .alarm, .task .alarm] ++ reading 1)).any
      (fun s => s.tx.link.handed.map InternalPacket.asks == [.other, .publish .exactlyOnce 1,
        .publish .exactlyOnce 1, .publish .exactlyOnce 1, .release 1] &&
        s.tx.link.internalPktQueue.length == 2 && s.tx.history.allocated == 1) = true := by
    decide +kernel
  obtain ⟨s, hs, hp⟩ := exists_reaches _ hrun
  simp only [Bool.and_eq_true, beq_iff_eq] at hp
  obtain ⟨⟨hhanded, hqueue⟩, hone⟩ := hp
  exact ⟨s, hs, hhanded, hqueue, (released_not_published_again TcpTransport.partialWrites
    blockedSetup hgood hconnect hs (by omega)).2⟩

end System

end Lmc
