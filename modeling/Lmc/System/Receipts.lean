import Lmc.System.Stream
import Lmc.System.Traffic

/-!
# The order of receipts

A message of quality 1 is answered with a `PUBACK` and a release with a `PUBCOMP`. Neither
is kept to be sent again, so each of them is handed over once, when the packet it answers is
handled. All other packets are of other types: what the task sends for a command, on a
tick of the alarm, or at its start and its end. So the receipts among the packets handed
over are those owed for the packets received, in the same order, and the output keeps this
order on the wire (`receipts_in_order`).
-/

namespace Lmc

open EStateLogic

/-! ## Receipts -/

/-- The identifier in a packet of the given type. -/
def Packet.receipt (ty : PacketType) (p : Packet) : Option UInt16 :=
  if ControlField.packetType ⟨p.ctrl⟩ = ty.code then
    match ByteReader.readU16.run p.body with
    | .ok id _ => some id
    | .error _ _ => none
  else none

/-- The same for the packet as it is on the wire. -/
def InternalPacket.receipt (ty : PacketType) (p : InternalPacket) : Option UInt16 :=
  p.sent.receipt ty

theorem InternalPacket.receipt_first (ty : PacketType) (pkt : Packet) :
    InternalPacket.receipt ty ⟨pkt, false⟩ = pkt.receipt ty := rfl

/-- The identifier for which a packet is owed a receipt of the given type. -/
def owedReceipt (ty : PacketType) : IncomingPacket → Option UInt16
  | .publish msg =>
    if ty = .pubAck ∧ msg.info.flags.qos = .atLeastOnce then some msg.info.packetId else none
  | .pubRel rel => if ty = .pubComp then some rel.packetId else none
  | _ => none

def PacketType.isReceipt (ty : PacketType) : Prop := ty = .pubAck ∨ ty = .pubComp

theorem PacketType.code_injective : Function.Injective PacketType.code := by
  intro a b h
  cases a <;> cases b <;> first | rfl | exact absurd h (by decide)

section Types

variable {ty : PacketType}

theorem receipt_of_encoded {α : Type} [Encode α] {p : α} {pkt : Packet}
    (h : makePacket p = .ok pkt) (hty : Encode.packetType α ≠ ty) : pkt.receipt ty = none := by
  obtain ⟨flags, content, -, hflags, hctrl, -⟩ := makePacket_parts h
  have htype := packetType_ctrl (Encode.packetType α) hflags
  rw [← hctrl] at htype
  rw [Packet.receipt, htype, if_neg fun heq => hty (PacketType.code_injective heq)]

/-- A receipt asks for nothing. -/
theorem receipt_of_asks (hty : ty.isReceipt) {pkt : Packet} (h : pkt.asks ≠ .other) :
    pkt.receipt ty = none := by
  refine if_neg fun htype => h ?_
  unfold Packet.asks Asked.read
  rw [htype]
  rcases hty with rfl | rfl <;> rfl

theorem receipt_idPacket {ctrl : UInt8} (hctrl : ControlField.packetType ⟨ctrl⟩ = ty.code)
    (id : UInt16) : (idPacket ctrl id).receipt ty = some id := by
  have hbody : (idPacket ctrl id).body = u16ToBe id ++ [] := by
    rw [List.append_nil]
    rfl
  rw [Packet.receipt, hbody, ByteReader.run_readU16]
  exact if_pos hctrl

theorem receipt_pubRec (hty : ty.isReceipt) (id : UInt16) :
    (pubRecPacket id).receipt ty = none := by
  refine receipt_of_encoded (makePacket_pubRec id) ?_
  rcases hty with rfl | rfl <;> exact nofun

theorem receipt_pubRel (hty : ty.isReceipt) (id : UInt16) :
    (pubRelPacket id).receipt ty = none := by
  refine receipt_of_encoded (makePacket_pubRel id) ?_
  rcases hty with rfl | rfl <;> exact nofun

/-- A packet that is sent again is no receipt. -/
theorem receipt_of_fits (hty : ty.isReceipt) {key : IdType} {pkt : Packet} (h : key.Fits pkt) :
    InternalPacket.receipt ty ⟨pkt, key.ty == PacketType.publish⟩ = none := by
  obtain ⟨kind, id⟩ := key
  cases kind with
  | publish =>
    obtain ⟨qos, hasks⟩ := h
    refine receipt_of_asks hty ?_
    change InternalPacket.asks ⟨pkt, true⟩ ≠ .other
    rw [hasks true]
    exact nofun
  | pubRec =>
    cases (show pkt = pubRecPacket id from h)
    exact receipt_pubRec hty id
  | pubRel =>
    cases (show pkt = pubRelPacket id from h)
    exact receipt_pubRel hty id
  | unsubscribe =>
    obtain ⟨topic, hasks⟩ := h
    refine receipt_of_asks hty ?_
    change pkt.asks ≠ .other
    rw [hasks]
    exact nofun
  | _ => cases h

end Types

/-! ## What the handlers hand over -/

/-- The receipts among the packets that are handed over. -/
def Desk.HandsReceipts (ty : PacketType) (ids : List UInt16) (d d' : Desk) : Prop :=
  ∃ ps, d'.handed = d.handed ++ ps ∧ ps.filterMap (InternalPacket.receipt ty) = ids

namespace Desk.HandsReceipts

variable {ty : PacketType} {d d' : Desk}

theorem nothing (h : d'.handed = d.handed) : HandsReceipts ty [] d d' :=
  ⟨[], by rw [h, List.append_nil], rfl⟩

theorem one {p : InternalPacket} {id : Option UInt16} (h : d'.handed = d.handed ++ [p])
    (hp : p.receipt ty = id) : HandsReceipts ty id.toList d d' := by
  refine ⟨[p], h, ?_⟩
  rw [List.filterMap_cons, hp]
  cases id <;> rfl

theorem other {p : InternalPacket} (h : d'.handed = d.handed ++ [p])
    (hp : p.receipt ty = none) : HandsReceipts ty [] d d' := one h hp

end Desk.HandsReceipts

section Works

open Desk

variable {ty : PacketType} {d d' : Desk}

/-- A packet is answered with the receipt that is owed for it and with no other. -/
theorem PacketWork.receipts (hty : ty.isReceipt) {pkt : IncomingPacket} {cut : Option IoError}
    (h : PacketWork pkt cut d d')
    (hkept : ∀ key pkt, d.book.pendingPackets.lookup key = some pkt → key.Fits pkt) :
    HandsReceipts ty (owedReceipt ty pkt).toList d d' := by
  cases h with
  | connAck ack | pingResp | subAck ack | pubAck ack | pubComp comp | unsubAck ack =>
    exact .nothing rfl
  | dispatch msg _ qos =>
    have howed : owedReceipt ty (.publish msg) = none := by simp [owedReceipt, qos]
    rw [howed]
    exact .nothing rfl
  | answer msg _ _ qos =>
    refine .one (Desk.handed_conclude _ _ _) ?_
    rw [InternalPacket.receipt_first]
    rcases hty with rfl | rfl
    · simp only [owedReceipt, qos, and_self, if_true]
      exact receipt_idPacket rfl _
    · simp only [owedReceipt, reduceCtorEq, false_and, if_false]
      exact receipt_of_encoded (makePacket_pubAck _) nofun
  | answerAgain msg kept _ _ qos known =>
    have hpkt : kept = pubRecPacket msg.info.packetId := hkept _ _ known
    have howed : owedReceipt ty (.publish msg) = none := by simp [owedReceipt, qos]
    rw [howed]
    refine .other rfl ?_
    rw [InternalPacket.receipt_first, hpkt]
    exact receipt_pubRec hty _
  | record msg t _ _ qos new =>
    have howed : owedReceipt ty (.publish msg) = none := by simp [owedReceipt, qos]
    rw [howed]
    refine .other (p := ⟨pubRecPacket msg.info.packetId, false⟩) ?_ ?_
    · rw [Desk.handed_conclude, Desk.handed_hand, Desk.handed_track]
    · rw [InternalPacket.receipt_first]
      exact receipt_pubRec hty _
  | releaseAgain rec kept _ _ known =>
    have hpkt : kept = pubRelPacket rec.packetId := hkept _ _ known
    refine .other (Desk.handed_conclude _ _ _) ?_
    rw [InternalPacket.receipt_first, hpkt]
    exact receipt_pubRel hty _
  | release rec t _ _ new =>
    refine .other (p := ⟨pubRelPacket rec.packetId, false⟩) ?_ ?_
    · rw [Desk.handed_conclude, Desk.handed_hand, Desk.handed_track]
    · rw [InternalPacket.receipt_first]
      exact receipt_pubRel hty _
  | pubRel rel _ =>
    refine .one rfl ?_
    rw [InternalPacket.receipt_first]
    rcases hty with rfl | rfl
    · simp only [owedReceipt, reduceCtorEq, if_false]
      exact receipt_of_encoded (makePacket_pubComp _) nofun
    · exact receipt_idPacket rfl _

/-- The packet of the command was encoded. -/
def PublishCommand.Typed (cmd : PublishCommand) : Prop :=
  ∃ p : OutgoingPublishPacket, makePacket p = .ok cmd.packet

theorem CommandWork.receipts (hty : ty.isReceipt) {cmd : Command} {o : Option Fault}
    (h : CommandWork cmd o d d') (hcmd : cmd.Publishes PublishCommand.Typed) :
    HandsReceipts ty [] d d' := by
  have hpublish : ∀ cmd : PublishCommand, cmd.Typed →
      InternalPacket.receipt ty ⟨cmd.packet, false⟩ = none := by
    rintro cmd ⟨p, hp⟩
    refine receipt_of_encoded hp ?_
    rcases hty with rfl | rfl <;> exact nofun
  cases h with
  | publishOnce cmd _ io _ qos => exact .other rfl (hpublish cmd hcmd)
  | publish cmd t _ io _ qos =>
    refine .other ?_ (hpublish cmd hcmd)
    rw [Desk.handed_hand, Desk.handed_track]
  | subscribe cmd pkt t _ accepted unsubscribed encoded =>
    refine .other (p := ⟨pkt, false⟩) rfl (receipt_of_encoded encoded ?_)
    rcases hty with rfl | rfl <;> exact nofun
  | subscribeCut cmd pkt e _ accepted unsubscribed encoded =>
    refine .other (p := ⟨pkt, false⟩) rfl (receipt_of_encoded encoded ?_)
    rcases hty with rfl | rfl <;> exact nofun
  | unsubscribe topic pkt t _ io _ subscribed encoded =>
    refine .other (p := ⟨pkt, false⟩) ?_ (receipt_of_encoded encoded ?_)
    · rw [Desk.handed_hand, Desk.handed_track]
      rfl
    · rcases hty with rfl | rfl <;> exact nofun
  | _ => exact .nothing rfl

/-- The alarm sends what is kept. -/
theorem AlarmWork.receipts (hty : ty.isReceipt) {cut : Option IoError} (h : AlarmWork d cut d')
    (hping : d.pingReq = pingReqPacket)
    (hkept : ∀ key pkt, d.pendingPacket key = some pkt →
      InternalPacket.receipt ty ⟨pkt, key.ty == PacketType.publish⟩ = none) :
    HandsReceipts ty [] d d' := by
  have hadd : ∀ {d₁ : Desk} {x : Timeout} {pkt : Packet}, AlarmWork d none d₁ →
      d₁.pendingPacket x.packetId = some pkt → HandsReceipts ty [] d d₁ →
      ∃ ps, d₁.handed ++ [⟨pkt, x.packetId.ty == PacketType.publish⟩] = d.handed ++ ps ∧
        ps.filterMap (InternalPacket.receipt ty) = [] := by
    rintro d₁ x pkt before pending ⟨ps, hps, hnone⟩
    refine ⟨ps ++ [⟨pkt, x.packetId.ty == PacketType.publish⟩], ?_, ?_⟩
    · rw [hps, List.append_assoc]
    · have hpkt : d.pendingPacket x.packetId = some pkt := by
        unfold Desk.pendingPacket at pending ⊢
        rwa [before.book] at pending
      rw [List.filterMap_append, hnone, List.filterMap_cons, hkept _ _ hpkt]
      rfl
  induction h with
  | start => exact .nothing rfl
  | ping cut =>
    refine .other rfl ?_
    rw [hping]
    refine receipt_of_encoded makePacket_pingReq ?_
    rcases hty with rfl | rfl <;> exact nofun
  | settled d₁ before x rest queue gone ih => exact ih
  | resend d₁ before x rest queue pkt pending t ih =>
    obtain ⟨ps, hps, hnone⟩ := hadd before pending ih
    exact ⟨ps, hps, hnone⟩
  | resendCut d₁ before x rest queue pkt pending e ih =>
    obtain ⟨ps, hps, hnone⟩ := hadd before pending ih
    exact ⟨ps, hps, hnone⟩

end Works

/-! ## Runs -/

theorem completed_all {n : Nat} {ps : List InternalPacket}
    (h : (ps.flatMap InternalPacket.wire).length ≤ n) : completed n ps = ps := by
  induction ps generalizing n with
  | nil => rfl
  | cons p ps ih =>
    rw [List.flatMap_cons, List.length_append] at h
    rw [completed, if_pos (by omega), ih (by omega)]

namespace System

open Runs

variable {τ : Type} [Transport τ] {s s' : System τ}

/-- The receipts handed over are those owed for the packets received. -/
structure Receipted (s : System τ) : Prop where
  filed : Filed s
  typed : Published PublishCommand.Typed s
  connect : s.phase = .boot → ∀ pkt, s.tx.link.txPkt = some pkt →
    ∃ connect : ConnectPacket, makePacket connect = .ok pkt.packet
  receipts : ∀ ty : PacketType, ty.isReceipt →
    s.tx.link.handed.filterMap (InternalPacket.receipt ty) =
      s.tx.history.received.filterMap (owedReceipt ty)

omit [Transport τ] in
theorem receipted_spawn {setup : Setup τ} {connect : ConnectPacket}
    (h : makePacket connect = .ok setup.connectPacket) : Receipted (spawn setup) where
  filed := filed_spawn h
  typed := ⟨fun _ hmem => (by cases hmem), fun _ _ hcall => (by cases hcall)⟩
  connect _ pkt hpkt := by
    cases hpkt
    exact ⟨connect, h⟩
  receipts _ _ := rfl

omit [Transport τ] in
/-- A kept packet that the alarm may send. -/
theorem Receipted.kept (h : Receipted s) {ty : PacketType} (hty : ty.isReceipt) {key : IdType}
    {pkt : Packet} (hpkt : s.tx.desk.pendingPacket key = some pkt) :
    InternalPacket.receipt ty ⟨pkt, key.ty == PacketType.publish⟩ = none := by
  unfold Desk.pendingPacket at hpkt
  split at hpkt
  · rename_i hsub
    obtain ⟨sub, hlookup, rfl⟩ := Option.map_eq_some_iff.mp hpkt
    have hasks := h.filed.subs _ sub hlookup
    rw [hsub]
    refine receipt_of_asks hty ?_
    change sub.packet.asks ≠ .other
    rw [hasks]
    exact nofun
  · exact receipt_of_fits hty (h.filed.packets key pkt hpkt)

/-- What a program hands over and logs. -/
theorem Work.receipts {e : TaskEvent} {o : Option Fault} {d : Desk} (h : Work s e o d)
    (hs : Receipted s) {ty : PacketType} (hty : ty.isReceipt) :
    ∃ pkts, d.book.history.received = s.tx.history.received ++ pkts ∧
      s.tx.desk.HandsReceipts ty (pkts.filterMap (owedReceipt ty)) d := by
  have hsame : d.book.history.received = s.tx.history.received →
      s.tx.desk.HandsReceipts ty [] d → ∃ pkts, d.book.history.received =
        s.tx.history.received ++ pkts ∧
        s.tx.desk.HandsReceipts ty (pkts.filterMap (owedReceipt ty)) d :=
    fun hreceived hnone => ⟨[], by rw [hreceived, List.append_nil], hnone⟩
  cases h with
  | idle same =>
    subst same
    exact hsame rfl (.nothing rfl)
  | connect pkt boot waits handed =>
    obtain ⟨connect, hconnect⟩ := hs.connect boot pkt waits
    subst handed
    refine hsame rfl (.other rfl (receipt_of_encoded hconnect ?_))
    rcases hty with rfl | rfl <;> exact nofun
  | connAck pkt arrived waiting book =>
    subst book
    exact hsame rfl (.nothing rfl)
  | packet pkt cut arrived connected ends work =>
    refine ⟨[pkt], work.effect.received, ?_⟩
    have howed : [pkt].filterMap (owedReceipt ty) = (owedReceipt ty pkt).toList := by
      rw [List.filterMap_cons]
      cases owedReceipt ty pkt <;> rfl
    rw [howed]
    exact work.receipts hty hs.filed.packets
  | command cmd rest queue taken connected work =>
    obtain ⟨ps, hps, hnone⟩ := work.receipts hty (hs.typed.queue _ (consumed_mem taken))
    exact hsame work.effect.received ⟨ps, hps, hnone⟩
  | alarm cut ends work tick =>
    refine hsame (by rw [work.book]; rfl) (work.receipts hty hs.filed.ping fun key pkt hpkt => ?_)
    exact hs.kept hty hpkt
  | disconnect stopping connected handed =>
    subst handed
    refine hsame rfl (.other rfl (receipt_of_encoded makePacket_disconnect ?_))
    rcases hty with rfl | rfl <;> exact nofun

theorem Receipted.step (h : Receipted s) {e : Event} (hstep : s.step e = some s') :
    Receipted s' := by
  have htyped := h.typed.step (fun _ p hp _ _ => ⟨p, hp⟩) hstep
  cases e with
  | client e =>
    have hsame := (clientMove_of_clientStep hstep).sameTask
    refine ⟨h.filed.step hstep, htyped, ?_, ?_⟩
    · rw [hsame.phase, hsame.link]
      exact h.connect
    · rw [hsame.link, hsame.received]
      exact h.receipts
  | task e =>
    have hmove := deskMove_of_taskStep hstep
    refine ⟨h.filed.step hstep, htyped, fun hboot => absurd hboot hmove.taskMove.not_boot, ?_⟩
    intro ty hty
    cases hmove with
    | program tx p clean running leads work =>
      obtain ⟨pkts, hreceived, ps, hhanded, hids⟩ := work.receipts h hty
      change tx.link.handed.filterMap _ = tx.history.received.filterMap _
      rw [show tx.link.handed = _ from hhanded, show tx.history.received = _ from hreceived,
        List.filterMap_append, List.filterMap_append, hids]
      exact congrArg (· ++ _) (h.receipts ty hty)
    | _ => exact h.receipts ty hty

variable {good : τ → Prop}

omit [Transport τ] in
/-- The packets that have not been accepted to the last byte come behind the others. -/
theorem exists_waiting (h : InOrder good s) : ∃ waiting,
    s.tx.link.handed = s.received ++ waiting ∧ (s.tx.link.txPkt = none → waiting = []) := by
  obtain ⟨waiting, hsplit⟩ := completed_initial s.tx.link.accepted.length s.tx.link.handed
  refine ⟨waiting, hsplit.symm, fun hidle => ?_⟩
  have hall : completed s.tx.link.accepted.length s.tx.link.handed = s.tx.link.handed := by
    by_cases hboot : s.phase = .boot
    · rw [(h.boot hboot).handed]
      rfl
    · have hsound := h.sound hboot
      have hbytes : s.tx.link.accepted = s.tx.link.handedBytes := by
        have hstream := hsound.stream
        simpa [Link.unsent, Link.queued, hidle, hsound.queue hidle] using hstream
      rw [hbytes]
      exact completed_all (le_refl _)
  rw [hall] at hsplit
  exact List.append_right_eq_self.mp hsplit

/-- In every run over a transport without failures, whatever else is sent and however the
writes are cut: the `PUBACK`s handed over to the output are for the messages of quality 1
received, one for each and in the same order, and so are the `PUBCOMP`s for the releases.
The output puts them on the wire in this order: some of the packets have been accepted to
the last byte, and of the others the rest is in `tx_pkt` and `internal_pkt_queue`. -/
theorem receipts_in_order (hw : PartialWrites good) (setup : Setup τ)
    (hgood : good setup.transport) {connect : ConnectPacket}
    (hconnect : makePacket connect = .ok setup.connectPacket) {s : System τ}
    (h : Reaches System.step always (spawn setup) s) :
    (∃ waiting, s.tx.link.handed = s.received ++ waiting ∧
      (s.tx.link.txPkt = none → waiting = []) ∧
      ∀ ty : PacketType, ty.isReceipt →
        s.received.filterMap (InternalPacket.receipt ty) ++
          waiting.filterMap (InternalPacket.receipt ty) =
            s.tx.history.received.filterMap (owedReceipt ty)) ∧
    (s.phase ≠ .boot → s.tx.link.accepted ++ s.tx.link.unsent ++ s.tx.link.queued =
      s.tx.link.handedBytes) := by
  have hinv : InOrder good s ∧ Receipted s := by
    refine h.invariant (I := fun s => InOrder good s ∧ Receipted s) ?_ ?_
    · exact ⟨inOrder_spawn hgood, receipted_spawn hconnect⟩
    · rintro s e s' ⟨hs, hr⟩ - hstep
      exact ⟨hs.step hw hstep, hr.step hstep⟩
  obtain ⟨hs, hr⟩ := hinv
  obtain ⟨waiting, hhanded, hidle⟩ := exists_waiting hs
  refine ⟨⟨waiting, hhanded, hidle, fun ty hty => ?_⟩, fun hboot => (hs.sound hboot).stream⟩
  rw [← List.filterMap_append, ← hhanded]
  exact hr.receipts ty hty

/-- A broker that accepts the connection, sends a message of quality 1 with the identifier 5
and a release of the identifier 9, over a socket that takes one byte of the second packet
at first. -/
def receiptSetup : Setup TcpTransport :=
  { scripted ⟨[acceptance, .wouldBlock, .data 0x32 [6, 0, 1, 97, 0, 5, 7], .data 0x62 [2, 0, 9],
      .wouldBlock], false, [.accept 100, .accept 1, .accept 100, .wouldBlock]⟩ with
    connectPacket := ⟨0x10, [13, 0, 4, 0x4d, 0x51, 0x54, 0x54, 4, 2, 0, 30, 0, 1, 99]⟩ }

/-- Both packets are handled while the `PUBACK` is cut, and the `PUBCOMP` still waits when the
`PUBACK` has been written to its end. -/
theorem receipts_in_order_cut :
    ∃ s waiting, Reaches System.step always (spawn receiptSetup) s ∧
      s.tx.link.handed = s.received ++ waiting ∧
      s.received.filterMap (InternalPacket.receipt .pubAck) ++
        waiting.filterMap (InternalPacket.receipt .pubAck) = [5] ∧
      s.received.filterMap (InternalPacket.receipt .pubComp) = [] ∧
      waiting.filterMap (InternalPacket.receipt .pubComp) = [9] := by
  have hgood : receiptSetup.transport.NoWriteError := by
    intro e
    simp [receiptSetup, scripted]
  have hconnect : makePacket shortConnect = .ok receiptSetup.connectPacket := by
    decide +kernel
  have hrun : (runUnder System.step always (spawn receiptSetup)
      (connecting ++ reading 3 ++ [.task (.writable (.ok ())), .task .proceed])).any
      (fun s => s.received.length == 2 &&
        s.received.filterMap (InternalPacket.receipt .pubComp) == [] &&
        s.tx.history.received.filterMap (owedReceipt .pubAck) == [5] &&
        s.tx.history.received.filterMap (owedReceipt .pubComp) == [9]) = true := by
    decide +kernel
  obtain ⟨s, hs, hp⟩ := exists_reaches _ hrun
  simp only [Bool.and_eq_true, beq_iff_eq] at hp
  obtain ⟨⟨⟨-, hnone⟩, hack⟩, hcomp⟩ := hp
  obtain ⟨⟨waiting, hhanded, -, horder⟩, -⟩ :=
    receipts_in_order TcpTransport.partialWrites receiptSetup hgood hconnect hs
  refine ⟨s, waiting, hs, hhanded, (horder .pubAck (.inl rfl)).trans hack, hnone, ?_⟩
  have hwait := (horder .pubComp (.inr rfl)).trans hcomp
  rwa [hnone, List.nil_append] at hwait

end System

end Lmc
