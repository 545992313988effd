import Lmc.System.Moves
import Lmc.Task.Output

/-!
# The output stream in every run

`Lmc.Task.Output` shows that the handlers keep the output in order. Here this is carried
to the programs of all phases and from there to the runs of the system: whatever the
order of events and however the transport cuts the writes, the accepted bytes are a
prefix of the packets handed over, and the rest is kept. Before the first step of the
task the `CONNECT` packet waits in `txPkt` without being handed over (`Link.Fresh`).
-/

namespace Lmc

open EStateLogic

namespace Link

variable {τ : Type} {good : τ → Prop}

theorem Sound.setTransport {link : Link τ} (h : Sound good link) {t : τ} (ht : good t) :
    Sound good (link.setTransport t) := ⟨⟨⟨h.queue, h.pos⟩, h.stream⟩, ht⟩

/-- The output before the first step. -/
structure Fresh (good : τ → Prop) (link : Link τ) : Prop where
  accepted : link.accepted = []
  handed : link.handed = []
  queue : link.internalPktQueue = []
  start : ∀ tx, link.txPkt = some tx → tx.pos = 0
  good : good link.transport

theorem Fresh.sound {link : Link τ} (h : Fresh good link) : Sound good (link.setTx none) := by
  refine ⟨⟨⟨fun _ => h.queue, nofun⟩, ?_⟩, h.good⟩
  simp [unsent, queued, handedBytes, setTx, h.accepted, h.handed, h.queue]

end Link

namespace Transceiver

variable {τ : Type} [Transport τ] {good : τ → Prop}

/-! ## Programs of the phases -/

omit [Transport τ] in
theorem steady_onTransport {α : Type} {op : τ → Except IoError α × τ}
    (hop : ∀ t, good t → good (op t).2) : Steady good (onTransport op) := by
  intro tx h
  have hs : Link.Sound good { tx.link with transport := (op tx.link.transport).2 } :=
    h.setTransport (hop _ h.good)
  unfold onTransport onLink
  rw [run_zoom]
  simp only [EStateM.run_bind, EStateM.run_get, EStateM.run_set]
  cases (op tx.link.transport).1 with
  | ok a => exact hs
  | error e => exact ⟨hs, by simp⟩

omit [Transport τ] in
theorem steady_awaitReady (ready : Except IoError Unit) :
    Steady good (awaitReady ready : TaskM τ Unit) := by
  cases ready with
  | ok u => exact .pure _
  | error e => exact .io e

variable (hw : PartialWrites good)

include hw

theorem steady_writeRound (onClosed again next : Phase) :
    Steady good (writeRound onClosed again next : TaskM τ Phase) := by
  have hwrite : Triple (fun tx : Transceiver τ => Link.Sound good tx.link)
      (onLink Link.writeOnce) (fun _ tx => Link.Sound good tx.link)
      (fun e tx => e = .io .wouldBlock ∧ Link.Sound good tx.link) :=
    triple_zoom (fun _ _ => rfl) (Link.triple_writeOnce hw)
  have hround : ∀ handler : Fault → Option (Option Bool),
      Steady good (recover handler (onLink Link.writeOnce : TaskM τ (Option Bool))) := fun _ =>
    (hwrite.recover fun _ _ _ hs _ => hs.2).conseq (fun _ hs => hs) (fun _ _ hs => hs)
      (fun e _ hs => ⟨hs.2, by simp [hs.1]⟩)
  refine Triple.bind (hround _) fun r => ?_
  cases r with
  | none => exact Steady.pure _
  | some more => cases more <;> exact Steady.pure _

theorem steady_recvPacket : Steady good (recvPacket : TaskM τ Incoming) := by
  intro tx h
  have hrecv := PacketReader.triple_recv hw ⟨tx.rxPkt, tx.link.transport⟩ h.good
  have hrun : recvPacket.run tx = recvPacket tx := rfl
  rw [hrun, recvPacket]
  cases hres : PacketReader.recv.run (⟨tx.rxPkt, tx.link.transport⟩ : Rx τ) with
  | ok state rx =>
    rw [hres] at hrecv
    exact h.setTransport hrecv
  | error e rx =>
    rw [hres] at hrecv
    have hs : Link.Sound good (tx.putRx rx).link := h.setTransport hrecv
    cases e with
    | wouldBlock => exact hs
    | unexpectedEof => exact ⟨hs, by simp⟩
    | decode d => exact ⟨hs, by simp⟩
    | other code => exact ⟨hs, by simp⟩

theorem steady_readRound : Steady good (readRound : TaskM τ Phase) := by
  refine (steady_recvPacket hw).bind fun found => ?_
  cases found with
  | packet pkt => exact (steady_processPacket hw pkt).bind fun _ => .ite (.pure _) (.pure _)
  | closed => exact .pure _
  | again => exact .pure _
  | idle => exact .pure _

theorem steadyIdle_commandRound : SteadyIdle good (commandRound : TaskM τ Phase) := by
  have hrun : ∀ cmd, SteadyIdle good (do
      if ← onCommand cmd then return Phase.stopping else return Phase.select : TaskM τ Phase) :=
    fun cmd => (steadyIdle_onCommand hw cmd).bind fun _ => .ite (.pure _) (.pure _)
  simp only [commandRound, takeCommand, bind_assoc]
  refine .get_bind fun tx => ?_
  cases tx.cmdQueue with
  | nil => exact hrun none
  | cons cmd rest =>
    simp only [bind_assoc, pure_bind]
    exact .onBook_bind (hrun (some cmd))

theorem steady_readyWrite (ready : Except IoError Unit) (next : Phase) :
    Steady good (readyWrite ready next : TaskM τ Phase) :=
  (steady_awaitReady ready).bind fun _ => (steady_onTransport hw.preWrite).bind fun _ => .pure _

theorem steady_readyRead (ready : Except IoError Unit) (next idle : Phase) :
    Steady good (readyRead ready next idle : TaskM τ Phase) :=
  (steady_awaitReady ready).bind fun _ => (steady_onTransport hw.preRead).bind fun _ => .pure _

/-- What a program of the task does to an output in order. -/
theorem program_sound {tx : Transceiver τ} {gone : Bool} {p : Phase} {e : TaskEvent}
    {x : TaskM τ Phase} (h : tx.program gone p e = some x) (hp : p ≠ .boot)
    (hs : Link.Sound good tx.link) :
    Triple (· = tx) x (fun _ tx' => Link.Sound good tx'.link) (Fails good) := by
  suffices hx : Steady good x ∨ SteadyIdle good x ∧ tx.link.txPkt = none by
    rcases hx with hx | ⟨hx, hidle⟩
    · exact hx.conseq (by rintro _ rfl; exact hs) (fun _ _ h => h) (fun _ _ h => h)
    · exact hx.conseq (by rintro _ rfl; exact ⟨hs, hidle⟩) (fun _ _ h => h) (fun _ _ h => h)
  cases isProgram_of_program h with
  | boot => exact absurd rfl hp
  | selectWritable r wanted | flushingWritable r wanted | notifyingWritable r wanted =>
    exact Or.inl (steady_readyWrite hw _ _)
  | selectReadable r wanted | flushingReadable r wanted | notifyingReadable r wanted =>
    exact Or.inl (steady_readyRead hw _ _ _)
  | command opened connected idle ready => exact Or.inr ⟨steadyIdle_commandRound hw, idle⟩
  | alarm => exact Or.inl ((steady_onAlarm hw).bind fun _ => .pure _)
  | writing | flushWriting => exact Or.inl (steady_writeRound hw _ _ _)
  | reading => exact Or.inl (steady_readRound hw)
  | stopping =>
    exact Or.inl (.get_bind fun _ => .ite
      ((steady_queueInternalPacket hw _ _).bind fun _ => .pure _) (.pure _))
  | flushed readDone writeDone => exact Or.inl (.bind (steady_modify fun _ => rfl) fun _ => .pure _)
  | closeNotify => exact Or.inl ((steady_onTransport hw.closeNotify).bind fun _ => .pure _)
  | notified readDone writeDone => exact Or.inl (.pure _)

/-- The first program: `CONNECT` is taken out of `txPkt` and handed over. -/
theorem bootstrap_sound {tx : Transceiver τ} (h : Link.Fresh good tx.link) :
    ∃ tx', bootstrap.run tx = .ok () tx' ∧ Link.Sound good tx'.link := by
  simp only [bootstrap, EStateM.run_bind, EStateM.run_get]
  cases htx : tx.link.txPkt with
  | none =>
    refine ⟨tx, rfl, ?_⟩
    have hs := h.sound
    rw [Link.setTx, ← htx] at hs
    exact hs
  | some pkt =>
    obtain ⟨link, hrun, hs, -⟩ := Link.run_sendPacket hw (tx.link.setTx none) h.sound rfl
      pkt.packet false
    have htake : (onLink (modify (Link.setTx none)) : TaskM τ PUnit).run tx =
        .ok .unit { tx with link := tx.link.setTx none } := rfl
    have hsend : (onLink (Link.sendPacket pkt.packet false)).run
        { tx with link := tx.link.setTx none } = .ok () { tx with link } := by
      rw [onLink, run_zoom, hrun]
    refine ⟨{ tx with link }, ?_, hs⟩
    simp only [EStateM.run_bind, htake, hsend]

end Transceiver

/-! ## Runs of the system -/

namespace System

open Runs

variable {τ : Type} [Transport τ] {good : τ → Prop}

/-- The output is in order, and the assertion in `try_send_packet` has not failed. -/
structure InOrder (good : τ → Prop) (s : System τ) : Prop where
  boot : s.phase = .boot → Link.Fresh good s.tx.link
  sound : s.phase ≠ .boot → Link.Sound good s.tx.link
  idle : s.phase ≠ .crashed .alreadyTransmitting

omit [Transport τ] in
theorem inOrder_spawn {setup : Setup τ} (h : good setup.transport) :
    InOrder good (spawn setup) where
  boot _ := ⟨rfl, rfl, rfl, by rintro tx ⟨⟩; rfl, h⟩
  sound hboot := absurd rfl hboot
  idle := Phase.noConfusion

omit [Transport τ] in
theorem InOrder.of_follows (s : System τ) {tx : Transceiver τ} {p : Phase}
    (hp : p.follows = true) (clean : Bool) (hs : Link.Sound good tx.link) :
    InOrder good { s with tx, phase := p, clean } := by
  refine ⟨?_, fun _ => hs, ?_⟩
  · rintro rfl
    cases hp
  · rintro rfl
    cases hp

theorem InOrder.runProgram (hw : PartialWrites good) {s : System τ} {e : TaskEvent}
    {x : TaskM τ Phase} {gone : Bool} (h : InOrder good s)
    (hx : s.tx.program gone s.phase e = some x) : InOrder good (s.runProgram x) := by
  by_cases hp : s.phase = .boot
  · rw [hp] at hx
    cases e <;> cases hx
    obtain ⟨tx, hrun, hs⟩ := Transceiver.bootstrap_sound hw (h.boot hp)
    have hres : (do Transceiver.bootstrap; return .select : TaskM τ Phase).run s.tx =
        .ok .select tx := by
      rw [EStateM.run_bind, hrun]
      rfl
    rw [System.runProgram, hres]
    exact ⟨Phase.noConfusion, fun _ => hs, Phase.noConfusion⟩
  · have hres := Transceiver.program_sound hw hx hp (h.sound hp) s.tx rfl
    unfold System.runProgram
    cases hrun : x.run s.tx with
    | ok p tx =>
      rw [hrun] at hres
      exact .of_follows s (Transceiver.program_ends hx _ _ _ hrun) s.clean hres
    | error e tx =>
      rw [hrun] at hres
      obtain ⟨hs, he⟩ := hres
      cases e with
      | io e => exact .of_follows s s.phase.follows_afterError _ hs
      | panic q =>
        refine ⟨Phase.noConfusion, fun _ => hs, fun h => he ?_⟩
        cases h
        rfl

/-- A step keeps the output in order. -/
theorem InOrder.step (hw : PartialWrites good) {s s' : System τ} {e : Event}
    (h : InOrder good s) (hstep : s.step e = some s') : InOrder good s' := by
  cases e with
  | client e =>
    have hsame := (clientMove_of_clientStep hstep).sameTask
    refine ⟨fun hp => ?_, fun hp => ?_, ?_⟩
    · rw [hsame.link]
      exact h.boot (hsame.phase ▸ hp)
    · rw [hsame.link]
      exact h.sound (hsame.phase ▸ hp)
    · rw [hsame.phase]
      exact h.idle
  | task e =>
    rcases taskStep_cases hstep with ⟨x, hx, rfl⟩ | ⟨hlink, hboot, hboot', hcrash⟩
    · exact h.runProgram hw hx
    · refine ⟨fun hp => absurd hp hboot', fun _ => ?_, hcrash _⟩
      rw [hlink]
      exact h.sound hboot

theorem inOrder_reached (hw : PartialWrites good) {setup : Setup τ}
    (hgood : good setup.transport) {s : System τ}
    (h : Reaches System.step always (spawn setup) s) : InOrder good s :=
  h.invariant (inOrder_spawn hgood) fun _ _ _ hs _ hstep => hs.step hw hstep

/-- In every run over a transport that does not fail, the link is one for which the write loop
does what its results say. -/
theorem ready_reached (hw : PartialWrites good) {setup : Setup τ}
    (hgood : good setup.transport) {s : System τ}
    (h : Reaches System.step always (spawn setup) s) : Link.Ready s.tx.link := by
  have hs := inOrder_reached hw hgood h
  by_cases hp : s.phase = .boot
  · refine ⟨fun _ => (hs.boot hp).queue, fun tx htx => ?_⟩
    rw [(hs.boot hp).start tx htx]
    exact Nat.succ_pos _
  · exact (hs.sound hp).toReady

/-- In every run over a transport that cuts writes anywhere, the accepted bytes, the rest
of the packet in transmission and the queued packets are the packets handed over, in
order; nothing is queued while nothing is transmitted; and no packet is sent while
another one is being transmitted. -/
theorem stream_integrity (hw : PartialWrites good) (setup : Setup τ)
    (hgood : good setup.transport) {s : System τ}
    (h : Reaches System.step always (spawn setup) s) :
    (s.phase ≠ .boot → s.tx.link.accepted ++ s.tx.link.unsent ++ s.tx.link.queued =
      s.tx.link.handedBytes) ∧
    (s.tx.link.txPkt = none → s.tx.link.internalPktQueue = []) ∧
    s.phase ≠ .crashed .alreadyTransmitting := by
  have hs := inOrder_reached hw hgood h
  exact ⟨fun hp => (hs.sound hp).stream, (ready_reached hw hgood h).queue, hs.idle⟩

/-- A socket that accepts two bytes of the first packet, blocks, and accepts three more. -/
def cutSetup : Setup TcpTransport :=
  scripted ⟨[], false, [.accept 2, .wouldBlock, .accept 3, .wouldBlock]⟩

theorem stream_integrity_cut :
    ∃ s, Reaches System.step always (spawn cutSetup) s ∧ s.tx.link.accepted.length = 5 ∧
      s.tx.link.accepted ++ s.tx.link.unsent ++ s.tx.link.queued =
        InternalPacket.wire ⟨cutSetup.connectPacket, false⟩ := by
  have hgood : cutSetup.transport.NoWriteError := by
    intro e
    simp [cutSetup, scripted]
  have hrun : (runUnder System.step always (spawn cutSetup)
      [.task .proceed, .task (.writable (.ok ())), .task .proceed,
        .task (.writable (.ok ())), .task .proceed, .task .proceed]).any
      (fun s => s.phase != .boot && s.tx.link.accepted.length == 5 &&
        s.tx.link.handedBytes == InternalPacket.wire ⟨cutSetup.connectPacket, false⟩) = true := by
    decide +kernel
  obtain ⟨s, hs, hp⟩ := exists_reaches _ hrun
  simp only [Bool.and_eq_true, bne_iff_ne, beq_iff_eq] at hp
  have hstream := (stream_integrity TcpTransport.partialWrites cutSetup hgood hs).1 hp.1.1
  exact ⟨s, hs, hp.1.2, hstream.trans hp.2⟩

end System

end Lmc
