import Lmc.System.Stream
import Lmc.Task.Failures

/-!
# Before the connection is accepted

While the task waits for the answer to `CONNECT` it takes no commands, its alarm does
nothing and its disconnect sequence sends nothing, so that all it can write is the rest of
the `CONNECT` packet (`Link.Only`). It waits as long as `connect_sig` is there, and
`connect_sig` is taken by the first packet that arrives, whatever it is. If that packet is
an accepting `CONNACK`, nothing but `CONNECT` was written before it. If it refuses the
connection, the task counts as connected from there on and sends `DISCONNECT`.
-/

namespace Lmc

open EStateLogic

/-! ## The output -/

namespace Link

variable {τ : Type}

/-- Nothing but the packet has been written: a part of it is accepted, and it is in
transmission from there on or not at all. -/
structure Only (packet : Packet) (link : Link τ) : Prop where
  queue : link.internalPktQueue = []
  sent : ∃ n, link.accepted = packet.bytes.take n ∧
    (link.txPkt = none ∨ link.txPkt = some ⟨packet, n, false⟩)

variable {packet : Packet} {link : Link τ}

theorem Only.accepted_start (h : Only packet link) : link.accepted <+: packet.bytes := by
  obtain ⟨n, haccepted, -⟩ := h.sent
  rw [haccepted]
  exact List.take_prefix n _

theorem Only.setTransport (h : Only packet link) (t : τ) : Only packet (link.setTransport t) :=
  ⟨h.queue, h.sent⟩

variable [Transport τ]

/-- Started with nothing but the packet written, the program ends like this. -/
abbrev KeepsOnly {α : Type} (packet : Packet) (x : LinkM τ α) : Prop :=
  Triple (Only packet) x (fun _ => Only packet) (fun _ => Only packet)

theorem keepsOnly_flush : KeepsOnly packet (flush : LinkM τ Unit) := by
  intro link h
  rcases run_flush_cases link with ⟨e, t, -, hrun⟩ | ⟨t, -, hrun⟩ <;> rw [hrun] <;>
    exact h.setTransport t

/-- There is no other packet to go on with. -/
theorem keepsOnly_clearTxPacket : KeepsOnly packet (clearTxPacket : LinkM τ Unit) := by
  intro link h
  have hrun : clearTxPacket.run link = (sendQueued link.internalPktQueue).run
      (link.setTx none) := rfl
  obtain ⟨n, haccepted, -⟩ := h.sent
  rw [hrun, h.queue]
  exact ⟨h.queue, n, haccepted, Or.inl rfl⟩

theorem keepsOnly_finishPacket : KeepsOnly packet (finishPacket : LinkM τ Unit) :=
  .bind keepsOnly_flush fun _ => .bind keepsOnly_clearTxPacket fun _ _ h => ⟨h.queue, h.sent⟩

/-- One round of the write loop goes on with the packet. -/
theorem keepsOnly_writeOnce : KeepsOnly packet (writeOnce : LinkM τ (Option Bool)) := by
  intro link h
  obtain ⟨n, haccepted, htx⟩ := h.sent
  simp only [writeOnce, EStateM.run_bind, EStateM.run_get]
  rcases htx with htx | htx <;> rw [htx]
  · exact h
  have hoffered : offered ⟨packet, n, false⟩ = packet.bytes.drop n := rfl
  simp only [hoffered, EStateM.run_bind]
  rcases run_write_cases (packet.bytes.drop n) false link with ⟨e, t, -, hrun⟩ | ⟨m, t, -, hrun⟩
  · rw [hrun]
    exact h.setTransport t
  · have hmore : link.accepted ++ (packet.bytes.drop n).take m = packet.bytes.take (n + m) := by
      rw [haccepted, List.take_add]
    have honly : Only packet ((link.accept t ((packet.bytes.drop n).take m)).setTx
        (some ⟨packet, n + m, false⟩)) := ⟨h.queue, n + m, hmore, Or.inr rfl⟩
    rw [hrun]
    by_cases hzero : m = 0
    · subst hzero
      exact ⟨h.queue, n, hmore, Or.inr htx⟩
    · have hrest : KeepsOnly packet (do
          (if n + m ≥ packet.bytes.length then finishPacket else pure ())
          return none : LinkM τ (Option Bool)) :=
        .bind (.ite (fun _ => keepsOnly_finishPacket) fun _ _ h => h) fun _ _ h => h
      simp only [if_neg hzero]
      exact hrest _ honly

/-- The packet is sent first. -/
theorem only_sendPacket (haccepted : link.accepted = []) (hqueue : link.internalPktQueue = [])
    (htx : link.txPkt = none) :
    Triple (· = link) (sendPacket packet false) (fun _ => Only packet) (fun _ => Only packet) := by
  rintro link rfl
  have hidle : (link.hand ⟨packet, false⟩).txPkt = none := htx
  rw [sendPacket_hands, run_trySendPacket_first hidle, EStateM.run_bind]
  rcases run_write_cases packet.bytes true (link.hand ⟨packet, false⟩) with
    ⟨e, t, -, hrun⟩ | ⟨n, t, -, hrun⟩
  · rw [hrun]
    exact ⟨hqueue, 0, haccepted, Or.inl htx⟩
  · have hsent : link.accepted ++ packet.bytes.take n = packet.bytes.take n := by
      rw [haccepted, List.nil_append]
    rw [hrun]
    by_cases hfull : n ≥ packet.bytes.length
    · simp only [if_pos hfull]
      exact keepsOnly_flush _ ⟨hqueue, n, hsent, Or.inl htx⟩
    · simp only [if_neg hfull]
      exact ⟨hqueue, n, hsent, Or.inr rfl⟩

end Link

/-! ## Programs of the task -/

namespace Transceiver

variable {τ α β : Type} {packet : Packet}

/-- The same of a program of the task. -/
abbrev KeepsOnly (packet : Packet) (x : TaskM τ α) : Prop :=
  Triple (fun tx => Link.Only packet tx.link) x (fun _ tx => Link.Only packet tx.link)
    (fun _ tx => Link.Only packet tx.link)

theorem keepsOnly_pure (a : α) : KeepsOnly packet (pure a : TaskM τ α) := fun _ h => h

theorem keepsOnly_onBook (f : Book → Book) : KeepsOnly packet (onBook f : TaskM τ Unit) :=
  fun _ h => h

theorem keepsOnly_processConnAck (pkt : IncomingPacket) :
    KeepsOnly packet (processConnAck pkt : TaskM τ Bool) :=
  .bind (keepsOnly_onBook _) fun _ => keepsOnly_pure _

theorem keepsOnly_onTransport (op : τ → Except IoError α × τ) :
    KeepsOnly packet (onTransport op) := by
  refine triple_zoom (fun _ _ => rfl) fun link h => ?_
  simp only [EStateM.run_bind, EStateM.run_get, EStateM.run_set]
  cases (op link.transport).1 <;> exact ⟨h.queue, h.sent⟩

theorem keepsOnly_awaitReady (ready : Except IoError Unit) :
    KeepsOnly packet (awaitReady ready : TaskM τ Unit) := by
  cases ready with
  | ok u => exact keepsOnly_pure _
  | error e => exact fun _ h => h

variable [Transport τ]

theorem keepsOnly_readyWrite (ready : Except IoError Unit) (next : Phase) :
    KeepsOnly packet (readyWrite ready next : TaskM τ Phase) :=
  .bind (keepsOnly_awaitReady _) fun _ => .bind (keepsOnly_onTransport _) fun _ =>
    keepsOnly_pure _

theorem keepsOnly_readyRead (ready : Except IoError Unit) (next idle : Phase) :
    KeepsOnly packet (readyRead ready next idle : TaskM τ Phase) :=
  .bind (keepsOnly_awaitReady _) fun _ => .bind (keepsOnly_onTransport _) fun _ =>
    keepsOnly_pure _

theorem keepsOnly_writeRound (onClosed again next : Phase) :
    KeepsOnly packet (writeRound onClosed again next : TaskM τ Phase) := by
  have hwrite : KeepsOnly packet (onLink Link.writeOnce : TaskM τ (Option Bool)) :=
    triple_zoom (fun _ _ => rfl) Link.keepsOnly_writeOnce
  refine .bind (hwrite.recover fun _ _ _ h _ => h) fun r => ?_
  match r with
  | some true => exact keepsOnly_pure _
  | some false => exact keepsOnly_pure _
  | none => exact keepsOnly_pure _

theorem keepsOnly_recvPacket : KeepsOnly packet (recvPacket : TaskM τ Incoming) := by
  intro tx h
  have hrun : recvPacket.run tx = recvPacket tx := rfl
  rw [hrun, recvPacket]
  cases PacketReader.recv.run (⟨tx.rxPkt, tx.link.transport⟩ : Rx τ) with
  | ok state rx => exact h.setTransport _
  | error e rx => cases e <;> exact h.setTransport _

/-- While the task waits, a packet is its answer to `CONNECT`, and nothing is sent. -/
theorem only_readRound {tx : Transceiver τ} (hsig : tx.connectSig = true)
    (h : Link.Only packet tx.link) :
    Triple (· = tx) readRound (fun _ tx' => Link.Only packet tx'.link)
      (fun _ tx' => Link.Only packet tx'.link) := by
  rintro tx rfl
  rcases run_bind_cases recvPacket processIncoming tx with
    ⟨found, tx', hrecv, hread⟩ | ⟨e, tx', hrecv, hread⟩
  · have honly : Link.Only packet tx'.link := keepsOnly_recvPacket.ok h hrecv
    have hdesk : tx'.desk = tx.desk := quiet_recvPacket.ok hrecv
    have hwaits : tx'.connectSig = true := (congrArg (fun d => d.book.connectSig) hdesk).trans hsig
    rw [readRound, hread]
    cases found with
    | packet pkt =>
      have hconn : KeepsOnly packet (do
          if ← processConnAck pkt then return Phase.stopping else return Phase.reading :
          TaskM τ Phase) :=
        .bind (keepsOnly_processConnAck pkt) fun _ =>
          .ite (fun _ => keepsOnly_pure _) fun _ => keepsOnly_pure _
      have hsame : (processIncoming (.packet pkt)).run tx' = (do
          if ← processConnAck pkt then return Phase.stopping else return Phase.reading :
          TaskM τ Phase).run tx' := by
        simp only [processIncoming, processPacket, EStateM.run_bind, EStateM.run_get, hwaits,
          if_true]
      rw [hsame]
      exact hconn tx' honly
    | closed => exact honly
    | again => exact honly
    | idle => exact honly
  · rw [readRound, hread]
    exact keepsOnly_recvPacket.error h hrecv

/-- While the task waits, no program behind the first sends another packet. -/
theorem only_program {tx : Transceiver τ} {gone : Bool} {p : Phase} {e : TaskEvent}
    {x : TaskM τ Phase} (hx : tx.program gone p e = some x) (hp : p ≠ .boot)
    (hsig : tx.connectSig = true) (h : Link.Only packet tx.link) :
    Triple (· = tx) x (fun _ tx' => Link.Only packet tx'.link)
      (fun _ tx' => Link.Only packet tx'.link) := by
  have hkeeps : ∀ {y : TaskM τ Phase}, KeepsOnly packet y → Triple (· = tx) y
      (fun _ tx' => Link.Only packet tx'.link) (fun _ tx' => Link.Only packet tx'.link) :=
    fun hy => hy.conseq (by rintro _ rfl; exact h) (fun _ _ h => h) (fun _ _ h => h)
  have hwaits : tx.connected = false := by simp [Book.connected, hsig]
  cases isProgram_of_program hx with
  | boot => exact absurd rfl hp
  | selectWritable r wanted | flushingWritable r wanted | notifyingWritable r wanted =>
    exact hkeeps (keepsOnly_readyWrite _ _)
  | selectReadable r wanted | flushingReadable r wanted | notifyingReadable r wanted =>
    exact hkeeps (keepsOnly_readyRead _ _ _)
  | command opened connected idle ready =>
    rw [hwaits] at connected
    cases connected
  | alarm =>
    rintro tx rfl
    simp only [alarmRound, onAlarm, bind_assoc, EStateM.run_bind, EStateM.run_get, hwaits]
    exact h
  | writing | flushWriting => exact hkeeps (keepsOnly_writeRound _ _ _)
  | reading => exact only_readRound hsig h
  | stopping =>
    rintro tx rfl
    simp only [startDisconnect, EStateM.run_bind, EStateM.run_get, hwaits]
    exact h
  | flushed readDone writeDone => exact hkeeps fun _ h => h
  | closeNotify => exact hkeeps (.bind (keepsOnly_onTransport _) fun _ => keepsOnly_pure _)
  | notified readDone writeDone => exact hkeeps (keepsOnly_pure _)

/-- The first program sends `CONNECT`. -/
theorem only_boot {tx : Transceiver τ} (haccepted : tx.link.accepted = [])
    (hqueue : tx.link.internalPktQueue = []) (htx : tx.link.txPkt = some ⟨packet, 0, false⟩) :
    Triple (· = tx) (do bootstrap; return .select : TaskM τ Phase)
      (fun _ tx' => Link.Only packet tx'.link) (fun _ tx' => Link.Only packet tx'.link) := by
  rintro tx rfl
  have hfirst : Triple (· = tx.link.setTx none) (Link.sendPacket packet false)
      (fun _ => Link.Only packet) (fun _ => Link.Only packet) :=
    Link.only_sendPacket haccepted hqueue rfl
  have hsend : Triple (fun tx' : Transceiver τ => tx'.link = tx.link.setTx none)
      (do onLink (Link.sendPacket packet false); return Phase.select)
      (fun _ tx' => Link.Only packet tx'.link) (fun _ tx' => Link.Only packet tx'.link) :=
    .bind (triple_zoom (fun _ _ => rfl) hfirst) fun _ => keepsOnly_pure _
  simp only [bootstrap, bind_assoc, EStateM.run_bind, EStateM.run_get, htx]
  exact hsend { tx with link := tx.link.setTx none } rfl

end Transceiver

/-! ## Runs -/

namespace System

open Runs Transceiver

variable {τ : Type} [Transport τ] {s s' : System τ} {e : Event}

/-- A packet that arrives while the task waits for the answer to `CONNECT` accepts the
connection. -/
def acceptsFirst (s : System τ) : Event → Bool
  | .task e =>
    match s.arriving e with
    | some pkt => !s.tx.connectSig || (connResult pkt).isOk
    | none => true
  | .client _ => true

/-- Before the first packet arrives nothing but the packet was written. -/
structure Unanswered (packet : Packet) (s : System τ) : Prop where
  boot : s.phase = .boot → s.tx.link.accepted = [] ∧ s.tx.link.internalPktQueue = [] ∧
    s.tx.link.txPkt = some ⟨packet, 0, false⟩
  waits : s.phase ≠ .boot → s.tx.connectSig = true → Link.Only packet s.tx.link

/-- Before the connection is accepted nothing but the packet was written. -/
structure Unaccepted (packet : Packet) (s : System τ) : Prop extends Unanswered packet s where
  accepted : s.tx.connectSig = false → ∃ present, s.tx.connectResult = some (.ok present)

omit [Transport τ] in
theorem unanswered_spawn (setup : Setup τ) : Unanswered setup.connectPacket (spawn setup) :=
  ⟨fun _ => ⟨rfl, rfl, rfl⟩, fun hp => absurd rfl hp⟩

omit [Transport τ] in
/-- Until the first packet arrives nothing is queued. -/
theorem Unanswered.queue {packet : Packet} (h : Unanswered packet s)
    (hsig : s.tx.connectSig = true) : s.tx.link.internalPktQueue = [] := by
  by_cases hp : s.phase = .boot
  · exact (h.boot hp).2.1
  · exact (h.waits hp hsig).queue

/-- What a step does to the connection result. -/
theorem connect_taskStep {e : TaskEvent} (hstep : s.taskStep e = some s') :
    s'.tx.connectSig = s.tx.connectSig ∧ s'.tx.connectResult = s.tx.connectResult ∨
      s.tx.connectSig = true ∧ ∃ pkt, s.arriving e = some pkt ∧
        s'.tx.connectSig = false ∧ s'.tx.connectResult = some (connResult pkt) := by
  cases taskMove_of_taskStep hstep with
  | quiet tx p clean running next book =>
    exact Or.inl ⟨congrArg Book.connectSig book, congrArg Book.connectResult book⟩
  | connAck tx p clean running next pkt arrived waiting book =>
    exact Or.inr ⟨waiting, pkt, arrived, congrArg Book.connectSig book,
      congrArg Book.connectResult book⟩
  | packet tx p clean running next pkt arrived connected effect => exact Or.inl effect.connect
  | command tx p clean running next cmd rest queue taken connected effect =>
    exact Or.inl effect.connect
  | _ => exact Or.inl ⟨rfl, rfl⟩

theorem accepted_taskStep {packet : Packet} {e : TaskEvent} (h : Unaccepted packet s)
    (hok : s.acceptsFirst (.task e) = true) (hstep : s.taskStep e = some s')
    (hconn : s'.tx.connectSig = false) :
    ∃ present, s'.tx.connectResult = some (.ok present) := by
  rcases connect_taskStep hstep with ⟨hsig, hresult⟩ | ⟨hsig, pkt, harrived, -, hresult⟩
  · rw [hresult]
    exact h.accepted (hsig ▸ hconn)
  · rw [hresult]
    simp only [acceptsFirst, harrived, hsig, Bool.not_true, Bool.false_or] at hok
    cases hpkt : connResult pkt with
    | ok present => exact ⟨present, rfl⟩
    | error e =>
      rw [hpkt] at hok
      cases hok

theorem Unanswered.runProgram {packet : Packet} (h : Unanswered packet s) {e : TaskEvent}
    {x : TaskM τ Phase} (hx : s.tx.program (s.handle = .dropped) s.phase e = some x)
    (hsig : s.tx.connectSig = true) : Link.Only packet (s.runProgram x).tx.link := by
  have honly : Triple (· = s.tx) x (fun _ tx => Link.Only packet tx.link)
      (fun _ tx => Link.Only packet tx.link) := by
    by_cases hp : s.phase = .boot
    · obtain ⟨haccepted, hqueue, htx⟩ := h.boot hp
      rw [hp] at hx
      cases e <;> cases hx
      exact only_boot haccepted hqueue htx
    · exact only_program hx hp hsig (h.waits hp hsig)
  rw [tx_runProgram]
  exact Triple.holds_after (I := fun tx : Transceiver τ => Link.Only packet tx.link) honly rfl

theorem Unanswered.step {packet : Packet} (h : Unanswered packet s)
    (hstep : s.step e = some s') : Unanswered packet s' := by
  cases e with
  | client e =>
    have hsame := (clientMove_of_clientStep hstep).sameTask
    refine ⟨fun hp => ?_, fun hp hsig => ?_⟩
    · rw [hsame.link]
      exact h.boot (hsame.phase ▸ hp)
    · rw [hsame.link]
      exact h.waits (hsame.phase ▸ hp) (hsame.connectSig ▸ hsig)
  | task e =>
    have hwaits : s'.tx.connectSig = true → s.tx.connectSig = true := by
      intro hsig
      rcases connect_taskStep hstep with ⟨hsame, -⟩ | ⟨-, pkt, -, hfalse, -⟩
      · exact hsame ▸ hsig
      · cases hfalse.symm.trans hsig
    rcases taskStep_cases hstep with ⟨x, hx, rfl⟩ | ⟨hlink, hboot, hboot', -⟩
    · exact ⟨fun hp => absurd hp (taskMove_of_taskStep hstep).not_boot,
        fun _ hsig => h.runProgram hx (hwaits hsig)⟩
    · refine ⟨fun hp => absurd hp hboot', fun _ hsig => ?_⟩
      rw [hlink]
      exact h.waits hboot (hwaits hsig)

theorem Unaccepted.step {packet : Packet} (h : Unaccepted packet s)
    (hok : s.acceptsFirst e = true) (hstep : s.step e = some s') : Unaccepted packet s' := by
  refine ⟨h.toUnanswered.step hstep, fun hconn => ?_⟩
  cases e with
  | client e =>
    have hsame := (clientMove_of_clientStep hstep).sameTask
    rw [hsame.connectResult]
    exact h.accepted (hsame.connectSig ▸ hconn)
  | task e => exact accepted_taskStep h hok hstep hconn

/-- In every run in which the first packet accepts the connection: as long as no accepting
`CONNACK` was processed, the bytes the transport has accepted are a part of `CONNECT`. -/
theorem only_connect_before_acceptance (setup : Setup τ)
    (h : Reaches System.step (fun s e => acceptsFirst s e = true) (spawn setup) s)
    (hresult : ∀ present, s.tx.connectResult ≠ some (.ok present)) :
    s.tx.link.accepted <+: setup.connectPacket.bytes := by
  have hinv : Unaccepted setup.connectPacket s := by
    refine h.invariant (I := Unaccepted setup.connectPacket) ?_ ?_
    · exact ⟨unanswered_spawn setup, fun hsig => by cases hsig⟩
    · exact fun s e s' hs hok hstep => hs.step hok hstep
  by_cases hp : s.phase = .boot
  · rw [(hinv.boot hp).1]
    exact List.nil_prefix
  · refine (hinv.waits hp ?_).accepted_start
    rw [← Bool.not_eq_false]
    intro hsig
    obtain ⟨present, haccepted⟩ := hinv.accepted hsig
    exact hresult present haccepted

theorem only_connect_before_acceptance_cut :
    ∃ s, Reaches System.step (fun s e => acceptsFirst s e = true) (spawn cutSetup) s ∧
      s.tx.link.accepted.length = 5 ∧ s.tx.connectResult = none ∧
      s.tx.link.accepted <+: cutSetup.connectPacket.bytes := by
  have hrun : (runUnder System.step (fun s e => acceptsFirst s e = true) (spawn cutSetup)
      [.task .proceed, .task (.writable (.ok ())), .task .proceed,
        .task (.writable (.ok ())), .task .proceed, .task .proceed]).any
      (fun s => s.tx.link.accepted.length == 5 && s.tx.connectResult.isNone) = true := by
    decide +kernel
  obtain ⟨s, hs, hp⟩ := exists_reaches _ hrun
  simp only [Bool.and_eq_true, beq_iff_eq, Option.isNone_iff_eq_none] at hp
  refine ⟨s, hs, hp.1, hp.2, only_connect_before_acceptance cutSetup hs fun present => ?_⟩
  rw [hp.2]
  rintro ⟨⟩

/-- A broker that refuses the connection with the return code 5. -/
def refusedSetup : Setup TcpTransport := scripted ⟨[.data 0x20 [2, 0, 5]], false, []⟩

/-- The connection is refused, and the task sends `DISCONNECT`. -/
theorem disconnect_after_refusal :
    ∃ s, Reaches System.step always (spawn refusedSetup) s ∧
      s.tx.connectResult = some (.error .notAuthorized) ∧
      s.tx.link.accepted = refusedSetup.connectPacket.bytes ++ disconnectPacket.bytes := by
  have hrun : (runUnder System.step always (spawn refusedSetup)
      [.task .proceed, .task (.readable (.ok ())), .task .proceed, .task .proceed,
        .task .proceed]).any (fun s =>
        s.tx.link.accepted == refusedSetup.connectPacket.bytes ++ disconnectPacket.bytes &&
        decide (s.tx.connectResult = some (.error .notAuthorized))) = true := by
    decide +kernel
  obtain ⟨s, hs, hp⟩ := exists_reaches _ hrun
  simp only [Bool.and_eq_true, beq_iff_eq, decide_eq_true_iff] at hp
  exact ⟨s, hs, hp.2, hp.1⟩

end System

end Lmc
