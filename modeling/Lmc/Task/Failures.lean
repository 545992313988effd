import Lmc.Task.Output

/-!
# Failures of the transport and the reader

Whether a program of the task fails is a matter of the operations of the transport that it
performs and of what the reader makes of the bytes. Here the conditions are stated on these
operations: sending a packet (`sendFails`, and `queueFails` where it may be put behind another
one), a round of the write loop (`writeFails`) and a round of the read loop (`recvFails`).

`cutsOff` collects them for the main loop. While the task waits for its first packet, a program
of the main loop that is not cut off neither fails nor finds the connection closed
(`goesOn_program`).
-/

namespace Lmc

open EStateLogic

/-- A failure, but not an operation that would block. -/
def Transport.aborts {α : Type} : Except IoError α → Bool
  | .ok _ => false
  | .error e => e != .wouldBlock

/-! ## The output -/

namespace Link

variable {τ : Type} [Transport τ] {link : Link τ} {packet : Packet}

theorem run_write_cases (src : List UInt8) (zero : Bool) (link : Link τ) :
    (∃ e t, Transport.write link.transport src zero = (.error e, t) ∧
        (write src zero).run link = .error (.io e) (link.setTransport t)) ∨
      ∃ n t, Transport.write link.transport src zero = (.ok n, t) ∧
        (write src zero).run link = .ok n (link.accept t (src.take n)) := by
  simp only [write, EStateM.run_bind, EStateM.run_get]
  cases Transport.write link.transport src zero with
  | mk r t =>
    cases r with
    | error e => exact Or.inl ⟨e, t, rfl, rfl⟩
    | ok n => exact Or.inr ⟨n, t, rfl, rfl⟩

theorem run_flush_cases (link : Link τ) :
    (∃ e t, Transport.flush link.transport = (.error e, t) ∧
        flush.run link = .error (.io e) (link.setTransport t)) ∨
      ∃ t, Transport.flush link.transport = (.ok (), t) ∧
        flush.run link = .ok () (link.setTransport t) := by
  simp only [flush, EStateM.run_bind, EStateM.run_get]
  cases Transport.flush link.transport with
  | mk r t =>
    cases r with
    | error e => exact Or.inl ⟨e, t, rfl, rfl⟩
    | ok u => exact Or.inr ⟨t, rfl, rfl⟩

/-- `sendPacket` takes note of the packet first. -/
theorem sendPacket_hands (packet : Packet) (setDup : Bool) (link : Link τ) :
    (sendPacket packet setDup).run link =
      (trySendPacket packet setDup).run (link.hand ⟨packet, setDup⟩) := rfl

/-- A packet is written from its first byte and flushed at its end. -/
theorem run_trySendPacket_first (htx : link.txPkt = none) :
    (trySendPacket packet false).run link = (do
      let written ← write packet.bytes true
      if written ≥ packet.bytes.length then flush
      else modify (setTx (some ⟨packet, written, false⟩)) : LinkM τ Unit).run link := by
  simp only [trySendPacket, writeFirst, EStateM.run_bind, EStateM.run_get, htx,
    Option.isSome_none, Bool.false_eq_true, if_false]

/-- The write of a packet fails, or the flush behind it if it has written the packet to its
end. -/
def sendFails (packet : Packet) (link : Link τ) : Bool :=
  match Transport.write link.transport packet.bytes true with
  | (.error _, _) => true
  | (.ok n, t) => decide (packet.bytes.length ≤ n) && !(Transport.flush t).1.isOk

theorem completes_trySendPacket (packet : Packet) (htx : link.txPkt = none) :
    completes (trySendPacket packet false) link = !link.sendFails packet := by
  rw [completes, run_trySendPacket_first htx, EStateM.run_bind, sendFails]
  rcases run_write_cases packet.bytes true link with ⟨e, t, hwrite, hrun⟩ | ⟨n, t, hwrite, hrun⟩
  · rw [hrun, hwrite]
    rfl
  · simp only [hrun, hwrite]
    by_cases hend : packet.bytes.length ≤ n
    · rw [if_pos hend, decide_eq_true hend, Bool.true_and, Bool.not_not]
      rcases run_flush_cases (link.accept t (packet.bytes.take n)) with
        ⟨e, t', hflush, hrun⟩ | ⟨t', hflush, hrun⟩
      · have hfails : Transport.flush t = (.error e, t') := hflush
        rw [hrun, hfails]
        rfl
      · have hflushes : Transport.flush t = (.ok (), t') := hflush
        rw [hrun, hflushes]
        rfl
    · rw [if_neg hend, decide_eq_false hend]
      rfl

theorem completes_sendPacket (packet : Packet) (htx : link.txPkt = none) :
    completes (sendPacket packet false) link = !link.sendFails packet := by
  have hidle : (link.hand ⟨packet, false⟩).txPkt = none := htx
  have hsends := completes_trySendPacket packet hidle
  rwa [completes, ← sendPacket_hands] at hsends

/-- The packet is not put behind another one, and sending it fails. -/
def queueFails (packet : Packet) (link : Link τ) : Bool :=
  link.txPkt.isNone && link.sendFails packet

theorem completes_queueInternalPacket (packet : Packet) (link : Link τ) :
    completes (queueInternalPacket packet false) link = !link.queueFails packet := by
  rw [completes, run_queueInternalPacket_eq, queueFails]
  cases htx : link.txPkt with
  | none =>
    rw [Option.isNone_none, if_pos rfl, Bool.true_and]
    exact completes_sendPacket packet htx
  | some tx => rfl

/-- The next write of the packet in `tx_pkt` fails or takes nothing, or the flush behind it
fails if it has written the packet to its end. -/
def writeFails (link : Link τ) : Bool :=
  link.txPkt.any fun tx =>
    match Transport.write link.transport (offered tx) false with
    | (.error e, _) => e != .wouldBlock
    | (.ok n, t) => n == 0 ||
        decide (tx.packet.bytes.length ≤ tx.pos + n) && Transport.aborts (Transport.flush t).1

/-- The end of a packet is written or would block. -/
theorem run_finishPacket_ok (link : Link τ) (hqueue : link.internalPktQueue = [])
    (hok : Transport.aborts (Transport.flush link.transport).1 = false) :
    ∃ link', finishPacket.run link = .ok () link' ∨
      finishPacket.run link = .error (.io .wouldBlock) link' := by
  rw [finishPacket, EStateM.run_bind]
  rcases run_flush_cases link with ⟨e, t, hflush, hrun⟩ | ⟨t, -, hrun⟩
  · rw [hflush] at hok
    have hblocks : e = .wouldBlock := by simpa [Transport.aborts] using hok
    rw [hrun, hblocks]
    exact ⟨_, Or.inr rfl⟩
  · -- nothing is queued behind the packet
    have hclear : clearTxPacket.run (link.setTransport t) =
        (sendQueued link.internalPktQueue).run ((link.setTransport t).setTx none) := rfl
    rw [hqueue] at hclear
    simp only [hrun, EStateM.run_bind, hclear]
    exact ⟨_, Or.inl rfl⟩

/-- A round of the write loop offers the unsent bytes of the packet in `tx_pkt`. -/
theorem run_writeOnce_some {tx : TxPacket} (htx : link.txPkt = some tx) :
    writeOnce.run link = (do
      let written ← write (offered tx) false
      if written = 0 then return some true
      else
        modify (setTx (some { tx with pos := tx.pos + written }))
        (if tx.pos + written ≥ tx.packet.bytes.length then finishPacket else pure ())
        return none : LinkM τ (Option Bool)).run link := by
  simp only [writeOnce, EStateM.run_bind, EStateM.run_get, htx]

/-- One round of the write loop goes on or would block. -/
theorem run_writeOnce_ok {link : Link τ} (hqueue : link.internalPktQueue = [])
    (hok : link.writeFails = false) :
    ∃ link', writeOnce.run link = .ok none link' ∨ writeOnce.run link = .ok (some false) link' ∨
      writeOnce.run link = .error (.io .wouldBlock) link' := by
  cases htx : link.txPkt with
  | none =>
    refine ⟨link, Or.inr (Or.inl ?_)⟩
    simp only [writeOnce, EStateM.run_bind, EStateM.run_get, htx]
    rfl
  | some tx =>
    rw [writeFails, htx, Option.any_some] at hok
    rw [run_writeOnce_some htx, EStateM.run_bind]
    rcases run_write_cases (offered tx) false link with ⟨e, t, hwrite, hrun⟩ | ⟨n, t, hwrite, hrun⟩
    · rw [hwrite] at hok
      have hblocks : e = .wouldBlock := by simpa using hok
      rw [hrun, hblocks]
      exact ⟨_, Or.inr (Or.inr rfl)⟩
    · rw [hwrite] at hok
      simp only [Bool.or_eq_false_iff, beq_eq_false_iff_ne] at hok
      simp only [hrun, if_neg hok.1]
      by_cases hend : tx.packet.bytes.length ≤ tx.pos + n
      · have haborts : Transport.aborts (Transport.flush t).1 = false := by
          simpa [decide_eq_true hend] using hok.2
        obtain ⟨link', hfinish | hfinish⟩ := run_finishPacket_ok
          ((link.accept t ((offered tx).take n)).setTx (some { tx with pos := tx.pos + n }))
          hqueue haborts
        · refine ⟨link', Or.inl ?_⟩
          simp only [if_pos hend, EStateM.run_bind, EStateM.run_modify, hfinish]
          rfl
        · refine ⟨link', Or.inr (Or.inr ?_)⟩
          simp only [if_pos hend, EStateM.run_bind, EStateM.run_modify, hfinish]
      · simp only [if_neg hend]
        exact ⟨_, Or.inl rfl⟩

end Link

/-- The next read fails, the bytes it has read are malformed, or the stream has ended. -/
def PacketReader.recvFails {τ : Type} [Transport τ] (rx : Rx τ) : Bool :=
  match PacketReader.recv.run rx with
  | .ok .connectionClosed _ => true
  | .ok _ _ => false
  | .error e _ => e != .wouldBlock

/-! ## The main loop -/

namespace Transceiver

variable {τ : Type} [Transport τ] {tx : Transceiver τ}

/-- The next operation of the transport or the reader cuts the task off from the broker: it
fails, the bytes that were read are malformed, or the peer has closed the connection. Waiting
for the transport, `pre_write` and `pre_read` come before the writes and the reads. -/
def cutsOff (tx : Transceiver τ) : Phase → TaskEvent → Bool
  | .boot, .proceed => tx.link.txPkt.any fun pkt => tx.link.sendFails pkt.packet
  | .select, .writable r => !r.isOk || !(Transport.preWrite tx.link.transport).1.isOk
  | .select, .readable r => !r.isOk || !(Transport.preRead tx.link.transport).1.isOk
  | .writing, .proceed => tx.link.writeFails
  | .reading, .proceed => PacketReader.recvFails ⟨tx.rxPkt, tx.link.transport⟩
  | _, _ => false

/-- The program neither fails nor finds the connection closed. -/
def GoesOn (tx : Transceiver τ) (x : TaskM τ Phase) : Prop :=
  ∃ p tx', x.run tx = .ok p tx' ∧ p ≠ .closed

omit [Transport τ] in
theorem run_onTransport_ok {α : Type} {op : τ → Except IoError α × τ}
    (hok : (op tx.link.transport).1.isOk = true) :
    ∃ a tx', (onTransport op).run tx = .ok a tx' := by
  cases hop : (op tx.link.transport).1 with
  | ok a =>
    rw [onTransport, onLink, run_zoom]
    simp only [EStateM.run_bind, EStateM.run_get, EStateM.run_set, hop]
    exact ⟨a, _, rfl⟩
  | error e =>
    rw [hop] at hok
    cases hok

theorem goesOn_readyWrite {r : Except IoError Unit} {next : Phase} (hnext : next ≠ .closed)
    (hok : (!r.isOk || !(Transport.preWrite tx.link.transport).1.isOk) = false) :
    tx.GoesOn (readyWrite r next) := by
  simp only [Bool.or_eq_false_iff, Bool.not_eq_false'] at hok
  obtain ⟨a, tx', hrun⟩ := run_onTransport_ok hok.2
  cases r with
  | ok u =>
    refine ⟨next, tx', ?_, hnext⟩
    simp only [readyWrite, awaitReady, pure_bind, EStateM.run_bind, hrun]
    rfl
  | error e => cases hok.1

theorem goesOn_readyRead {r : Except IoError Unit} {next idle : Phase} (hnext : next ≠ .closed)
    (hidle : idle ≠ .closed)
    (hok : (!r.isOk || !(Transport.preRead tx.link.transport).1.isOk) = false) :
    tx.GoesOn (readyRead r next idle) := by
  simp only [Bool.or_eq_false_iff, Bool.not_eq_false'] at hok
  obtain ⟨canRead, tx', hrun⟩ := run_onTransport_ok hok.2
  cases r with
  | ok u =>
    refine ⟨if canRead then next else idle, tx', ?_, ?_⟩
    · simp only [readyRead, awaitReady, pure_bind, EStateM.run_bind, hrun]
      rfl
    · split <;> assumption
  | error e => cases hok.1

theorem goesOn_boot
    (hok : (tx.link.txPkt.any fun pkt => tx.link.sendFails pkt.packet) = false) :
    tx.GoesOn (do bootstrap; return .select) := by
  cases htx : tx.link.txPkt with
  | none =>
    refine ⟨.select, tx, ?_, nofun⟩
    simp only [bootstrap, bind_assoc, EStateM.run_bind, EStateM.run_get, htx]
    rfl
  | some pkt =>
    rw [htx, Option.any_some] at hok
    have hidle : (tx.link.setTx none).txPkt = none := rfl
    have hwrites : (tx.link.setTx none).sendFails pkt.packet = false := hok
    have hsends := Link.completes_sendPacket pkt.packet hidle
    rw [hwrites, Bool.not_false] at hsends
    obtain ⟨u, link', hsend⟩ := completes_iff.mp hsends
    refine ⟨.select, { tx with link := link' }, ?_, nofun⟩
    have htake : (onLink (modify (Link.setTx none)) : TaskM τ Unit).run tx =
        .ok () { tx with link := tx.link.setTx none } := rfl
    simp only [bootstrap, bind_assoc, EStateM.run_bind, EStateM.run_get, htx, htake]
    rw [onLink, run_zoom, hsend]
    rfl

theorem goesOn_writeRound {onClosed again next : Phase} (hagain : again ≠ .closed)
    (hnext : next ≠ .closed) (hqueue : tx.link.internalPktQueue = [])
    (hok : tx.link.writeFails = false) : tx.GoesOn (writeRound onClosed again next) := by
  obtain ⟨link', hrun⟩ := Link.run_writeOnce_ok hqueue hok
  rcases hrun with hrun | hrun | hrun
  · refine ⟨again, { tx with link := link' }, ?_, hagain⟩
    rw [writeRound, EStateM.run_bind, run_recover, onLink, run_zoom, hrun]
    rfl
  all_goals
    refine ⟨next, { tx with link := link' }, ?_, hnext⟩
    rw [writeRound, EStateM.run_bind, run_recover, onLink, run_zoom, hrun]
    rfl

/-- The first packet is reported, whatever it is. -/
theorem goesOn_readRound (hsig : tx.connectSig = true)
    (hok : PacketReader.recvFails (⟨tx.rxPkt, tx.link.transport⟩ : Rx τ) = false) :
    tx.GoesOn readRound := by
  have hgo : ∀ {found : Incoming} {rx : Rx τ}, recvPacket.run tx = .ok found (tx.putRx rx) →
      found ≠ .closed → tx.GoesOn readRound := by
    intro found rx hrecv hfound
    have hpkt : ∀ pkt, (processPacket pkt).run (tx.putRx rx) = .ok (!(connResult pkt).isOk)
        { tx.putRx rx with connectSig := false, connectResult := some (connResult pkt) } := by
      intro pkt
      have hwaits : (tx.putRx rx).connectSig = true := hsig
      simp only [processPacket, EStateM.run_bind, EStateM.run_get, hwaits, if_true]
      rfl
    unfold GoesOn
    rw [readRound, EStateM.run_bind, hrecv]
    cases found with
    | packet pkt =>
      simp only [processIncoming, EStateM.run_bind, hpkt]
      split
      · exact ⟨_, _, rfl, nofun⟩
      · exact ⟨_, _, rfl, nofun⟩
    | closed => exact absurd rfl hfound
    | again | idle => exact ⟨_, _, rfl, nofun⟩
  have hrun : recvPacket.run tx = recvPacket tx := rfl
  rw [recvPacket] at hrun
  unfold PacketReader.recvFails at hok
  cases hrecv : PacketReader.recv.run (⟨tx.rxPkt, tx.link.transport⟩ : Rx τ) with
  | ok state rx =>
    rw [hrecv] at hok hrun
    cases state with
    | connectionClosed => cases hok
    | incoming pkt | needMoreData => exact hgo hrun nofun
  | error e rx =>
    rw [hrecv] at hok hrun
    cases e with
    | wouldBlock => exact hgo hrun nofun
    | _ => cases hok

/-- While the task waits for the first packet, a program of the main loop goes on unless the
transport or the reader cuts it off. -/
theorem goesOn_program {gone : Bool} {p : Phase} {e : TaskEvent} {x : TaskM τ Phase}
    (hx : tx.program gone p e = some x) (hp : p.inMainLoop = true)
    (hsig : tx.connectSig = true) (hqueue : tx.link.internalPktQueue = [])
    (hok : tx.cutsOff p e = false) : tx.GoesOn x := by
  have hwaits : tx.connected = false := by simp [Book.connected, hsig]
  cases isProgram_of_program hx with
  | boot => exact goesOn_boot hok
  | selectWritable r wanted => exact goesOn_readyWrite nofun hok
  | selectReadable r wanted => exact goesOn_readyRead nofun nofun hok
  | command opened connected idle ready =>
    rw [hwaits] at connected
    cases connected
  | alarm =>
    refine ⟨.select, tx, ?_, nofun⟩
    simp only [alarmRound, onAlarm, bind_assoc, EStateM.run_bind, EStateM.run_get, hwaits]
    rfl
  | writing => exact goesOn_writeRound nofun nofun hqueue hok
  | reading => exact goesOn_readRound hsig hok
  | _ => cases hp

end Transceiver

end Lmc
