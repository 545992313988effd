import Lmc.Task.Progress
import Lmc.Wire.Liveness

/-!
# The read loop of the task

Handling a packet writes to the transport, but it leaves the packet reader alone and
brings no input. So the rounds of the read loop use up the input of the transport like the
calls of `recv` they are made of.

* `recv_progresses`: unless the reader is overlong, a call of `recv` makes progress and
  the read loop ends on a finite input.
* `overlong_reader_stuck`: the four continuation bytes after which it does not.
-/

namespace Lmc

open EStateLogic PacketReader

variable {τ : Type} [Transport τ]

/-- Writing relates the transports by `S`. -/
structure Outputs (S : τ → τ → Prop) : Prop where
  write : ∀ t src z, S t (Transport.write t src z).2
  flush : ∀ t, S t (Transport.flush t).2

namespace Link

/-- The transports of two outputs are related. -/
def Along (S : τ → τ → Prop) (link link' : Link τ) : Prop := S link.transport link'.transport

variable {S : τ → τ → Prop} [Std.Refl S] [IsTrans τ S]

omit [Transport τ] [IsTrans τ S] in
instance : Std.Refl (Along S) := ⟨fun link => refl_of S link.transport⟩

omit [Transport τ] [Std.Refl S] in
instance : IsTrans (Link τ) (Along S) := ⟨fun _ _ _ h h' => trans_of S h h'⟩

omit [IsTrans τ S] in
theorem along_sends (hS : Outputs S) : Sends (Along S) where
  write src zero link := by
    have hle := hS.write link.transport src zero
    simp only [after, write, EStateM.run_bind, EStateM.run_get]
    revert hle
    cases Transport.write link.transport src zero with
    | mk r t => cases r <;> exact id
  flush link := by
    have hle := hS.flush link.transport
    simp only [after, flush, EStateM.run_bind, EStateM.run_get]
    revert hle
    cases Transport.flush link.transport with
    | mk r t => cases r <;> exact id
  setTx _ := .modify fun link => refl_of S link.transport

theorem along_queueInternalPacket (hS : Outputs S) (pkt : Packet) (setDup : Bool) :
    Advances (Along S) (queueInternalPacket pkt setDup : LinkM τ Unit) := by
  refine .bind (.modify fun link => refl_of S link.transport) fun _ => .bind .get fun _ => ?_
  exact .ite ((along_sends hS).trySendPacket _ _) (.modify fun link => refl_of S link.transport)

end Link

namespace Transceiver

/-- The packet reader is the same, and the transports are related. -/
structure Answers (S : τ → τ → Prop) (tx tx' : Transceiver τ) : Prop where
  rxPkt : tx'.rxPkt = tx.rxPkt
  link : Link.Along S tx.link tx'.link

variable {S : τ → τ → Prop} [Std.Refl S] [IsTrans τ S]

omit [Transport τ] [IsTrans τ S] in
instance : Std.Refl (Answers S) := ⟨fun _ => ⟨rfl, refl_of _ _⟩⟩

omit [Transport τ] [Std.Refl S] in
instance : IsTrans (Transceiver τ) (Answers S) :=
  ⟨fun _ _ _ h h' => ⟨h'.rxPkt.trans h.rxPkt, trans_of _ h.link h'.link⟩⟩

theorem answers_handled (hS : Outputs S) : Handled (Answers S) where
  onBook _ := .modify fun _ => ⟨rfl, refl_of _ _⟩
  schedule _ tx := ⟨rfl, refl_of S tx.link.transport⟩
  queue pkt setDup := advances_zoom (fun _ _ h => ⟨rfl, h⟩)
    (Link.along_queueInternalPacket hS pkt setDup)

/-- The reader and the transport of the task. -/
def rx (tx : Transceiver τ) : Rx τ := ⟨tx.rxPkt, tx.link.transport⟩

/-- The ways in which a round of the read loop ends. -/
inductive RoundCase (S : τ → τ → Prop) (tx tx' : Transceiver τ) : Phase → Prop
  | waits (rx : Rx τ) (run : recv.run tx.rx = .error .wouldBlock rx) : RoundCase S tx tx' .select
  | closed (rx : Rx τ) (run : recv.run tx.rx = .ok .connectionClosed rx) :
      RoundCase S tx tx' .closed
  | stops : RoundCase S tx tx' .stopping
  | reads (state : PacketReadState) (rx : Rx τ) (run : recv.run tx.rx = .ok state rx)
      (isOpen : state ≠ .connectionClosed) (reader : tx'.rxPkt = rx.reader)
      (transport : S rx.transport tx'.link.transport) : RoundCase S tx tx' .reading

theorem answers_processPacket (hS : Outputs S) {pkt : IncomingPacket} {tx tx' : Transceiver τ}
    {stop : Bool} (h : (processPacket pkt).run tx = .ok stop tx') : Answers S tx tx' := by
  have hanswers := (answers_handled hS).processPacket pkt tx
  rw [after_of_ok h] at hanswers
  exact hanswers

theorem roundCase (hS : Outputs S) {tx tx' : Transceiver τ} {p : Phase}
    (h : readRound.run tx = .ok p tx') : RoundCase S tx tx' p := by
  have hrun : recvPacket.run tx = recvPacket tx := rfl
  rw [readRound, EStateM.run_bind, hrun, recvPacket] at h
  cases hrx : recv.run (⟨tx.rxPkt, tx.link.transport⟩ : Rx τ) with
  | error e rx =>
    rw [hrx] at h
    cases e <;> cases h
    exact .waits rx hrx
  | ok state rx =>
    rw [hrx] at h
    cases state with
    | connectionClosed =>
      cases h
      exact .closed rx hrx
    | needMoreData =>
      cases h
      exact .reads .needMoreData rx hrx PacketReadState.noConfusion rfl (refl_of S rx.transport)
    | incoming pkt =>
      change (do if ← processPacket pkt then return .stopping else return .reading :
        TaskM τ Phase).run (tx.putRx rx) = .ok p tx' at h
      rcases run_bind_cases (processPacket pkt) (fun stop => (if stop then return .stopping
          else return .reading : TaskM τ Phase)) (tx.putRx rx) with
        ⟨stop, tx₁, hproc, hrest⟩ | ⟨e, tx₁, -, hrest⟩
      · rw [hrest] at h
        have hanswers := answers_processPacket hS hproc
        cases stop with
        | true =>
          cases h
          exact .stops
        | false =>
          cases h
          exact .reads (.incoming pkt) rx hrx PacketReadState.noConfusion hanswers.rxPkt
            hanswers.link
      · rw [hrest] at h
        cases h

/-- A round with an overlong reader changes nothing. -/
theorem readRound_overlong {tx : Transceiver τ} (h : tx.rxPkt.overlong = true) :
    readRound.run tx = .ok .reading tx := by
  have hrecv : recv.run (⟨tx.rxPkt, tx.link.transport⟩ : Rx τ) =
      .ok .needMoreData ⟨tx.rxPkt, tx.link.transport⟩ := run_recv_overlong h
  have hrun : recvPacket.run tx = .ok .again tx := by
    change recvPacket tx = _
    rw [recvPacket, hrecv]
    rfl
  rw [readRound, EStateM.run_bind, hrun]
  rfl

/-- Rounds of the read loop after each of which it goes on. -/
inductive ReadRounds : Nat → Transceiver τ → Transceiver τ → Prop
  | start (tx : Transceiver τ) : ReadRounds 0 tx tx
  | round {n : Nat} {tx tx₁ tx₂ : Transceiver τ} (before : ReadRounds n tx tx₁)
      (fits : tx₁.rxPkt.overlong = false) (run : readRound.run tx₁ = .ok .reading tx₂) :
      ReadRounds (n + 1) tx tx₂

end Transceiver

/-- The transport has `left` bytes of input left: reads take their bytes from them, and
writing does not add to them. -/
structure FiniteInput (left : τ → Nat) : Prop where
  read : Drains left
  write : ∀ t src z, left (Transport.write t src z).2 ≤ left t
  flush : ∀ t, left (Transport.flush t).2 ≤ left t

namespace Transceiver

variable {left : τ → Nat}

/-- A round after which the loop goes on uses up some of the input. -/
theorem readRound_lt (hfit : ReadsFit τ) (hleft : FiniteInput left) {tx tx' : Transceiver τ}
    (hsized : tx.rxPkt.Sized) (ho : tx.rxPkt.overlong = false)
    (h : readRound.run tx = .ok .reading tx') :
    tx'.rxPkt.Sized ∧ inputLeft left tx'.rx < inputLeft left tx.rx := by
  have hS : Outputs fun t t' => left t' ≤ left t := ⟨hleft.write, hleft.flush⟩
  have : Std.Refl fun t t' => left t' ≤ left t := ⟨fun _ => le_refl _⟩
  have : IsTrans τ fun t t' => left t' ≤ left t := ⟨fun _ _ _ h h' => le_trans h' h⟩
  cases roundCase hS h with
  | reads state rx run isOpen reader transport =>
    have hlt := hsized.recv_lt hfit hleft.read ho run isOpen
    have hcase : RecvCase tx.rx (recv.run tx.rx) := recv_cases hfit hsized
    have hsized' := hcase.sized hsized
    rw [after_of_ok run] at hsized'
    refine ⟨reader ▸ hsized', lt_of_le_of_lt ?_ hlt⟩
    simp only [inputLeft, Transceiver.rx, reader]
    omega

/-- Rounds and what is left behind them add up to no more than what was there. -/
theorem ReadRounds.bound (hfit : ReadsFit τ) (hleft : FiniteInput left) {n : Nat}
    {tx tx' : Transceiver τ} (h : ReadRounds n tx tx') (hsized : tx.rxPkt.Sized) :
    tx'.rxPkt.Sized ∧ n + inputLeft left tx'.rx ≤ inputLeft left tx.rx := by
  induction h with
  | start tx => exact ⟨hsized, by omega⟩
  | round before fits run ih =>
    obtain ⟨hsized₁, hle⟩ := ih hsized
    obtain ⟨hsized₂, hlt⟩ := readRound_lt hfit hleft hsized₁ fits run
    exact ⟨hsized₂, by omega⟩

end Transceiver

/-- Unless five bytes with an unfinished length field are buffered, a call of `recv` makes
progress, on any bytes and from any reader that calls of `recv` lead to. If moreover only
so many bytes of input are left, the read loop of the task makes at most two rounds for
each of them and one for each byte in the buffer. -/
theorem recv_progresses (hfit : ReadsFit τ) :
    (∀ rd (t : τ), Reached τ rd → rd.overlong = false → Progress ⟨rd, t⟩) ∧
      ∀ (left : τ → Nat), FiniteInput left → ∀ (tx tx' : Transceiver τ) n,
        Reached τ tx.rxPkt → Transceiver.ReadRounds n tx tx' →
        n ≤ 2 * left tx.link.transport + tx.rxPkt.bytes.length := by
  constructor
  · intro rd t hreached ho
    exact (hreached.sized hfit).progress hfit ho
  · intro left hleft tx tx' n hreached hrounds
    have hbound := (hrounds.bound hfit hleft (hreached.sized hfit)).2
    have htotal : inputLeft left tx.rx = 2 * left tx.link.transport + tx.rxPkt.bytes.length :=
      rfl
    omega

/-- The input of two sockets is the same. -/
def SameInput (t t' : TcpTransport) : Prop :=
  t'.tcp.reads = t.tcp.reads ∧ t'.tcp.peerClosed = t.tcp.peerClosed

instance : Std.Refl SameInput := ⟨fun _ => ⟨rfl, rfl⟩⟩

instance : IsTrans TcpTransport SameInput :=
  ⟨fun _ _ _ h h' => ⟨h'.1.trans h.1, h'.2.trans h.2⟩⟩

theorem outputs_sameInput : Outputs SameInput where
  write t src z := by
    obtain ⟨⟨reads, closed, writes⟩⟩ := t
    cases writes with
    | nil => exact ⟨rfl, rfl⟩
    | cons w rest =>
      cases w with
      | accept n => exact ⟨rfl, rfl⟩
      | wouldBlock => exact ⟨rfl, rfl⟩
      | error e => cases e <;> exact ⟨rfl, rfl⟩
  flush _ := ⟨rfl, rfl⟩

theorem finiteInput_tcp : FiniteInput undelivered where
  read := drains_tcp
  write t src z := by rw [undelivered, (outputs_sameInput.write t src z).1]; exact le_refl _
  flush _ := le_refl _

/-- A task whose socket delivers an accepting `CONNACK`. -/
def connackSetup : Setup TcpTransport where
  transport := ⟨⟨[.data 0x20 [2, 0, 0]], false, []⟩⟩
  connectPacket := ⟨0x10, [0]⟩
  pingInterval := 0
  packetResendDelay := 0
  clock := id
  mail := ⟨fun _ => ⟨none, [], false⟩, []⟩

/-- Four bytes in the socket, and two rounds to read them. -/
theorem recv_progresses_connack :
    ReadsFit TcpTransport ∧ Progress (⟨.new, connackSetup.transport⟩ : Rx TcpTransport) ∧
      ∃ tx, Transceiver.ReadRounds 2 (.spawn connackSetup) tx ∧
        2 ≤ 2 * undelivered connackSetup.transport + 0 := by
  obtain ⟨tx, hrounds⟩ : ∃ tx, Transceiver.ReadRounds 2 (.spawn connackSetup) tx :=
    ⟨_, .round (.round (.start _) (by decide) rfl) (by decide) rfl⟩
  exact ⟨readsFit_tcp, (recv_progresses readsFit_tcp).1 .new _ .new (by decide), tx, hrounds,
    (recv_progresses readsFit_tcp).2 _ finiteInput_tcp _ _ 2 .new hrounds⟩

/-- The header of a `PUBLISH` whose length field does not end. -/
def unendingReader : PacketReader := ⟨[0x30, 0x80, 0x80, 0x80, 0x80], none⟩

/-- The reader has asked for the five bytes of a header and got them. From then on it asks
for nothing, and the read loop of the task goes round without end. -/
theorem overlong_reader_stuck :
    Reached TcpTransport unendingReader ∧
      (∀ t : TcpTransport,
        recv.run ⟨unendingReader, t⟩ = .ok .needMoreData ⟨unendingReader, t⟩) ∧
      ∀ tx : Transceiver TcpTransport, tx.rxPkt = unendingReader →
        Transceiver.readRound.run tx = .ok .reading tx := by
  refine ⟨?_, fun t => run_recv_overlong rfl, fun tx htx => ?_⟩
  · have hrecv := Reached.recv (.new : Reached TcpTransport .new)
      ⟨⟨[.data 0x30 [0x80, 0x80, 0x80, 0x80]], false, []⟩⟩
    have hafter : (after recv (⟨.new, ⟨⟨[.data 0x30 [0x80, 0x80, 0x80, 0x80]], false, []⟩⟩⟩ :
        Rx TcpTransport)).reader = unendingReader := by decide +kernel
    rw [hafter] at hrecv
    exact hrecv
  · exact Transceiver.readRound_overlong (by rw [htx]; rfl)

end Lmc
