import Lmc.System.Schedule
import Lmc.System.Stream

/-!
# The last packet

When a connected task stops it hands `DISCONNECT` over and writes until the transport wants
nothing more. Over plain TCP the transport wants to write as long as a packet is in
transmission, so the flush ends with the output empty. The task remembers this in
`disconnect_sent`. Nothing is handed over from there on, so at the end the transport has
accepted all packets and `DISCONNECT` behind them (`disconnect_sent_truthful`).
-/

namespace Lmc

open EStateLogic

/-! ## Phases -/

/-- `DISCONNECT` is handed over and being written. -/
def Phase.flushes : Phase → Bool
  | .flushing | .flushWriting => true
  | _ => false

def Phase.behindFlush : Phase → Bool
  | .closeNotify | .notifying | .failAck | .failRec | .failComp | .draining | .waking
  | .returning | .finished _ | .gone | .crashed _ => true
  | _ => false

/-- `DISCONNECT` was handed over last. -/
def Link.Parted {τ : Type} (link : Link τ) : Prop :=
  ∃ before, link.handed = before ++ [⟨disconnectPacket, false⟩]

namespace Transceiver

variable {τ : Type} [Transport τ] {tx tx' : Transceiver τ} {gone : Bool} {p p' : Phase}
  {e : TaskEvent} {x : TaskM τ Phase}

/-- The flush and what is behind it hand nothing over. -/
theorem quiet_of_flushes (hx : tx.program gone p e = some x)
    (hp : p.flushes = true ∨ p.behindFlush = true) : Quiet x := by
  obtain ⟨-, ⟨⟨hquiet, -⟩, -⟩ | hbusy⟩ := program_cases hx
  · exact hquiet
  · cases hbusy <;> rcases hp with hp | hp <;> cases hp

/-- A stopping task that is connected hands `DISCONNECT` over before the flush. -/
theorem parted_startDisconnect (hrun : startDisconnect.run tx = .ok p' tx')
    (hp' : p'.flushes = true) : tx'.link.Parted := by
  simp only [startDisconnect, EStateM.run_bind, EStateM.run_get] at hrun
  split at hrun
  · rcases run_bind_cases (queueInternalPacket disconnectPacket false)
      (fun _ => (return .flushing : TaskM τ Phase)) tx with ⟨_, tx₁, hqueue, hb⟩ | ⟨f, tx₁, -, hb⟩
    · cases hb.symm.trans hrun
      have hdesk := (Works.queue (Q := Cuts fun _ d => d = tx.desk.hand ⟨disconnectPacket, false⟩)
        disconnectPacket false fun cut => ⟨cut, rfl, rfl⟩).ok rfl hqueue
      obtain ⟨_, _, hdesk⟩ := hdesk
      exact ⟨tx.link.handed, congrArg Desk.handed hdesk⟩
    · cases hb.symm.trans hrun
  · cases hrun
    cases hp'

/-- The flush begins behind `startDisconnect`. -/
theorem parted_of_flushes (hx : tx.program gone p e = some x) (hrun : x.run tx = .ok p' tx')
    (hlast : p.flushes = true → tx.link.Parted) (hp' : p'.flushes = true) : tx'.link.Parted := by
  have hquiet : p.flushes = true → tx'.link.Parted := by
    intro hp
    obtain ⟨before, hbefore⟩ := hlast hp
    refine ⟨before, ?_⟩
    rw [← hbefore]
    exact congrArg Desk.handed ((quiet_of_flushes hx (Or.inl hp)).ok hrun)
  have hends : ∀ {x : TaskM τ Phase}, Ends (·.flushes = false) x → x.run tx = .ok p' tx' →
      tx'.link.Parted := by
    intro x hx hrun
    cases (hx _ _ _ hrun).symm.trans hp'
  cases isProgram_of_program hx with
  | boot | alarm | flushed readDone writeDone | closeNotify =>
    exact hends (.bind fun _ => .pure rfl) hrun
  | selectWritable r wanted | notifyingWritable r wanted =>
    exact hends (ends_readyWrite _ rfl) hrun
  | selectReadable r wanted | notifyingReadable r wanted =>
    exact hends (ends_readyRead _ rfl rfl) hrun
  | command opened connected idle ready =>
    exact hends (.bind fun _ => .bind fun _ => .ite (.pure rfl) (.pure rfl)) hrun
  | writing => exact hends (ends_writeRound rfl rfl rfl) hrun
  | reading =>
    refine hends (.bind fun found => ?_) hrun
    cases found with
    | packet pkt => exact .bind fun _ => .ite (.pure rfl) (.pure rfl)
    | closed | again | idle => exact .pure rfl
  | stopping => exact parted_startDisconnect hrun hp'
  | flushingWritable r wanted | flushingReadable r wanted | flushWriting => exact hquiet rfl
  | notified readDone writeDone => exact hends (.pure rfl) hrun

omit [Transport τ] in
theorem keeps_txPkt_onTransport {α : Type} (op : τ → Except IoError α × τ) :
    Keeps (fun tx => tx.link.txPkt) (onTransport op) := by
  intro tx
  rw [onTransport, onLink, after_zoom]
  simp only [after, EStateM.run_bind, EStateM.run_get, EStateM.run_set]
  cases (op tx.link.transport).1 <;> rfl

/-- Behind the flush nothing is transmitted, and the task does not go back. -/
theorem ends_behindFlush (hx : tx.program gone p e = some x) (hp : p.behindFlush = true) :
    Keeps (fun tx => tx.link.txPkt) x ∧ Ends (·.behindFlush = true) x := by
  have hready : ∀ ready, Keeps (fun tx => tx.link.txPkt) (awaitReady ready : TaskM τ Unit) := by
    intro ready
    cases ready with
    | ok u => exact .pure _
    | error err => exact .throw _
  cases isProgram_of_program hx with
  | closeNotify =>
    exact ⟨.bind (keeps_txPkt_onTransport _) fun _ => .pure _, .bind fun _ => .pure rfl⟩
  | notified readDone writeDone => exact ⟨.pure _, .pure rfl⟩
  | notifyingWritable r wanted =>
    exact ⟨.bind (hready _) fun _ => .bind (keeps_txPkt_onTransport _) fun _ => .pure _,
      ends_readyWrite _ rfl⟩
  | notifyingReadable r wanted =>
    exact ⟨.bind (hready _) fun _ => .bind (keeps_txPkt_onTransport _) fun _ => .pure _,
      ends_readyRead _ rfl rfl⟩
  -- the other phases are before the end of the flush
  | _ => cases hp

end Transceiver

/-! ## Runs -/

namespace System

open Runs Transceiver

variable {s s' : System TcpTransport}

structure Farewell (s : System TcpTransport) : Prop where
  last : s.phase.flushes = true → s.tx.link.Parted
  sent : s.tx.disconnectSent = true →
    s.phase.behindFlush = true ∧ s.tx.link.txPkt = none ∧ s.tx.link.Parted
  told : ∀ status, s.phase = .finished status → status.disconnectSent = true →
    s.tx.disconnectSent = true

theorem farewell_spawn (setup : Setup TcpTransport) : Farewell (spawn setup) :=
  ⟨nofun, nofun, nofun⟩

/-- The flag is set at the end of the flush only, when nothing is in transmission. -/
theorem sent_cases {e : TaskEvent} {x : TaskM TcpTransport Phase}
    (hx : s.tx.program (s.handle = .dropped) s.phase e = some x)
    (hsent : (after x s.tx).disconnectSent = true) :
    s.tx.disconnectSent = true ∨
      s.phase = .flushing ∧ s.tx.link.txPkt = none ∧ x = disconnectDone := by
  by_cases hflush : s.phase = .flushing ∧ e = .proceed
  · obtain ⟨hphase, rfl⟩ := hflush
    rw [hphase] at hx
    simp only [program] at hx
    split at hx
    · rename_i hguard
      cases hx
      refine Or.inr ⟨hphase, ?_, rfl⟩
      simpa [wants, Transport.wants] using hguard
    · cases hx
  · have hfixes : Fixes (·.disconnectSent) s.tx (after x s.tx) :=
      (driven_fixes fun _ _ _ _ _ => rfl).program hx (fun _ _ _ _ => rfl)
        fun hphase he => absurd ⟨hphase, he⟩ hflush
    exact Or.inl (hfixes.eq.symm.trans hsent)

theorem Farewell.runProgram (h : Farewell s) {e : TaskEvent} {x : TaskM TcpTransport Phase}
    (hx : s.tx.program (s.handle = .dropped) s.phase e = some x) : Farewell (s.runProgram x) := by
  have herror : s.phase.afterError.flushes = false := by
    cases s.phase <;> rfl
  refine ⟨fun hp => ?_, fun hsent => ?_, fun status hp => ?_⟩
  · rcases phase_runProgram s x with ⟨p, tx, hrun, heq⟩ | ⟨f, tx, -, hnext | ⟨q, hnext⟩⟩
    · rw [heq] at hp ⊢
      exact parted_of_flushes hx hrun h.last hp
    · rw [hnext, herror] at hp
      cases hp
    · rw [hnext] at hp
      cases hp
  · rw [tx_runProgram] at hsent ⊢
    rcases sent_cases hx hsent with hbefore | ⟨hphase, hidle, rfl⟩
    · obtain ⟨hbehind, hidle, hparted⟩ := h.sent hbefore
      obtain ⟨hkeeps, hends⟩ := ends_behindFlush hx hbehind
      refine ⟨?_, (hkeeps s.tx).trans hidle, ?_⟩
      · rcases phase_runProgram s x with ⟨p, tx, hrun, heq⟩ | ⟨f, tx, -, hnext | ⟨q, hnext⟩⟩
        · rw [heq]
          exact hends _ _ _ hrun
        · rw [hnext]
          revert hbehind
          cases s.phase <;> first | exact fun _ => rfl | nofun
        · rw [hnext]
          rfl
      · obtain ⟨before, hlast⟩ := hparted
        refine ⟨before, Eq.trans ?_ hlast⟩
        exact congrArg Desk.handed (quiet_of_flushes hx (Or.inr hbehind) s.tx)
    · exact ⟨rfl, hidle, h.last (by rw [hphase]; rfl)⟩
  · rcases phase_runProgram s x with ⟨p, tx, hrun, heq⟩ | ⟨f, tx, -, hnext | ⟨q, hnext⟩⟩
    · rw [heq] at hp
      cases (show p = .finished status from hp)
      cases program_ends hx _ _ _ hrun
    · have hfollows := s.phase.follows_afterError
      rw [← hnext, hp] at hfollows
      cases hfollows
    · cases hnext.symm.trans hp

theorem Farewell.step {e : Event} (h : Farewell s) (hstep : s.step e = some s') : Farewell s' := by
  cases e with
  | client e =>
    have hmove := clientMove_of_clientStep hstep
    have hsame := hmove.sameTask
    have hsent : s'.tx.disconnectSent = s.tx.disconnectSent := by
      rw [hmove.onlyBook]
    refine ⟨?_, ?_, ?_⟩
    · rw [hsame.phase, hsame.link]
      exact h.last
    · rw [hsame.phase, hsame.link, hsent]
      exact h.sent
    · rw [hsame.phase, hsent]
      exact h.told
  | task e =>
    cases isTaskStep_of_taskStep hstep with
    | program x runs => exact h.runProgram runs
    | closed stage =>
      refine ⟨nofun, fun hsent => ⟨rfl, (h.sent hsent).2⟩, ?_⟩
      rintro _ ⟨⟩ ⟨⟩
    | returns stage =>
      refine ⟨nofun, fun hsent => ⟨rfl, (h.sent hsent).2⟩, ?_⟩
      rintro _ ⟨⟩ hsent
      exact hsent
    | fail n next stage =>
      rcases sweepStage_cases stage with ⟨-, rfl⟩ | ⟨-, rfl⟩ | ⟨-, rfl⟩
      all_goals exact ⟨nofun, fun hsent => ⟨rfl, (h.sent hsent).2⟩, nofun⟩
    | timeout stage event | drain stage | wake stage | drop status ended =>
      exact ⟨nofun, fun hsent => ⟨rfl, (h.sent hsent).2⟩, nofun⟩

/-- In every run over plain TCP in which no write fails: if the task returns with
`disconnect_sent`, the transport has accepted every packet that was handed over, in order,
and `DISCONNECT` behind them, and nothing is left in the output. -/
theorem disconnect_sent_truthful {setup : Setup TcpTransport}
    (hgood : setup.transport.NoWriteError) (hs : Reaches System.step always (spawn setup) s)
    {clean : Bool} (hdone : s.phase = .finished ⟨true, clean⟩) :
    s.tx.link.txPkt = none ∧ s.tx.link.internalPktQueue = [] ∧
      ∃ before, s.tx.link.handed = before ++ [⟨disconnectPacket, false⟩] ∧
        s.tx.link.accepted = before.flatMap InternalPacket.wire ++ disconnectPacket.bytes := by
  have hinv : Farewell s := hs.invariant (I := Farewell) (farewell_spawn setup)
    fun _ _ _ h _ hstep => h.step hstep
  obtain ⟨-, hidle, before, hlast⟩ := hinv.sent (hinv.told _ hdone rfl)
  obtain ⟨hstream, hqueue, -⟩ := stream_integrity TcpTransport.partialWrites setup hgood hs
  refine ⟨hidle, hqueue hidle, before, hlast, ?_⟩
  have hbytes := hstream (by rw [hdone]; nofun)
  simpa [Link.unsent, Link.queued, Link.handedBytes, hidle, hqueue hidle, hlast,
    InternalPacket.wire, Packet.bytes] using hbytes

/-- Two messages are answered while the first answer is cut, and then the broker sends
rubbish: `DISCONNECT` waits behind both answers. -/
def backlogSetup : Setup TcpTransport :=
  scripted ⟨[acceptance, .wouldBlock, .data 0x32 [5, 0, 1, 0x74, 0, 1],
    .data 0x32 [5, 0, 1, 0x74, 0, 2], .data 0xf0 [0]], false, [.accept 8, .accept 1, .wouldBlock]⟩

theorem disconnect_sent_truthful_backlog : ∃ s, Reaches System.step always (spawn backlogSetup) s ∧
    s.phase = .finished ⟨true, true⟩ ∧ s.tx.link.handed.length = 4 ∧
      ∃ before, s.tx.link.handed = before ++ [⟨disconnectPacket, false⟩] ∧
        s.tx.link.accepted = before.flatMap InternalPacket.wire ++ disconnectPacket.bytes := by
  have hgood : backlogSetup.transport.NoWriteError := by
    intro e
    simp [backlogSetup, scripted]
  have hrun : (runUnder System.step always (spawn backlogSetup)
      (connecting ++ .task (.readable (.ok ())) :: List.replicate 7 (.task .proceed) ++
        [.task (.writable (.ok ())), .task .proceed, .task (.writable (.ok ()))] ++
        List.replicate 11 (.task .proceed))).any
      (fun s => s.phase == .finished ⟨true, true⟩ && s.tx.link.handed.length == 4) = true := by
    decide +kernel
  obtain ⟨s, hs, hp⟩ := exists_reaches _ hrun
  simp only [Bool.and_eq_true, beq_iff_eq] at hp
  obtain ⟨-, -, before, hlast, hbytes⟩ := disconnect_sent_truthful hgood hs hp.1
  exact ⟨s, hs, hp.1, hp.2, before, hlast, hbytes⟩

end System

end Lmc
