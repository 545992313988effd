import Lmc.System.Model
import Lmc.Task.Effects

/-!
# What a step can do

A step of the system is one of a few moves. `DeskMove` lists those of the task: a program
does one of the works of `Lmc.Task.Desk` or leaves the desk alone, and behind the main
loop the sweep changes one shared map at a time. `TaskMove` is the same seen from the
books. `ClientMove` lists those of the clients, one for each access to the shared record
or to the command queue. An invariant of the runs is shown move by move.
-/

namespace Lmc

open EStateLogic

/-! ## Phases -/

/-- The main loop and the disconnect sequence, all before the sweep. -/
def Phase.running : Phase → Bool
  | .boot | .select | .writing | .reading | .closed | .stopping | .flushing | .flushWriting
  | .closeNotify | .notifying => true
  | _ => false

/-- The phases that a program of the task can lead to if it does not panic. -/
def Phase.follows : Phase → Bool
  | .boot => false
  | .failAck => true
  | p => p.running

/-- The event makes the task take a packet or a command in. -/
def Phase.takes : Phase → TaskEvent → Bool
  | .reading, .proceed | .select, .command => true
  | _, _ => false

def Phase.panic? : Phase → Option Panic
  | .crashed p => some p
  | _ => none

theorem Phase.panic?_of_follows {p : Phase} (h : p.follows = true) : p.panic? = none := by
  cases p <;> first | rfl | cases h

theorem Phase.follows_afterError (p : Phase) : p.afterError.follows = true := by
  cases p <;> rfl

/-- The phase behind a program that ends in this way. -/
def Phase.Leads (p : Phase) : Option Fault → Phase → Prop
  | none, p' => p'.follows = true
  | some (.io _), p' => p' = p.afterError
  | some (.panic q), p' => p' = .crashed q

theorem Phase.Leads.next {p p' : Phase} {o : Option Fault} (h : p.Leads o p') :
    p'.follows = true ∨ ∃ q, p' = .crashed q := by
  match o, h with
  | none, h => exact Or.inl h
  | some (.io _), h => exact Or.inl (h ▸ p.follows_afterError)
  | some (.panic q), h => exact Or.inr ⟨q, h⟩

theorem Phase.Leads.panic? {p p' : Phase} {o : Option Fault} (h : p.Leads o p') :
    p'.panic? = o.bind Fault.panic? := by
  match o, h with
  | none, h => exact Phase.panic?_of_follows h
  | some (.io _), h => exact Phase.panic?_of_follows (h ▸ p.follows_afterError)
  | some (.panic q), h => rw [show p' = .crashed q from h]; rfl

namespace Transceiver

variable {τ α : Type}

/-- If the program succeeds then with a phase in `P`. -/
def Ends (P : Phase → Prop) (x : TaskM τ Phase) : Prop :=
  ∀ tx p tx', x.run tx = .ok p tx' → P p

theorem Ends.pure {P : Phase → Prop} {p : Phase} (h : P p) :
    Ends P (pure p : TaskM τ Phase) := by
  rintro tx p' tx' hrun
  cases hrun
  exact h

theorem Ends.bind {P : Phase → Prop} {x : TaskM τ α} {k : α → TaskM τ Phase}
    (h : ∀ a, Ends P (k a)) : Ends P (x >>= k) := by
  intro tx p tx' hrun
  rcases run_bind_cases x k tx with ⟨a, tx₁, -, hb⟩ | ⟨e, tx₁, -, hb⟩
  · exact h a tx₁ p tx' (hb.symm.trans hrun)
  · cases hb.symm.trans hrun

theorem Ends.ite {P : Phase → Prop} {c : Prop} [Decidable c] {x y : TaskM τ Phase}
    (hx : Ends P x) (hy : Ends P y) : Ends P (if c then x else y) := by
  split
  · exact hx
  · exact hy

variable [Transport τ]

theorem ends_writeRound {P : Phase → Prop} {onClosed again next : Phase} (h₁ : P onClosed)
    (h₂ : P again) (h₃ : P next) : Ends P (writeRound onClosed again next : TaskM τ Phase) := by
  refine .bind fun r => ?_
  match r with
  | some true => exact .pure h₁
  | some false => exact .pure h₃
  | none => exact .pure h₂

theorem ends_readyWrite {P : Phase → Prop} (ready : Except IoError Unit) {next : Phase}
    (h : P next) : Ends P (readyWrite ready next : TaskM τ Phase) :=
  .bind fun _ => .bind fun _ => .pure h

theorem ends_readyRead {P : Phase → Prop} (ready : Except IoError Unit) {next idle : Phase}
    (h₁ : P next) (h₂ : P idle) : Ends P (readyRead ready next idle : TaskM τ Phase) := by
  refine .bind fun _ => .bind fun canRead => .pure ?_
  split
  · exact h₁
  · exact h₂

/-! ## Programs of the task -/

theorem ends_processIncoming (found : Incoming) :
    Ends (·.follows = true) (processIncoming found : TaskM τ Phase) := by
  cases found with
  | packet pkt => exact .bind fun _ => .ite (.pure rfl) (.pure rfl)
  | closed => exact .pure rfl
  | again => exact .pure rfl
  | idle => exact .pure rfl

theorem ends_commandRound : Ends (·.follows = true) (commandRound : TaskM τ Phase) :=
  .bind fun _ => .bind fun _ => .ite (.pure rfl) (.pure rfl)

/-- The programs that do something at the desk, and when they run. -/
inductive Busy (tx : Transceiver τ) : Phase → TaskEvent → TaskM τ Phase → Prop
  | boot : Busy tx .boot .proceed (do bootstrap; return .select)
  | read : Busy tx .reading .proceed readRound
  | command (connected : tx.connectSig = false) (idle : tx.link.txPkt = none) :
      Busy tx .select .command commandRound
  | alarm : Busy tx .select .alarm alarmRound
  | disconnect : Busy tx .stopping .proceed startDisconnect

theorem Busy.ends {tx : Transceiver τ} {p : Phase} {e : TaskEvent} {x : TaskM τ Phase}
    (h : Busy tx p e x) : Ends (·.follows = true) x := by
  cases h with
  | boot => exact .bind fun _ => .pure rfl
  | read => exact .bind ends_processIncoming
  | command connected idle => exact ends_commandRound
  | alarm => exact .bind fun _ => .pure rfl
  | disconnect => exact .bind fun _ => .ite (.bind fun _ => .pure rfl) (.pure rfl)

/-- A program leaves the desk alone, or it is one of those. -/
theorem program_cases {tx : Transceiver τ} {gone : Bool} {p : Phase} {e : TaskEvent}
    {x : TaskM τ Phase} (h : tx.program gone p e = some x) :
    p.running = true ∧
      ((Quiet x ∧ p.takes e = false) ∧ Ends (·.follows = true) x ∨ Busy tx p e x) := by
  cases isProgram_of_program h with
  | boot => exact ⟨rfl, Or.inr .boot⟩
  | selectWritable r wanted | flushingWritable r wanted | notifyingWritable r wanted =>
    exact ⟨rfl, Or.inl ⟨⟨quiet_readyWrite _ _, rfl⟩, ends_readyWrite _ rfl⟩⟩
  | selectReadable r wanted | flushingReadable r wanted | notifyingReadable r wanted =>
    exact ⟨rfl, Or.inl ⟨⟨quiet_readyRead _ _ _, rfl⟩, ends_readyRead _ rfl rfl⟩⟩
  | command opened connected idle ready =>
    rw [Book.connected, Bool.not_eq_true'] at connected
    exact ⟨rfl, Or.inr (.command connected idle)⟩
  | alarm => exact ⟨rfl, Or.inr .alarm⟩
  | writing | flushWriting =>
    exact ⟨rfl, Or.inl ⟨⟨quiet_writeRound _ _ _, rfl⟩, ends_writeRound rfl rfl rfl⟩⟩
  | reading => exact ⟨rfl, Or.inr .read⟩
  | stopping => exact ⟨rfl, Or.inr .disconnect⟩
  | flushed readDone writeDone =>
    exact ⟨rfl, Or.inl ⟨⟨.bind (.modify fun _ => rfl) fun _ => .pure _, rfl⟩,
      .bind fun _ => .pure rfl⟩⟩
  | closeNotify =>
    exact ⟨rfl, Or.inl ⟨⟨.bind (quiet_onTransport _) fun _ => .pure _, rfl⟩,
      .bind fun _ => .pure rfl⟩⟩
  | notified readDone writeDone => exact ⟨rfl, Or.inl ⟨⟨.pure _, rfl⟩, .pure rfl⟩⟩

theorem program_ends {tx : Transceiver τ} {gone : Bool} {p : Phase} {e : TaskEvent}
    {x : TaskM τ Phase} (h : tx.program gone p e = some x) : Ends (·.follows = true) x := by
  obtain ⟨-, ⟨-, hends⟩ | hbusy⟩ := program_cases h
  · exact hends
  · exact hbusy.ends

/-- How a program ends. -/
def fault (x : TaskM τ α) (tx : Transceiver τ) : Option Fault :=
  match x.run tx with
  | .ok _ _ => none
  | .error e _ => some e

end Transceiver

/-- The publish future of a call. -/
def Call.publishFuture : Call → Option PublishFuture
  | .sendingPublish _ fut => fut
  | .awaitingPublish fut => some fut
  | _ => none

theorem Call.publishFuture_of_subscribes {call : Call} {fut : SubscribeFuture}
    (h : call.subscribeFuture = some fut) : call.publishFuture = none := by
  cases call <;> first | rfl | cases h

theorem Call.live_of_publishes {call : Call} {fut : PublishFuture}
    (h : call.publishFuture = some fut) : call.isDone = false := by
  cases call <;> first | rfl | cases h

theorem Call.live_of_subscribes {call : Call} {fut : SubscribeFuture}
    (h : call.subscribeFuture = some fut) : call.isDone = false := by
  cases call <;> first | rfl | cases h

theorem Call.live_of_command {call : Call} {cmd : Command} (h : call.command = some cmd) :
    call.isDone = false := by
  cases call <;> first | rfl | cases h

/-- The call has ended without a result. -/
def Outcome.fails : Outcome → Bool
  | .ok | .subscribed _ _ _ => false
  | _ => true

/-- A command that concerns neither a publish nor a subscribe call. -/
def Command.isOther : Command → Bool
  | .publish _ | .subscribe _ => false
  | _ => true

/-- Behind its send a call waits for the answer or is done. -/
theorem Call.sent_cases (call : Call) :
    (∃ fut, call.sent = .awaitingPublish fut) ∨
      (∃ fut kind, call.sent = .awaitingAfter fut kind) ∨ ∃ o, call.sent = .done o := by
  cases call with
  | sendingPublish _ fut =>
    cases fut with
    | none => exact Or.inr (Or.inr ⟨_, rfl⟩)
    | some fut => exact Or.inl ⟨_, rfl⟩
  | sendingSubscribe _ actual =>
    cases actual with
    | none => exact Or.inr (Or.inl ⟨_, _, rfl⟩)
    | some qos => exact Or.inr (Or.inr ⟨_, rfl⟩)
  | _ => exact Or.inr (Or.inr ⟨_, rfl⟩)

namespace System

variable {τ : Type}

/-! ## Moves of the task -/

/-- The map that a phase of the sweep fails, and the phase behind it. -/
def sweepStage : Phase → Option (Notifier × Phase)
  | .failAck => some (.pubAck, .failRec)
  | .failRec => some (.pubRec, .failComp)
  | .failComp => some (.pubComp, .draining)
  | _ => none

theorem sweepStage_cases {p next : Phase} {n : Notifier} (h : sweepStage p = some (n, next)) :
    p = .failAck ∧ next = .failRec ∨ p = .failRec ∧ next = .failComp ∨
      p = .failComp ∧ next = .draining := by
  cases p <;> cases h
  · exact Or.inl ⟨rfl, rfl⟩
  · exact Or.inr (Or.inl ⟨rfl, rfl⟩)
  · exact Or.inr (Or.inr ⟨rfl, rfl⟩)

/-- The command that a step takes from the queue. -/
def consumed (s : System τ) (e : TaskEvent) : Option Command :=
  if s.phase = .select ∧ e = .command then s.tx.cmdQueue.head? else none

section Task

variable [Transport τ]

/-- The packet that a step takes from the transport. -/
def arriving (s : System τ) (e : TaskEvent) : Option IncomingPacket :=
  if s.phase = .reading ∧ e = .proceed then
    match Transceiver.recvPacket.run s.tx with
    | .ok (.packet pkt) _ => some pkt
    | _ => none
  else none

theorem arriving_reading {s : System τ} {e : TaskEvent} {pkt : IncomingPacket}
    (h : s.arriving e = some pkt) : s.phase = .reading ∧ e = .proceed := by
  unfold arriving at h
  split at h
  · assumption
  · cases h

theorem recvPacket_of_arriving {s : System τ} {e : TaskEvent} {pkt : IncomingPacket}
    (h : s.arriving e = some pkt) :
    ∃ tx, Transceiver.recvPacket.run s.tx = .ok (.packet pkt) tx := by
  unfold arriving at h
  split at h
  · split at h
    · rename_i tx hrecv
      cases h
      exact ⟨tx, hrecv⟩
    · cases h
  · cases h

omit [Transport τ] in
theorem consumed_select {s : System τ} {e : TaskEvent} {cmd : Command}
    (h : s.consumed e = some cmd) : s.phase = .select ∧ e = .command := by
  unfold consumed at h
  split at h
  · assumption
  · cases h

/-- A step that takes a packet in takes no command. -/
theorem not_consumed {s : System τ} {e : TaskEvent} {pkt : IncomingPacket}
    (h : s.arriving e = some pkt) : s.consumed e = none := by
  refine Option.eq_none_iff_forall_ne_some.mpr fun cmd hcmd => ?_
  rw [(arriving_reading h).2] at hcmd
  cases (consumed_select hcmd).2

theorem takes_nothing {s : System τ} {e : TaskEvent} (h : s.phase.takes e = false) :
    s.arriving e = none ∧ s.consumed e = none := by
  refine ⟨Option.eq_none_iff_forall_ne_some.mpr fun pkt hpkt => ?_,
    Option.eq_none_iff_forall_ne_some.mpr fun cmd hcmd => ?_⟩
  · obtain ⟨hphase, rfl⟩ := arriving_reading hpkt
    rw [hphase] at h
    cases h
  · obtain ⟨hphase, rfl⟩ := consumed_select hcmd
    rw [hphase] at h
    cases h

inductive TaskMove (s : System τ) (e : TaskEvent) : System τ → Prop
  | quiet (tx : Transceiver τ) (p : Phase) (clean : Bool) (running : s.phase.running = true)
      (next : p.follows = true ∨ ∃ q, p = .crashed q) (book : tx.toBook = s.tx.toBook) :
      TaskMove s e { s with tx, phase := p, clean }
  | connAck (tx : Transceiver τ) (p : Phase) (clean : Bool) (running : s.phase.running = true)
      (next : p.follows = true ∨ ∃ q, p = .crashed q) (pkt : IncomingPacket)
      (arrived : s.arriving e = some pkt) (waiting : s.tx.connectSig = true)
      (book : tx.toBook = { s.tx.toBook with
        connectSig := false, connectResult := some (Transceiver.connResult pkt) }) :
      TaskMove s e { s with tx, phase := p, clean }
  | packet (tx : Transceiver τ) (p : Phase) (clean : Bool) (running : s.phase.running = true)
      (next : p.follows = true ∨ ∃ q, p = .crashed q) (pkt : IncomingPacket)
      (arrived : s.arriving e = some pkt) (connected : s.tx.connectSig = false)
      (effect : PacketEffect pkt (s.tx.logReceived pkt) tx.toBook) :
      TaskMove s e { s with tx, phase := p, clean }
  | command (tx : Transceiver τ) (p : Phase) (clean : Bool) (running : s.phase.running = true)
      (next : p.follows = true ∨ ∃ q, p = .crashed q) (cmd : Command) (rest : List Command)
      (queue : s.tx.cmdQueue = cmd :: rest) (taken : s.consumed e = some cmd)
      (connected : s.tx.connectSig = false)
      (effect : CommandEffect p.panic? cmd { s.tx.toBook with cmdQueue := rest } tx.toBook) :
      TaskMove s e { s with tx, phase := p, clean }
  | finish (status : ShutdownStatus) (ended : s.phase = .closed ∨ s.phase = .returning) :
      TaskMove s e { s with phase := .finished status }
  | fail (n : Notifier) (next : Phase) (stage : sweepStage s.phase = some (n, next)) :
      TaskMove s e (s.failMap n next)
  | drain (stage : s.phase = .draining) : TaskMove s e s.drainSubs
  | wake (stage : s.phase = .waking) : TaskMove s e s.wakeAll
  | drop (status : ShutdownStatus) (ended : s.phase = .finished status) :
      TaskMove s e s.dropTransceiver

/-! ### What a step does at the desk -/

/-- How the program of a step ends. -/
def outcome (s : System τ) (e : TaskEvent) : Option Fault :=
  (s.tx.program (s.handle = .dropped) s.phase e).bind fun x => Transceiver.fault x s.tx

/-- What a program that ends in this way does at the desk. -/
inductive Work (s : System τ) (e : TaskEvent) (o : Option Fault) (d : Desk) : Prop
  | idle (same : d = s.tx.desk)
      (nothing : s.arriving e = none ∧ s.consumed e = none)
  | connect (pkt : TxPacket) (boot : s.phase = .boot) (waits : s.tx.link.txPkt = some pkt)
      (handed : d = s.tx.desk.hand ⟨pkt.packet, false⟩)
  | connAck (pkt : IncomingPacket) (arrived : s.arriving e = some pkt)
      (waiting : s.tx.connectSig = true) (book : d = s.tx.desk.onBook fun b =>
        { b with connectSig := false, connectResult := some (Transceiver.connResult pkt) })
  | packet (pkt : IncomingPacket) (cut : Option IoError) (arrived : s.arriving e = some pkt)
      (connected : s.tx.connectSig = false) (ends : o = cut.map .io)
      (work : PacketWork pkt cut (s.tx.desk.onBook (Book.logReceived pkt)) d)
  | command (cmd : Command) (rest : List Command) (queue : s.tx.cmdQueue = cmd :: rest)
      (taken : s.consumed e = some cmd) (connected : s.tx.connectSig = false)
      (work : CommandWork cmd o (s.tx.desk.onBook fun b => { b with cmdQueue := rest }) d)
  | alarm (cut : Option IoError) (ends : o = cut.map .io) (work : AlarmWork s.tx.desk cut d)
      (tick : e = .alarm)
  | disconnect (stopping : s.phase = .stopping) (connected : s.tx.connectSig = false)
      (handed : d = s.tx.desk.hand ⟨disconnectPacket, false⟩)

/-- A step runs a program, or it is one of those behind the main loop. -/
inductive DeskMove (s : System τ) (e : TaskEvent) : System τ → Prop
  | program (tx : Transceiver τ) (p : Phase) (clean : Bool) (running : s.phase.running = true)
      (leads : s.phase.Leads (s.outcome e) p) (work : Work s e (s.outcome e) tx.desk) :
      DeskMove s e { s with tx, phase := p, clean }
  | finish (status : ShutdownStatus) (ended : s.phase = .closed ∨ s.phase = .returning) :
      DeskMove s e { s with phase := .finished status }
  | fail (n : Notifier) (next : Phase) (stage : sweepStage s.phase = some (n, next)) :
      DeskMove s e (s.failMap n next)
  | drain (stage : s.phase = .draining) : DeskMove s e s.drainSubs
  | wake (stage : s.phase = .waking) : DeskMove s e s.wakeAll
  | drop (status : ShutdownStatus) (ended : s.phase = .finished status) :
      DeskMove s e s.dropTransceiver

/-- A quiet step or one with an effect on the books, seen from the desk. -/
theorem DeskMove.taskMove {s s' : System τ} {e : TaskEvent} (h : DeskMove s e s') :
    TaskMove s e s' := by
  cases h with
  | program tx p clean running leads work =>
    have hbook : ∀ d : Desk, tx.desk = d → tx.toBook = d.book := fun _ h => congrArg Desk.book h
    cases work with
    | idle same => exact .quiet tx p clean running leads.next (hbook _ same)
    | connect pkt boot waits handed =>
      exact .quiet tx p clean running leads.next (hbook _ handed)
    | connAck pkt arrived waiting book =>
      exact .connAck tx p clean running leads.next pkt arrived waiting (hbook _ book)
    | packet pkt cut arrived connected ends work =>
      exact .packet tx p clean running leads.next pkt arrived connected work.effect
    | command cmd rest queue taken connected work =>
      refine .command tx p clean running leads.next cmd rest queue taken connected ?_
      rw [leads.panic?]
      exact work.effect
    | alarm cut ends work => exact .quiet tx p clean running leads.next work.book
    | disconnect stopping connected handed =>
      exact .quiet tx p clean running leads.next (hbook _ handed)
  | finish status ended => exact .finish status ended
  | fail n next stage => exact .fail n next stage
  | drain stage => exact .drain stage
  | wake stage => exact .wake stage
  | drop status ended => exact .drop status ended

omit [Transport τ] in
theorem tx_runProgram (x : TaskM τ Phase) (s : System τ) :
    (s.runProgram x).tx = after x s.tx := by
  unfold runProgram after
  cases x.run s.tx with
  | ok p tx => rfl
  | error f tx => cases f <;> rfl

/-- A tick of the alarm runs `onAlarm`. -/
theorem alarm_taskStep {s s' : System τ} (hstep : s.taskStep .alarm = some s') :
    s.phase = .select ∧ s'.tx = after Transceiver.onAlarm s.tx := by
  have hafter : after (Transceiver.alarmRound : TaskM τ Phase) s.tx =
      after Transceiver.onAlarm s.tx := by
    unfold Transceiver.alarmRound
    rw [after, EStateM.run_bind, after]
    cases (Transceiver.onAlarm : TaskM τ Unit).run s.tx <;> rfl
  cases hphase : s.phase with
  | select =>
    simp only [taskStep, hphase, Transceiver.program, Option.map_some, Option.some.injEq] at hstep
    rw [← hstep, tx_runProgram, hafter]
    exact ⟨rfl, rfl⟩
  | _ =>
    simp only [taskStep, hphase, Transceiver.program, Option.map_none] at hstep
    cases hstep

omit [Transport τ] in
/-- The phase behind a program. -/
theorem phase_runProgram (s : System τ) (x : TaskM τ Phase) :
    (∃ p tx, x.run s.tx = .ok p tx ∧ s.runProgram x = { s with tx, phase := p }) ∨
      ∃ f tx, x.run s.tx = .error f tx ∧ ((s.runProgram x).phase = s.phase.afterError ∨
        ∃ q, (s.runProgram x).phase = .crashed q) := by
  unfold runProgram
  cases x.run s.tx with
  | ok p tx => exact Or.inl ⟨p, tx, rfl, rfl⟩
  | error f tx =>
    cases f with
    | io err => exact Or.inr ⟨_, tx, rfl, Or.inl rfl⟩
    | panic q => exact Or.inr ⟨_, tx, rfl, Or.inr ⟨q, rfl⟩⟩

omit [Transport τ] in
/-- The state behind a program, and the desk it leaves behind. -/
theorem runProgram_works {Q : Option Fault → Desk → Prop} {x : TaskM τ Phase} {s : System τ}
    (hx : Triple (· = s.tx) x (fun _ tx => Q none tx.desk) (fun e tx => Q (some e) tx.desk))
    (hends : Transceiver.Ends (·.follows = true) x) :
    ∃ tx p clean, s.runProgram x = { s with tx, phase := p, clean } ∧
      s.phase.Leads (Transceiver.fault x s.tx) p ∧ Q (Transceiver.fault x s.tx) tx.desk := by
  have hres := hx s.tx rfl
  unfold runProgram Transceiver.fault
  cases hrun : x.run s.tx with
  | ok p tx =>
    rw [hrun] at hres
    exact ⟨tx, p, s.clean, rfl, hends _ _ _ hrun, hres⟩
  | error e tx =>
    rw [hrun] at hres
    cases e with
    | io e => exact ⟨tx, _, _, rfl, rfl, hres⟩
    | panic q => exact ⟨tx, .crashed q, s.clean, rfl, rfl, hres⟩

omit [Transport τ] in
theorem triple_of_works {α : Type} {Q : Option Fault → Desk → Prop} {x : TaskM τ α}
    {tx : Transceiver τ} (hx : Transceiver.Works Q x tx.desk) :
    Triple (· = tx) x (fun _ tx => Q none tx.desk) (fun e tx => Q (some e) tx.desk) :=
  hx.conseq (fun _ h => h ▸ rfl) (fun _ _ h => h) (fun _ _ h => h)

/-- What the read loop finds decides what the round does. -/
theorem work_readRound {s : System τ} (hphase : s.phase = .reading) :
    Triple (· = s.tx) Transceiver.readRound (fun _ tx => Work s .proceed none tx.desk)
      (fun e tx => Work s .proceed (some e) tx.desk) := by
  rintro tx₀ rfl
  have hnothing : (∀ pkt tx, Transceiver.recvPacket.run s.tx ≠ .ok (.packet pkt) tx) →
      s.arriving .proceed = none ∧ s.consumed .proceed = none := by
    intro hother
    refine ⟨?_, if_neg (by rintro ⟨-, ⟨⟩⟩)⟩
    rw [arriving, if_pos ⟨hphase, rfl⟩]
    split
    · exact absurd ‹_› (hother _ _)
    · rfl
  rcases run_bind_cases Transceiver.recvPacket Transceiver.processIncoming s.tx with
    ⟨found, tx, hrecv, hread⟩ | ⟨e, tx, hrecv, hread⟩
  · have hdesk : tx.desk = s.tx.desk := Transceiver.quiet_recvPacket.ok hrecv
    rw [Transceiver.readRound, hread]
    cases found with
    | packet pkt =>
      have harrived : s.arriving .proceed = some pkt := by
        rw [arriving, if_pos ⟨hphase, rfl⟩, hrecv]
      refine triple_of_works (Q := fun o d => Work s .proceed o d) ?_ tx rfl
      refine (Transceiver.works_processIncoming pkt tx.desk).mono ?_
      rw [hdesk]
      rintro o d ⟨cut, rfl, hwork⟩
      cases hwork with
      | connAck waiting => exact .connAck pkt harrived waiting rfl
      | work connected _ _ done => exact .packet pkt cut harrived connected rfl done
    | closed | again | idle => exact .idle hdesk (hnothing (by simp [hrecv]))
  · rw [Transceiver.readRound, hread]
    exact .idle (Transceiver.quiet_recvPacket.error hrecv) (hnothing (by simp [hrecv]))

theorem work_commandRound {s : System τ} (hphase : s.phase = .select)
    (hsig : s.tx.connectSig = false) (hidle : s.tx.link.txPkt = none) :
    Triple (· = s.tx) Transceiver.commandRound (fun _ tx => Work s .command none tx.desk)
      (fun e tx => Work s .command (some e) tx.desk) := by
  cases hqueue : s.tx.cmdQueue with
  | nil =>
    refine triple_of_works (Q := fun o d => Work s .command o d) ?_
    refine (Transceiver.works_commandRound_nil (d := s.tx.desk) hqueue).mono ?_
    rintro o d ⟨-, rfl⟩
    refine .idle rfl ⟨if_neg (by rintro ⟨-, ⟨⟩⟩), ?_⟩
    rw [consumed, hqueue, List.head?_nil, ite_self]
  | cons cmd rest =>
    have htaken : s.consumed .command = some cmd := by
      rw [consumed, if_pos ⟨hphase, rfl⟩, hqueue]
      rfl
    refine (Transceiver.worksIdle_commandRound (d := s.tx.desk) hqueue).conseq ?_ ?_ ?_
    · rintro tx rfl
      exact ⟨rfl, hidle⟩
    · exact fun _ tx hwork => .command cmd rest hqueue htaken hsig hwork
    · exact fun e tx hwork => .command cmd rest hqueue htaken hsig hwork

theorem work_boot {s : System τ} (hphase : s.phase = .boot) :
    Triple (· = s.tx) (do Transceiver.bootstrap; return .select : TaskM τ Phase)
      (fun _ tx => Work s .proceed none tx.desk)
      (fun e tx => Work s .proceed (some e) tx.desk) := by
  cases htx : s.tx.link.txPkt with
  | none =>
    rintro tx rfl
    simp only [Transceiver.bootstrap, bind_assoc, EStateM.run_bind, EStateM.run_get, htx]
    exact .idle rfl (takes_nothing (by rw [hphase]; rfl))
  | some pkt =>
    refine (Transceiver.works_boot htx).conseq (fun _ h => h) ?_ ?_
    · rintro _ tx ⟨cut, hcut, hd⟩
      exact .connect pkt hphase htx hd
    · rintro e tx ⟨cut, hcut, hd⟩
      exact .connect pkt hphase htx hd

/-- What each of the busy programs does. -/
theorem work_of_busy {s : System τ} {e : TaskEvent} {x : TaskM τ Phase}
    (h : Transceiver.Busy s.tx s.phase e x) :
    Triple (· = s.tx) x (fun _ tx => Work s e none tx.desk)
      (fun f tx => Work s e (some f) tx.desk) := by
  generalize hp : s.phase = p at h
  cases h with
  | boot => exact work_boot hp
  | read => exact work_readRound hp
  | command connected idle => exact work_commandRound hp connected idle
  | alarm =>
    refine triple_of_works (Q := fun o d => Work s .alarm o d) ?_
    refine (Transceiver.works_alarmRound _).mono ?_
    rintro o d ⟨cut, hcut, hwork⟩
    exact .alarm cut hcut hwork rfl
  | disconnect =>
    refine triple_of_works (Q := fun o d => Work s .proceed o d) ?_
    refine (Transceiver.works_startDisconnect _).mono ?_
    rintro o d ⟨cut, hcut, rfl | ⟨hconn, rfl⟩⟩
    · exact .idle rfl (takes_nothing (by rw [hp]; rfl))
    · exact .disconnect hp hconn rfl

theorem deskMove_runProgram {s : System τ} {e : TaskEvent} {x : TaskM τ Phase}
    (h : s.tx.program (s.handle = .dropped) s.phase e = some x) :
    DeskMove s e (s.runProgram x) := by
  have houtcome : s.outcome e = Transceiver.fault x s.tx := by
    rw [outcome, h]
    rfl
  obtain ⟨hrunning, hx⟩ := Transceiver.program_cases h
  have hwork : Triple (· = s.tx) x (fun _ tx => Work s e none tx.desk)
      (fun f tx => Work s e (some f) tx.desk) := by
    rcases hx with ⟨⟨hquiet, htakes⟩, -⟩ | hbusy
    · exact triple_of_works (Q := fun o d => Work s e o d)
        (.quiet hquiet fun _ => .idle rfl (takes_nothing htakes))
    · exact work_of_busy hbusy
  obtain ⟨tx, p, clean, heq, hleads, hres⟩ := runProgram_works (Q := fun o d => Work s e o d)
    hwork (Transceiver.program_ends h)
  rw [heq]
  rw [← houtcome] at hleads hres
  exact .program tx p clean hrunning hleads hres

/-- The steps of the task: it runs a program, or does something behind the main loop. -/
inductive IsTaskStep (s : System τ) (e : TaskEvent) : System τ → Prop
  | program (x : TaskM τ Phase)
      (runs : s.tx.program (s.handle = .dropped) s.phase e = some x) :
      IsTaskStep s e (s.runProgram x)
  | closed (stage : s.phase = .closed) :
      IsTaskStep s e { s with phase := .finished ⟨false, false⟩ }
  | timeout (stage : s.phase = .flushing ∨ s.phase = .notifying) (event : e = .timeout) :
      IsTaskStep s e { s with phase := .failAck, clean := false }
  | fail (n : Notifier) (next : Phase) (stage : sweepStage s.phase = some (n, next)) :
      IsTaskStep s e (s.failMap n next)
  | drain (stage : s.phase = .draining) : IsTaskStep s e s.drainSubs
  | wake (stage : s.phase = .waking) : IsTaskStep s e s.wakeAll
  | returns (stage : s.phase = .returning) :
      IsTaskStep s e { s with phase := .finished ⟨s.tx.disconnectSent, s.clean⟩ }
  | drop (status : ShutdownStatus) (ended : s.phase = .finished status) :
      IsTaskStep s e s.dropTransceiver

theorem isTaskStep_of_taskStep {s s' : System τ} {e : TaskEvent} (h : s.taskStep e = some s') :
    IsTaskStep s e s' := by
  unfold taskStep at h
  split at h
  case h_11 =>
    obtain ⟨x, hprog, rfl⟩ := Option.map_eq_some_iff.mp h
    exact .program x hprog
  all_goals cases h
  · exact .closed ‹_›
  · exact .timeout (Or.inl ‹_›) rfl
  · exact .timeout (Or.inr ‹_›) rfl
  · exact .fail _ _ (by rw [‹s.phase = _›]; rfl)
  · exact .fail _ _ (by rw [‹s.phase = _›]; rfl)
  · exact .fail _ _ (by rw [‹s.phase = _›]; rfl)
  · exact .drain ‹_›
  · exact .wake ‹_›
  · exact .returns ‹_›
  · exact .drop _ ‹_›

/-- A step of the task runs a program or is behind the main loop, where the output is
left alone. -/
theorem taskStep_cases {s s' : System τ} {e : TaskEvent} (h : s.taskStep e = some s') :
    (∃ x, s.tx.program (s.handle = .dropped) s.phase e = some x ∧ s' = s.runProgram x) ∨
      s'.tx.link = s.tx.link ∧ s.phase ≠ .boot ∧ s'.phase ≠ .boot ∧ ∀ q, s'.phase ≠ .crashed q := by
  have hbehind : ∀ {p : Phase}, s.phase = p → p ≠ .boot → s'.tx.link = s.tx.link →
      s'.phase ≠ .boot → (∀ q, s'.phase ≠ .crashed q) →
      (∃ x, s.tx.program (s.handle = .dropped) s.phase e = some x ∧ s' = s.runProgram x) ∨
        s'.tx.link = s.tx.link ∧ s.phase ≠ .boot ∧ s'.phase ≠ .boot ∧
          ∀ q, s'.phase ≠ .crashed q :=
    fun hp hne hlink hboot hcrash => Or.inr ⟨hlink, hp ▸ hne, hboot, hcrash⟩
  cases isTaskStep_of_taskStep h with
  | program x runs => exact Or.inl ⟨x, runs, rfl⟩
  | fail n next stage =>
    rcases sweepStage_cases stage with ⟨hp, rfl⟩ | ⟨hp, rfl⟩ | ⟨hp, rfl⟩
    all_goals
      exact hbehind hp Phase.noConfusion rfl Phase.noConfusion fun _ => Phase.noConfusion
  | timeout stage event =>
    rcases stage with hp | hp
    all_goals
      exact hbehind hp Phase.noConfusion rfl Phase.noConfusion fun _ => Phase.noConfusion
  | closed stage | drain stage | wake stage | returns stage | drop status stage =>
    exact hbehind stage Phase.noConfusion rfl Phase.noConfusion fun _ => Phase.noConfusion

/-- Every step of the task is a move. -/
theorem deskMove_of_taskStep {s s' : System τ} {e : TaskEvent} (h : s.taskStep e = some s') :
    DeskMove s e s' := by
  cases isTaskStep_of_taskStep h with
  | program x runs => exact deskMove_runProgram runs
  | closed stage => exact .finish _ (Or.inl stage)
  | timeout stage event =>
    subst event
    rcases stage with stage | stage
    all_goals
      refine .program s.tx .failAck false ?_ ?_
        (.idle rfl (takes_nothing (by rw [stage]; rfl)))
      · rw [stage]
        rfl
      · simp only [outcome, Transceiver.program, stage, Option.bind_none, Phase.Leads]
        rfl
  | fail n next stage => exact .fail n next stage
  | drain stage => exact .drain stage
  | wake stage => exact .wake stage
  | returns stage => exact .finish _ (Or.inr stage)
  | drop status ended => exact .drop status ended

/-- A packet that arrives at a connected task is handled. -/
theorem Work.of_arriving {s : System τ} {e : TaskEvent} {o : Option Fault} {d : Desk}
    {pkt : IncomingPacket} (h : Work s e o d) (harrived : s.arriving e = some pkt)
    (hconn : s.tx.connectSig = false) :
    ∃ cut : Option IoError, o = cut.map .io ∧
      PacketWork pkt cut (s.tx.desk.onBook (Book.logReceived pkt)) d := by
  obtain ⟨hphase, rfl⟩ := arriving_reading harrived
  cases h with
  | idle same nothing => cases nothing.1.symm.trans harrived
  | connect pkt boot waits handed => cases hphase.symm.trans boot
  | connAck pkt arrived waiting book => cases hconn.symm.trans waiting
  | packet pkt cut arrived connected ends work =>
    cases arrived.symm.trans harrived
    exact ⟨cut, ends, work⟩
  | command cmd rest queue taken connected work => cases (consumed_select taken).2
  | alarm cut ends work tick => cases tick
  | disconnect stopping connected handed => cases hphase.symm.trans stopping

/-- A command that is taken from the queue is carried out. -/
theorem Work.of_consumed {s : System τ} {e : TaskEvent} {o : Option Fault} {d : Desk}
    {cmd : Command} (h : Work s e o d) (htaken : s.consumed e = some cmd) :
    s.tx.connectSig = false ∧ ∃ rest, s.tx.cmdQueue = cmd :: rest ∧
      CommandWork cmd o (s.tx.desk.onBook fun b => { b with cmdQueue := rest }) d := by
  obtain ⟨hphase, rfl⟩ := consumed_select htaken
  cases h with
  | idle same nothing => cases nothing.2.symm.trans htaken
  | connect pkt boot waits handed => cases hphase.symm.trans boot
  | connAck pkt arrived waiting book => cases (arriving_reading arrived).2
  | packet pkt cut arrived connected ends work => cases (arriving_reading arrived).2
  | command cmd rest queue taken connected work =>
    cases taken.symm.trans htaken
    exact ⟨connected, rest, queue, work⟩
  | alarm cut ends work tick => cases tick
  | disconnect stopping connected handed => cases hphase.symm.trans stopping

/-- Behind the main loop nothing is taken in. -/
theorem work_of_takes {s s' : System τ} {e : TaskEvent} (hstep : s.taskStep e = some s')
    (htakes : s.phase.takes e = true) : Work s e (s.outcome e) s'.tx.desk := by
  have hphase : s.phase = .reading ∨ s.phase = .select := by
    revert htakes
    cases s.phase <;> cases e <;> simp [Phase.takes]
  cases deskMove_of_taskStep hstep with
  | program tx p clean running leads work => exact work
  | finish status ended => rcases hphase with h | h <;> simp [h] at ended
  | fail n next stage => rcases hphase with h | h <;> rw [h] at stage <;> cases stage
  | drain stage | wake stage => rcases hphase with h | h <;> cases h.symm.trans stage
  | drop status ended => rcases hphase with h | h <;> cases h.symm.trans ended

/-- A step that takes a packet in handles it. -/
theorem packetWork_of_arriving {s s' : System τ} {e : TaskEvent} {pkt : IncomingPacket}
    (hstep : s.taskStep e = some s') (harrived : s.arriving e = some pkt)
    (hconn : s.tx.connectSig = false) :
    ∃ cut : Option IoError, s.outcome e = cut.map .io ∧
      PacketWork pkt cut (s.tx.desk.onBook (Book.logReceived pkt)) s'.tx.desk := by
  refine (work_of_takes hstep ?_).of_arriving harrived hconn
  obtain ⟨hphase, rfl⟩ := arriving_reading harrived
  rw [hphase]
  rfl

/-- A step that takes a command in carries it out. -/
theorem commandWork_of_consumed {s s' : System τ} {e : TaskEvent} {cmd : Command}
    (hstep : s.taskStep e = some s') (htaken : s.consumed e = some cmd) :
    s.tx.connectSig = false ∧ ∃ rest, s.tx.cmdQueue = cmd :: rest ∧ CommandWork cmd (s.outcome e)
      (s.tx.desk.onBook fun b => { b with cmdQueue := rest }) s'.tx.desk := by
  refine (work_of_takes hstep ?_).of_consumed htaken
  obtain ⟨hphase, rfl⟩ := consumed_select htaken
  rw [hphase]
  rfl

theorem taskMove_of_taskStep {s s' : System τ} {e : TaskEvent} (h : s.taskStep e = some s') :
    TaskMove s e s' := (deskMove_of_taskStep h).taskMove

/-- No step leads back to the start of the task. -/
theorem TaskMove.not_boot {s s' : System τ} {e : TaskEvent} (h : TaskMove s e s') :
    s'.phase ≠ .boot := by
  have hnext : ∀ {p : Phase}, (p.follows = true ∨ ∃ q, p = .crashed q) → p ≠ .boot := by
    rintro p (hp | ⟨q, rfl⟩) hboot
    · rw [hboot] at hp
      cases hp
    · cases hboot
  cases h with
  | quiet tx p clean running next book => exact hnext next
  | connAck tx p clean running next pkt arrived waiting book => exact hnext next
  | packet tx p clean running next pkt arrived connected effect => exact hnext next
  | command tx p clean running next cmd rest queue taken connected effect => exact hnext next
  | fail n next stage =>
    intro hp
    cases (show next = .boot from hp)
    revert stage
    cases s.phase <;> rintro ⟨⟩
  | finish status ended => exact Phase.noConfusion
  | drain stage => exact Phase.noConfusion
  | wake stage => exact Phase.noConfusion
  | drop status ended => exact Phase.noConfusion

end Task

/-! ## Moves of the clients -/

/-- A call has returned the callback with this identifier. -/
def Returned (s : System τ) (topic : Str) (id : UInt32) : Prop :=
  ∃ c cb qos, s.calls.lookup c = some (.done (.subscribed topic (.fastCallback cb) qos)) ∧
    cb.id = id

inductive ClientMove (s : System τ) : ClientEvent → System τ → Prop
  | handle (e : ClientEvent) (h : Handle) : ClientMove s e { s with handle := h }
  | giveUp (alive : s.receiverAlive = true) :
      ClientMove s .connectTimeout { s.enqueue .disconnect with handle := .dropped }
  | publish (c : Nat) (mode : PublishMode) (topic : Str) (payload : List UInt8) (retain : Bool)
      (fresh : s.calls.lookup c = none) :
      ClientMove s (.publish c mode topic payload retain)
        (s.startPublish c mode topic payload retain)
  | register (c : Nat) (cmd : PublishCommand) (n : Notifier)
      (call : s.calls.lookup c = some (.registering cmd n)) :
      ClientMove s (.register c) (s.registerPublish c cmd n)
  | sent (c : Nat) (call : Call) (cmd : Command) (found : s.calls.lookup c = some call)
      (sends : call.command = some cmd) (alive : s.receiverAlive = true) :
      ClientMove s (.send c) ((s.enqueue cmd).setCall c call.sent)
  | sendFailed (c : Nat) (call : Call) (cmd : Command) (found : s.calls.lookup c = some call)
      (sends : call.command = some cmd) (dead : s.receiverAlive = false) :
      ClientMove s (.send c) (s.sendFailed c call)
  | queueFull (c : Nat) (cmd : PublishCommand)
      (found : s.calls.lookup c = some (.tryingPublish cmd)) :
      ClientMove s (.send c) (s.setCall c (.done .queueFull))
  | pollPublish (c : Nat) (fut : PublishFuture)
      (found : s.calls.lookup c = some (.awaitingPublish fut)) :
      ClientMove s (.poll c) (s.pollPublish c fut)
  | pollSubscribe (c : Nat) (call : Call) (fut : SubscribeFuture)
      (found : s.calls.lookup c = some call) (waits : call.subscribeFuture = some fut) :
      ClientMove s (.poll c) (s.pollSubscribe c call fut)
  | cancelPublish (c : Nat) (call : Call) (fut : PublishFuture)
      (found : s.calls.lookup c = some call) (waits : call.publishFuture = some fut) :
      ClientMove s (.cancel c)
        ((s.setShared (fut.drop s.tx.shared)).setCall c (.done .cancelled))
  | cancelSubscribe (c : Nat) (call : Call) (fut : SubscribeFuture)
      (found : s.calls.lookup c = some call) (waits : call.subscribeFuture = some fut) :
      ClientMove s (.cancel c) (s.cancelSubscribe c fut)
  | cancelSend (c : Nat) (call : Call) (cmd : Command) (found : s.calls.lookup c = some call)
      (sends : call.command = some cmd) (waits : call.publishFuture = none) :
      ClientMove s (.cancel c) (s.setCall c (.done .cancelled))
  | subscribe (c : Nat) (topic : Str) (qos : QoS) (req : SubscriptionRequest)
      (fresh : s.calls.lookup c = none) :
      ClientMove s (.subscribe c topic qos req) (s.startSubscribe c topic qos req)
  | build (c : Nat) (topic : Str) (qos : QoS) (req : SubscriptionRequest) (actual : Option QoS)
      (kind : SubscriptionKind) (built : System τ)
      (found : s.calls.lookup c = some (.building topic qos req actual))
      (made : s.buildKind req = .ok (kind, built)) :
      ClientMove s (.build c)
        (built.setCall c (.sendingSubscribe ⟨topic, qos, kind⟩ actual))
  | buildPanics (c : Nat) (topic : Str) (qos : QoS) (req : SubscriptionRequest)
      (actual : Option QoS) (found : s.calls.lookup c = some (.building topic qos req actual))
      (panics : req.buildable = false) :
      ClientMove s (.build c) (s.setCall c (.done (.panicked .channelCapacity)))
  | command (e : ClientEvent) (c : Nat) (cmd : Command) (fresh : s.calls.lookup c = none)
      (other : cmd.isOther = true)
      (returned : ∀ topic id, cmd = .unsub ⟨topic, .fastCallback id⟩ → s.Returned topic id) :
      ClientMove s e (s.setCall c (.sending cmd))
  | mail (e : ClientEvent) (ch : Nat) (f : Channel → Channel) : ClientMove s e (s.setChannel ch f)

/-- `func` panics at a capacity that `mpsc::channel` does not accept, and only there. -/
theorem buildKind_eq (req : SubscriptionRequest) (s : System τ) :
    (req.buildable = false ∧ s.buildKind req = .error .channelCapacity) ∨
      req.buildable = true ∧ ∃ kind built, s.buildKind req = .ok (kind, built) := by
  cases req with
  | lossy queueCap =>
    by_cases hcap : queueCap = 0 ∨ maxPermits < queueCap
    · refine Or.inl ⟨?_, if_pos hcap⟩
      simp only [SubscriptionRequest.buildable, Bool.and_eq_false_iff, decide_eq_false_iff_not]
      omega
    · refine Or.inr ⟨?_, _, _, if_neg hcap⟩
      simp only [SubscriptionRequest.buildable, Bool.and_eq_true, decide_eq_true_eq]
      omega
  | _ => exact Or.inr ⟨rfl, _, _, rfl⟩

theorem start_eq_some {c : Nat} {s s' t : System τ} (h : s.start c t = some s') :
    s.calls.lookup c = none ∧ s' = t := by
  unfold start at h
  split at h
  · rename_i hfresh
    exact ⟨hfresh.2, (Option.some.inj h).symm⟩
  · cases h

theorem clientMove_send {c : Nat} {s s' : System τ} (h : s.stepSend c = some s') :
    ClientMove s (.send c) s' := by
  obtain ⟨call, hcall, h⟩ := Option.bind_eq_some_iff.mp h
  obtain ⟨cmd, hcmd, h⟩ := Option.bind_eq_some_iff.mp h
  split at h
  · rename_i hdead
    cases h
    exact .sendFailed c call cmd hcall hcmd (by simpa using hdead)
  · rename_i halive
    split at h
    · cases h
      exact .sent c call cmd hcall hcmd (by simpa using halive)
    · split at h
      · cases h
        exact .queueFull c _ hcall
      · cases h

theorem clientMove_poll {c : Nat} {s s' : System τ} (h : s.stepPoll c = some s') :
    ClientMove s (.poll c) s' := by
  obtain ⟨call, hcall, h⟩ := Option.bind_eq_some_iff.mp h
  split at h
  · cases h
    exact .pollPublish c _ hcall
  · obtain ⟨fut, hfut, h⟩ := Option.bind_eq_some_iff.mp h
    cases h
    exact .pollSubscribe c call fut hcall hfut

theorem clientMove_cancel {c : Nat} {s s' : System τ} (h : s.stepCancel c = some s') :
    ClientMove s (.cancel c) s' := by
  obtain ⟨call, hcall, h⟩ := Option.bind_eq_some_iff.mp h
  split at h
  all_goals cases h
  · exact .cancelPublish c _ _ hcall rfl
  · exact .cancelPublish c _ _ hcall rfl
  · exact .cancelSubscribe c _ _ hcall rfl
  · exact .cancelSubscribe c _ _ hcall rfl
  · exact .cancelSend c _ _ hcall rfl rfl
  · exact .cancelSend c _ _ hcall rfl rfl
  · exact .cancelSend c _ _ hcall rfl rfl

theorem clientMove_connect {e : ClientEvent} {s s' : System τ} (h : s.connectStep e = some s') :
    ClientMove s e s' := by
  unfold connectStep at h
  split at h
  · cases h
    exact .handle _ _
  · cases h
    exact .handle _ _
  · split at h <;> cases h
    exact .handle _ _
  · cases h
    split
    · exact .giveUp ‹_›
    · exact .handle _ _
  · cases h

/-- Every step of a client is a move. -/
theorem clientMove_of_clientStep {s s' : System τ} {e : ClientEvent}
    (h : s.clientStep e = some s') : ClientMove s e s' := by
  cases e with
  | connected | connectFailed | connectTimeout =>
    simp only [clientStep] at h
    split at h
    · exact clientMove_connect h
    · cases h
  | dropHandles =>
    simp only [clientStep] at h
    split at h <;> cases h
    exact .handle _ _
  | publish c mode topic payload retain =>
    obtain ⟨hfresh, rfl⟩ := start_eq_some h
    exact .publish c mode topic payload retain hfresh
  | register c =>
    simp only [clientStep] at h
    split at h <;> cases h
    exact .register c _ _ ‹_›
  | send c => exact clientMove_send h
  | poll c => exact clientMove_poll h
  | cancel c => exact clientMove_cancel h
  | subscribe c topic qos req =>
    obtain ⟨hfresh, rfl⟩ := start_eq_some h
    exact .subscribe c topic qos req hfresh
  | build c =>
    simp only [clientStep] at h
    split at h
    · rename_i topic qos req actual found
      rcases buildKind_eq req s with ⟨hpanics, heq⟩ | ⟨-, kind, built, heq⟩
      · rw [heq] at h
        cases h
        exact .buildPanics c topic qos req actual found hpanics
      · rw [heq] at h
        cases h
        exact .build c topic qos req actual kind built found heq
    · cases h
  | unsubscribe c topic =>
    obtain ⟨hfresh, rfl⟩ := start_eq_some h
    exact .command _ c _ hfresh rfl (by rintro _ _ ⟨⟩)
  | removeCallback c other =>
    simp only [clientStep, startRemoveCallback] at h
    split at h
    · rename_i topic cb qos hcall
      obtain ⟨hfresh, rfl⟩ := start_eq_some h
      refine .command _ c _ hfresh rfl ?_
      rintro _ _ ⟨⟩
      exact ⟨other, cb, qos, hcall, rfl⟩
    · cases h
  | disconnect c =>
    obtain ⟨hfresh, rfl⟩ := start_eq_some h
    exact .command _ c _ hfresh rfl (by rintro _ _ ⟨⟩)
  | receive ch =>
    cases h
    exact .mail _ ch _
  | closeChannel ch =>
    cases h
    exact .mail _ ch _

/-! ### What clients leave alone -/

/-- The two states agree in what belongs to the task alone. -/
structure SameTask (s s' : System τ) : Prop where
  link : s'.tx.link = s.tx.link
  timeoutQueue : s'.tx.timeoutQueue = s.tx.timeoutQueue
  pingReq : s'.tx.pingReq = s.tx.pingReq
  rxPkt : s'.tx.rxPkt = s.tx.rxPkt
  phase : s'.phase = s.phase
  sweep : s'.sweep = s.sweep
  pendingPackets : s'.tx.pendingPackets = s.tx.pendingPackets
  pendingSubs : s'.tx.pendingSubs = s.tx.pendingSubs
  subscriptions : s'.tx.subscriptions = s.tx.subscriptions
  connectSig : s'.tx.connectSig = s.tx.connectSig
  connectResult : s'.tx.connectResult = s.tx.connectResult
  received : s'.tx.history.received = s.tx.history.received
  dispatched : s'.tx.history.dispatched = s.tx.history.dispatched
  woken : s'.tx.history.woken = s.tx.history.woken
  unexpectedSubAcks : s'.tx.history.unexpectedSubAcks = s.tx.history.unexpectedSubAcks

/-- What a call to `func` that returns has made. -/
theorem buildKind_cases {s built : System τ} {req : SubscriptionRequest} {kind : SubscriptionKind}
    (h : s.buildKind req = .ok (kind, built)) :
    (req = .void ∧ kind = .void ∧ built = s) ∨
      (∃ queueCap, req = .lossy queueCap ∧ 0 < queueCap ∧ kind = .lossy s.channels ∧
        built = s.createChannel (some queueCap)) ∨
      (req = .unbounded ∧ kind = .unbounded s.channels ∧ built = s.createChannel none) ∨
      ∃ f, req = .fastCallback f ∧ kind = .fastCallback ⟨s.tx.shared.nextCallbackId, f⟩ ∧
        built = s.setShared
          { s.tx.shared with nextCallbackId := s.tx.shared.nextCallbackId + 1 } := by
  cases req with
  | void =>
    cases h
    exact Or.inl ⟨rfl, rfl, rfl⟩
  | lossy queueCap =>
    simp only [buildKind] at h
    split at h <;> cases h
    exact Or.inr (Or.inl ⟨queueCap, rfl, by omega, rfl, rfl⟩)
  | unbounded =>
    cases h
    exact Or.inr (Or.inr (Or.inl ⟨rfl, rfl, rfl⟩))
  | fastCallback f =>
    cases h
    exact Or.inr (Or.inr (Or.inr ⟨f, rfl, rfl, rfl⟩))

/-- A call to `func` changes the channels and the counter of callbacks. -/
theorem buildKind_frame {s built : System τ} {req : SubscriptionRequest} {kind : SubscriptionKind}
    (h : s.buildKind req = .ok (kind, built)) :
    built = { s with
      tx := { s.tx with
        shared := { s.tx.shared with nextCallbackId := built.tx.shared.nextCallbackId }
        mail := { s.tx.mail with channels := built.tx.mail.channels } }
      channels := built.channels } := by
  rcases buildKind_cases h with
    ⟨-, -, rfl⟩ | ⟨_, -, -, -, rfl⟩ | ⟨-, -, rfl⟩ | ⟨_, -, -, rfl⟩
  all_goals rfl

/-- Of the transceiver, clients change the command queue, the shared data, the channels and the
history of what they allocate and encode. -/
theorem ClientMove.frame {s s' : System τ} {e : ClientEvent} (h : ClientMove s e s') :
    (s'.tx = { s.tx with
      cmdQueue := s'.tx.cmdQueue
      shared := s'.tx.shared
      mail := { s.tx.mail with channels := s'.tx.mail.channels }
      history := { s.tx.history with
        allocated := s'.tx.history.allocated, encoded := s'.tx.history.encoded } }) ∧
      s'.phase = s.phase ∧ s'.sweep = s.sweep := by
  cases h with
  | publish c mode topic payload retain fresh =>
    unfold startPublish encodePublish
    split <;> split <;> exact ⟨rfl, rfl, rfl⟩
  | sendFailed c call cmd found sends dead =>
    unfold System.sendFailed
    split <;> exact ⟨rfl, rfl, rfl⟩
  | pollPublish c fut found =>
    unfold System.pollPublish
    split <;> exact ⟨rfl, rfl, rfl⟩
  | pollSubscribe c call fut found waits =>
    unfold System.pollSubscribe
    split <;> exact ⟨rfl, rfl, rfl⟩
  | cancelSubscribe c call fut found waits =>
    unfold System.cancelSubscribe
    split <;> exact ⟨rfl, rfl, rfl⟩
  | subscribe c topic qos req fresh =>
    unfold startSubscribe
    split <;> exact ⟨rfl, rfl, rfl⟩
  | build c topic qos req actual kind built found made =>
    rw [buildKind_frame made]
    exact ⟨rfl, rfl, rfl⟩
  | _ => exact ⟨rfl, rfl, rfl⟩

theorem ClientMove.sameTask {s s' : System τ} {e : ClientEvent} (h : ClientMove s e s') :
    SameTask s s' := by
  obtain ⟨htx, hphase, hsweep⟩ := h.frame
  exact {
    link := by rw [htx]
    timeoutQueue := by rw [htx]
    pingReq := by rw [htx]
    rxPkt := by rw [htx]
    phase := hphase
    sweep := hsweep
    pendingPackets := by rw [htx]
    pendingSubs := by rw [htx]
    subscriptions := by rw [htx]
    connectSig := by rw [htx]
    connectResult := by rw [htx]
    received := by rw [htx]
    dispatched := by rw [htx]
    woken := by rw [htx]
    unexpectedSubAcks := by rw [htx] }

/-- Clients change nothing of the transceiver but the books. -/
theorem ClientMove.onlyBook {s s' : System τ} {e : ClientEvent} (h : ClientMove s e s') :
    s'.tx = { s.tx with toBook := s'.tx.toBook } := by
  obtain ⟨htx, -⟩ := h.frame
  rw [htx]

/-- The two states agree in the counters, in the channels and in the history. -/
structure SameCounters (s s' : System τ) : Prop where
  nextPacketId : s'.tx.shared.nextPacketId = s.tx.shared.nextPacketId
  nextCallbackId : s'.tx.shared.nextCallbackId = s.tx.shared.nextCallbackId
  channels : s'.channels = s.channels
  history : s'.tx.history = s.tx.history

theorem sameCounters_dropPublish (s : System τ) (fut : PublishFuture) (c : Nat) (call : Call) :
    SameCounters s ((s.setShared (fut.drop s.tx.shared)).setCall c call) :=
  ⟨fut.nextPacketId_drop _, fut.nextCallbackId_drop _, rfl, rfl⟩

/-- Clients count only when a publish starts and when a subscription is built. -/
theorem ClientMove.counters_cases {s s' : System τ} {e : ClientEvent} (h : ClientMove s e s') :
    (∃ c mode topic payload retain, e = .publish c mode topic payload retain ∧
        s' = s.startPublish c mode topic payload retain) ∨
      (∃ c topic qos req actual kind built, e = .build c ∧
        s.calls.lookup c = some (.building topic qos req actual) ∧
        s.buildKind req = .ok (kind, built) ∧
        s' = built.setCall c (.sendingSubscribe ⟨topic, qos, kind⟩ actual)) ∨
      SameCounters s s' := by
  cases h with
  | publish c mode topic payload retain fresh =>
    exact Or.inl ⟨c, mode, topic, payload, retain, rfl, rfl⟩
  | build c topic qos req actual kind built found made =>
    exact Or.inr (Or.inl ⟨c, topic, qos, req, actual, kind, built, rfl, found, made, rfl⟩)
  | register c cmd n call =>
    exact Or.inr (Or.inr ⟨s.tx.shared.nextPacketId_setNotifierMap n _,
      s.tx.shared.nextCallbackId_setNotifierMap n _, rfl, rfl⟩)
  | sendFailed c call cmd found sends dead =>
    refine Or.inr (Or.inr ?_)
    unfold System.sendFailed
    split
    · exact sameCounters_dropPublish _ _ _ _
    · exact ⟨rfl, rfl, rfl, rfl⟩
  | pollPublish c fut found =>
    refine Or.inr (Or.inr ?_)
    unfold System.pollPublish
    rcases fut.poll_cases s.polls s.tx.shared with ⟨ended, fut', hpoll⟩ | ⟨r, -, -, -, hpoll⟩
    · rw [hpoll]
      exact ⟨rfl, rfl, rfl, rfl⟩
    · rw [hpoll]
      exact ⟨s.tx.shared.nextPacketId_setNotifierMap _ _,
        s.tx.shared.nextCallbackId_setNotifierMap _ _, rfl, rfl⟩
  | pollSubscribe c call fut found waits =>
    refine Or.inr (Or.inr ?_)
    unfold System.pollSubscribe
    rcases fut.poll_cases c s.polls s.tx.shared with
      ⟨result, fut', hpoll⟩ | ⟨-, slots, -, ⟨i, -, -, hpoll⟩ | ⟨i, slot, -, -, hpoll⟩ | ⟨-, hpoll⟩⟩
    all_goals
      rw [hpoll]
      exact ⟨rfl, rfl, rfl, rfl⟩
  | cancelPublish c call fut found waits =>
    exact Or.inr (Or.inr (sameCounters_dropPublish _ _ _ _))
  | cancelSubscribe c call fut found waits =>
    refine Or.inr (Or.inr ?_)
    unfold System.cancelSubscribe
    rcases fut.drop_cases s.tx.shared with
      hdrop | ⟨-, slots, i, -, -, ⟨-, hdrop⟩ | ⟨slot, -, hdrop⟩⟩
    all_goals
      rw [hdrop]
      exact ⟨rfl, rfl, rfl, rfl⟩
  | subscribe c topic qos req fresh =>
    refine Or.inr (Or.inr ?_)
    unfold startSubscribe
    split <;> exact ⟨rfl, rfl, rfl, rfl⟩
  | _ => exact Or.inr (Or.inr ⟨rfl, rfl, rfl, rfl⟩)

/-! ### What clients do to their calls -/

/-- The future of a publish call that has ended: nothing waits under its identifier any
more, and the call has succeeded only if there was no entry. -/
structure FutureEnds (s s' : System τ) (fut : PublishFuture) (outcome : Outcome) : Prop where
  left : ∀ r, (s'.tx.shared.notifierMap fut.notifier).lookup fut.packetId = some r →
    r.isWaiting = false
  ok : outcome = .ok → (s.tx.shared.notifierMap fut.notifier).lookup fut.packetId = none

/-- `func` has made this receiver, and the counters are as it left them. -/
def Makes (s s' : System τ) (req : SubscriptionRequest) (kind : SubscriptionKind) : Prop :=
  ∃ built, s.buildKind req = .ok (kind, built) ∧ s'.channels = built.channels ∧
    s'.tx.shared.nextCallbackId = built.tx.shared.nextCallbackId

/-- How a call goes on: where it stood if it had started, where it stands now, and what it
has put into the queue. -/
inductive CallStep (s s' : System τ) : Option Call → Call → List Command → Prop
  | publish (mode : PublishMode) (cmd : PublishCommand) (qos : cmd.qos = mode.qos)
      (id : mode.qos ≠ .atMostOnce → cmd.packetId = s.tx.shared.nextPacketId ∧
        s'.tx.history.allocated = s.tx.history.allocated + 1)
      (encoded : ∃ topic payload retain, makePacket (⟨.new false mode.qos retain, topic,
        cmd.packetId, payload⟩ : OutgoingPublishPacket) = .ok cmd.packet) :
      CallStep s s' none (mode.firstStage cmd) []
  /-- The topic exists already. -/
  | known (topic : Str) (qos : QoS) (req : SubscriptionRequest) (actual : QoS)
      (entry : s.tx.shared.subs.lookup topic = some (.existing actual)) :
      CallStep s s' none (.building topic qos req (some actual)) []
  /-- The topic is pending already. -/
  | join (topic : Str) (qos : QoS) (req : SubscriptionRequest) (slots : List Slot)
      (entry : s.tx.shared.subs.lookup topic = some (.pending slots)) :
      CallStep s s' none (.awaitingBefore (.new topic) qos req) []
  /-- The call makes the topic pending. -/
  | first (topic : Str) (qos : QoS) (req : SubscriptionRequest)
      (entry : s.tx.shared.subs.lookup topic = none) :
      CallStep s s' none (.building topic qos req none) []
  | command (cmd : Command) (other : cmd.isOther = true)
      (returned : ∀ topic id, cmd = .unsub ⟨topic, .fastCallback id⟩ → s.Returned topic id) :
      CallStep s s' none (.sending cmd) []
  | register (cmd : PublishCommand) (n : Notifier) (fut : PublishFuture)
      (made : fut = ⟨cmd.packetId, n, none, none⟩)
      (entry : (s'.tx.shared.notifierMap n).lookup cmd.packetId = some .withoutWaker) :
      CallStep s s' (some (.registering cmd n)) (.sendingPublish cmd (some fut)) []
  | build (topic : Str) (qos : QoS) (req : SubscriptionRequest) (actual : Option QoS)
      (kind : SubscriptionKind) (made : Makes s s' req kind) :
      CallStep s s' (some (.building topic qos req actual))
        (.sendingSubscribe ⟨topic, qos, kind⟩ actual) []
  | sent (call : Call) (cmd : Command) (sends : call.command = some cmd) :
      CallStep s s' (some call) call.sent [cmd]
  | pollAck (fut : PublishFuture) (w : Waker) : CallStep s s' (some (.awaitingPublish fut))
      (.awaitingPublish { fut with latest := some w }) []
  | pollTopic (call : Call) (fut fut' : SubscribeFuture)
      (waits : call.subscribeFuture = some fut) (same : fut'.topic = fut.topic) :
      CallStep s s' (some call) (call.withSubscribeFuture fut') []
  | ready (call : Call) (fut : SubscribeFuture) (result : Except Unit QoS)
      (waits : call.subscribeFuture = some fut)
      (entry : ∀ qos, result = .ok qos → fut.result = none →
        s.tx.shared.subs.lookup fut.topic = some (.existing qos)) :
      CallStep s s' (some call) (call.subscribeReady result) []
  | ended (old : Option Call) (outcome : Outcome)
      (left : ∀ fut, old.bind Call.publishFuture = some fut → fut.result = none →
        FutureEnds s s' fut outcome)
      (ends : outcome.fails = true ∨
        outcome = .ok ∧ ∃ fut, old = some (.awaitingPublish fut))
      (live : ∀ call, old = some call → call.isDone = false) :
      CallStep s s' old (.done outcome) []

/-- A move of a client changes no call, or one call goes on. -/
inductive CallMove (s s' : System τ) : Prop
  | none (calls : s'.calls = s.calls)
      (queue : s'.tx.cmdQueue = s.tx.cmdQueue ∨ s'.tx.cmdQueue = s.tx.cmdQueue ++ [.disconnect])
  | step (c : Nat) (call : Call) (cmds : List Command) (calls : s'.calls = s.calls.insert c call)
      (queue : s'.tx.cmdQueue = s.tx.cmdQueue ++ cmds)
      (goes : CallStep s s' (s.calls.lookup c) call cmds)

theorem callMove_of {s s' : System τ} {c : Nat} {call : Call} (old : Option Call)
    (found : s.calls.lookup c = old) (goes : CallStep s s' old call [])
    (calls : s'.calls = s.calls.insert c call) (queue : s'.tx.cmdQueue = s.tx.cmdQueue) :
    CallMove s s' :=
  .step c call [] calls (by rw [queue, List.append_nil]) (found ▸ goes)

/-- A call that holds no publish future just ends. -/
theorem CallStep.endsPlain {s s' : System τ} (old : Option Call)
    (h : old.bind Call.publishFuture = none) (hlive : ∀ call, old = some call → call.isDone = false)
    {outcome : Outcome} (hfails : outcome.fails = true) :
    CallStep s s' old (.done outcome) [] := by
  refine .ended old outcome (fun fut hfut => ?_) (Or.inl hfails) hlive
  rw [h] at hfut
  cases hfut

/-- A call that ends by dropping its future has not succeeded. -/
theorem CallStep.dropsFuture {s s' : System τ} {call : Call} {fut : PublishFuture}
    (hfut : call.publishFuture = some fut) (hshared : s'.tx.shared = fut.drop s.tx.shared)
    {outcome : Outcome} (hfails : outcome.fails = true) :
    CallStep s s' (some call) (.done outcome) [] := by
  refine .ended _ outcome (fun fut' hfut' hresult => ?_) (Or.inl hfails) ?_
  · cases hfut.symm.trans hfut'
    refine ⟨fun r hr => ?_, fun hok => ?_⟩
    · rw [hshared, PublishFuture.lookup_drop hresult] at hr
      cases hr
    · subst hok
      cases hfails
  · rintro _ ⟨⟩
    exact Call.live_of_publishes hfut

theorem callMove_pollPublish {s : System τ} {c : Nat} {fut : PublishFuture}
    (found : s.calls.lookup c = some (.awaitingPublish fut)) :
    CallMove s (s.pollPublish c fut) := by
  unfold System.pollPublish
  rcases fut.poll_cases s.polls s.tx.shared with ⟨ended, fut', hpoll⟩ | ⟨r, -, -, -, hpoll⟩
  · rw [hpoll]
    refine callMove_of _ found (.ended _ _ ?_ ?_ (by rintro _ ⟨⟩; rfl)) rfl rfl
    swap
    · cases ended with
      | true => exact Or.inl rfl
      | false => exact Or.inr ⟨rfl, fut, rfl⟩
    rintro fut ⟨⟩ hresult
    rcases PublishFuture.entry_of_poll hpoll hresult with ⟨rfl, hentry⟩ | ⟨rfl, hentry⟩
    · refine ⟨fun r hr => ?_, fun hok => by cases hok⟩
      cases hentry.symm.trans hr
      rfl
    · refine ⟨fun r hr => ?_, fun _ => hentry⟩
      cases hentry.symm.trans hr
  · rw [hpoll]
    exact callMove_of _ found (.pollAck fut _) rfl rfl

theorem ClientMove.callMove {s s' : System τ} {e : ClientEvent} (h : ClientMove s e s') :
    CallMove s s' := by
  cases h with
  | handle e handle => exact .none rfl (Or.inl rfl)
  | giveUp alive => exact .none rfl (Or.inr rfl)
  | publish c mode topic payload retain fresh =>
    unfold startPublish encodePublish
    split
    · rename_i hqos
      split
      · exact callMove_of none fresh (.endsPlain _ rfl (by rintro _ ⟨⟩) rfl) rfl rfl
      · exact callMove_of none fresh
          (.publish mode _ rfl (fun h => absurd hqos h) ⟨_, _, _, ‹_›⟩) rfl rfl
    · split
      · exact callMove_of none fresh (.endsPlain _ rfl (by rintro _ ⟨⟩) rfl) rfl rfl
      · exact callMove_of none fresh
          (.publish mode _ rfl (fun _ => ⟨rfl, rfl⟩) ⟨_, _, _, ‹_›⟩) rfl rfl
  | register c cmd n call =>
    exact callMove_of _ call (.register cmd n _ rfl (PublishFuture.lookup_new _ _ _)) rfl rfl
  | sent c call cmd found sends alive =>
    exact .step c call.sent [cmd] rfl rfl (found ▸ .sent call cmd sends)
  | sendFailed c call cmd found sends dead =>
    unfold System.sendFailed
    split
    · exact callMove_of _ found (.dropsFuture rfl rfl rfl) rfl rfl
    · rename_i hplain
      refine callMove_of _ found (.endsPlain _ ?_ ?_ rfl) rfl rfl
      swap
      · rintro _ ⟨⟩
        exact Call.live_of_command sends
      cases call with
      | sendingPublish cmd fut =>
        cases fut with
        | none => rfl
        | some fut => exact absurd rfl (hplain _ fut)
      | awaitingPublish fut => cases sends
      | _ => rfl
  | queueFull c cmd found =>
    exact callMove_of _ found (.endsPlain _ rfl (by rintro _ ⟨⟩; rfl) rfl) rfl rfl
  | pollPublish c fut found => exact callMove_pollPublish found
  | pollSubscribe c call fut found waits =>
    have hlive : ∀ call', some call = some call' → call'.isDone = false := by
      rintro _ ⟨⟩
      exact Call.live_of_subscribes waits
    unfold System.pollSubscribe
    rcases fut.poll_cases c s.polls s.tx.shared with
      ⟨result, fut', hpoll⟩ | ⟨-, slots, -, ⟨i, -, -, hpoll⟩ | ⟨i, slot, -, -, hpoll⟩ | ⟨-, hpoll⟩⟩
    · have hentry : ∀ qos, result = .ok qos → fut.result = none →
          s.tx.shared.subs.lookup fut.topic = some (.existing qos) :=
        fun qos => SubscribeFuture.entry_of_poll hpoll
      rw [hpoll]
      exact callMove_of _ found (.ready call fut result waits hentry) rfl rfl
    · rw [hpoll]
      exact callMove_of _ found
        (.endsPlain (some call) (Call.publishFuture_of_subscribes waits) hlive rfl) rfl rfl
    · rw [hpoll]
      exact callMove_of _ found
        (.pollTopic call fut { fut with latest := some s.polls } waits rfl) rfl rfl
    · rw [hpoll]
      exact callMove_of _ found (.pollTopic call fut
        { fut with wakerIndex := some slots.length, latest := some s.polls } waits rfl) rfl rfl
  | cancelPublish c call fut found waits =>
    exact callMove_of _ found (.dropsFuture waits rfl rfl) rfl rfl
  | cancelSubscribe c call fut found waits =>
    have hlive : ∀ call', some call = some call' → call'.isDone = false := by
      rintro _ ⟨⟩
      exact Call.live_of_subscribes waits
    unfold System.cancelSubscribe
    split
    all_goals
      exact callMove_of _ found
        (.endsPlain (some call) (Call.publishFuture_of_subscribes waits) hlive rfl) rfl rfl
  | cancelSend c call cmd found sends waits =>
    refine callMove_of _ found (.endsPlain (some call) waits ?_ rfl) rfl rfl
    rintro _ ⟨⟩
    exact Call.live_of_command sends
  | subscribe c topic qos req fresh =>
    unfold startSubscribe
    match hentry : s.tx.shared.subs.lookup topic with
    | some (.existing actual) =>
      exact callMove_of _ fresh (.known topic qos req actual hentry) rfl rfl
    | some (.pending slots) =>
      exact callMove_of _ fresh (.join topic qos req slots hentry) rfl rfl
    | none => exact callMove_of _ fresh (.first topic qos req hentry) rfl rfl
  | build c topic qos req actual kind built found made =>
    refine callMove_of _ found (.build topic qos req actual kind ⟨built, made, rfl, rfl⟩) ?_ ?_
    all_goals
      rw [buildKind_frame made]
      rfl
  | buildPanics c topic qos req actual found panics =>
    exact callMove_of _ found (.endsPlain _ rfl (by rintro _ ⟨⟩; rfl) rfl) rfl rfl
  | command e c cmd fresh other returned =>
    exact callMove_of _ fresh (.command cmd other returned) rfl rfl
  | mail e ch f => exact .none rfl (Or.inl rfl)

/-- A call that has ended does not go on. -/
theorem CallStep.not_done {s s' : System τ} {outcome : Outcome} {call : Call}
    {cmds : List Command} : ¬ CallStep s s' (some (.done outcome)) call cmds := by
  intro h
  cases h with
  | sent _ _ sends => cases sends
  | pollTopic _ _ _ waits => cases waits
  | ready _ _ _ waits => cases waits
  | ended _ _ _ _ live => cases live _ rfl

theorem done_clientStep {s s' : System τ} {e : ClientEvent} (h : s.clientStep e = some s')
    {c : Nat} {outcome : Outcome} (hdone : s.calls.lookup c = some (.done outcome)) :
    s'.calls.lookup c = some (.done outcome) := by
  cases (clientMove_of_clientStep h).callMove with
  | none calls queue => rwa [calls]
  | step c' call cmds calls queue goes =>
    have hc : c ≠ c' := by
      rintro rfl
      rw [hdone] at goes
      exact goes.not_done
    rwa [calls, AList.lookup_insert_ne hc]

theorem calls_taskStep [Transport τ] {s s' : System τ} {e : TaskEvent}
    (hstep : s.taskStep e = some s') : s'.calls = s.calls := by
  cases taskMove_of_taskStep hstep <;> rfl

theorem done_step [Transport τ] {s s' : System τ} {e : Event} (h : s.step e = some s') {c : Nat}
    {outcome : Outcome} (hdone : s.calls.lookup c = some (.done outcome)) :
    s'.calls.lookup c = some (.done outcome) := by
  cases e with
  | client e => exact done_clientStep h hdone
  | task e => rwa [calls_taskStep h]

/-- A task that is there was there before. -/
theorem receiverAlive_of_step [Transport τ] {s s' : System τ} {e : Event}
    (h : s.step e = some s') (halive : s'.receiverAlive = true) : s.receiverAlive = true := by
  cases e with
  | client e =>
    rw [receiverAlive, (clientMove_of_clientStep h).sameTask.phase] at halive
    exact halive
  | task e =>
    unfold receiverAlive
    cases taskMove_of_taskStep h with
    | quiet tx p clean running | connAck tx p clean running | packet tx p clean running
    | command tx p clean running =>
      cases hp : s.phase <;> rw [hp] at running <;> first | rfl | cases running
    | finish status ended => rcases ended with hp | hp <;> rw [hp]
    | fail n next stage =>
      cases hp : s.phase <;> rw [hp] at stage <;> first | rfl | cases stage
    | drain stage | wake stage => rw [stage]
    | drop status ended => rw [ended]

/-- A connection that was answered stays so. -/
theorem connected_step [Transport τ] {s s' : System τ} {e : Event} (h : s.step e = some s')
    (hconn : s.tx.connectSig = false) : s'.tx.connectSig = false := by
  cases e with
  | client e => exact (clientMove_of_clientStep h).sameTask.connectSig.trans hconn
  | task e =>
    cases taskMove_of_taskStep h with
    | quiet tx p clean running next book =>
      show tx.connectSig = false
      rw [book]
      exact hconn
    | connAck tx p clean running next pkt arrived waiting book =>
      show tx.connectSig = false
      rw [book]
    | packet tx p clean running next pkt arrived connected effect =>
      exact effect.connect.1.trans hconn
    | command tx p clean running next cmd rest queue taken connected effect =>
      exact effect.connect.1.trans hconn
    | _ => exact hconn

end System

end Lmc
