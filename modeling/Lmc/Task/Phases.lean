import Lmc.Task.Transceiver

/-!
# The course of the task

The task is a sequence of phases. The main loop waits in `select`; its two inner loops,
which write and read until the socket would block, take one round a step. When the loop
has ended the task tries to disconnect, sweeps the maps it shares with the clients, one
map a step, wakes the wakers it has collected and returns.

`program` gives what the task runs in a phase when an event happens. The sweep is not
among these programs, since it changes nothing but the shared maps.
-/

namespace Lmc

/-! ## Phases -/

structure ShutdownStatus where
  disconnectSent : Bool
  clean : Bool
deriving DecidableEq, Repr

inductive Phase where
  /-- `run_task_loop` is about to send `CONNECT`. -/
  | boot
  /-- The `select!` of `task_step`. -/
  | select
  /-- The loop of `continue_writing_packet`, from `task_step`. -/
  | writing
  /-- The read loop of `task_step`. -/
  | reading
  /-- The main loop has ended because the peer closed the connection. -/
  | closed
  /-- The main loop has ended for another reason. -/
  | stopping
  /-- The loop of `send_disconnect_and_flush`. -/
  | flushing
  /-- The loop of `continue_writing_packet`, from `send_disconnect_and_flush`. -/
  | flushWriting
  /-- `send_close_notify`, before its loop and in it. -/
  | closeNotify
  | notifying
  /-- The sweep of the shared maps. -/
  | failAck
  | failRec
  | failComp
  | draining
  | waking
  | returning
  /-- The task has returned. -/
  | finished (status : ShutdownStatus)
  /-- The transceiver has been dropped. -/
  | gone
  | crashed (p : Panic)
deriving DecidableEq, Repr

inductive TaskEvent where
  | proceed
  | writable (ready : Except IoError Unit)
  | readable (ready : Except IoError Unit)
  | command
  | alarm
  /-- The two seconds for the disconnect sequence are over. -/
  | timeout
deriving DecidableEq, Repr

namespace Transceiver

open EStateLogic

variable {τ : Type} [Transport τ]

/-! ## Programs of the main loop -/

/-- A transport operation that does not write, as a step of the output. -/
def onTransport {α : Type} (op : τ → Except IoError α × τ) : TaskM τ α :=
  onLink do
    let link ← get
    set { link with transport := (op link.transport).2 }
    match (op link.transport).1 with
    | .ok a => return a
    | .error e => throw (.io e)

def awaitReady (ready : Except IoError Unit) : TaskM τ Unit :=
  match ready with
  | .ok () => pure ()
  | .error e => throw (.io e)

/-- Take the `CONNECT` packet out of `tx_pkt` and send it. -/
def bootstrap : TaskM τ Unit := do
  match (← get).link.txPkt with
  | none => pure ()
  | some pkt =>
    onLink (modify (Link.setTx none))
    onLink (Link.sendPacket pkt.packet false)

/-- One round of `continue_writing_packet` where a write that would block ends the loop. -/
def writeRound (onClosed again next : Phase) : TaskM τ Phase := do
  match ← recover (fun | .io .wouldBlock => some (some false) | _ => none)
      (onLink Link.writeOnce) with
  | some true => return onClosed
  | some false => return next
  | none => return again

/-- What the read loop finds. -/
inductive Incoming where
  | packet (pkt : IncomingPacket)
  | closed
  | again
  | idle

def Incoming.ofState : PacketReadState → Incoming
  | .incoming pkt => .packet pkt
  | .connectionClosed => .closed
  | .needMoreData => .again

/-- The reader and the transport behind a read. -/
def putRx (rx : Rx τ) (tx : Transceiver τ) : Transceiver τ :=
  { tx with rxPkt := rx.reader, link := tx.link.setTransport rx.transport }

/-- `recv` on the reader of the task, where a read that would block ends the loop. -/
def recvPacket : TaskM τ Incoming := fun tx =>
  match PacketReader.recv.run (⟨tx.rxPkt, tx.link.transport⟩ : Rx τ) with
  | .ok state rx => .ok (.ofState state) (tx.putRx rx)
  | .error .wouldBlock rx => .ok .idle (tx.putRx rx)
  | .error e rx => .error (.io e) (tx.putRx rx)

/-- The phase behind a round of the read loop. -/
def processIncoming : Incoming → TaskM τ Phase
  | .packet pkt => do
    if ← processPacket pkt then return .stopping else return .reading
  | .closed => return .closed
  | .again => return .reading
  | .idle => return .select

def readRound : TaskM τ Phase := do
  processIncoming (← recvPacket)

/-- `cmd_queue.recv()`: the next command, or nothing if all senders are gone. -/
def takeCommand : TaskM τ (Option Command) := do
  match (← get).cmdQueue with
  | [] => return none
  | cmd :: rest =>
    onBook fun b => { b with cmdQueue := rest }
    return some cmd

def commandRound : TaskM τ Phase := do
  if ← onCommand (← takeCommand) then return .stopping else return .select

def alarmRound : TaskM τ Phase := do
  onAlarm
  return .select

/-! ## Programs of the disconnect sequence -/

def startDisconnect : TaskM τ Phase := do
  if (← get).connected then
    queueInternalPacket disconnectPacket false
    return .flushing
  else
    return .closeNotify

def disconnectDone : TaskM τ Phase := do
  modify fun tx => { tx with disconnectSent := true }
  return .closeNotify

def readyWrite (ready : Except IoError Unit) (next : Phase) : TaskM τ Phase := do
  awaitReady ready
  onTransport Transport.preWrite
  return next

/-- Only the main loop looks at the result of `pre_read`. -/
def readyRead (ready : Except IoError Unit) (next idle : Phase) : TaskM τ Phase := do
  awaitReady ready
  let canRead ← onTransport Transport.preRead
  return if canRead then next else idle

def sendCloseNotify : TaskM τ Phase := do
  onTransport fun t => (.ok (), Transport.sendCloseNotify t)
  return .notifying

/-- What the transport waits for next. -/
def wants (tx : Transceiver τ) (rdHint : Bool) : WantedFlags :=
  Transport.wants tx.link.transport rdHint tx.link.txPkt.isSome

/-- The same when the task itself has nothing left to do, `wants(false, false)`. -/
def wantsAtClose (tx : Transceiver τ) : WantedFlags :=
  Transport.wants tx.link.transport false false

/-- What the task runs in a phase when an event happens, if it can happen. -/
def program (tx : Transceiver τ) (sendersGone : Bool) : Phase → TaskEvent → Option (TaskM τ Phase)
  | .boot, .proceed => some do bootstrap; return .select
  | .select, .writable r => if (tx.wants true).write then some (readyWrite r .writing) else none
  | .select, .readable r =>
    if (tx.wants true).read then some (readyRead r .reading .select) else none
  | .select, .command =>
    if !tx.cmdQueueClosed && tx.connected && tx.link.txPkt.isNone &&
        (!tx.cmdQueue.isEmpty || sendersGone)
    then some commandRound else none
  | .select, .alarm => some alarmRound
  | .writing, .proceed => some (writeRound .closed .writing .select)
  | .reading, .proceed => some readRound
  | .stopping, .proceed => some startDisconnect
  | .flushing, .proceed =>
    if !(tx.wants false).read && !(tx.wants false).write then some disconnectDone else none
  | .flushing, .writable r =>
    if (tx.wants false).write then some (readyWrite r .flushWriting) else none
  | .flushing, .readable r =>
    if (tx.wants false).read then some (readyRead r .flushing .flushing) else none
  | .flushWriting, .proceed => some (writeRound .closeNotify .flushWriting .flushing)
  | .closeNotify, .proceed => some sendCloseNotify
  | .notifying, .proceed =>
    if !tx.wantsAtClose.read && !tx.wantsAtClose.write
    then some (return .failAck) else none
  | .notifying, .writable r =>
    if tx.wantsAtClose.write then some (readyWrite r .notifying) else none
  | .notifying, .readable r =>
    if tx.wantsAtClose.read then some (readyRead r .notifying .notifying) else none
  | _, _ => none

/-- The programs of the task, with the conditions under which they run. -/
inductive IsProgram (tx : Transceiver τ) (sendersGone : Bool) :
    Phase → TaskEvent → TaskM τ Phase → Prop
  | boot : IsProgram tx sendersGone .boot .proceed (do bootstrap; return .select)
  | selectWritable (r : Except IoError Unit) (wanted : (tx.wants true).write = true) :
      IsProgram tx sendersGone .select (.writable r) (readyWrite r .writing)
  | selectReadable (r : Except IoError Unit) (wanted : (tx.wants true).read = true) :
      IsProgram tx sendersGone .select (.readable r) (readyRead r .reading .select)
  | command (opened : tx.cmdQueueClosed = false) (connected : tx.connected = true)
      (idle : tx.link.txPkt = none) (ready : tx.cmdQueue ≠ [] ∨ sendersGone = true) :
      IsProgram tx sendersGone .select .command commandRound
  | alarm : IsProgram tx sendersGone .select .alarm alarmRound
  | writing : IsProgram tx sendersGone .writing .proceed (writeRound .closed .writing .select)
  | reading : IsProgram tx sendersGone .reading .proceed readRound
  | stopping : IsProgram tx sendersGone .stopping .proceed startDisconnect
  | flushed (readDone : (tx.wants false).read = false)
      (writeDone : (tx.wants false).write = false) :
      IsProgram tx sendersGone .flushing .proceed disconnectDone
  | flushingWritable (r : Except IoError Unit) (wanted : (tx.wants false).write = true) :
      IsProgram tx sendersGone .flushing (.writable r) (readyWrite r .flushWriting)
  | flushingReadable (r : Except IoError Unit) (wanted : (tx.wants false).read = true) :
      IsProgram tx sendersGone .flushing (.readable r) (readyRead r .flushing .flushing)
  | flushWriting : IsProgram tx sendersGone .flushWriting .proceed
      (writeRound .closeNotify .flushWriting .flushing)
  | closeNotify : IsProgram tx sendersGone .closeNotify .proceed sendCloseNotify
  | notified (readDone : tx.wantsAtClose.read = false)
      (writeDone : tx.wantsAtClose.write = false) :
      IsProgram tx sendersGone .notifying .proceed (return .failAck)
  | notifyingWritable (r : Except IoError Unit) (wanted : tx.wantsAtClose.write = true) :
      IsProgram tx sendersGone .notifying (.writable r) (readyWrite r .notifying)
  | notifyingReadable (r : Except IoError Unit) (wanted : tx.wantsAtClose.read = true) :
      IsProgram tx sendersGone .notifying (.readable r) (readyRead r .notifying .notifying)

theorem isProgram_of_program {tx : Transceiver τ} {sendersGone : Bool} {p : Phase}
    {e : TaskEvent} {x : TaskM τ Phase} (h : tx.program sendersGone p e = some x) :
    IsProgram tx sendersGone p e x := by
  unfold program at h
  split at h
  all_goals try (split at h)
  all_goals cases h
  · exact .boot
  · exact .selectWritable _ ‹_›
  · exact .selectReadable _ ‹_›
  · rename_i hguard
    simp only [Bool.and_eq_true, Bool.or_eq_true, Bool.not_eq_true', Option.isNone_iff_eq_none,
      List.isEmpty_eq_false_iff] at hguard
    obtain ⟨⟨⟨hopen, hconnected⟩, hidle⟩, hready⟩ := hguard
    exact .command hopen hconnected hidle hready
  · exact .alarm
  · exact .writing
  · exact .reading
  · exact .stopping
  · rename_i hguard
    simp only [Bool.and_eq_true, Bool.not_eq_true'] at hguard
    exact .flushed hguard.1 hguard.2
  · exact .flushingWritable _ ‹_›
  · exact .flushingReadable _ ‹_›
  · exact .flushWriting
  · exact .closeNotify
  · rename_i hguard
    simp only [Bool.and_eq_true, Bool.not_eq_true'] at hguard
    exact .notified hguard.1 hguard.2
  · exact .notifyingWritable _ ‹_›
  · exact .notifyingReadable _ ‹_›

end Transceiver

/-- The phase behind a failure of the transport. -/
def Phase.afterError : Phase → Phase
  | .boot | .select | .writing | .reading => .stopping
  | .stopping | .flushing | .flushWriting => .closeNotify
  | _ => .failAck

/-- A failure of the main loop is followed by the disconnect sequence; one in the
sequence makes it unclean. -/
def Phase.inMainLoop : Phase → Bool
  | .boot | .select | .writing | .reading => true
  | _ => false

end Lmc
