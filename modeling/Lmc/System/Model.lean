import Lmc.Lib.Run
import Lmc.Task.Phases

/-!
# The whole client

`System` is the transceiver task together with the calls that clients have made and not
finished. A step of it is one event: of the task, of a client, or of the environment.
The steps are as fine as the accesses to what the two sides share, so the runs of
`step` are the interleavings of the task with any number of client calls.

A call is an `async fn` of the client cut at these accesses. It may be dropped where it
waits. Calls exist only between the moment at which `Client::connect` has returned a
client and the moment at which the last handle is dropped.
-/

namespace Lmc

/-! ## Calls of clients -/

/-- The `publish` methods of a client. -/
inductive PublishMode where
  | tryPublish (qos : QoS)
  | noWait (qos : QoS)
  | qos1AwaitAck
  | qos2Received
  | qos2Complete
deriving DecidableEq, Repr

def PublishMode.qos : PublishMode → QoS
  | .tryPublish qos | .noWait qos => qos
  | .qos1AwaitAck => .atLeastOnce
  | .qos2Received | .qos2Complete => .exactlyOnce

/-- The map in which the call waits. -/
def PublishMode.notifier : PublishMode → Option Notifier
  | .tryPublish _ | .noWait _ => none
  | .qos1AwaitAck => some .pubAck
  | .qos2Received => some .pubRec
  | .qos2Complete => some .pubComp

/-- What a `subscribe` method builds when it is about to enqueue its command. -/
inductive SubscriptionRequest where
  | void
  | lossy (queueCap : Nat)
  | unbounded
  | fastCallback (f : Nat)
deriving DecidableEq, Repr

inductive Outcome where
  | ok
  | subscribed (topic : Str) (kind : SubscriptionKind) (qos : QoS)
  /-- `TransceiverTaskTerminated` -/
  | terminated
  /-- `QueueFull` -/
  | queueFull
  /-- `RefusedByBroker` -/
  | refused
  /-- The future of the call was dropped. -/
  | cancelled
  | panicked (p : Panic)
deriving DecidableEq, Repr

/-- Where a call stands. -/
inductive Call where
  /-- The publish command is made, the future that waits for it is not. -/
  | registering (cmd : PublishCommand) (notifier : Notifier)
  | sendingPublish (cmd : PublishCommand) (fut : Option PublishFuture)
  | tryingPublish (cmd : PublishCommand)
  | awaitingPublish (fut : PublishFuture)
  /-- `SubWait::Before` -/
  | awaitingBefore (fut : SubscribeFuture) (qos : QoS) (req : SubscriptionRequest)
  /-- About to call `func`. `actual` is the quality of service if it is known already. -/
  | building (topic : Str) (qos : QoS) (req : SubscriptionRequest) (actual : Option QoS)
  | sendingSubscribe (cmd : SubscribeCommand) (actual : Option QoS)
  /-- `SubWait::After`, with the command sent. -/
  | awaitingAfter (fut : SubscribeFuture) (kind : SubscriptionKind)
  /-- `unsubscribe`, `remove_callback` and `disconnect`. -/
  | sending (cmd : Command)
  | done (outcome : Outcome)
deriving DecidableEq, Repr

/-- The stage of a publish call when its command is made. -/
def PublishMode.firstStage (mode : PublishMode) (cmd : PublishCommand) : Call :=
  match mode.notifier, mode with
  | some n, _ => .registering cmd n
  | none, .tryPublish _ => .tryingPublish cmd
  | none, _ => .sendingPublish cmd none

/-- The command of a call that is waiting for room in the queue. -/
def Call.command : Call → Option Command
  | .sendingPublish cmd _ => some (.publish cmd)
  | .tryingPublish cmd => some (.publish cmd)
  | .sendingSubscribe cmd _ => some (.subscribe cmd)
  | .sending cmd => some cmd
  | _ => none

/-- The stage of a call behind a successful send. -/
def Call.sent : Call → Call
  | .sendingPublish _ (some fut) => .awaitingPublish fut
  | .sendingSubscribe cmd none => .awaitingAfter (.new cmd.topic) cmd.kind
  | .sendingSubscribe cmd (some qos) => .done (.subscribed cmd.topic cmd.kind qos)
  | _ => .done .ok

/-- The stage of a call behind a poll of its subscribe future that was ready. -/
def Call.subscribeReady (result : Except Unit QoS) : Call → Call
  | .awaitingBefore fut qos req =>
    match result with
    | .ok actual => .building fut.topic qos req (some actual)
    | .error () => .done .refused
  | .awaitingAfter fut kind =>
    match result with
    | .ok actual => .done (.subscribed fut.topic kind actual)
    | .error () => .done .refused
  | call => call

/-- The subscribe future of a call. -/
def Call.subscribeFuture : Call → Option SubscribeFuture
  | .awaitingBefore fut _ _ => some fut
  | .awaitingAfter fut _ => some fut
  | _ => none

def Call.withSubscribeFuture (fut : SubscribeFuture) : Call → Call
  | .awaitingBefore _ qos req => .awaitingBefore fut qos req
  | .awaitingAfter _ kind => .awaitingAfter fut kind
  | call => call

def Call.isDone : Call → Bool
  | .done _ => true
  | _ => false

/-- What became of `Client::connect`. -/
inductive Handle where
  | connecting
  | connected
  /-- All senders of commands are gone. -/
  | dropped
deriving DecidableEq, Repr

inductive ClientEvent where
  | connected
  | connectFailed
  | connectTimeout
  | dropHandles
  | publish (c : Nat) (mode : PublishMode) (topic : Str) (payload : List UInt8) (retain : Bool)
  | register (c : Nat)
  | send (c : Nat)
  | poll (c : Nat)
  | cancel (c : Nat)
  | subscribe (c : Nat) (topic : Str) (qos : QoS) (req : SubscriptionRequest)
  | build (c : Nat)
  | unsubscribe (c : Nat) (topic : Str)
  | removeCallback (c : Nat) (other : Nat)
  | disconnect (c : Nat)
  | receive (ch : Nat)
  | closeChannel (ch : Nat)
deriving DecidableEq, Repr

inductive Event where
  | task (e : TaskEvent)
  | client (e : ClientEvent)
deriving DecidableEq, Repr

/-! ## States and steps -/

structure System (τ : Type) where
  tx : Transceiver τ
  phase : Phase
  /-- The result of the disconnect sequence. -/
  clean : Bool
  /-- The wakers collected by the sweep. -/
  sweep : List Waker
  handle : Handle
  calls : LmcHashMap Nat Call
  /-- The number of polls so far, which names the next waker. -/
  polls : Nat
  /-- The number of channels created so far. -/
  channels : Nat

/-- The capacity of the command queue. -/
def cmdQueueCapacity : Nat := 1024

/-- `Semaphore::MAX_PERMITS`, that is `usize::MAX >> 3`, on a 64-bit target. -/
def maxPermits : Nat := (2 ^ 64 - 1) >>> 3

/-- The capacity of a lossy subscription is one that `mpsc::channel` accepts. -/
def SubscriptionRequest.buildable : SubscriptionRequest → Bool
  | .lossy queueCap => 0 < queueCap && queueCap ≤ maxPermits
  | _ => true

namespace System

variable {τ : Type}

def spawn (setup : Setup τ) : System τ where
  tx := .spawn setup
  phase := .boot
  clean := true
  sweep := []
  handle := .connecting
  calls := ∅
  polls := 0
  channels := 0

def receiverAlive (s : System τ) : Bool :=
  match s.phase with
  | .gone | .crashed _ => false
  | _ => true

def onBook (f : Book → Book) (s : System τ) : System τ :=
  { s with tx := { s.tx with toBook := f s.tx.toBook } }

def setShared (sh : ClientShared) (s : System τ) : System τ := s.onBook (Book.setShared sh)

def setCall (c : Nat) (call : Call) (s : System τ) : System τ :=
  { s with calls := s.calls.insert c call }

def enqueue (cmd : Command) (s : System τ) : System τ :=
  s.onBook fun b => { b with cmdQueue := b.cmdQueue ++ [cmd] }

/-! ### The task -/

section Task

variable [Transport τ]

def runProgram (x : TaskM τ Phase) (s : System τ) : System τ :=
  match x.run s.tx with
  | .ok phase tx => { s with tx, phase }
  | .error (.io _) tx =>
    { s with tx, phase := s.phase.afterError, clean := s.clean && s.phase.inMainLoop }
  | .error (.panic p) tx => { s with tx, phase := .crashed p }

/-- `fail_notify_map` on one of the maps. -/
def failMap (n : Notifier) (next : Phase) (s : System τ) : System τ :=
  let failed := failNotifyMap (s.tx.shared.notifierMap n) s.sweep
  { s.setShared (s.tx.shared.setNotifierMap n failed.1) with sweep := failed.2, phase := next }

def drainSubs (s : System τ) : System τ :=
  { s.setShared (s.tx.shared.setSubs ∅) with
    sweep := s.sweep ++ drainedWakers s.tx.shared.subs
    phase := .waking }

def wakeAll (s : System τ) : System τ :=
  { s.onBook (Book.wake s.sweep) with sweep := [], phase := .returning }

def dropTransceiver (s : System τ) : System τ :=
  { s.onBook fun b => { b with cmdQueue := [] } with phase := .gone }

def taskStep (s : System τ) (e : TaskEvent) : Option (System τ) :=
  match s.phase, e with
  | .closed, .proceed => some { s with phase := .finished ⟨false, false⟩ }
  | .flushing, .timeout => some { s with phase := .failAck, clean := false }
  | .notifying, .timeout => some { s with phase := .failAck, clean := false }
  | .failAck, .proceed => some (s.failMap .pubAck .failRec)
  | .failRec, .proceed => some (s.failMap .pubRec .failComp)
  | .failComp, .proceed => some (s.failMap .pubComp .draining)
  | .draining, .proceed => some s.drainSubs
  | .waking, .proceed => some s.wakeAll
  | .returning, .proceed =>
    some { s with phase := .finished ⟨s.tx.disconnectSent, s.clean⟩ }
  | .finished _, .proceed => some s.dropTransceiver
  | _, _ =>
    (s.tx.program (s.handle = .dropped) s.phase e).map fun x => s.runProgram x

end Task

/-! ### Clients -/

/-- The packet of a publish call is encoded. -/
def encodePublish (c : Nat) (mode : PublishMode) (p : OutgoingPublishPacket) (s : System τ) :
    System τ :=
  match makePacket p with
  | .error e => s.setCall c (.done (.panicked (.encoder e)))
  | .ok packet =>
    (s.onBook (Book.logEncoded (.publish p))).setCall c
      (mode.firstStage ⟨p.packetId, mode.qos, packet⟩)

/-- `make_publish_cmd`. Only a publish above quality 0 takes an identifier. -/
def startPublish (c : Nat) (mode : PublishMode) (topic : Str) (payload : List UInt8)
    (retain : Bool) (s : System τ) : System τ :=
  if mode.qos = .atMostOnce then
    s.encodePublish c mode ⟨.new false mode.qos retain, topic, 0, payload⟩
  else
    (s.onBook Book.takePacketId).encodePublish c mode
      ⟨.new false mode.qos retain, topic, s.tx.shared.nextPacketId, payload⟩

/-- The call creates its future, which registers in the map. -/
def registerPublish (c : Nat) (cmd : PublishCommand) (n : Notifier) (s : System τ) : System τ :=
  let registered := PublishFuture.new cmd.packetId n s.tx.shared
  (s.setShared registered.2).setCall c (.sendingPublish cmd (some registered.1))

/-- The first critical section of `subscribe`: look at the map and decide when to wait. -/
def startSubscribe (c : Nat) (topic : Str) (qos : QoS) (req : SubscriptionRequest)
    (s : System τ) : System τ :=
  match s.tx.shared.subs.lookup topic with
  | some (.existing actual) => s.setCall c (.building topic qos req (some actual))
  | some (.pending _) => s.setCall c (.awaitingBefore (.new topic) qos req)
  | none =>
    (s.setShared (s.tx.shared.setSubs (s.tx.shared.subs.insert topic (.pending [])))).setCall c
      (.building topic qos req none)

/-- Create a channel, which is open and empty. -/
def createChannel (capacity : Option Nat) (s : System τ) : System τ :=
  { s.onBook fun b => { b with mail :=
      { b.mail with channels := fun n =>
          if n = s.channels then ⟨capacity, [], false⟩ else b.mail.channels n } } with
    channels := s.channels + 1 }

/-- `func()`: create the channel or take a callback identifier. `mpsc::channel` panics unless
its capacity is positive and at most `Semaphore::MAX_PERMITS`. -/
def buildKind (req : SubscriptionRequest) (s : System τ) :
    Except Panic (SubscriptionKind × System τ) :=
  match req with
  | .void => .ok (.void, s)
  | .lossy queueCap =>
    if queueCap = 0 ∨ maxPermits < queueCap then .error .channelCapacity
    else .ok (.lossy s.channels, s.createChannel (some queueCap))
  | .unbounded => .ok (.unbounded s.channels, s.createChannel none)
  | .fastCallback f =>
    .ok (.fastCallback ⟨s.tx.shared.nextCallbackId, f⟩,
      s.setShared { s.tx.shared with nextCallbackId := s.tx.shared.nextCallbackId + 1 })

/-- A send that finds the receiver gone. The future of the call is dropped. -/
def sendFailed (c : Nat) (call : Call) (s : System τ) : System τ :=
  match call with
  | .sendingPublish _ (some fut) =>
    (s.setShared (fut.drop s.tx.shared)).setCall c (.done .terminated)
  | _ => s.setCall c (.done .terminated)

def stepSend (c : Nat) (s : System τ) : Option (System τ) := do
  let call ← s.calls.lookup c
  let cmd ← call.command
  if !s.receiverAlive then
    some (s.sendFailed c call)
  else if s.tx.cmdQueue.length < cmdQueueCapacity then
    some ((s.enqueue cmd).setCall c call.sent)
  else match call with
    | .tryingPublish _ => some (s.setCall c (.done .queueFull))
    | _ => none

def pollSubscribe (c : Nat) (call : Call) (fut : SubscribeFuture) (s : System τ) : System τ :=
  match fut.poll c s.polls s.tx.shared with
  | .error p => { s.setCall c (.done (.panicked p)) with polls := s.polls + 1 }
  | .ok (.pending, fut, sh) =>
    { (s.setShared sh).setCall c (call.withSubscribeFuture fut) with polls := s.polls + 1 }
  | .ok (.ready result, _, sh) =>
    { (s.setShared sh).setCall c (call.subscribeReady result) with polls := s.polls + 1 }

def pollPublish (c : Nat) (fut : PublishFuture) (s : System τ) : System τ :=
  match fut.poll s.polls s.tx.shared with
  | (.pending, fut, sh) =>
    { (s.setShared sh).setCall c (.awaitingPublish fut) with polls := s.polls + 1 }
  | (.ready ended, _, sh) =>
    { (s.setShared sh).setCall c (.done (if ended then .terminated else .ok)) with
      polls := s.polls + 1 }

def stepPoll (c : Nat) (s : System τ) : Option (System τ) := do
  let call ← s.calls.lookup c
  match call with
  | .awaitingPublish fut => some (s.pollPublish c fut)
  | call => return s.pollSubscribe c call (← call.subscribeFuture)

def cancelSubscribe (c : Nat) (fut : SubscribeFuture) (s : System τ) : System τ :=
  match fut.drop s.tx.shared with
  | .error p => s.setCall c (.done (.panicked p))
  | .ok sh => (s.setShared sh).setCall c (.done .cancelled)

/-- The future of a call is dropped where it waits. -/
def stepCancel (c : Nat) (s : System τ) : Option (System τ) := do
  match ← s.calls.lookup c with
  | .sendingPublish _ (some fut) | .awaitingPublish fut =>
    some ((s.setShared (fut.drop s.tx.shared)).setCall c (.done .cancelled))
  | .awaitingBefore fut _ _ | .awaitingAfter fut _ => some (s.cancelSubscribe c fut)
  | .sendingPublish _ none | .sendingSubscribe _ _ | .sending _ =>
    some (s.setCall c (.done .cancelled))
  | _ => none

/-- Start a call: the client exists and the name of the call is new. -/
def start (c : Nat) (s s' : System τ) : Option (System τ) :=
  if s.handle = .connected ∧ s.calls.lookup c = none then some s' else none

/-- A callback is removed with the handle that its subscription returned. -/
def startRemoveCallback (c other : Nat) (s : System τ) : Option (System τ) :=
  match s.calls.lookup other with
  | some (.done (.subscribed topic (.fastCallback cb) _)) =>
    s.start c (s.setCall c (.sending (.unsub ⟨topic, .fastCallback cb.id⟩)))
  | _ => none

/-- What becomes of `Client::connect`. When it gives up it enqueues `Disconnect`. -/
def connectStep (s : System τ) (e : ClientEvent) : Option (System τ) :=
  match e, s.tx.connectResult with
  | .connected, some (.ok _) => some { s with handle := .connected }
  | .connectFailed, some (.error _) => some { s with handle := .dropped }
  | .connectFailed, none => if s.receiverAlive then none else some { s with handle := .dropped }
  | .connectTimeout, _ =>
    some { (if s.receiverAlive then s.enqueue .disconnect else s) with handle := .dropped }
  | _, _ => none

def setChannel (ch : Nat) (f : Channel → Channel) (s : System τ) : System τ :=
  s.onBook fun b =>
    { b with mail :=
      { b.mail with channels := fun n =>
          if n = ch then f (b.mail.channels n) else b.mail.channels n } }

def clientStep (s : System τ) (e : ClientEvent) : Option (System τ) :=
  match e with
  | .connected | .connectFailed | .connectTimeout =>
    if s.handle = .connecting then s.connectStep e else none
  | .dropHandles =>
    if s.handle = .connected ∧ s.calls.entries.all (fun e => Call.isDone e.2) = true
    then some { s with handle := .dropped } else none
  | .publish c mode topic payload retain =>
    s.start c (s.startPublish c mode topic payload retain)
  | .register c =>
    match s.calls.lookup c with
    | some (.registering cmd n) => some (s.registerPublish c cmd n)
    | _ => none
  | .send c => s.stepSend c
  | .poll c => s.stepPoll c
  | .cancel c => s.stepCancel c
  | .subscribe c topic qos req => s.start c (s.startSubscribe c topic qos req)
  | .build c =>
    match s.calls.lookup c with
    | some (.building topic qos req actual) =>
      match s.buildKind req with
      | .ok (kind, built) =>
        some (built.setCall c (.sendingSubscribe ⟨topic, qos, kind⟩ actual))
      -- the panic leaves `subscribe` with nothing queued and the map as it is
      | .error p => some (s.setCall c (.done (.panicked p)))
    | _ => none
  | .unsubscribe c topic => s.start c (s.setCall c (.sending (.unsub ⟨topic, .immediate⟩)))
  | .removeCallback c other => s.startRemoveCallback c other
  | .disconnect c => s.start c (s.setCall c (.sending .disconnect))
  | .receive ch => some (s.setChannel ch fun x => { x with queue := x.queue.drop 1 })
  | .closeChannel ch => some (s.setChannel ch fun x => { x with closed := true })

def step [Transport τ] (s : System τ) : Event → Option (System τ)
  | .task e => s.taskStep e
  | .client e => s.clientStep e

/-! ## Concrete runs -/

/-- A task over a socket with this script. -/
def scripted (socket : TcpStream) : Setup TcpTransport where
  transport := ⟨socket⟩
  connectPacket := ⟨0x10, [6, 0, 4, 0x4d, 0x51, 0x54, 0x54]⟩
  pingInterval := 30
  packetResendDelay := 1
  clock := id
  mail := ⟨fun _ => ⟨none, [], false⟩, []⟩

/-- The broker accepts the connection with its first packet. -/
def acceptance : ReadEvent := .data 0x20 [2, 0, 0]

/-- A broker that accepts the connection and does nothing more, except that it may close
the connection. -/
def silentSetup (closes : Bool) : Setup TcpTransport :=
  scripted ⟨[acceptance, .wouldBlock], closes, []⟩

/-- The task starts, reads until the socket has nothing more, and `Client::connect`
returns. -/
def connecting : List Event :=
  [.task .proceed, .task (.readable (.ok ())), .task .proceed, .task .proceed, .task .proceed,
    .client .connected]

/-- The task reads until the socket has nothing more. -/
def reading (packets : Nat) : List Event :=
  .task (.readable (.ok ())) :: List.replicate (packets + 2) (.task .proceed)

end System

end Lmc
