import Lmc.Wire.Packets

/-!
# Leaves of the subscription tree

A `Subscription` holds the channels and callbacks registered under one topic filter and
says whether the client is subscribed to it at the broker. Dispatching a message offers
it to every one of them and forgets the channels whose receiver is gone.

The receiving ends are outside the client, so they are a state of their own, `Mail`:
what each channel holds and which callbacks were called. The body of a callback is
represented by a number.
-/

namespace Lmc

/-! ## Receiving ends -/

/-- An `mpsc` channel. Without a capacity it is unbounded. -/
structure Channel where
  capacity : Option Nat
  queue : List IncomingPublishPacket
  closed : Bool

/-- The result of `try_send`. -/
inductive SendResult where
  | sent
  | full
  | closed
deriving DecidableEq, Repr

structure FastCallback where
  id : UInt32
  f : Nat
deriving DecidableEq, Repr

/-- All receiving ends: the channels by number, and the calls made to callbacks. -/
structure Mail where
  channels : Nat → Channel
  calls : List (FastCallback × IncomingPublishPacket)

namespace Mail

def push (ch : Nat) (msg : IncomingPublishPacket) (mail : Mail) : Mail :=
  { mail with
    channels := fun n => if n = ch
      then { mail.channels ch with queue := (mail.channels ch).queue ++ [msg] }
      else mail.channels n }

/-- `Sender::try_send`. -/
def trySend (ch : Nat) (msg : IncomingPublishPacket) : StateM Mail SendResult := do
  let c := (← get).channels ch
  if c.closed then
    return .closed
  else if c.capacity.any (fun cap => cap ≤ c.queue.length) then
    return .full
  else
    modify (push ch msg)
    return .sent

/-- `UnboundedSender::send`. -/
def send (ch : Nat) (msg : IncomingPublishPacket) : StateM Mail SendResult := do
  if ((← get).channels ch).closed then
    return .closed
  else
    modify (push ch msg)
    return .sent

def call (cb : FastCallback) (msg : IncomingPublishPacket) : StateM Mail Unit :=
  modify fun mail => { mail with calls := mail.calls ++ [(cb, msg)] }

end Mail

/-- All the ways to subscribe to a topic. The channels are given by their number. -/
inductive SubscriptionKind where
  | void
  | lossy (queue : Nat)
  | unbounded (queue : Nat)
  | fastCallback (cb : FastCallback)
deriving DecidableEq, Repr

/-! ## `prune` -/

/-- `swap_remove` of the first element: the last one takes its place. -/
def swapRemoveHead {α : Type} : List α → List α
  | [] => []
  | [_] => []
  | _ :: y :: rest => (y :: rest).getLast (List.cons_ne_nil _ _) :: (y :: rest).dropLast

/-- The loop of `prune`: `kept` are the elements before the index, `rest` the others.
Every round takes one element off `rest`. -/
def pruneLoop {α σ : Type} (predicate : α → StateM σ Bool) :
    Nat → List α → List α → StateM σ (List α)
  | 0, kept, rest => return kept ++ rest
  | _ + 1, kept, [] => return kept
  | n + 1, kept, x :: rest => do
    if ← predicate x then
      pruneLoop predicate n kept (swapRemoveHead (x :: rest))
    else
      pruneLoop predicate n (kept ++ [x]) rest

def prune {α σ : Type} (vec : List α) (predicate : α → StateM σ Bool) : StateM σ (List α) :=
  pruneLoop predicate vec.length [] vec

/-! ## Subscriptions -/

structure Subscription where
  lossyQueue : List Nat
  unboundedQueue : List Nat
  fastCallbacks : List FastCallback
  subscribed : Bool
deriving DecidableEq, Repr

instance : Inhabited Subscription := ⟨⟨[], [], [], false⟩⟩

/-- `binary_search_by_key` on callbacks sorted by identifier: the position of the key,
or the position at which it belongs. -/
def binarySearchByKey (id : UInt32) : List FastCallback → Except Nat Nat
  | [] => .error 0
  | cb :: rest =>
    if cb.id = id then .ok 0
    else if id < cb.id then .error 0
    else match binarySearchByKey id rest with
      | .ok i => .ok (i + 1)
      | .error i => .error (i + 1)

namespace Subscription

def dispatch (sub : Subscription) (msg : IncomingPublishPacket) : StateM Mail Subscription := do
  let lossyQueue ← prune sub.lossyQueue fun ch => return (← Mail.trySend ch msg) == .closed
  let unboundedQueue ← prune sub.unboundedQueue fun ch => return (← Mail.send ch msg) == .closed
  sub.fastCallbacks.forM fun cb => Mail.call cb msg
  return { sub with lossyQueue, unboundedQueue }

def addFastCallback (sub : Subscription) (cb : FastCallback) : Subscription :=
  if sub.fastCallbacks.getLast?.all fun last => last.id < cb.id then
    { sub with fastCallbacks := sub.fastCallbacks ++ [cb] }
  else match binarySearchByKey cb.id sub.fastCallbacks with
    | .error index => { sub with fastCallbacks := sub.fastCallbacks.insertIdx index cb }
    | .ok _ => sub

def removeFastCallback (id : UInt32) (sub : Subscription) : Subscription :=
  match binarySearchByKey id sub.fastCallbacks with
  | .ok index => { sub with fastCallbacks := sub.fastCallbacks.eraseIdx index }
  | .error _ => sub

def add (kind : SubscriptionKind) (sub : Subscription) : Subscription :=
  match kind with
  | .void => sub
  | .lossy queue => { sub with lossyQueue := sub.lossyQueue ++ [queue] }
  | .unbounded queue => { sub with unboundedQueue := sub.unboundedQueue ++ [queue] }
  | .fastCallback cb => sub.addFastCallback cb

def clear (_ : Subscription) : Subscription := ⟨[], [], [], false⟩

def setSubscribed (sub : Subscription) : Subscription := { sub with subscribed := true }

/-! Only `set_subscribed` and `clear` change the flag. -/

@[simp] theorem subscribed_default : (default : Subscription).subscribed = false := rfl

@[simp] theorem subscribed_clear (sub : Subscription) : sub.clear.subscribed = false := rfl

@[simp] theorem subscribed_setSubscribed (sub : Subscription) :
    sub.setSubscribed.subscribed = true := rfl

@[simp] theorem subscribed_addFastCallback (sub : Subscription) (cb : FastCallback) :
    (sub.addFastCallback cb).subscribed = sub.subscribed := by
  unfold addFastCallback
  split
  · rfl
  · split <;> rfl

@[simp] theorem subscribed_add (kind : SubscriptionKind) (sub : Subscription) :
    (sub.add kind).subscribed = sub.subscribed := by
  cases kind with
  | void => rfl
  | lossy queue => rfl
  | unbounded queue => rfl
  | fastCallback cb => exact subscribed_addFastCallback sub cb

@[simp] theorem subscribed_removeFastCallback (id : UInt32) (sub : Subscription) :
    (sub.removeFastCallback id).subscribed = sub.subscribed := by
  unfold removeFastCallback
  split <;> rfl

@[simp] theorem subscribed_dispatch (sub : Subscription) (msg : IncomingPublishPacket)
    (mail : Mail) : ((sub.dispatch msg).run mail).1.subscribed = sub.subscribed := rfl

end Subscription

end Lmc
