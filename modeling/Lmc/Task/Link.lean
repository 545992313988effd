import Lmc.Lib.EState
import Lmc.Wire.Packets
import Lmc.Wire.Transport

/-!
# The output of the transceiver

`Link` is the part of the transceiver that puts packets on the wire: the transport, the
packet being transmitted and the queue of packets behind it. A packet is either sent at
once, cut at any byte, or queued while another one is being transmitted; `writeOnce` is
one round of the loop that goes on with the cut packet.

The record also holds the clock, since finishing a packet stamps `lastTx`, and two
history fields that no function reads: the bytes the transport has accepted and the
packets handed over to `trySendPacket` and `queueInternalPacket` from outside.
-/

namespace Lmc

/-- Why a function of the transceiver does not return. -/
inductive Fault where
  | io (e : IoError)
  | panic (p : Panic)
deriving DecidableEq, Repr

structure TxPacket where
  packet : Packet
  pos : Nat
  setDup : Bool
deriving DecidableEq, Repr

structure InternalPacket where
  packet : Packet
  setDup : Bool
deriving DecidableEq, Repr

structure Link (τ : Type) where
  transport : τ
  txPkt : Option TxPacket
  internalPktQueue : List InternalPacket
  lastTx : Nat
  /-- What the successive calls of `Instant::now` return. -/
  clock : Nat → Nat
  /-- How often the clock was read. -/
  nows : Nat
  /-- History: the bytes the transport has accepted. -/
  accepted : List UInt8
  /-- History: the packets handed over, in order. -/
  handed : List InternalPacket

abbrev LinkM (τ : Type) := EStateM Fault (Link τ)

namespace Link

variable {τ : Type}

def setTransport (t : τ) (link : Link τ) : Link τ := { link with transport := t }

/-- The transport has accepted bytes. -/
def accept (t : τ) (bytes : List UInt8) (link : Link τ) : Link τ :=
  { link with transport := t, accepted := link.accepted ++ bytes }

def setTx (tx : Option TxPacket) (link : Link τ) : Link τ := { link with txPkt := tx }

def setQueue (queue : List InternalPacket) (link : Link τ) : Link τ :=
  { link with internalPktQueue := queue }

/-- A packet has been handed over. -/
def hand (pkt : InternalPacket) (link : Link τ) : Link τ :=
  { link with handed := link.handed ++ [pkt] }

/-- `Instant::now`. -/
def now : LinkM τ Nat := do
  let link ← get
  set { link with nows := link.nows + 1 }
  return link.clock link.nows

def stampLastTx : LinkM τ Unit := do
  let t ← now
  modify fun link => { link with lastTx := t }

variable [Transport τ]

def write (src : List UInt8) (zeroIfWouldBlock : Bool) : LinkM τ Nat := do
  let link ← get
  match Transport.write link.transport src zeroIfWouldBlock with
  | (.error e, t) =>
    set (link.setTransport t)
    throw (.io e)
  | (.ok n, t) =>
    set (link.accept t (src.take n))
    return n

def flush : LinkM τ Unit := do
  let link ← get
  match Transport.flush link.transport with
  | (.error e, t) =>
    set (link.setTransport t)
    throw (.io e)
  | (.ok (), t) => set (link.setTransport t)

/-- Write a packet from its first byte. With `setDup` the altered first byte is written
on its own. -/
def writeFirst (packet : Packet) (setDup : Bool) : LinkM τ Nat :=
  if setDup then do
    let written ← write [packet.ctrl ||| PublishFlags.dup] true
    if written > 0 then
      return written + (← write (packet.bytes.drop written) true)
    else
      return written
  else
    write packet.bytes true

def trySendPacket (packet : Packet) (setDup : Bool) : LinkM τ Unit := do
  if (← get).txPkt.isSome then
    -- the debug assertion
    throw (.panic .alreadyTransmitting)
  else
    let written ← writeFirst packet setDup
    if written ≥ packet.bytes.length then
      flush
    else
      modify (setTx (some ⟨packet, written, setDup⟩))

/-- `try_send_packet` as the task calls it. -/
def sendPacket (packet : Packet) (setDup : Bool) : LinkM τ Unit := do
  modify (hand ⟨packet, setDup⟩)
  trySendPacket packet setDup

def queueInternalPacket (packet : Packet) (setDup : Bool) : LinkM τ Unit := do
  modify (hand ⟨packet, setDup⟩)
  if (← get).txPkt.isNone then
    trySendPacket packet setDup
  else
    modify fun link => link.setQueue (link.internalPktQueue ++ [⟨packet, setDup⟩])

/-- The loop of `clear_tx_packet` over the queue. -/
def sendQueued : List InternalPacket → LinkM τ Unit
  | [] => return
  | pkt :: rest => do
    modify (setQueue rest)
    trySendPacket pkt.packet pkt.setDup
    if (← get).txPkt.isSome then return else sendQueued rest

def clearTxPacket : LinkM τ Unit := do
  modify (setTx none)
  sendQueued (← get).internalPktQueue

/-- The bytes that the loop offers next. -/
def offered (tx : TxPacket) : List UInt8 :=
  if tx.setDup && tx.pos == 0 then [tx.packet.ctrl ||| PublishFlags.dup]
  else tx.packet.bytes.drop tx.pos

/-- The packet in transmission has been written to its end. -/
def finishPacket : LinkM τ Unit := do
  flush
  clearTxPacket
  stampLastTx

/-- One round of the loop of `continue_writing_packet`. The result is the one of the
function if this round is the last. -/
def writeOnce : LinkM τ (Option Bool) := do
  match (← get).txPkt with
  | none => return some false
  | some tx =>
    let written ← write (offered tx) false
    if written = 0 then
      return some true
    else
      modify (setTx (some { tx with pos := tx.pos + written }))
      (if tx.pos + written ≥ tx.packet.bytes.length then finishPacket else pure ())
      return none

end Link

end Lmc
