import Lmc.Wire.Packets
import Lmc.Wire.Transport

/-!
# The packet reader

`PacketReader` accumulates bytes until a whole packet has been read. It reads up to
five bytes while it does not know the size of the packet, which may take in bytes of
the packets behind it, and then asks for exactly the missing ones.
-/

namespace Lmc

structure PacketSizeInfo where
  /-- Size of the whole packet, fixed header included. -/
  size : Nat
  /-- Length of the fixed header. -/
  startOffset : Nat
deriving DecidableEq, Repr

structure PacketReader where
  bytes : List UInt8
  size : Option PacketSizeInfo
deriving DecidableEq, Repr

inductive PacketReadState where
  | incoming (pkt : IncomingPacket)
  | connectionClosed
  | needMoreData
deriving DecidableEq, Repr

namespace PacketReader

def new : PacketReader := ⟨[], none⟩

def maxPacketSize : Nat := 512000000

/-- The loop of `parse_packet_size` from position `pos` on. -/
def parseSizeLoop : List UInt8 → Nat → Nat → Nat → Option PacketSizeInfo
  | [], _, _, _ => none
  | b :: rest, pos, ret, shift =>
    if b &&& 0x80 = 0 then
      some ⟨(ret ||| ((b &&& 0x7f).toNat <<< shift)) + (pos + 1), pos + 1⟩
    else
      parseSizeLoop rest (pos + 1) (ret ||| ((b &&& 0x7f).toNat <<< shift)) (shift + 7)

def parsePacketSize (bytes : List UInt8) : Except IoError (Option PacketSizeInfo) :=
  match parseSizeLoop (bytes.drop 1) 1 0 0 with
  | none => .ok none
  | some info =>
    if info.size > maxPacketSize then .error (.decode .reachedMaxSize) else .ok (some info)

end PacketReader

/-- What `recv` works on: the reader and the transport it is given. -/
structure Rx (τ : Type) where
  reader : PacketReader
  transport : τ

abbrev RxM (τ : Type) := EStateM IoError (Rx τ)

namespace PacketReader

variable {τ : Type} [Transport τ]

/-- Read up to `n` more bytes. `true` means that the connection was closed. -/
def recvN (n : Nat) : RxM τ Bool := do
  if n = 0 then
    return false
  else
    let rx ← get
    match Transport.read rx.transport n with
    | (.error e, t) =>
      set { rx with transport := t }
      throw e
    | (.ok got, t) =>
      set ({ reader := { rx.reader with bytes := rx.reader.bytes ++ got }, transport := t } : Rx τ)
      return got.isEmpty

def setReader (rd : PacketReader) : RxM τ Unit := modify fun rx => { rx with reader := rd }

/-- Keep the bytes behind the first packet, which may already hold the size of the next
one. -/
def dropPacket (bytes : List UInt8) (info : PacketSizeInfo) : RxM τ Unit :=
  if bytes.length > info.size then
    match parsePacketSize (bytes.drop info.size) with
    | .error e => do
      setReader ⟨[], some info⟩
      throw e
    | .ok size => setReader ⟨bytes.drop info.size, size⟩
  else
    setReader ⟨[], none⟩

/-- The packet at the front of the buffer is complete: decode it. -/
def takePacket (bytes : List UInt8) (info : PacketSizeInfo) : RxM τ PacketReadState := do
  dropPacket bytes info
  match decodeFrame (bytes.headD 0) ((bytes.take info.size).drop info.startOffset) with
  | .ok pkt => return .incoming pkt
  | .error e => throw (.decode e)

/-- Read what is missing of a packet whose size is known. -/
def recvMissing (rd : PacketReader) (info : PacketSizeInfo) : RxM τ Bool :=
  if rd.bytes.length < info.size then recvN (info.size - rd.bytes.length) else pure false

/-- Read the variable header and the payload. -/
def recvBody (rd : PacketReader) (info : PacketSizeInfo) : RxM τ PacketReadState := do
  if ← recvMissing rd info then
    return .connectionClosed
  else
    let bytes := (← get).reader.bytes
    if bytes.length ≥ info.size then takePacket bytes info else return .needMoreData

/-- Read the fixed header. -/
def recvHeader (rd : PacketReader) : RxM τ PacketReadState := do
  if ← recvN (maxHeaderSize - rd.bytes.length) then
    return .connectionClosed
  else
    let bytes := (← get).reader.bytes
    match parsePacketSize bytes with
    | .error e =>
      setReader ⟨[], none⟩
      throw e
    | .ok size =>
      setReader ⟨bytes, size⟩
      return .needMoreData

/-- `PacketReader::recv`. -/
def recv : RxM τ PacketReadState := do
  let rd := (← get).reader
  match rd.size with
  | some info => recvBody rd info
  | none => recvHeader rd

end PacketReader

end Lmc
