import Mathlib.Algebra.GroupWithZero.Nat
import Mathlib.Data.List.AList

/-!
# Vocabulary of the MQTT client

The enumerations and small records that every later module reads: quality of service,
packet types and the control field of a packet, the keys of the retransmission map,
and the three kinds of failure. A `String` of the source is the list of its Unicode
scalar values; its bytes are their UTF-8 encoding.

The failures are kept apart because the source treats them differently. A
`PacketDecodeError` is a value of the decoder, an `IoError` leaves a function of the
transceiver through `?`, and a `Panic` is a failed `assert!`, `expect` or index.
-/

namespace Lmc

/-- A string of the source, as the list of its characters. -/
abbrev Str := List Char

/-- The UTF-8 bytes of a string (`AsRef<[u8]>` of a `str`). -/
def Str.asBytes (s : Str) : List UInt8 := s.flatMap String.utf8EncodeChar

/-- `str::from_utf8`: the string spelled by the bytes, if they are valid UTF-8. -/
def fromUtf8 (bytes : List UInt8) : Option Str :=
  bytes.toByteArray.utf8Decode?.map Array.toList

/-- A hash map of the source. Its entries have distinct keys. -/
abbrev LmcHashMap (α β : Type) := AList (fun _ : α => β)

inductive QoS where
  | atMostOnce
  | atLeastOnce
  | exactlyOnce
deriving DecidableEq, Repr

/-- `qos as u8`. -/
def QoS.code : QoS → UInt8
  | .atMostOnce => 0
  | .atLeastOnce => 1
  | .exactlyOnce => 2

inductive PacketType where
  | connect
  | connAck
  | publish
  | pubAck
  | pubRec
  | pubRel
  | pubComp
  | subscribe
  | subAck
  | unsubscribe
  | unsubAck
  | pingReq
  | pingResp
  | disconnect
deriving DecidableEq, Repr

/-- `packet_type as u8`. -/
def PacketType.code : PacketType → UInt8
  | .connect => 1
  | .connAck => 2
  | .publish => 3
  | .pubAck => 4
  | .pubRec => 5
  | .pubRel => 6
  | .pubComp => 7
  | .subscribe => 8
  | .subAck => 9
  | .unsubscribe => 10
  | .unsubAck => 11
  | .pingReq => 12
  | .pingResp => 13
  | .disconnect => 14

/-! ## Failures -/

inductive ServerConnectError where
  | unacceptableProtocolVersion
  | identifierRejected
  | serverUnavailable
  | badUserNameOrPassword
  | notAuthorized
  | unknown (code : UInt8)
  | protocolError
deriving DecidableEq, Repr

inductive PacketDecodeError where
  | reachedEndUnexpectedly
  | utf8Error
  | malformedPacket
  | reachedMaxSize
  | invalidPacketId (id : UInt8)
deriving DecidableEq, Repr

/-- The `io::Error`s the transceiver distinguishes. A `PacketDecodeError` is wrapped in
an error of kind `Other`. -/
inductive IoError where
  | wouldBlock
  | unexpectedEof
  | decode (e : PacketDecodeError)
  | other (code : Nat)
deriving DecidableEq, Repr

/-- The places where the encoder panics, with the message it gives there. -/
inductive EncodePanic where
  /-- `ControlField::from_type_and_flags`: "invalid flags" -/
  | invalidFlags
  /-- `encode_packet_size`: "packet too big" -/
  | packetTooBig
  /-- `ByteWriter::write_bytes`: "array too wide" -/
  | arrayTooWide
  /-- `ByteWriter`: "not enough space left" -/
  | notEnoughSpace
  /-- `ByteWriter::finish_and_check`: "uninitialized bytes left" -/
  | uninitializedBytes
deriving DecidableEq, Repr

/-- The places where the source panics. -/
inductive Panic where
  | encoder (p : EncodePanic)
  /-- `Transceiver::try_send_packet`: the debug assertion on `tx_pkt` -/
  | alreadyTransmitting
  /-- `Transceiver::task_step`: no timeout left although one was counted -/
  | noTimeout
  /-- `SubscribeFuture`: `wakers[i]` out of range -/
  | wakerOutOfRange
  /-- `mpsc::channel`: the capacity is 0 or above `Semaphore::MAX_PERMITS` -/
  | channelCapacity
deriving DecidableEq, Repr

/-! ## The control field -/

/-- The first byte of a packet: its type in the upper nibble and flags in the lower one. -/
structure ControlField where
  byte : UInt8
deriving DecidableEq, Repr

namespace ControlField

def fromTypeAndFlags (t : PacketType) (flags : UInt8) : Except EncodePanic ControlField :=
  if flags ≥ 16 then .error .invalidFlags else .ok ⟨(t.code <<< 4) ||| flags⟩

def packetType (c : ControlField) : UInt8 := (c.byte &&& 0xf0) >>> 4

def flags (c : ControlField) : UInt8 := c.byte &&& 0x0f

end ControlField

/-! ## Keys of the retransmission map -/

/-- A packet identifier together with the type of the packet that carries it. -/
structure IdType where
  ty : PacketType
  id : UInt16
deriving DecidableEq, Repr

namespace IdType

def publish (id : UInt16) : IdType := ⟨.publish, id⟩
def subscribe (id : UInt16) : IdType := ⟨.subscribe, id⟩
def pubRec (id : UInt16) : IdType := ⟨.pubRec, id⟩
def pubRel (id : UInt16) : IdType := ⟨.pubRel, id⟩
def unsubscribe (id : UInt16) : IdType := ⟨.unsubscribe, id⟩

end IdType

end Lmc
