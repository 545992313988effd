import Lmc.Wire.ByteIo

/-!
# MQTT packets

The packets the client sends, with their encoders, and the packets it receives, with
their decoders. `makePacket` is `make_packet_t`: it writes the fixed header in front of
the encoded content and panics where the source does. `IncomingPacket.fromBytes` is the
decoder of one frame: it selects the packet by the upper nibble of the control field
and reads it from the body of the frame.

A `Packet` is an `Arc<[u8]>` made by `makePacket`. It always has a first byte, which is
the only fact the transceiver relies on when it sets the `DUP` flag of a packet that is
sent again.
-/

namespace Lmc

/-- One byte of control field and up to four bytes of remaining length. -/
def maxHeaderSize : Nat := 5

/-- The bytes of an outgoing packet: the control byte and everything behind it. -/
structure Packet where
  ctrl : UInt8
  rest : List UInt8
deriving DecidableEq, Repr

def Packet.bytes (p : Packet) : List UInt8 := p.ctrl :: p.rest

@[simp] theorem Packet.bytes_ne_nil (p : Packet) : p.bytes ≠ [] := List.cons_ne_nil _ _

/-! ## Encoding -/

/-- `encode_packet_size` into a slice of the given length: seven bits a byte, the
continuation bit on every byte but the last. -/
def encodePacketSize : Nat → Nat → Except EncodePanic (List UInt8)
  | 0, _ => .error .packetTooBig
  | len + 1, sz =>
    if sz >>> 7 = 0 then
      .ok [UInt8.ofNat (sz &&& 0x7f)]
    else do
      let more ← encodePacketSize len (sz >>> 7)
      return (UInt8.ofNat (sz &&& 0x7f) ||| 0x80) :: more

/-- The traits `Packet` and `Encode` of an outgoing packet. `encode` writes the content
and returns the flags of the control field. -/
class Encode (α : Type) where
  packetType : PacketType
  computeSize : α → Nat
  encode : α → WriteM UInt8

/-- Run an encoder on an uninitialised slice of `len` bytes, which it has to fill. -/
def ByteWriter.fill (len : Nat) (wr : WriteM UInt8) : Except EncodePanic (UInt8 × List UInt8) :=
  match (do let flags ← wr; ByteWriter.finishAndCheck; return flags : WriteM UInt8) ⟨len, []⟩ with
  | .ok flags w => .ok (flags, w.written)
  | .error e _ => .error e

/-- `make_packet_t`. -/
def makePacket {α : Type} [Encode α] (p : α) : Except EncodePanic Packet := do
  let contentSz := Encode.computeSize p
  let sizeField ← encodePacketSize (maxHeaderSize - 1) contentSz
  let (flags, content) ← ByteWriter.fill contentSz (Encode.encode p)
  let ctrl ← ControlField.fromTypeAndFlags (Encode.packetType α) flags
  return ⟨ctrl.byte, sizeField ++ content⟩

/-- The parts of a packet whose encoder succeeds. -/
theorem makePacket_eq_ok {α : Type} [Encode α] {p : α} {flags ctrl : UInt8}
    {size content : List UInt8}
    (hsize : encodePacketSize (maxHeaderSize - 1) (Encode.computeSize p) = .ok size)
    (hfill : ByteWriter.fill (Encode.computeSize p) (Encode.encode p) = .ok (flags, content))
    (hctrl : ControlField.fromTypeAndFlags (Encode.packetType α) flags = .ok ⟨ctrl⟩) :
    makePacket p = .ok ⟨ctrl, size ++ content⟩ := by
  simp only [makePacket, hsize, hfill]
  show (ControlField.fromTypeAndFlags (Encode.packetType α) flags >>= fun c =>
    Except.ok (⟨c.byte, size ++ content⟩ : Packet)) = _
  rw [hctrl]
  rfl

/-- The bytes a length-prefixed array takes. -/
def arraySize (bytes : List UInt8) : Nat := 2 + bytes.length

/-! ## CONNECT and CONNACK -/

structure LastWill where
  topic : Str
  message : List UInt8
  retain : Bool
  qos : QoS
deriving DecidableEq, Repr

structure ConnectPacket where
  cleanSession : Bool
  keepAlive : UInt16
  clientId : Str
  will : Option LastWill
  username : Option Str
  password : Option (List UInt8)
deriving DecidableEq, Repr

namespace ConnectPacket

/-- The connect flags: user name, password, will retain, will QoS, will, clean session. -/
def flags (p : ConnectPacket) : UInt8 :=
  (if p.cleanSession then (2 : UInt8) else 0) |||
  (match p.will with
    | none => (0 : UInt8)
    | some will => (4 : UInt8) ||| (will.qos.code <<< 3) ||| (if will.retain then 32 else 0)) |||
  (if p.password.isSome then 64 else 0) ||| (if p.username.isSome then 128 else 0)

/-- `ConnectHeader`: protocol name `MQTT`, protocol level 4, flags and keep-alive. -/
def header (p : ConnectPacket) : List UInt8 :=
  u16ToBe 4 ++ [77, 81, 84, 84] ++ [4] ++ [p.flags] ++ u16ToBe p.keepAlive

instance : Encode ConnectPacket where
  packetType := .connect
  computeSize p :=
    10 + arraySize p.clientId.asBytes +
    (match p.will with
      | none => 0
      | some will => arraySize will.topic.asBytes + arraySize will.message) +
    (match p.username with | none => 0 | some x => arraySize x.asBytes) +
    (match p.password with | none => 0 | some x => arraySize x)
  encode p := do
    ByteWriter.writeTrivial p.header
    ByteWriter.writeBytes p.clientId.asBytes
    match p.will with
      | none => pure ()
      | some will =>
        ByteWriter.writeBytes will.topic.asBytes
        ByteWriter.writeBytes will.message
    match p.username with
      | none => pure ()
      | some x => ByteWriter.writeBytes x.asBytes
    match p.password with
      | none => pure ()
      | some x => ByteWriter.writeBytes x
    return 0

end ConnectPacket

/-- A `CONNACK`: whether a session was present, or why the broker refused. -/
structure ConnAckPacket where
  result : Except ServerConnectError Bool
deriving DecidableEq, Repr

def ConnAckPacket.decode : ReadM ConnAckPacket := do
  match ← ByteReader.readTrivial 2 with
  | [ackFlags, returnCode] =>
    return ⟨if returnCode = 0 then .ok ((ackFlags &&& 1) != 0)
      else if returnCode = 1 then .error .unacceptableProtocolVersion
      else if returnCode = 2 then .error .identifierRejected
      else if returnCode = 3 then .error .serverUnavailable
      else if returnCode = 4 then .error .badUserNameOrPassword
      else if returnCode = 5 then .error .notAuthorized
      else .error (.unknown returnCode)⟩
  | _ => throw .reachedEndUnexpectedly

/-! ## PUBLISH -/

/-- Publish flags in their raw form. The fields say what `new` and `try_from`
guarantee, so `qos` never meets the fourth pattern. -/
structure PublishFlags where
  val : UInt8
  allBits : val &&& 0xf0 = 0
  qosBits : (val &&& 6) >>> 1 ≤ 2
deriving DecidableEq, Repr

namespace PublishFlags

def dup : UInt8 := 8

def new (dup : Bool) (qos : QoS) (retain : Bool) : PublishFlags where
  val := (qos.code <<< 1) ||| (if dup then 8 else 0) ||| (if retain then 1 else 0)
  allBits := by cases dup <;> cases qos <;> cases retain <;> decide
  qosBits := by cases dup <;> cases qos <;> cases retain <;> decide

def qos (f : PublishFlags) : QoS :=
  if (f.val &&& 6) >>> 1 = 0 then .atMostOnce
  else if (f.val &&& 6) >>> 1 = 1 then .atLeastOnce
  else .exactlyOnce

def tryFrom (v : UInt8) : Except PacketDecodeError PublishFlags :=
  if hb : v &&& 0xf0 = 0 then
    if hq : (v &&& 6) >>> 1 ≤ 2 then .ok ⟨v, hb, hq⟩ else .error .malformedPacket
  else .error .malformedPacket

@[simp] theorem qos_new (d : Bool) (q : QoS) (r : Bool) : (new d q r).qos = q := by
  cases d <;> cases q <;> cases r <;> decide

end PublishFlags

structure OutgoingPublishPacket where
  flags : PublishFlags
  topic : Str
  packetId : UInt16
  payload : List UInt8
deriving DecidableEq, Repr

instance : Encode OutgoingPublishPacket where
  packetType := .publish
  computeSize p :=
    arraySize p.topic.asBytes + (if p.flags.qos = .atMostOnce then 0 else 2) + p.payload.length
  encode p := do
    ByteWriter.writeBytes p.topic.asBytes
    if p.flags.qos = .atMostOnce then pure () else ByteWriter.writeU16 p.packetId
    ByteWriter.writeBytesNoLen p.payload
    return p.flags.val

structure PublishPacketInfo where
  flags : PublishFlags
  packetId : UInt16
deriving DecidableEq, Repr

structure InternalPublishHeader where
  topicLen : Nat
  info : PublishPacketInfo
deriving DecidableEq, Repr

/-- A received message: one buffer with a header, the topic and the payload. -/
structure IncomingPublishPacket where
  hdr : InternalPublishHeader
  data : List UInt8
deriving DecidableEq, Repr

namespace IncomingPublishPacket

def info (m : IncomingPublishPacket) : PublishPacketInfo := m.hdr.info

/-- The topic. The decoder has checked that these bytes are valid UTF-8. -/
def topic (m : IncomingPublishPacket) : Str := (fromUtf8 (m.data.take m.hdr.topicLen)).getD []

def payload (m : IncomingPublishPacket) : List UInt8 := m.data.drop m.hdr.topicLen

def decode (ctrl : ControlField) : ReadM IncomingPublishPacket := do
  match PublishFlags.tryFrom ctrl.flags with
  | .error e => throw e
  | .ok flags =>
    let topic ← ByteReader.readUtf8
    let packetId ← if flags.qos = .atMostOnce then pure 0 else ByteReader.readU16
    let payload ← ByteReader.readRemaining
    return ⟨⟨topic.asBytes.length, ⟨flags, packetId⟩⟩, topic.asBytes ++ payload⟩

end IncomingPublishPacket

/-! ## PUBACK, PUBREC, PUBREL, PUBCOMP and UNSUBACK -/

/-- `def_simple_packet!`: a packet that carries an identifier only. -/
structure SimplePacket (ty : PacketType) (flags : UInt8) where
  packetId : UInt16
deriving DecidableEq, Repr

instance {ty : PacketType} {flags : UInt8} : Encode (SimplePacket ty flags) where
  packetType := ty
  computeSize _ := 2
  encode p := do
    ByteWriter.writeU16 p.packetId
    return flags

def SimplePacket.decode {ty : PacketType} {flags : UInt8} : ReadM (SimplePacket ty flags) := do
  return ⟨← ByteReader.readU16⟩

abbrev PubAckPacket := SimplePacket .pubAck 0
abbrev PubRecPacket := SimplePacket .pubRec 0
abbrev PubRelPacket := SimplePacket .pubRel 2
abbrev PubCompPacket := SimplePacket .pubComp 0
abbrev UnsubAckPacket := SimplePacket .unsubAck 0

/-- A packet that holds nothing but an identifier. -/
def idPacket (ctrl : UInt8) (id : UInt16) : Packet := ⟨ctrl, 2 :: u16ToBe id⟩

def pubAckPacket (id : UInt16) : Packet := idPacket 0x40 id
def pubRecPacket (id : UInt16) : Packet := idPacket 0x50 id
def pubRelPacket (id : UInt16) : Packet := idPacket 0x62 id
def pubCompPacket (id : UInt16) : Packet := idPacket 0x70 id

theorem makePacket_idPacket {ty : PacketType} {flags ctrl : UInt8}
    (h : ControlField.fromTypeAndFlags ty flags = .ok ⟨ctrl⟩) (id : UInt16) :
    makePacket (⟨id⟩ : SimplePacket ty flags) = .ok (idPacket ctrl id) := by
  have hsize : encodePacketSize (maxHeaderSize - 1)
      (Encode.computeSize (⟨id⟩ : SimplePacket ty flags)) = .ok [2] := by
    show encodePacketSize (maxHeaderSize - 1) 2 = .ok [2]
    rfl
  have hfill : ByteWriter.fill (Encode.computeSize (⟨id⟩ : SimplePacket ty flags))
      (Encode.encode (⟨id⟩ : SimplePacket ty flags)) = .ok (flags, u16ToBe id) := rfl
  have hctrl : ControlField.fromTypeAndFlags (Encode.packetType (SimplePacket ty flags)) flags =
      .ok ⟨ctrl⟩ := h
  rw [makePacket_eq_ok hsize hfill hctrl]
  rfl

theorem makePacket_pubAck (id : UInt16) :
    makePacket (⟨id⟩ : PubAckPacket) = .ok (pubAckPacket id) := makePacket_idPacket rfl id

theorem makePacket_pubRec (id : UInt16) :
    makePacket (⟨id⟩ : PubRecPacket) = .ok (pubRecPacket id) := makePacket_idPacket rfl id

theorem makePacket_pubRel (id : UInt16) :
    makePacket (⟨id⟩ : PubRelPacket) = .ok (pubRelPacket id) := makePacket_idPacket rfl id

theorem makePacket_pubComp (id : UInt16) :
    makePacket (⟨id⟩ : PubCompPacket) = .ok (pubCompPacket id) := makePacket_idPacket rfl id

/-! ## SUBSCRIBE and SUBACK -/

structure SubscribePacket where
  packetId : UInt16
  topics : List (Str × QoS)
deriving DecidableEq, Repr

instance : Encode SubscribePacket where
  packetType := .subscribe
  computeSize p := 2 + (p.topics.map fun t => arraySize t.1.asBytes + 1).sum
  encode p := do
    ByteWriter.writeU16 p.packetId
    p.topics.forM fun t => do
      ByteWriter.writeBytes t.1.asBytes
      ByteWriter.writeU8 t.2.code
    return 2

/-- The quality of service granted by the broker, or its refusal. -/
abbrev SubscriptionResult := Except Unit QoS

/-- `MAX_STATIC_SUBS`, for pointers of eight bytes and results of one byte. -/
def maxStaticSubs : Nat := 16

inductive SubscriptionResultList where
  | static (len : Nat) (values : List SubscriptionResult)
  | dynamic (values : List SubscriptionResult)
deriving DecidableEq, Repr

structure SubAckPacket where
  packetId : UInt16
  results : SubscriptionResultList
deriving DecidableEq, Repr

def parseSubResult (r : UInt8) : Except PacketDecodeError SubscriptionResult :=
  if r = 0 then .ok (.ok .atMostOnce)
  else if r = 1 then .ok (.ok .atLeastOnce)
  else if r = 2 then .ok (.ok .exactlyOnce)
  else if r = 128 then .ok (.error ())
  else .error .malformedPacket

namespace SubAckPacket

def subResults (p : SubAckPacket) : List SubscriptionResult :=
  match p.results with
  | .static len values => values.take len
  | .dynamic values => values

/-- The result bytes, one after the other, up to the first malformed one. -/
def parseResults : List UInt8 → ReadM (List SubscriptionResult)
  | [] => return []
  | r :: rest =>
    match parseSubResult r with
    | .error e => throw e
    | .ok v => do return v :: (← parseResults rest)

def decode : ReadM SubAckPacket := do
  let packetId ← ByteReader.readU16
  let numResults ← ByteReader.remaining
  let values ← parseResults (← ByteReader.readRemaining)
  -- the fixed array keeps its initial `Err(())` behind the parsed results
  return ⟨packetId, if numResults ≤ maxStaticSubs
    then .static numResults (values ++ List.replicate (maxStaticSubs - numResults) (.error ()))
    else .dynamic values⟩

end SubAckPacket

/-! ## UNSUBSCRIBE, PINGREQ, DISCONNECT and PINGRESP -/

structure UnsubscribePacket where
  packetId : UInt16
  topics : List Str
deriving DecidableEq, Repr

instance : Encode UnsubscribePacket where
  packetType := .unsubscribe
  computeSize p := 2 + (p.topics.map fun t => arraySize t.asBytes).sum
  encode p := do
    ByteWriter.writeU16 p.packetId
    p.topics.forM fun t => ByteWriter.writeBytes t.asBytes
    return 2

/-- `def_empty_outgoing_packet!`: a packet without content. -/
structure EmptyPacket (ty : PacketType) where
deriving DecidableEq, Repr

instance {ty : PacketType} : Encode (EmptyPacket ty) where
  packetType := ty
  computeSize _ := 0
  encode _ := return 0

abbrev PingReqPacket := EmptyPacket .pingReq
abbrev DisconnectPacket := EmptyPacket .disconnect

/-! ## Received packets -/

inductive IncomingPacket where
  | connAck (p : ConnAckPacket)
  | subAck (p : SubAckPacket)
  | publish (p : IncomingPublishPacket)
  | pubAck (p : PubAckPacket)
  | pubRec (p : PubRecPacket)
  | pubRel (p : PubRelPacket)
  | pubComp (p : PubCompPacket)
  | unsubAck (p : UnsubAckPacket)
  | pingResp
deriving DecidableEq, Repr

def IncomingPacket.fromBytes (ctrl : ControlField) : ReadM IncomingPacket :=
  if ctrl.packetType = PacketType.connAck.code then .connAck <$> ConnAckPacket.decode
  else if ctrl.packetType = PacketType.subAck.code then .subAck <$> SubAckPacket.decode
  else if ctrl.packetType = PacketType.publish.code then
    .publish <$> IncomingPublishPacket.decode ctrl
  else if ctrl.packetType = PacketType.pubAck.code then .pubAck <$> SimplePacket.decode
  else if ctrl.packetType = PacketType.pubRec.code then .pubRec <$> SimplePacket.decode
  else if ctrl.packetType = PacketType.pubRel.code then .pubRel <$> SimplePacket.decode
  else if ctrl.packetType = PacketType.pubComp.code then .pubComp <$> SimplePacket.decode
  else if ctrl.packetType = PacketType.unsubAck.code then .unsubAck <$> SimplePacket.decode
  else if ctrl.packetType = PacketType.pingResp.code then return .pingResp
  else throw (.invalidPacketId ctrl.packetType)

/-- What the decoder makes of one frame. -/
def decodeFrame (ctrl : UInt8) (body : List UInt8) : Except PacketDecodeError IncomingPacket :=
  match IncomingPacket.fromBytes ⟨ctrl⟩ body with
  | .ok pkt _ => .ok pkt
  | .error e _ => .error e

end Lmc
