import Lmc.Wire.Asked
import Lmc.Wire.Encoding

/-!
# What a broker decodes

The decoders of the packets of a client, which the broker of the tests runs on the body of
every packet it receives. Their assertions panic, and so does a quality of service of 3;
both are the fault `panicked` here. The owned copies that they return have the fields of the
packets that the client encodes, so they are the same types.

`outgoing_packets_round_trip` says that the client and this broker agree on the format:
whatever the client encodes is decoded to the same fields, and no byte is left.
-/

namespace Lmc

/-! ## The decoders -/

/-- How a decoder of the broker fails. -/
inductive BrokerFault where
  | decode (e : PacketDecodeError)
  | panicked
deriving DecidableEq, Repr

/-- A computation of the broker on a `ByteReader`. -/
abbrev BrokerM := EStateM BrokerFault (List UInt8)

namespace BrokerM

/-- A reader of the client, whose errors leave the decoder through `?`. -/
def ofRead {α : Type} (rd : ReadM α) : BrokerM α := fun bytes =>
  match rd bytes with
  | .ok a rest => .ok a rest
  | .error e rest => .error (.decode e) rest

/-- `assert!`. -/
def check (c : Prop) [Decidable c] : BrokerM Unit :=
  if c then pure () else throw .panicked

/-- The three qualities of service, and a panic for everything else. -/
def qosOf (code : UInt8) : BrokerM QoS :=
  if code = 0 then pure .atMostOnce
  else if code = 1 then pure .atLeastOnce
  else if code = 2 then pure .exactlyOnce
  else throw .panicked

/-- `while rd.remaining() > 0`, where every round pushes one value. A round that succeeds
takes a byte at least, so that the number of bytes bounds the number of rounds. -/
def untilEmpty {α : Type} (round : BrokerM α) : Nat → BrokerM (List α)
  | 0 => return []
  | fuel + 1 => do
    if (← ofRead ByteReader.remaining) > 0 then
      let a ← round
      return a :: (← untilEmpty round fuel)
    else
      return []

end BrokerM

open BrokerM

abbrev IncomingLastWill := LastWill
abbrev IncomingConnectPacket := ConnectPacket
abbrev IncomingSubscribePacket := SubscribePacket
abbrev IncomingUnsubPacket := UnsubscribePacket

namespace IncomingConnectPacket

def decodeWill (flags : UInt8) : BrokerM (Option IncomingLastWill) :=
  if flags &&& 4 = 0 then return none
  else do
    let topic ← ofRead ByteReader.readUtf8
    let message ← ofRead ByteReader.readByteArray
    let qos ← qosOf ((flags >>> 3) &&& 3)
    return some ⟨topic, message, (flags &&& 32) != 0, qos⟩

def decodeUsername (flags : UInt8) : BrokerM (Option Str) :=
  if flags &&& 128 = 0 then return none else do return some (← ofRead ByteReader.readUtf8)

def decodePassword (flags : UInt8) : BrokerM (Option (List UInt8)) :=
  if flags &&& 64 = 0 then return none else do return some (← ofRead ByteReader.readByteArray)

/-- The fields behind the header. -/
def decodeFields (flags : UInt8) (keepAlive : UInt16) : BrokerM IncomingConnectPacket := do
  let clientId ← ofRead ByteReader.readUtf8
  let will ← decodeWill flags
  let username ← decodeUsername flags
  let password ← decodePassword flags
  return ⟨(flags &&& 2) != 0, keepAlive, clientId, will, username, password⟩

def decode (ctrl : ControlField) : BrokerM IncomingConnectPacket := do
  check (ctrl.flags = 0)
  match ← ofRead (ByteReader.readTrivial 10) with
  | [len₁, len₂, m, q, t, t', level, flags, alive₁, alive₂] =>
    check (u16OfBe len₁ len₂ = 4)
    check ([m, q, t, t'] = [77, 81, 84, 84])
    check (level = 4)
    decodeFields flags (u16OfBe alive₁ alive₂)
  | _ => throw .panicked

end IncomingConnectPacket

namespace IncomingSubscribePacket

def decodeTopic : BrokerM (Str × QoS) := do
  let topic ← ofRead ByteReader.readUtf8
  let qos ← qosOf (← ofRead ByteReader.readU8)
  return (topic, qos)

def decode (ctrl : ControlField) : BrokerM IncomingSubscribePacket := do
  check (ctrl.flags = 2)
  let packetId ← ofRead ByteReader.readU16
  let topics ← untilEmpty decodeTopic (← ofRead ByteReader.remaining)
  return ⟨packetId, topics⟩

end IncomingSubscribePacket

def IncomingUnsubPacket.decode (ctrl : ControlField) : BrokerM IncomingUnsubPacket := do
  check (ctrl.flags = 2)
  let packetId ← ofRead ByteReader.readU16
  let topics ← untilEmpty (ofRead ByteReader.readUtf8) (← ofRead ByteReader.remaining)
  return ⟨packetId, topics⟩

def EmptyPacket.decode {ty : PacketType} (ctrl : ControlField) : BrokerM (EmptyPacket ty) := do
  check (ctrl.flags = 0)
  return {}

inductive IncomingBrokerPacket where
  | connect (p : IncomingConnectPacket)
  | subscribe (p : IncomingSubscribePacket)
  | publish (p : IncomingPublishPacket)
  | pubAck (p : PubAckPacket)
  | pubRec (p : PubRecPacket)
  | pubRel (p : PubRelPacket)
  | pubComp (p : PubCompPacket)
  | unsubscribe (p : IncomingUnsubPacket)
  | pingReq (p : PingReqPacket)
  | disconnect (p : DisconnectPacket)
deriving DecidableEq, Repr

def IncomingBrokerPacket.fromBytes (ctrl : ControlField) : BrokerM IncomingBrokerPacket :=
  if ctrl.packetType = PacketType.connect.code then .connect <$> IncomingConnectPacket.decode ctrl
  else if ctrl.packetType = PacketType.subscribe.code then
    .subscribe <$> IncomingSubscribePacket.decode ctrl
  else if ctrl.packetType = PacketType.publish.code then
    .publish <$> ofRead (IncomingPublishPacket.decode ctrl)
  else if ctrl.packetType = PacketType.pubAck.code then .pubAck <$> ofRead SimplePacket.decode
  else if ctrl.packetType = PacketType.pubRec.code then .pubRec <$> ofRead SimplePacket.decode
  else if ctrl.packetType = PacketType.pubRel.code then .pubRel <$> ofRead SimplePacket.decode
  else if ctrl.packetType = PacketType.pubComp.code then .pubComp <$> ofRead SimplePacket.decode
  else if ctrl.packetType = PacketType.unsubscribe.code then
    .unsubscribe <$> IncomingUnsubPacket.decode ctrl
  else if ctrl.packetType = PacketType.pingReq.code then .pingReq <$> EmptyPacket.decode ctrl
  else if ctrl.packetType = PacketType.disconnect.code then .disconnect <$> EmptyPacket.decode ctrl
  else throw (.decode (.invalidPacketId ctrl.packetType))

/-! ## Readers -/

namespace BrokerM

variable {α β : Type}

/-- A reader that takes exactly these bytes and returns this value. -/
def Reads (x : BrokerM α) (bytes : List UInt8) (a : α) : Prop :=
  ∀ rest, x.run (bytes ++ rest) = .ok a rest

theorem Reads.pure (a : α) : Reads (pure a) [] a := fun _ => rfl

theorem Reads.run_bind {x : BrokerM α} {bytes : List UInt8} {a : α} (hx : Reads x bytes a)
    (k : α → BrokerM β) (rest : List UInt8) :
    (x >>= k).run (bytes ++ rest) = (k a).run rest := by
  rw [EStateM.run_bind, hx]

theorem Reads.bind {x : BrokerM α} {k : α → BrokerM β} {bytes more : List UInt8} {a : α} {b : β}
    (hx : Reads x bytes a) (hk : Reads (k a) more b) : Reads (x >>= k) (bytes ++ more) b := by
  intro rest
  rw [List.append_assoc, hx.run_bind]
  exact hk rest

/-- A step that takes no byte. -/
theorem Reads.silent {x : BrokerM α} {k : α → BrokerM β} {bytes : List UInt8} {a : α} {b : β}
    (hx : Reads x [] a) (hk : Reads (k a) bytes b) : Reads (x >>= k) bytes b := hx.bind hk

theorem Reads.returns {x : BrokerM α} {bytes : List UInt8} {a : α} (hx : Reads x bytes a)
    (f : α → β) : Reads (do return f (← x)) bytes (f a) := by
  rw [← List.append_nil bytes]
  exact hx.bind (.pure (f a))

theorem reads_ofRead {rd : ReadM α} {bytes : List UInt8} {a : α}
    (h : ∀ rest, rd.run (bytes ++ rest) = .ok a rest) : Reads (ofRead rd) bytes a := by
  intro rest
  have hrun := h rest
  change rd (bytes ++ rest) = _ at hrun
  show ofRead rd (bytes ++ rest) = _
  rw [ofRead, hrun]

theorem reads_check {c : Prop} [Decidable c] (h : c) : Reads (check c) [] () := by
  rw [check, if_pos h]
  exact .pure ()

theorem reads_qosOf (q : QoS) : Reads (qosOf q.code) [] q := by
  cases q <;> exact .pure _

theorem reads_u16 (v : UInt16) : Reads (ofRead ByteReader.readU16) (u16ToBe v) v :=
  reads_ofRead fun rest => ByteReader.run_readU16 rest v

theorem reads_byteArray {data : List UInt8} (h : data.length ≤ 65535) :
    Reads (ofRead ByteReader.readByteArray) (ByteWriter.field data) data := by
  refine reads_ofRead fun rest => ?_
  rw [ByteWriter.field, List.append_assoc]
  exact ByteReader.run_readByteArray rest h

theorem reads_utf8 {s : Str} (h : s.asBytes.length ≤ 65535) :
    Reads (ofRead ByteReader.readUtf8) (ByteWriter.field s.asBytes) s := by
  refine reads_ofRead fun rest => ?_
  rw [ByteWriter.field, List.append_assoc]
  exact ByteReader.run_readUtf8 rest h

theorem reads_u8 (b : UInt8) : Reads (ofRead ByteReader.readU8) [b] b :=
  reads_ofRead fun _ => rfl

theorem reads_trivial {size : Nat} {data : List UInt8} (h : data.length = size) :
    Reads (ofRead (ByteReader.readTrivial size)) data data := by
  subst h
  refine reads_ofRead fun rest => ?_
  have hnot : ¬ (data ++ rest).length < data.length := by
    rw [List.length_append]
    omega
  simp only [ByteReader.readTrivial, EStateM.run_bind, EStateM.run_get, if_neg hnot,
    List.drop_left, List.take_left]
  rfl

/-- The loop reads a list of values up to the end. -/
theorem run_untilEmpty {round : BrokerM α} {entry : α → List UInt8} {l : List α} {fuel : Nat}
    (hround : ∀ a ∈ l, Reads round (entry a) a) (hentry : ∀ a, entry a ≠ [])
    (hfuel : (l.flatMap entry).length ≤ fuel) :
    (untilEmpty round fuel).run (l.flatMap entry) = .ok l [] := by
  induction l generalizing fuel with
  | nil => cases fuel <;> rfl
  | cons a l ih =>
    have hpos : 0 < (entry a).length := List.length_pos_of_ne_nil (hentry a)
    rw [List.flatMap_cons] at hfuel ⊢
    rw [List.length_append] at hfuel
    cases fuel with
    | zero => omega
    | succ fuel =>
      have hmore : (entry a ++ l.flatMap entry).length > 0 := by
        rw [List.length_append]
        omega
      have hrest : (untilEmpty round fuel).run (l.flatMap entry) = .ok l [] :=
        ih (fun b hb => hround b (List.mem_cons_of_mem _ hb)) (by omega)
      have hremaining : (ofRead ByteReader.remaining).run (entry a ++ l.flatMap entry) =
          .ok (entry a ++ l.flatMap entry).length (entry a ++ l.flatMap entry) := rfl
      rw [untilEmpty, EStateM.run_bind, hremaining]
      simp only [if_pos hmore, EStateM.run_bind, hround a List.mem_cons_self _, hrest]
      rfl

/-- The decoder of an identifier and a list of values. -/
theorem run_list {round : BrokerM α} {entry : α → List UInt8} {l : List α} {c : Prop}
    [Decidable c] (hc : c) (id : UInt16) (hround : ∀ a ∈ l, Reads round (entry a) a)
    (hentry : ∀ a, entry a ≠ []) (mk : UInt16 → List α → β) : EStateM.run (do
      check c
      let packetId ← ofRead ByteReader.readU16
      let values ← untilEmpty round (← ofRead ByteReader.remaining)
      return mk packetId values : BrokerM β) (u16ToBe id ++ l.flatMap entry) =
        .ok (mk id l) [] := by
  have hvalues := run_untilEmpty hround hentry le_rfl
  refine ((reads_check hc).run_bind _ (u16ToBe id ++ l.flatMap entry)).trans ?_
  rw [(reads_u16 id).run_bind]
  show EStateM.run (do
    let values ← untilEmpty round (l.flatMap entry).length
    return mk id values : BrokerM β) (l.flatMap entry) = _
  rw [EStateM.run_bind, hvalues]
  rfl

end BrokerM

/-! ## Round trips -/

/-- The connect flags of a packet with these parts. -/
def connectFlags (cleanSession : Bool) (will : Option (Bool × QoS)) (password username : Bool) :
    UInt8 :=
  (if cleanSession then (2 : UInt8) else 0) |||
  (match will with
    | none => (0 : UInt8)
    | some (retain, qos) => (4 : UInt8) ||| (qos.code <<< 3) ||| (if retain then 32 else 0)) |||
  (if password then 64 else 0) ||| (if username then 128 else 0)

theorem connectFlags_parts (c : Bool) (will : Option (Bool × QoS)) (pass user : Bool) :
    ((connectFlags c will pass user &&& 2) != 0) = c ∧
    (connectFlags c will pass user &&& 4 = 0 ↔ will.isNone) ∧
    (connectFlags c will pass user &&& 64 = 0 ↔ pass = false) ∧
    (connectFlags c will pass user &&& 128 = 0 ↔ user = false) := by
  rcases will with _ | ⟨retain, qos⟩
  · cases c <;> cases pass <;> cases user <;> decide
  · cases c <;> cases pass <;> cases user <;> cases retain <;> cases qos <;> decide

theorem connectFlags_will (c retain : Bool) (qos : QoS) (pass user : Bool) :
    (connectFlags c (some (retain, qos)) pass user >>> 3) &&& 3 = qos.code ∧
    ((connectFlags c (some (retain, qos)) pass user &&& 32) != 0) = retain := by
  cases c <;> cases pass <;> cases user <;> cases retain <;> cases qos <;> decide

namespace IncomingConnectPacket

variable {p : ConnectPacket}

theorem flags_eq (p : ConnectPacket) : p.flags = connectFlags p.cleanSession
    (p.will.map fun will => (will.retain, will.qos)) p.password.isSome p.username.isSome := by
  obtain ⟨cleanSession, keepAlive, clientId, will, username, password⟩ := p
  cases will <;> rfl

theorem reads_decodeWill (h : p.Fits) : Reads (decodeWill p.flags)
    (ConnectPacket.optional p.will fun will => [will.topic.asBytes, will.message]) p.will := by
  have hparts := (connectFlags_parts p.cleanSession
    (p.will.map fun will => (will.retain, will.qos)) p.password.isSome p.username.isSome).2.1
  rw [← flags_eq] at hparts
  cases hwill : p.will with
  | none =>
    rw [decodeWill, if_pos (hparts.mpr (by rw [hwill]; rfl))]
    exact .pure none
  | some will =>
    obtain ⟨htopic, hmessage⟩ := h.2.1 will hwill
    have hsome := connectFlags_will p.cleanSession will.retain will.qos p.password.isSome
      p.username.isSome
    have hflags := flags_eq p
    rw [hwill] at hparts hflags
    rw [Option.map_some] at hflags
    rw [← hflags] at hsome
    have hne : ¬ p.flags &&& 4 = 0 := fun hzero => Bool.noConfusion (hparts.mp hzero)
    have hbytes : ConnectPacket.optional (some will)
        (fun will => [will.topic.asBytes, will.message]) =
          ByteWriter.field will.topic.asBytes ++ ByteWriter.field will.message := by
      simp [ConnectPacket.optional]
    rw [decodeWill, if_neg hne, hsome.1, hsome.2, hbytes]
    refine (reads_utf8 htopic).bind ?_
    rw [← List.append_nil (ByteWriter.field will.message)]
    exact (reads_byteArray hmessage).bind ((reads_qosOf will.qos).returns fun qos =>
      some (⟨will.topic, will.message, will.retain, qos⟩ : LastWill))

theorem reads_decodeUsername (h : p.Fits) : Reads (decodeUsername p.flags)
    (ConnectPacket.optional p.username fun x => [x.asBytes]) p.username := by
  have hparts := (connectFlags_parts p.cleanSession
    (p.will.map fun will => (will.retain, will.qos)) p.password.isSome p.username.isSome).2.2.2
  rw [← flags_eq] at hparts
  cases huser : p.username with
  | none =>
    rw [decodeUsername, if_pos (hparts.mpr (by rw [huser]; rfl))]
    exact .pure none
  | some x =>
    rw [huser] at hparts
    rw [decodeUsername, if_neg fun hzero => Bool.noConfusion (hparts.mp hzero)]
    simpa [ConnectPacket.optional] using (reads_utf8 (h.2.2.1 x huser)).returns some

theorem reads_decodePassword (h : p.Fits) : Reads (decodePassword p.flags)
    (ConnectPacket.optional p.password fun x => [x]) p.password := by
  have hparts := (connectFlags_parts p.cleanSession
    (p.will.map fun will => (will.retain, will.qos)) p.password.isSome p.username.isSome).2.2.1
  rw [← flags_eq] at hparts
  cases hpass : p.password with
  | none =>
    rw [decodePassword, if_pos (hparts.mpr (by rw [hpass]; rfl))]
    exact .pure none
  | some x =>
    rw [hpass] at hparts
    rw [decodePassword, if_neg fun hzero => Bool.noConfusion (hparts.mp hzero)]
    simpa [ConnectPacket.optional] using (reads_byteArray (h.2.2.2 x hpass)).returns some

theorem reads_decode {ctrl : ControlField} (hctrl : ctrl.flags = 0) (h : p.Fits) :
    Reads (decode ctrl) p.content p := by
  have hheader : Reads (ofRead (ByteReader.readTrivial 10)) p.header p.header :=
    reads_trivial rfl
  have hclean := (connectFlags_parts p.cleanSession
    (p.will.map fun will => (will.retain, will.qos)) p.password.isSome p.username.isSome).1
  rw [← flags_eq] at hclean
  refine (reads_check hctrl).silent (hheader.bind ?_)
  refine (reads_check rfl).silent ((reads_check rfl).silent ((reads_check rfl).silent ?_))
  rw [u16OfBe_toBe, decodeFields, hclean]
  refine (reads_utf8 h.1).bind ((reads_decodeWill h).bind ((reads_decodeUsername h).bind ?_))
  exact (reads_decodePassword h).returns fun password =>
    (⟨p.cleanSession, p.keepAlive, p.clientId, p.will, p.username, password⟩ : ConnectPacket)

end IncomingConnectPacket

theorem IncomingSubscribePacket.run_decode {p : SubscribePacket} {ctrl : ControlField}
    (hctrl : ctrl.flags = 2) (h : p.Fits) : (decode ctrl).run p.content = .ok p [] := by
  refine run_list hctrl p.packetId (fun t ht => ?_) (fun t => ?_) SubscribePacket.mk
  · refine (reads_utf8 (h t ht)).bind ?_
    rw [← List.append_nil [t.2.code]]
    exact (reads_u8 t.2.code).bind ((reads_qosOf t.2).returns fun qos => (t.1, qos))
  · simp [SubscribePacket.entry]

theorem IncomingUnsubPacket.run_decode {p : UnsubscribePacket} {ctrl : ControlField}
    (hctrl : ctrl.flags = 2) (h : p.Fits) : (decode ctrl).run p.content = .ok p [] := by
  refine run_list hctrl p.packetId (fun t ht => reads_utf8 (h t ht)) (fun t => ?_)
    UnsubscribePacket.mk
  simp [ByteWriter.field, u16ToBe]

namespace OutgoingPublishPacket

/-- The message that the packet becomes. -/
def received (p : OutgoingPublishPacket) : IncomingPublishPacket :=
  ⟨⟨p.topic.asBytes.length, ⟨p.flags, if p.flags.qos = .atMostOnce then 0 else p.packetId⟩⟩,
    p.topic.asBytes ++ p.payload⟩

theorem topic_received (p : OutgoingPublishPacket) : p.received.topic = p.topic := by
  rw [IncomingPublishPacket.topic, received, List.take_left, fromUtf8_asBytes]
  rfl

theorem payload_received (p : OutgoingPublishPacket) : p.received.payload = p.payload := by
  rw [IncomingPublishPacket.payload, received, List.drop_left]

theorem run_decode {p : OutgoingPublishPacket} {ctrl : ControlField}
    (hctrl : ctrl.flags = p.flags.val) (h : p.Fits) :
    (IncomingPublishPacket.decode ctrl).run p.content = .ok p.received [] := by
  have htopic : ∀ rest, ByteReader.readUtf8.run (ByteWriter.field p.topic.asBytes ++ rest) =
      .ok p.topic rest := by
    intro rest
    rw [ByteWriter.field, List.append_assoc]
    exact ByteReader.run_readUtf8 rest h
  simp only [IncomingPublishPacket.decode, hctrl, PublishFlags.tryFrom_val, EStateM.run_bind,
    content, htopic, idBytes, received]
  by_cases hqos : p.flags.qos = .atMostOnce
  · rw [if_pos hqos, if_pos hqos, if_pos hqos]
    rfl
  · rw [if_neg hqos, if_neg hqos, if_neg hqos, EStateM.run_bind, ByteReader.run_readU16]
    rfl

end OutgoingPublishPacket

/-- The packet is encoded, and what the broker decodes behind the fixed header is this
packet and nothing more. -/
def RoundTrips {α : Type} [Encode α] (p : α) (received : IncomingBrokerPacket) : Prop :=
  ∃ pkt, makePacket p = .ok pkt ∧
    (IncomingBrokerPacket.fromBytes ⟨pkt.ctrl⟩).run pkt.body = .ok received []

/-- The packet is decoded by the decoder of its type. -/
theorem roundTrips_of_writes {α β : Type} [Encode α] {p : α} {flags : UInt8}
    {content : List UInt8} {wrap : β → IncomingBrokerPacket} {b : β}
    (decoder : ControlField → BrokerM β)
    (hwrites : ByteWriter.Writes (Encode.encode p) flags content)
    (hsize : Encode.computeSize p = content.length) (hflags : flags < 16)
    (hfits : Encode.computeSize p < maxContentSize)
    (hdecoder : ∀ ctrl : ControlField, ctrl.packetType = (Encode.packetType α).code →
      IncomingBrokerPacket.fromBytes ctrl = wrap <$> decoder ctrl)
    (hrun : ∀ ctrl : ControlField, ctrl.flags = flags →
      (decoder ctrl).run content = .ok b []) : RoundTrips p (wrap b) := by
  obtain ⟨size, hfield, hpkt⟩ := makePacket_of_writes hwrites hsize hflags hfits
  refine ⟨_, hpkt, ?_⟩
  have hbody : Packet.body ⟨((Encode.packetType α).code <<< 4) ||| flags, size ++ content⟩ =
      content := dropLength_encoded hfield content
  rw [hbody, hdecoder _ (packetType_ctrl _ hflags), map_eq_pure_bind, EStateM.run_bind,
    hrun _ (flags_ctrl _ hflags)]
  rfl

theorem roundTrips_simple {ty : PacketType} {flags : UInt8} (p : SimplePacket ty flags)
    {wrap : SimplePacket ty flags → IncomingBrokerPacket} (hflags : flags < 16)
    (hdecoder : ∀ ctrl : ControlField, ctrl.packetType = ty.code →
      IncomingBrokerPacket.fromBytes ctrl = wrap <$> ofRead SimplePacket.decode) :
    RoundTrips p (wrap p) := by
  have hsize : Encode.computeSize p < maxContentSize := show 2 < maxContentSize by decide
  refine roundTrips_of_writes (fun _ => ofRead SimplePacket.decode) p.writes_encode rfl hflags
    hsize hdecoder fun _ _ => ?_
  have hread : Reads (ofRead SimplePacket.decode) (u16ToBe p.packetId) p :=
    reads_ofRead fun rest => by
      rw [SimplePacket.decode, EStateM.run_bind, ByteReader.run_readU16]
      rfl
  simpa using hread []

/-- The format of the packets of a client: a packet whose fields and content are not too
long is encoded, and a broker that strips the fixed header decodes every field of it from
what is left, to the last byte. A publish of quality 0 has no identifier and is given 0. -/
theorem outgoing_packets_round_trip :
    (∀ p : ConnectPacket, p.Fits → Encode.computeSize p < maxContentSize →
      RoundTrips p (.connect p)) ∧
    (∀ p : OutgoingPublishPacket, p.Fits → Encode.computeSize p < maxContentSize →
      ∃ m, RoundTrips p (.publish m) ∧ m.info.flags = p.flags ∧ m.topic = p.topic ∧
        m.info.packetId = (if p.flags.qos = .atMostOnce then 0 else p.packetId) ∧
        m.payload = p.payload) ∧
    (∀ p : SubscribePacket, p.Fits → Encode.computeSize p < maxContentSize →
      RoundTrips p (.subscribe p)) ∧
    (∀ p : UnsubscribePacket, p.Fits → Encode.computeSize p < maxContentSize →
      RoundTrips p (.unsubscribe p)) ∧
    (∀ p : PubAckPacket, RoundTrips p (.pubAck p)) ∧
    (∀ p : PubRecPacket, RoundTrips p (.pubRec p)) ∧
    (∀ p : PubRelPacket, RoundTrips p (.pubRel p)) ∧
    ∀ p : PubCompPacket, RoundTrips p (.pubComp p) := by
  refine ⟨fun p h hsize => ?_, fun p h hsize => ?_, fun p h hsize => ?_, fun p h hsize => ?_,
    fun p => ?_, fun p => ?_, fun p => ?_, fun p => ?_⟩
  · refine roundTrips_of_writes IncomingConnectPacket.decode (ConnectPacket.writes_encode h)
      p.computeSize_eq (by decide) hsize (fun ctrl hty => ?_)
      fun ctrl hflags => ?_
    · rw [IncomingBrokerPacket.fromBytes, hty]
      rfl
    · simpa using IncomingConnectPacket.reads_decode hflags h []
  · refine ⟨p.received, ?_, rfl, p.topic_received, rfl, p.payload_received⟩
    refine roundTrips_of_writes (fun ctrl => ofRead (IncomingPublishPacket.decode ctrl))
      (OutgoingPublishPacket.writes_encode h) p.computeSize_eq p.flags.val_lt hsize
      (fun ctrl hty => ?_) fun ctrl hflags => ?_
    · rw [IncomingBrokerPacket.fromBytes, hty]
      rfl
    · have hrun := OutgoingPublishPacket.run_decode hflags h
      change IncomingPublishPacket.decode ctrl _ = _ at hrun
      show ofRead (IncomingPublishPacket.decode ctrl) _ = _
      rw [ofRead, hrun]
  · refine roundTrips_of_writes IncomingSubscribePacket.decode
      (SubscribePacket.writes_encode h) p.computeSize_eq (by decide) hsize (fun ctrl hty => ?_)
      fun ctrl hflags => IncomingSubscribePacket.run_decode hflags h
    rw [IncomingBrokerPacket.fromBytes, hty]
    rfl
  · refine roundTrips_of_writes IncomingUnsubPacket.decode
      (UnsubscribePacket.writes_encode h) p.computeSize_eq (by decide) hsize (fun ctrl hty => ?_)
      fun ctrl hflags => IncomingUnsubPacket.run_decode hflags h
    rw [IncomingBrokerPacket.fromBytes, hty]
    rfl
  all_goals
    refine roundTrips_simple p (by decide) fun ctrl hty => ?_
    rw [IncomingBrokerPacket.fromBytes, hty]
    rfl

theorem outgoing_packets_round_trip_connect :
    RoundTrips (⟨true, 30, ['a'], some ⟨['b', '/', 'c'], [1, 2], true, .exactlyOnce⟩,
      none, some [3]⟩ : ConnectPacket)
      (.connect ⟨true, 30, ['a'], some ⟨['b', '/', 'c'], [1, 2], true, .exactlyOnce⟩,
        none, some [3]⟩) ∧
    RoundTrips (⟨7, [(['a', '/', '#'], .atLeastOnce), (['b'], .atMostOnce)]⟩ : SubscribePacket)
      (.subscribe ⟨7, [(['a', '/', '#'], .atLeastOnce), (['b'], .atMostOnce)]⟩) := by
  refine ⟨outgoing_packets_round_trip.1 _ ?_ ?_, outgoing_packets_round_trip.2.2.1 _ ?_ ?_⟩
  · simp only [ConnectPacket.Fits]
    decide
  · decide
  · simp only [SubscribePacket.Fits]
    decide
  · decide

end Lmc
