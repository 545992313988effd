import Lmc.Lib.EState
import Lmc.Wire.Packets

/-!
# What the client asks of the broker

`Packet.asks` is the broker's reading of a packet of the client, as far as the order of
packets matters later: a publish above quality 0 and its release with their identifiers, a
subscription and its end with their topics. It reads the bytes of the packet, first the
control field, then the remaining length, then the body.

The theorems say that the encoders are read back as what they encode. The `DUP` flag that
is set in front of a second transmission does not change what a packet asks.
-/

namespace Lmc

open EStateLogic

/-! ## Reading a packet of the client -/

/-- The bytes behind the remaining length, which ends with the first byte that has no
continuation bit. -/
def dropLength : List UInt8 → List UInt8
  | [] => []
  | b :: rest => if b &&& 0x80 = 0 then rest else dropLength rest

def Packet.body (p : Packet) : List UInt8 := dropLength p.rest

inductive Asked where
  /-- A publish above quality 0. -/
  | publish (qos : QoS) (id : UInt16)
  | release (id : UInt16)
  | subscribe (id : UInt16) (topic : Str)
  | unsubscribe (id : UInt16) (topic : Str)
  | other
deriving DecidableEq, Repr

namespace Asked

def readPublish (flags : PublishFlags) : ReadM Asked := do
  let _ ← ByteReader.readByteArray
  let id ← ByteReader.readU16
  return .publish flags.qos id

def readRelease : ReadM Asked := do
  return .release (← ByteReader.readU16)

def readSubscribe : ReadM Asked := do
  let id ← ByteReader.readU16
  let topic ← ByteReader.readUtf8
  return .subscribe id topic

def readUnsubscribe : ReadM Asked := do
  let id ← ByteReader.readU16
  let topic ← ByteReader.readUtf8
  return .unsubscribe id topic

def read (ctrl : ControlField) : ReadM Asked :=
  if ctrl.packetType = PacketType.publish.code then
    match PublishFlags.tryFrom ctrl.flags with
    | .error e => throw e
    | .ok flags => if flags.qos = .atMostOnce then return .other else readPublish flags
  else if ctrl.packetType = PacketType.pubRel.code then readRelease
  else if ctrl.packetType = PacketType.subscribe.code then readSubscribe
  else if ctrl.packetType = PacketType.unsubscribe.code then readUnsubscribe
  else return .other

end Asked

def Packet.asks (p : Packet) : Asked :=
  match Asked.read ⟨p.ctrl⟩ p.body with
  | .ok asked _ => asked
  | .error _ _ => .other

/-- The packet with the `DUP` flag. -/
def Packet.withDup (p : Packet) : Packet := { p with ctrl := p.ctrl ||| PublishFlags.dup }

/-! ## Bits -/

theorem and_high_of_or (b : UInt8) : (b ||| 0x80) &&& 0x80 ≠ 0 := by
  have h : ∀ v : BitVec 8, (v ||| 0x80#8) &&& 0x80#8 ≠ 0#8 := by decide
  intro hb
  exact h b.toBitVec (congrArg UInt8.toBitVec hb)

theorem and_high_of_low (n : Nat) : UInt8.ofNat (n &&& 0x7f) &&& 0x80 = 0 := by
  have h : ∀ v : Fin 128, UInt8.ofNat v &&& 0x80 = 0 := by decide
  have hlt : n &&& 0x7f < 128 := Nat.lt_succ_of_le Nat.and_le_right
  exact h ⟨n &&& 0x7f, hlt⟩

/-- A length field is its last byte, or a byte with the continuation bit and the rest. -/
theorem encodePacketSize_cases {len sz : Nat} {field : List UInt8}
    (h : encodePacketSize (len + 1) sz = .ok field) :
    sz >>> 7 = 0 ∧ field = [UInt8.ofNat (sz &&& 0x7f)] ∨
      sz >>> 7 ≠ 0 ∧ ∃ more, encodePacketSize len (sz >>> 7) = .ok more ∧
        field = (UInt8.ofNat (sz &&& 0x7f) ||| 0x80) :: more := by
  rw [encodePacketSize] at h
  split at h
  · cases h
    exact Or.inl ⟨‹_›, rfl⟩
  · cases hmore : encodePacketSize len (sz >>> 7) with
    | error e =>
      rw [hmore] at h
      cases h
    | ok more =>
      rw [hmore] at h
      cases h
      exact Or.inr ⟨‹_›, more, rfl, rfl⟩

theorem dropLength_encoded {len sz : Nat} {field : List UInt8}
    (h : encodePacketSize len sz = .ok field) (content : List UInt8) :
    dropLength (field ++ content) = content := by
  induction len generalizing sz field with
  | zero => cases h
  | succ len ih =>
    rcases encodePacketSize_cases h with ⟨-, rfl⟩ | ⟨-, more, hmore, rfl⟩
    · rw [List.singleton_append, dropLength, if_pos (and_high_of_low sz)]
    · rw [List.cons_append, dropLength, if_neg (and_high_of_or _)]
      exact ih hmore

/-! ## Encoded packets -/

/-- The parts of an encoded packet. -/
theorem makePacket_parts {α : Type} [Encode α] {p : α} {pkt : Packet}
    (h : makePacket p = .ok pkt) : ∃ flags content,
      ByteWriter.fill (Encode.computeSize p) (Encode.encode p) = .ok (flags, content) ∧
      flags < 16 ∧ pkt.ctrl = ((Encode.packetType α).code <<< 4) ||| flags ∧
      pkt.body = content := by
  cases hsize : encodePacketSize (maxHeaderSize - 1) (Encode.computeSize p) with
  | error e =>
    simp only [makePacket, hsize] at h
    cases h
  | ok size =>
    cases hfill : ByteWriter.fill (Encode.computeSize p) (Encode.encode p) with
    | error e =>
      simp only [makePacket, hsize, hfill] at h
      cases h
    | ok written =>
      obtain ⟨flags, content⟩ := written
      simp only [makePacket, hsize, hfill] at h
      change (ControlField.fromTypeAndFlags (Encode.packetType α) flags >>= fun c =>
        Except.ok (⟨c.byte, size ++ content⟩ : Packet)) = _ at h
      unfold ControlField.fromTypeAndFlags at h
      split at h
      · cases h
      · rename_i hflags
        cases h
        exact ⟨flags, content, rfl, by simpa using hflags, rfl, dropLength_encoded hsize content⟩

namespace ByteWriter

/-- The writer appends bytes with this property to what is written. -/
def Appends {α : Type} (wr : WriteM α) (Q : α → List UInt8 → Prop) : Prop :=
  ∀ before, Triple (fun w => w.written = before) wr
    (fun a w => ∃ bytes, w.written = before ++ bytes ∧ Q a bytes) (fun _ _ => True)

theorem Appends.bind {α β : Type} {x : WriteM α} {k : α → WriteM β}
    {R : α → List UInt8 → Prop} {Q : β → List UInt8 → Prop} (hx : Appends x R)
    (hk : ∀ a bytes, R a bytes → Appends (k a) fun b more => Q b (bytes ++ more)) :
    Appends (x >>= k) Q := by
  intro before
  refine (hx before).bind fun a => ?_
  rintro w ⟨bytes, hw, hR⟩
  have hres := hk a bytes hR w.written w rfl
  cases hrun : (k a).run w with
  | ok b w' =>
    rw [hrun] at hres
    obtain ⟨more, hw', hQ⟩ := hres
    exact ⟨bytes ++ more, by rw [hw', hw, List.append_assoc], hQ⟩
  | error e w' => trivial

theorem Appends.pure {α : Type} {a : α} {Q : α → List UInt8 → Prop} (h : Q a []) :
    Appends (pure a : WriteM α) Q := by
  rintro before w hw
  exact ⟨[], by rw [List.append_nil]; exact hw, h⟩

theorem appends_writeTrivial (data : List UInt8) :
    Appends (writeTrivial data) fun _ bytes => bytes = data := by
  intro before
  refine .get_bind fun w => .ite (fun _ => .throw _ fun _ _ => trivial) fun _ => .set _ ?_
  rintro w' ⟨rfl, hw⟩
  exact ⟨data, by rw [hw], rfl⟩

theorem appends_writeBytes (data : List UInt8) :
    Appends (writeBytes data) fun _ bytes => data.length ≤ 65535 ∧
      bytes = u16ToBe (UInt16.ofNat data.length) ++ data := by
  intro before
  refine .ite (fun _ => .throw _ fun _ _ => trivial) fun hlen => ?_
  refine (appends_writeTrivial _ before).conseq (fun _ h => h) ?_ (fun _ _ _ => trivial)
  rintro _ w ⟨bytes, hw, hbytes⟩
  exact ⟨bytes, hw, by omega, hbytes⟩

/-- What a writer that fills the slice has written, and the flags it returns. -/
theorem Appends.fill {len : Nat} {wr : WriteM UInt8} {flags : UInt8} {content : List UInt8}
    {Q : UInt8 → List UInt8 → Prop} (hwr : Appends wr Q)
    (h : fill len wr = .ok (flags, content)) : Q flags content := by
  have hcheck : Appends finishAndCheck fun _ bytes => bytes = [] := by
    intro before
    refine .get_bind fun w => .ite (fun _ => .throw _ fun _ _ => trivial) fun _ => .pure _ ?_
    rintro w' ⟨rfl, hw⟩
    exact ⟨[], by rw [List.append_nil]; exact hw, rfl⟩
  have hall : Appends (do let flags ← wr; finishAndCheck; return flags : WriteM UInt8) Q := by
    refine hwr.bind fun flags bytes hQ => hcheck.bind ?_
    rintro _ _ rfl
    refine .pure ?_
    rw [List.append_nil, List.append_nil]
    exact hQ
  have hres := hall [] ⟨len, []⟩ rfl
  unfold ByteWriter.fill at h
  cases hrun : (do let flags ← wr; finishAndCheck; return flags : WriteM UInt8).run
      ⟨len, []⟩ with
  | ok flags' w =>
    change (do let flags ← wr; finishAndCheck; return flags : WriteM UInt8) ⟨len, []⟩ = _ at hrun
    rw [hrun] at h
    cases h
    change EStateM.run _ _ = _ at hrun
    rw [hrun] at hres
    obtain ⟨bytes, hw, hQ⟩ := hres
    rw [List.nil_append] at hw
    exact hw ▸ hQ
  | error e w =>
    change (do let flags ← wr; finishAndCheck; return flags : WriteM UInt8) ⟨len, []⟩ = _ at hrun
    rw [hrun] at h
    cases h

end ByteWriter

/-! ## Reading back -/

theorem fromUtf8_asBytes (s : Str) : fromUtf8 s.asBytes = some s := by
  show Option.map Array.toList (List.utf8Encode s).utf8Decode? = some s
  rw [List.utf8Decode?_utf8Encode]
  rfl

namespace ByteReader

variable (rest : List UInt8)

theorem run_readU16 (v : UInt16) : readU16.run (u16ToBe v ++ rest) = .ok v rest := by
  show EStateM.Result.ok (u16OfBe (UInt8.ofNat (v.toNat / 256)) (UInt8.ofNat (v.toNat % 256)))
    rest = _
  rw [u16OfBe_toBe]

theorem run_readByteArray {data : List UInt8} (h : data.length ≤ 65535) :
    readByteArray.run (u16ToBe (UInt16.ofNat data.length) ++ (data ++ rest)) = .ok data rest := by
  have hlen : (UInt16.ofNat data.length).toNat = data.length := by
    rw [UInt16.toNat_ofNat']
    omega
  simp only [readByteArray, EStateM.run_bind, run_readU16, EStateM.run_get, hlen]
  rw [if_neg (by simp), List.drop_left, List.take_left]
  rfl

theorem run_readUtf8 {s : Str} (h : s.asBytes.length ≤ 65535) :
    readUtf8.run (u16ToBe (UInt16.ofNat s.asBytes.length) ++ (s.asBytes ++ rest)) =
      .ok s rest := by
  simp only [readUtf8, EStateM.run_bind, run_readByteArray rest h, fromUtf8_asBytes]
  rfl

end ByteReader

/-- A control field holds two nibbles. -/
theorem nibbles_ctrl : ∀ code flags : Fin 16,
    ControlField.packetType ⟨(UInt8.ofNat code <<< 4) ||| UInt8.ofNat flags⟩ = UInt8.ofNat code ∧
      ControlField.flags ⟨(UInt8.ofNat code <<< 4) ||| UInt8.ofNat flags⟩ = UInt8.ofNat flags := by
  decide +kernel

theorem ctrl_parts (t : PacketType) {flags : UInt8} (h : flags < 16) :
    ControlField.packetType ⟨(t.code <<< 4) ||| flags⟩ = t.code ∧
      ControlField.flags ⟨(t.code <<< 4) ||| flags⟩ = flags := by
  have hcode : t.code.toNat < 16 := by cases t <;> decide
  have hparts := nibbles_ctrl ⟨t.code.toNat, hcode⟩ ⟨flags.toNat, UInt8.lt_iff_toNat_lt.mp h⟩
  simp only [UInt8.ofNat_toNat] at hparts
  exact hparts

/-- The type of a packet is in its control field. -/
theorem packetType_ctrl (t : PacketType) {flags : UInt8} (h : flags < 16) :
    ControlField.packetType ⟨(t.code <<< 4) ||| flags⟩ = t.code := (ctrl_parts t h).1

theorem flags_ctrl (t : PacketType) {flags : UInt8} (h : flags < 16) :
    ControlField.flags ⟨(t.code <<< 4) ||| flags⟩ = flags := (ctrl_parts t h).2

/-! ## What the encoders ask -/

/-- A packet of another type asks for nothing that matters here. -/
theorem asks_other {α : Type} [Encode α] {p : α} {pkt : Packet} (h : makePacket p = .ok pkt)
    (hother : Encode.packetType α ≠ .publish ∧ Encode.packetType α ≠ .pubRel ∧
      Encode.packetType α ≠ .subscribe ∧ Encode.packetType α ≠ .unsubscribe) :
    pkt.asks = .other := by
  obtain ⟨flags, content, -, hflags, hctrl, -⟩ := makePacket_parts h
  have htype := packetType_ctrl (Encode.packetType α) hflags
  rw [← hctrl] at htype
  revert htype hother
  generalize Encode.packetType α = t
  rintro ⟨h₁, h₂, h₃, h₄⟩ htype
  unfold Packet.asks Asked.read
  rw [htype]
  cases t <;> first | rfl | contradiction

theorem asks_connect {p : ConnectPacket} {pkt : Packet} (h : makePacket p = .ok pkt) :
    pkt.asks = .other := asks_other h (by decide)

theorem asks_pubAck (id : UInt16) : (pubAckPacket id).asks = .other :=
  asks_other (makePacket_pubAck id) (by decide)

theorem asks_pubRec (id : UInt16) : (pubRecPacket id).asks = .other :=
  asks_other (makePacket_pubRec id) (by decide)

theorem asks_pubComp (id : UInt16) : (pubCompPacket id).asks = .other :=
  asks_other (makePacket_pubComp id) (by decide)

/-- A packet is read by the reader of its type. -/
theorem asks_of_run {α : Type} [Encode α] {p : α} {pkt : Packet} {r : ReadM Asked}
    {asked : Asked} {Q : List UInt8 → Prop} (h : makePacket p = .ok pkt)
    (hwrites : ByteWriter.Appends (Encode.encode p) fun _ bytes => Q bytes)
    (hreader : ∀ c : ControlField, c.packetType = (Encode.packetType α).code →
      Asked.read c = r)
    (hrun : ∀ bytes, Q bytes → ∃ rest, r.run bytes = .ok asked rest) :
    pkt.asks = asked := by
  obtain ⟨flags, content, hfill, hflags, hctrl, hbody⟩ := makePacket_parts h
  obtain ⟨rest, hread⟩ := hrun content (hwrites.fill hfill)
  have htype := packetType_ctrl (Encode.packetType α) hflags
  rw [← hctrl] at htype
  change r content = _ at hread
  rw [Packet.asks, hreader _ htype, hbody, hread]

theorem asks_pubRel (id : UInt16) : (pubRelPacket id).asks = .release id := by
  refine asks_of_run (Q := fun bytes => bytes = u16ToBe id) (r := Asked.readRelease)
    (makePacket_pubRel id) ?_ ?_ ?_
  · refine (ByteWriter.appends_writeTrivial _).bind ?_
    rintro _ _ rfl
    exact .pure (List.append_nil _)
  · intro c hc
    rw [Asked.read, hc]
    rfl
  · rintro _ rfl
    refine ⟨[], ?_⟩
    rw [← List.append_nil (u16ToBe id)]
    simp only [Asked.readRelease, EStateM.run_bind, ByteReader.run_readU16]
    rfl

/-- The bytes of a topic and of what follows it. -/
def topicBytes (topic : Str) (rest : List UInt8) : List UInt8 :=
  u16ToBe (UInt16.ofNat topic.asBytes.length) ++ (topic.asBytes ++ rest)

theorem appends_subscribe (id : UInt16) (topic : Str) (qos : QoS) :
    ByteWriter.Appends (Encode.encode (⟨id, [(topic, qos)]⟩ : SubscribePacket)) fun _ bytes =>
      topic.asBytes.length ≤ 65535 ∧ bytes = u16ToBe id ++ topicBytes topic [qos.code] := by
  refine (ByteWriter.appends_writeTrivial _).bind ?_
  rintro _ _ rfl
  simp only [List.forM, bind_assoc]
  refine (ByteWriter.appends_writeBytes _).bind ?_
  rintro _ _ ⟨hlen, rfl⟩
  refine (ByteWriter.appends_writeTrivial _).bind ?_
  rintro _ _ rfl
  refine .pure ⟨hlen, ?_⟩
  simp [topicBytes]

theorem asks_subscribe {id : UInt16} {topic : Str} {qos : QoS} {pkt : Packet}
    (h : makePacket (⟨id, [(topic, qos)]⟩ : SubscribePacket) = .ok pkt) :
    pkt.asks = .subscribe id topic := by
  refine asks_of_run (r := Asked.readSubscribe) h (appends_subscribe id topic qos) ?_ ?_
  · intro c hc
    rw [Asked.read, hc]
    rfl
  · rintro _ ⟨hlen, rfl⟩
    refine ⟨[qos.code], ?_⟩
    simp only [Asked.readSubscribe, EStateM.run_bind, ByteReader.run_readU16, topicBytes,
      ByteReader.run_readUtf8 _ hlen]
    rfl

theorem asks_unsubscribe {id : UInt16} {topic : Str} {pkt : Packet}
    (h : makePacket (⟨id, [topic]⟩ : UnsubscribePacket) = .ok pkt) :
    pkt.asks = .unsubscribe id topic := by
  have hwrites : ByteWriter.Appends (Encode.encode (⟨id, [topic]⟩ : UnsubscribePacket))
      fun _ bytes => topic.asBytes.length ≤ 65535 ∧
        bytes = u16ToBe id ++ topicBytes topic [] := by
    refine (ByteWriter.appends_writeTrivial _).bind ?_
    rintro _ _ rfl
    simp only [List.forM, bind_assoc]
    refine (ByteWriter.appends_writeBytes _).bind ?_
    rintro _ _ ⟨hlen, rfl⟩
    refine .pure ⟨hlen, ?_⟩
    simp [topicBytes]
  refine asks_of_run (r := Asked.readUnsubscribe) h hwrites ?_ ?_
  · intro c hc
    rw [Asked.read, hc]
    rfl
  · rintro _ ⟨hlen, rfl⟩
    refine ⟨[], ?_⟩
    simp only [Asked.readUnsubscribe, EStateM.run_bind, ByteReader.run_readU16, topicBytes,
      ByteReader.run_readUtf8 _ hlen]
    rfl

/-! ## Publishes -/

namespace PublishFlags

theorem val_lt (f : PublishFlags) : f.val < 16 := by
  have hbits : ∀ v : BitVec 8, v &&& 0xf0#8 = 0#8 → v < 16#8 := by decide
  exact hbits f.val.toBitVec (congrArg UInt8.toBitVec f.allBits)

theorem tryFrom_val (f : PublishFlags) : tryFrom f.val = .ok f := by
  rw [tryFrom, dif_pos f.allBits, dif_pos f.qosBits]

/-- The flags of a second transmission. -/
def again (f : PublishFlags) : PublishFlags where
  val := f.val ||| dup
  allBits := by
    have hbits : ∀ v : BitVec 8, v &&& 0xf0#8 = 0#8 → (v ||| 8#8) &&& 0xf0#8 = 0#8 := by decide
    exact UInt8.toBitVec_inj.mp (hbits f.val.toBitVec (congrArg UInt8.toBitVec f.allBits))
  qosBits := by
    have hbits : ∀ v : BitVec 8, (v ||| 8#8) &&& 6#8 = v &&& 6#8 := by decide
    have hsame : (f.val ||| dup) &&& 6 = f.val &&& 6 :=
      UInt8.toBitVec_inj.mp (hbits f.val.toBitVec)
    rw [hsame]
    exact f.qosBits

theorem qos_again (f : PublishFlags) : f.again.qos = f.qos := by
  have hbits : ∀ v : BitVec 8, (v ||| 8#8) &&& 6#8 = v &&& 6#8 := by decide
  have hsame : (f.val ||| dup) &&& 6 = f.val &&& 6 :=
    UInt8.toBitVec_inj.mp (hbits f.val.toBitVec)
  unfold qos again
  rw [hsame]

end PublishFlags

/-- What a publish asks. -/
def OutgoingPublishPacket.asks (p : OutgoingPublishPacket) : Asked :=
  if p.flags.qos = .atMostOnce then .other else .publish p.flags.qos p.packetId

theorem appends_publish (p : OutgoingPublishPacket) :
    ByteWriter.Appends (Encode.encode p) fun flags bytes => flags = p.flags.val ∧
      (p.flags.qos ≠ .atMostOnce → p.topic.asBytes.length ≤ 65535 ∧
        bytes = topicBytes p.topic (u16ToBe p.packetId ++ p.payload)) := by
  refine (ByteWriter.appends_writeBytes _).bind ?_
  rintro _ _ ⟨hlen, rfl⟩
  by_cases hqos : p.flags.qos = .atMostOnce
  · rw [if_pos hqos]
    refine (ByteWriter.appends_writeTrivial _).bind ?_
    rintro _ _ rfl
    exact .pure ⟨rfl, fun hne => absurd hqos hne⟩
  · rw [if_neg hqos]
    refine (ByteWriter.appends_writeTrivial _).bind ?_
    rintro _ _ rfl
    refine (ByteWriter.appends_writeTrivial _).bind ?_
    rintro _ _ rfl
    refine .pure ⟨rfl, fun _ => ⟨hlen, ?_⟩⟩
    simp [topicBytes]

theorem run_readPublish {topic : Str} (hlen : topic.asBytes.length ≤ 65535) (f : PublishFlags)
    (id : UInt16) (payload : List UInt8) :
    (Asked.readPublish f).run (topicBytes topic (u16ToBe id ++ payload)) =
      .ok (.publish f.qos id) payload := by
  simp only [Asked.readPublish, topicBytes, EStateM.run_bind, ByteReader.run_readByteArray _ hlen,
    ByteReader.run_readU16]
  rfl

/-- A publish is read back, also behind a `DUP` flag. -/
theorem asks_publish {p : OutgoingPublishPacket} {pkt : Packet} (h : makePacket p = .ok pkt) :
    pkt.asks = p.asks ∧ pkt.withDup.asks = p.asks := by
  obtain ⟨flags, content, hfill, hflags, hctrl, hbody⟩ := makePacket_parts h
  obtain ⟨rfl, hcontent⟩ := (appends_publish p).fill hfill
  -- Both transmissions have flags of the same quality in front of the same body.
  have hasks : ∀ f : PublishFlags, f.qos = p.flags.qos → ∀ pkt' : Packet, pkt'.body = content →
      pkt'.ctrl = (PacketType.publish.code <<< 4) ||| f.val → pkt'.asks = p.asks := by
    intro f hqos pkt' hbody' hctrl'
    have hreader : Asked.read ⟨pkt'.ctrl⟩ =
        if f.qos = .atMostOnce then pure .other else Asked.readPublish f := by
      rw [Asked.read, hctrl', packetType_ctrl .publish f.val_lt, if_pos rfl,
        flags_ctrl .publish f.val_lt,
        f.tryFrom_val]
    rw [Packet.asks, hreader, hbody', OutgoingPublishPacket.asks, hqos]
    by_cases hzero : p.flags.qos = .atMostOnce
    · rw [if_pos hzero, if_pos hzero]
      rfl
    · obtain ⟨hlen, hbytes⟩ := hcontent hzero
      have hread := run_readPublish hlen f p.packetId p.payload
      change Asked.readPublish f _ = _ at hread
      rw [if_neg hzero, if_neg hzero, hbytes, hread, hqos]
  refine ⟨hasks p.flags rfl pkt hbody hctrl, ?_⟩
  refine hasks p.flags.again p.flags.qos_again pkt.withDup hbody ?_
  show pkt.ctrl ||| PublishFlags.dup = (PacketType.publish.code <<< 4) ||| (p.flags.val |||
    PublishFlags.dup)
  rw [hctrl, UInt8.or_assoc]
  rfl

end Lmc
