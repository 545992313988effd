import Lmc.Wire.Buffers

/-!
# The grammar of received packets

`Accepts` says which control bytes and contents are packets for a client, and `Spells` which
packet they are, both without a decoder. The decoder, with every access to a slice, an array
or a buffer checked, accepts exactly these, returns the packet they spell, and has no failure
other than a decode error (`decoder_accepts_grammar`).
-/

namespace Lmc

open EStateLogic

/-! ## Readers -/

/-- Valid UTF-8 is the encoding of a list of characters. -/
theorem fromUtf8_eq_some {bytes : List UInt8} {s : Str} :
    fromUtf8 bytes = some s ↔ s.asBytes = bytes := by
  refine ⟨fun h => ?_, fun h => h ▸ fromUtf8_asBytes s⟩
  obtain ⟨chars, hdecode, rfl⟩ := Option.map_eq_some_iff.mp h
  have hsome : bytes.toByteArray.utf8Decode?.isSome := by
    rw [hdecode]
    rfl
  have henc : (bytes.toByteArray.utf8Decode?.get hsome).toList.utf8Encode = bytes.toByteArray :=
    ByteArray.utf8Encode_get_utf8Decode?
  simp only [hdecode, Option.get_some] at henc
  change (Str.asBytes chars.toList).toByteArray = bytes.toByteArray at henc
  have hdata := congrArg (fun b => b.data.toList) henc
  simpa using hdata

theorem toNat_u16OfBe (hi lo : UInt8) : (u16OfBe hi lo).toNat = hi.toNat * 256 + lo.toNat := by
  have hhi : hi.toNat < 256 := hi.toNat_lt
  have hlo : lo.toNat < 256 := lo.toNat_lt
  rw [u16OfBe, UInt16.toNat_ofNat']
  omega

namespace ByteReader

variable {bytes rest : List UInt8}

theorem run_readTrivial_ok {size : Nat} {front : List UInt8} :
    (readTrivial size).run bytes = .ok front rest ↔
      bytes = front ++ rest ∧ front.length = size := by
  have hrun : (readTrivial size).run bytes = if bytes.length < size
      then .error .reachedEndUnexpectedly bytes
      else .ok (bytes.take size) (bytes.drop size) := by
    simp only [readTrivial, EStateM.run_bind, EStateM.run_get]
    split <;> rfl
  rw [hrun]
  constructor
  · intro h
    split at h
    · cases h
    · cases h
      exact ⟨(List.take_append_drop size bytes).symm, by rw [List.length_take]; omega⟩
  · rintro ⟨rfl, rfl⟩
    rw [if_neg (by simp), List.take_left, List.drop_left]

theorem run_readU16_ok {v : UInt16} : readU16.run bytes = .ok v rest ↔
    ∃ hi lo, bytes = hi :: lo :: rest ∧ v = u16OfBe hi lo := by
  constructor
  · intro h
    match bytes, h with
    | hi :: lo :: _, h =>
      cases h
      exact ⟨hi, lo, rfl, rfl⟩
  · rintro ⟨hi, lo, rfl, rfl⟩
    rfl

theorem run_readByteArray_ok {data : List UInt8} : readByteArray.run bytes = .ok data rest ↔
    ∃ hi lo, bytes = hi :: lo :: (data ++ rest) ∧ data.length = hi.toNat * 256 + lo.toNat := by
  show (readU16 >>= fun len => readTrivial len.toNat).run bytes = .ok data rest ↔ _
  simp only [run_bind_eq_ok, run_readU16_ok, run_readTrivial_ok]
  constructor
  · rintro ⟨len, mid, ⟨hi, lo, rfl, rfl⟩, rfl, hlen⟩
    exact ⟨hi, lo, rfl, hlen.trans (toNat_u16OfBe hi lo)⟩
  · rintro ⟨hi, lo, rfl, hlen⟩
    exact ⟨_, _, ⟨hi, lo, rfl, rfl⟩, rfl, hlen.trans (toNat_u16OfBe hi lo).symm⟩

theorem run_readUtf8_ok {s : Str} : readUtf8.run bytes = .ok s rest ↔
    ∃ hi lo, bytes = hi :: lo :: (s.asBytes ++ rest) ∧
      s.asBytes.length = hi.toNat * 256 + lo.toNat := by
  rw [readUtf8, run_bind_eq_ok]
  simp only [run_readByteArray_ok]
  constructor
  · rintro ⟨data, mid, ⟨hi, lo, hbytes, hlen⟩, h⟩
    cases hutf8 : fromUtf8 data with
    | none =>
      simp only [hutf8] at h
      cases h
    | some s' =>
      simp only [hutf8] at h
      cases h
      rw [fromUtf8_eq_some] at hutf8
      subst hutf8
      exact ⟨hi, lo, hbytes, hlen⟩
  · rintro ⟨hi, lo, hbytes, hlen⟩
    refine ⟨_, _, ⟨hi, lo, hbytes, hlen⟩, ?_⟩
    simp only [fromUtf8_asBytes]
    rfl

theorem run_readRemaining_ok {data : List UInt8} :
    readRemaining.run bytes = .ok data rest ↔ data = bytes ∧ rest = [] := by
  constructor
  · intro h
    cases h
    exact ⟨rfl, rfl⟩
  · rintro ⟨rfl, rfl⟩
    rfl

end ByteReader

/-! ## The grammar -/

/-- The type nibble of a control byte. -/
def typeNibble (ctrl : UInt8) : UInt8 := ctrl >>> 4

/-- The bits of a control byte that hold the quality of service of a message. -/
def qosBits (ctrl : UInt8) : UInt8 := (ctrl &&& 6) >>> 1

/-- A byte in the results of a `SUBACK`. -/
def IsResult (r : UInt8) : Prop := r = 0 ∨ r = 1 ∨ r = 2 ∨ r = 128

/-- What such a byte stands for. -/
def granted (r : UInt8) : SubscriptionResult :=
  if r = 0 then .ok .atMostOnce
  else if r = 1 then .ok .atLeastOnce
  else if r = 2 then .ok .exactlyOnce
  else .error ()

/-- What the two bytes of a `CONNACK` stand for. -/
def connectResult (ackFlags returnCode : UInt8) : Except ServerConnectError Bool :=
  if returnCode = 0 then .ok ((ackFlags &&& 1) != 0)
  else if returnCode = 1 then .error .unacceptableProtocolVersion
  else if returnCode = 2 then .error .identifierRejected
  else if returnCode = 3 then .error .serverUnavailable
  else if returnCode = 4 then .error .badUserNameOrPassword
  else if returnCode = 5 then .error .notAuthorized
  else .error (.unknown returnCode)

/-- A topic with its length in front, an identifier for a quality above 0, and the payload. -/
def IsPublish (ctrl : UInt8) (bytes : List UInt8) : Prop :=
  qosBits ctrl ≠ 3 ∧ ∃ (hi lo : UInt8) (topic : Str) (rest : List UInt8),
    bytes = hi :: lo :: (topic.asBytes ++ rest) ∧
    topic.asBytes.length = hi.toNat * 256 + lo.toNat ∧
    (qosBits ctrl ≠ 0 → 2 ≤ rest.length)

/-- The types of the packets that need no more than two bytes. -/
def fixedTypes : List PacketType := [.connAck, .pubAck, .pubRec, .pubRel, .pubComp, .unsubAck]

/-- The control bytes and contents that are packets for a client. -/
def Accepts (ctrl : UInt8) (bytes : List UInt8) : Prop :=
  (typeNibble ctrl = PacketType.publish.code ∧ IsPublish ctrl bytes) ∨
  (typeNibble ctrl = PacketType.subAck.code ∧ 2 ≤ bytes.length ∧
    ∀ r ∈ bytes.drop 2, IsResult r) ∨
  ((∃ ty ∈ fixedTypes, typeNibble ctrl = ty.code) ∧ 2 ≤ bytes.length) ∨
  typeNibble ctrl = PacketType.pingResp.code

/-- The identifier and the payload behind the topic of a message. -/
def SpellsPayload (ctrl : UInt8) (rest : List UInt8) (packetId : UInt16)
    (payload : List UInt8) : Prop :=
  (qosBits ctrl = 0 ∧ packetId = 0 ∧ payload = rest) ∨
  (qosBits ctrl ≠ 0 ∧ ∃ hi lo, rest = hi :: lo :: payload ∧ packetId = u16OfBe hi lo)

/-- The packet that a control byte and a content spell, as far as its accessors tell. -/
inductive Spells [HeaderLayout] (ctrl : UInt8) : List UInt8 → StoredPacket → Prop where
  | connAck (htype : typeNibble ctrl = PacketType.connAck.code) (ackFlags returnCode : UInt8)
      (rest : List UInt8) :
      Spells ctrl (ackFlags :: returnCode :: rest) (.connAck ⟨connectResult ackFlags returnCode⟩)
  | subAck (htype : typeNibble ctrl = PacketType.subAck.code) {hi lo : UInt8}
      {codes : List UInt8} {p : SubAckPacket} (hcodes : ∀ r ∈ codes, IsResult r)
      (hid : p.packetId = u16OfBe hi lo)
      (hresults : p.subResultsSlice = .ok (codes.map granted)) :
      Spells ctrl (hi :: lo :: codes) (.subAck p)
  | publish (htype : typeNibble ctrl = PacketType.publish.code) (hqos : qosBits ctrl ≠ 3)
      {hi lo : UInt8} {topic : Str} {rest : List UInt8} {m : PublishBuffer}
      {flags : PublishFlags} {packetId : UInt16} {payload : List UInt8}
      (hlen : topic.asBytes.length = hi.toNat * 256 + lo.toNat)
      (hrest : SpellsPayload ctrl rest packetId payload) (hflags : flags.val = ctrl &&& 15)
      (hinfo : m.info = .ok ⟨flags, packetId⟩) (htopic : m.topic = .ok topic)
      (hpayload : m.payload = .ok payload) :
      Spells ctrl (hi :: lo :: (topic.asBytes ++ rest)) (.publish m)
  | pubAck (htype : typeNibble ctrl = PacketType.pubAck.code) (hi lo : UInt8)
      (rest : List UInt8) : Spells ctrl (hi :: lo :: rest) (.pubAck ⟨u16OfBe hi lo⟩)
  | pubRec (htype : typeNibble ctrl = PacketType.pubRec.code) (hi lo : UInt8)
      (rest : List UInt8) : Spells ctrl (hi :: lo :: rest) (.pubRec ⟨u16OfBe hi lo⟩)
  | pubRel (htype : typeNibble ctrl = PacketType.pubRel.code) (hi lo : UInt8)
      (rest : List UInt8) : Spells ctrl (hi :: lo :: rest) (.pubRel ⟨u16OfBe hi lo⟩)
  | pubComp (htype : typeNibble ctrl = PacketType.pubComp.code) (hi lo : UInt8)
      (rest : List UInt8) : Spells ctrl (hi :: lo :: rest) (.pubComp ⟨u16OfBe hi lo⟩)
  | unsubAck (htype : typeNibble ctrl = PacketType.unsubAck.code) (hi lo : UInt8)
      (rest : List UInt8) : Spells ctrl (hi :: lo :: rest) (.unsubAck ⟨u16OfBe hi lo⟩)
  | pingResp (htype : typeNibble ctrl = PacketType.pingResp.code) (bytes : List UInt8) :
      Spells ctrl bytes .pingResp

/-! ## Control bytes -/

theorem packetType_eq (ctrl : UInt8) : ControlField.packetType ⟨ctrl⟩ = typeNibble ctrl := by
  have hbits : ∀ v : BitVec 8, (v &&& 0xf0#8) >>> 4 = v >>> 4 := by decide
  exact UInt8.toBitVec_inj.mp (hbits ctrl.toBitVec)

theorem flags_valid (ctrl : UInt8) : ControlField.flags ⟨ctrl⟩ &&& 0xf0 = 0 := by
  have hbits : ∀ v : BitVec 8, (v &&& 0x0f#8) &&& 0xf0#8 = 0#8 := by decide
  exact UInt8.toBitVec_inj.mp (hbits ctrl.toBitVec)

theorem qosBits_flags (ctrl : UInt8) : (ControlField.flags ⟨ctrl⟩ &&& 6) >>> 1 = qosBits ctrl := by
  have hbits : ∀ v : BitVec 8, ((v &&& 0x0f#8) &&& 6#8) >>> 1 = (v &&& 6#8) >>> 1 := by decide
  exact UInt8.toBitVec_inj.mp (hbits ctrl.toBitVec)

theorem qosBits_le_two {ctrl : UInt8} : qosBits ctrl ≤ 2 ↔ qosBits ctrl ≠ 3 := by
  have hbits : ∀ v : BitVec 8, (v &&& 6#8) >>> 1 ≤ 2#8 ↔ (v &&& 6#8) >>> 1 ≠ 3#8 := by decide
  exact (hbits ctrl.toBitVec).trans (not_congr UInt8.toBitVec_inj)

/-- The flags of a message are the low nibble, unless its quality is the fourth one. -/
theorem tryFrom_flags {ctrl : UInt8} (h : qosBits ctrl ≠ 3) : ∃ flags : PublishFlags,
    PublishFlags.tryFrom (ControlField.flags ⟨ctrl⟩) = .ok flags ∧ flags.val = ctrl &&& 15 ∧
      (flags.qos = .atMostOnce ↔ qosBits ctrl = 0) := by
  have hle : (ControlField.flags ⟨ctrl⟩ &&& 6) >>> 1 ≤ 2 := by
    rw [qosBits_flags]
    exact qosBits_le_two.mpr h
  refine ⟨⟨_, flags_valid ctrl, hle⟩, ?_, rfl, ?_⟩
  · rw [PublishFlags.tryFrom, dif_pos (flags_valid ctrl), dif_pos hle]
  · rw [PublishFlags.qos, qosBits_flags]
    by_cases hzero : qosBits ctrl = 0
    · rw [if_pos hzero]
      exact iff_of_true rfl hzero
    · rw [if_neg hzero]
      refine iff_of_false (fun h => ?_) hzero
      split at h <;> cases h

theorem tryFrom_flags_of_three {ctrl : UInt8} (h : qosBits ctrl = 3) :
    PublishFlags.tryFrom (ControlField.flags ⟨ctrl⟩) = .error .malformedPacket := by
  have hgt : ¬ (ControlField.flags ⟨ctrl⟩ &&& 6) >>> 1 ≤ 2 := by
    rw [qosBits_flags]
    exact fun hle => qosBits_le_two.mp hle h
  rw [PublishFlags.tryFrom, dif_pos (flags_valid ctrl), dif_neg hgt]

/-! ## Messages -/

namespace IncomingPublishPacket

variable {ctrl : UInt8} {bytes left : List UInt8} {m : IncomingPublishPacket}

/-- What the decoder of messages accepts, and the message that it returns. -/
theorem run_decode_ok : (decode ⟨ctrl⟩).run bytes = .ok m left ↔ left = [] ∧ qosBits ctrl ≠ 3 ∧
    ∃ hi lo topic rest flags packetId payload, bytes = hi :: lo :: (Str.asBytes topic ++ rest) ∧
      topic.asBytes.length = hi.toNat * 256 + lo.toNat ∧
      SpellsPayload ctrl rest packetId payload ∧ flags.val = ctrl &&& 15 ∧
      m = ⟨⟨topic.asBytes.length, ⟨flags, packetId⟩⟩, topic.asBytes ++ payload⟩ := by
  by_cases hthree : qosBits ctrl = 3
  · rw [decode, tryFrom_flags_of_three hthree]
    refine iff_of_false (fun h => ?_) fun h => h.2.1 hthree
    cases h
  obtain ⟨flags, htry, hflags, hqos⟩ := tryFrom_flags hthree
  have hdecode : decode ⟨ctrl⟩ = do
      let topic ← ByteReader.readUtf8
      let packetId ← (if flags.qos = .atMostOnce then pure 0 else ByteReader.readU16 : ReadM UInt16)
      let payload ← ByteReader.readRemaining
      return ⟨⟨topic.asBytes.length, ⟨flags, packetId⟩⟩, topic.asBytes ++ payload⟩ := by
    rw [decode, htry]
    by_cases hzero : flags.qos = .atMostOnce
    · simp only [if_pos hzero]
    · simp only [if_neg hzero]
  simp only [hdecode, run_bind_eq_ok, ByteReader.run_readUtf8_ok]
  constructor
  · rintro ⟨topic, rest, ⟨hi, lo, hbytes, hlen⟩, packetId, behind, hid, payload, left', hrem, h⟩
    obtain ⟨rfl, rfl⟩ := ByteReader.run_readRemaining_ok.mp hrem
    cases h
    refine ⟨rfl, hthree, hi, lo, topic, rest, flags, packetId, payload, hbytes, hlen, ?_, hflags,
      rfl⟩
    by_cases hzero : flags.qos = .atMostOnce
    · rw [if_pos hzero] at hid
      cases hid
      exact .inl ⟨hqos.mp hzero, rfl, rfl⟩
    · rw [if_neg hzero, ByteReader.run_readU16_ok] at hid
      exact .inr ⟨fun h => hzero (hqos.mpr h), hid⟩
  · rintro ⟨rfl, -, hi, lo, topic, rest, flags', packetId, payload, hbytes, hlen, hrest, hval, rfl⟩
    obtain rfl : flags' = flags := by
      cases flags
      cases flags'
      simp only at hflags hval
      simp only [hflags, hval]
    refine ⟨topic, rest, ⟨hi, lo, hbytes, hlen⟩, packetId, payload, ?_, payload, [], ?_, rfl⟩
    · rcases hrest with ⟨hzero, rfl, rfl⟩ | ⟨hnot, hid⟩
      · rw [if_pos (hqos.mpr hzero)]
        rfl
      · rw [if_neg fun h => hnot (hqos.mp h), ByteReader.run_readU16_ok]
        exact hid
    · exact ByteReader.run_readRemaining_ok.mpr ⟨rfl, rfl⟩

end IncomingPublishPacket

/-! ## Subscription results -/

theorem parseSubResult_ok {r : UInt8} {v : SubscriptionResult} :
    parseSubResult r = .ok v ↔ IsResult r ∧ v = granted r := by
  have hvalid : ∀ {v' : SubscriptionResult}, IsResult r →
      ((.ok v' : Except PacketDecodeError SubscriptionResult) = .ok v ↔ IsResult r ∧ v = v') :=
    fun hr => ⟨fun h => ⟨hr, (Except.ok.inj h).symm⟩, fun h => congrArg Except.ok h.2.symm⟩
  rw [parseSubResult, granted]
  by_cases h₀ : r = 0
  · rw [if_pos h₀, if_pos h₀]
    exact hvalid (.inl h₀)
  rw [if_neg h₀, if_neg h₀]
  by_cases h₁ : r = 1
  · rw [if_pos h₁, if_pos h₁]
    exact hvalid (.inr (.inl h₁))
  rw [if_neg h₁, if_neg h₁]
  by_cases h₂ : r = 2
  · rw [if_pos h₂, if_pos h₂]
    exact hvalid (.inr (.inr (.inl h₂)))
  rw [if_neg h₂, if_neg h₂]
  by_cases h₁₂₈ : r = 128
  · rw [if_pos h₁₂₈]
    exact hvalid (.inr (.inr (.inr h₁₂₈)))
  · rw [if_neg h₁₂₈]
    refine iff_of_false nofun fun h => ?_
    rcases h.1 with h | h | h | h
    · exact h₀ h
    · exact h₁ h
    · exact h₂ h
    · exact h₁₂₈ h

namespace SubAckPacket

theorem run_parseResults_ok {codes left left' : List UInt8} {values : List SubscriptionResult} :
    (parseResults codes).run left = .ok values left' ↔
      left' = left ∧ (∀ r ∈ codes, IsResult r) ∧ values = codes.map granted := by
  induction codes generalizing values left' with
  | nil =>
    constructor
    · intro h
      cases h
      exact ⟨rfl, nofun, rfl⟩
    · rintro ⟨rfl, -, rfl⟩
      rfl
  | cons r codes ih =>
    rw [parseResults, List.forall_mem_cons, List.map_cons]
    cases hparse : parseSubResult r with
    | error e =>
      refine iff_of_false (fun h => (by cases h)) fun h => ?_
      rw [parseSubResult_ok.mpr ⟨h.2.1.1, rfl⟩] at hparse
      cases hparse
    | ok v =>
      obtain ⟨hr, rfl⟩ := parseSubResult_ok.mp hparse
      simp only [run_bind_eq_ok, ih]
      constructor
      · rintro ⟨values', _, ⟨rfl, hcodes, rfl⟩, h⟩
        cases h
        exact ⟨rfl, ⟨hr, hcodes⟩, rfl⟩
      · rintro ⟨rfl, ⟨-, hcodes⟩, rfl⟩
        exact ⟨_, _, ⟨rfl, hcodes, rfl⟩, rfl⟩

theorem run_decode_ok {bytes left : List UInt8} {p : SubAckPacket} :
    decode.run bytes = .ok p left ↔ left = [] ∧ ∃ hi lo codes, bytes = hi :: lo :: codes ∧
      (∀ r ∈ codes, IsResult r) ∧ p = ⟨u16OfBe hi lo, if codes.length ≤ maxStaticSubs
        then .static codes.length
          (codes.map granted ++ List.replicate (maxStaticSubs - codes.length) (.error ()))
        else .dynamic (codes.map granted)⟩ := by
  simp only [decode, run_bind_eq_ok, ByteReader.run_readU16_ok, ByteReader.run_readRemaining_ok,
    run_parseResults_ok]
  constructor
  · rintro ⟨_, codes, ⟨hi, lo, rfl, rfl⟩, _, _, hremaining, _, _, ⟨rfl, rfl⟩, _, _,
      ⟨rfl, hcodes, rfl⟩, h⟩
    cases hremaining
    cases h
    exact ⟨rfl, hi, lo, codes, rfl, hcodes, rfl⟩
  · rintro ⟨rfl, hi, lo, codes, rfl, hcodes, rfl⟩
    exact ⟨_, codes, ⟨hi, lo, rfl, rfl⟩, _, codes, rfl, codes, [], ⟨rfl, rfl⟩, _, [],
      ⟨rfl, hcodes, rfl⟩, rfl⟩

end SubAckPacket

/-- The slice of the array, or the vector, has the results byte by byte. -/
theorem subResults_of_codes (id : UInt16) (codes : List UInt8) :
    SubAckPacket.subResultsSlice ⟨id, if codes.length ≤ maxStaticSubs
      then .static codes.length
        (codes.map granted ++ List.replicate (maxStaticSubs - codes.length) (.error ()))
      else .dynamic (codes.map granted)⟩ = .ok (codes.map granted) := by
  by_cases hfits : codes.length ≤ maxStaticSubs
  · have hfront := SliceFault.slice_front (codes.map granted)
      (List.replicate (maxStaticSubs - codes.length) (.error ()))
    rw [List.length_map] at hfront
    simp only [SubAckPacket.subResultsSlice, if_pos hfits]
    exact hfront
  · simp only [SubAckPacket.subResultsSlice, if_neg hfits]

/-! ## Acknowledgments -/

theorem ConnAckPacket.run_decode_ok {bytes left : List UInt8} {p : ConnAckPacket} :
    decode.run bytes = .ok p left ↔
      ∃ ackFlags returnCode, bytes = ackFlags :: returnCode :: left ∧
        p = ⟨connectResult ackFlags returnCode⟩ := by
  constructor
  · intro h
    match bytes, h with
    | ackFlags :: returnCode :: _, h =>
      cases h
      exact ⟨ackFlags, returnCode, rfl, rfl⟩
  · rintro ⟨ackFlags, returnCode, rfl, rfl⟩
    rfl

theorem SimplePacket.run_decode_ok {ty : PacketType} {flags : UInt8} {bytes left : List UInt8}
    {p : SimplePacket ty flags} : decode.run bytes = .ok p left ↔
      ∃ hi lo, bytes = hi :: lo :: left ∧ p = ⟨u16OfBe hi lo⟩ := by
  rw [decode, run_bind_eq_ok]
  simp only [ByteReader.run_readU16_ok]
  constructor
  · rintro ⟨_, _, ⟨hi, lo, rfl, rfl⟩, h⟩
    cases h
    exact ⟨hi, lo, rfl, rfl⟩
  · rintro ⟨hi, lo, rfl, rfl⟩
    exact ⟨_, _, ⟨hi, lo, rfl, rfl⟩, rfl⟩

/-! ## The decoder and the grammar -/

variable {ctrl : UInt8} {bytes left : List UInt8}

theorem decodeFrame_ok {pkt : IncomingPacket} : decodeFrame ctrl bytes = .ok pkt ↔
    ∃ left, (IncomingPacket.fromBytes ⟨ctrl⟩).run bytes = .ok pkt left := by
  rw [decodeFrame, show IncomingPacket.fromBytes ⟨ctrl⟩ bytes =
    (IncomingPacket.fromBytes ⟨ctrl⟩).run bytes from rfl]
  cases (IncomingPacket.fromBytes ⟨ctrl⟩).run bytes with
  | ok pkt' left =>
    refine ⟨fun h => ?_, ?_⟩
    · cases h
      exact ⟨left, rfl⟩
    · rintro ⟨_, h⟩
      cases h
      rfl
  | error e left =>
    refine ⟨fun h => (by cases h), ?_⟩
    rintro ⟨_, h⟩
    cases h

theorem exists_cons_cons (h : 2 ≤ bytes.length) : ∃ hi lo rest, bytes = hi :: lo :: rest := by
  cases bytes with
  | nil => cases h
  | cons hi rest =>
    cases rest with
    | nil => exact absurd h (by simp)
    | cons lo rest => exact ⟨hi, lo, rest, rfl⟩

theorem run_of_accepts (h : Accepts ctrl bytes) :
    ∃ pkt left, (IncomingPacket.fromBytes ⟨ctrl⟩).run bytes = .ok pkt left := by
  have hmap : ∀ {α : Type} {rd : ReadM α} (f : α → IncomingPacket) {a : α} {rest : List UInt8},
      rd.run bytes = .ok a rest → ∃ pkt left, (f <$> rd).run bytes = .ok pkt left := by
    intro _ _ f a rest hrun
    exact ⟨f a, rest, run_map_eq_ok.mpr ⟨a, hrun, rfl⟩⟩
  rw [IncomingPacket.fromBytes, packetType_eq]
  rcases h with ⟨htype, hqos, hi, lo, topic, rest, hbytes, hlen, hrest⟩ |
    ⟨htype, hlen, hcodes⟩ | ⟨⟨ty, hty, htype⟩, hlen⟩ | htype
  · obtain ⟨flags, -, hflags, -⟩ := tryFrom_flags hqos
    obtain ⟨packetId, payload, hspells⟩ : ∃ packetId payload,
        SpellsPayload ctrl rest packetId payload := by
      by_cases hzero : qosBits ctrl = 0
      · exact ⟨0, rest, .inl ⟨hzero, rfl, rfl⟩⟩
      · obtain ⟨idHi, idLo, payload, rfl⟩ := exists_cons_cons (hrest hzero)
        exact ⟨_, payload, .inr ⟨hzero, idHi, idLo, rfl, rfl⟩⟩
    rw [htype]
    exact hmap .publish (IncomingPublishPacket.run_decode_ok.mpr ⟨rfl, hqos, hi, lo, topic, rest,
      flags, packetId, payload, hbytes, hlen, hspells, hflags, rfl⟩)
  · obtain ⟨hi, lo, codes, rfl⟩ := exists_cons_cons hlen
    rw [htype]
    exact hmap .subAck (SubAckPacket.run_decode_ok.mpr ⟨rfl, hi, lo, codes, rfl, hcodes, rfl⟩)
  · obtain ⟨hi, lo, rest, rfl⟩ := exists_cons_cons hlen
    have hsimple : ∀ {ty : PacketType} {flags : UInt8} (f : SimplePacket ty flags →
        IncomingPacket), ∃ pkt left, (f <$> SimplePacket.decode).run (hi :: lo :: rest) =
          .ok pkt left :=
      fun f => hmap f (SimplePacket.run_decode_ok.mpr ⟨hi, lo, rfl, rfl⟩)
    rw [htype]
    simp only [fixedTypes, List.mem_cons, List.not_mem_nil, or_false] at hty
    rcases hty with rfl | rfl | rfl | rfl | rfl | rfl
    · exact hmap .connAck (ConnAckPacket.run_decode_ok.mpr ⟨hi, lo, rfl, rfl⟩)
    · exact hsimple .pubAck
    · exact hsimple .pubRec
    · exact hsimple .pubRel
    · exact hsimple .pubComp
    · exact hsimple .unsubAck
  · rw [htype]
    exact ⟨_, _, rfl⟩

section Stored

variable [HeaderLayout]

theorem Spells.accepts {pkt : StoredPacket} (h : Spells ctrl bytes pkt) : Accepts ctrl bytes := by
  have hfixed : ∀ ty ∈ fixedTypes, typeNibble ctrl = ty.code → ∀ (hi lo : UInt8) rest,
      Accepts ctrl (hi :: lo :: rest) := fun ty hty htype hi lo rest =>
    .inr (.inr (.inl ⟨⟨ty, hty, htype⟩, by simp⟩))
  cases h with
  | connAck htype hi lo rest => exact hfixed .connAck (by decide) htype hi lo rest
  | subAck htype hcodes => exact .inr (.inl ⟨htype, by simp, hcodes⟩)
  | publish htype hqos hlen hrest =>
    refine .inl ⟨htype, hqos, _, _, _, _, rfl, hlen, fun hnot => ?_⟩
    rcases hrest with ⟨hzero, -⟩ | ⟨-, _, _, rfl, -⟩
    · exact absurd hzero hnot
    · simp
  | pubAck htype hi lo rest => exact hfixed .pubAck (by decide) htype hi lo rest
  | pubRec htype hi lo rest => exact hfixed .pubRec (by decide) htype hi lo rest
  | pubRel htype hi lo rest => exact hfixed .pubRel (by decide) htype hi lo rest
  | pubComp htype hi lo rest => exact hfixed .pubComp (by decide) htype hi lo rest
  | unsubAck htype hi lo rest => exact hfixed .unsubAck (by decide) htype hi lo rest
  | pingResp htype => exact .inr (.inr (.inr htype))

theorem spells_publish {m : IncomingPublishPacket}
    (htype : typeNibble ctrl = PacketType.publish.code)
    (h : (IncomingPublishPacket.decode ⟨ctrl⟩).run bytes = .ok m left) :
    Spells ctrl bytes (.publish (.of m)) := by
  obtain ⟨-, hqos, hi, lo, topic, rest, flags, packetId, payload, rfl, hlen, hrest, hflags, rfl⟩ :=
    IncomingPublishPacket.run_decode_ok.mp h
  have hlt : topic.asBytes.length < 65536 := by
    have hhi : hi.toNat < 256 := hi.toNat_lt
    have hlo : lo.toNat < 256 := lo.toNat_lt
    omega
  exact .publish htype hqos hlen hrest hflags (PublishBuffer.info_of hlt)
    (PublishBuffer.topic_of hlt rfl rfl) (PublishBuffer.payload_of hlt rfl rfl)

theorem spells_of_run {pkt : IncomingPacket}
    (h : (IncomingPacket.fromBytes ⟨ctrl⟩).run bytes = .ok pkt left) :
    Spells ctrl bytes (.of pkt) := by
  rw [IncomingPacket.fromBytes, packetType_eq] at h
  by_cases h₁ : typeNibble ctrl = PacketType.connAck.code
  · rw [if_pos h₁] at h
    obtain ⟨p, hp, rfl⟩ := run_map_eq_ok.mp h
    obtain ⟨_, _, rfl, rfl⟩ := ConnAckPacket.run_decode_ok.mp hp
    exact .connAck h₁ _ _ _
  rw [if_neg h₁] at h
  by_cases h₂ : typeNibble ctrl = PacketType.subAck.code
  · rw [if_pos h₂] at h
    obtain ⟨p, hp, rfl⟩ := run_map_eq_ok.mp h
    obtain ⟨-, _, _, codes, rfl, hcodes, rfl⟩ := SubAckPacket.run_decode_ok.mp hp
    exact .subAck h₂ hcodes rfl (subResults_of_codes _ codes)
  rw [if_neg h₂] at h
  by_cases h₃ : typeNibble ctrl = PacketType.publish.code
  · rw [if_pos h₃] at h
    obtain ⟨p, hp, rfl⟩ := run_map_eq_ok.mp h
    exact spells_publish h₃ hp
  rw [if_neg h₃] at h
  by_cases h₄ : typeNibble ctrl = PacketType.pubAck.code
  · rw [if_pos h₄] at h
    obtain ⟨p, hp, rfl⟩ := run_map_eq_ok.mp h
    obtain ⟨_, _, rfl, rfl⟩ := SimplePacket.run_decode_ok.mp hp
    exact .pubAck h₄ _ _ _
  rw [if_neg h₄] at h
  by_cases h₅ : typeNibble ctrl = PacketType.pubRec.code
  · rw [if_pos h₅] at h
    obtain ⟨p, hp, rfl⟩ := run_map_eq_ok.mp h
    obtain ⟨_, _, rfl, rfl⟩ := SimplePacket.run_decode_ok.mp hp
    exact .pubRec h₅ _ _ _
  rw [if_neg h₅] at h
  by_cases h₆ : typeNibble ctrl = PacketType.pubRel.code
  · rw [if_pos h₆] at h
    obtain ⟨p, hp, rfl⟩ := run_map_eq_ok.mp h
    obtain ⟨_, _, rfl, rfl⟩ := SimplePacket.run_decode_ok.mp hp
    exact .pubRel h₆ _ _ _
  rw [if_neg h₆] at h
  by_cases h₇ : typeNibble ctrl = PacketType.pubComp.code
  · rw [if_pos h₇] at h
    obtain ⟨p, hp, rfl⟩ := run_map_eq_ok.mp h
    obtain ⟨_, _, rfl, rfl⟩ := SimplePacket.run_decode_ok.mp hp
    exact .pubComp h₇ _ _ _
  rw [if_neg h₇] at h
  by_cases h₈ : typeNibble ctrl = PacketType.unsubAck.code
  · rw [if_pos h₈] at h
    obtain ⟨p, hp, rfl⟩ := run_map_eq_ok.mp h
    obtain ⟨_, _, rfl, rfl⟩ := SimplePacket.run_decode_ok.mp hp
    exact .unsubAck h₈ _ _ _
  rw [if_neg h₈] at h
  by_cases h₉ : typeNibble ctrl = PacketType.pingResp.code
  · rw [if_pos h₉] at h
    cases h
    exact .pingResp h₉ _
  rw [if_neg h₉] at h
  cases h

/-- The decoder of the client accepts exactly its grammar: for every control byte and every
content the only failure is a decode error, never an access out of range or a value that is not
valid; it succeeds exactly on what `Accepts` describes; and its result is what the bytes spell,
as its accessors read it. -/
theorem decoder_accepts_grammar (ctrl : UInt8) (bytes : List UInt8) :
    (∀ fault, StoredPacket.decodeFrame ctrl bytes = .error fault → ∃ e, fault = .decode e) ∧
    ((∃ pkt, StoredPacket.decodeFrame ctrl bytes = .ok pkt) ↔ Accepts ctrl bytes) ∧
    ∀ pkt, StoredPacket.decodeFrame ctrl bytes = .ok pkt → Spells ctrl bytes pkt := by
  rw [StoredPacket.decodeFrame_eq]
  have hspells : ∀ {pkt}, decodeFrame ctrl bytes = .ok pkt →
      Spells ctrl bytes (StoredPacket.of pkt) := by
    intro pkt h
    obtain ⟨left, hrun⟩ := decodeFrame_ok.mp h
    exact spells_of_run hrun
  cases hframe : decodeFrame ctrl bytes with
  | ok pkt =>
    refine ⟨nofun, iff_of_true ⟨_, rfl⟩ (hspells hframe).accepts, ?_⟩
    rintro _ ⟨⟩
    exact hspells hframe
  | error e =>
    refine ⟨?_, iff_of_false nofun fun h => ?_, nofun⟩
    · rintro _ ⟨⟩
      exact ⟨e, rfl⟩
    · obtain ⟨pkt, left, hrun⟩ := run_of_accepts h
      have hok := decodeFrame_ok.mpr ⟨left, hrun⟩
      rw [hframe] at hok
      cases hok

end Stored

/-- A message of quality 1 with one byte in its topic, and a `SUBACK` with one malformed byte
behind seventeen results. -/
theorem decoder_accepts_grammar_publish :
    letI := HeaderLayout.littleEndian
    (∃ pkt, StoredPacket.decodeFrame 0x32 [0, 1, 97, 0, 7, 42] = .ok pkt ∧
      Spells 0x32 [0, 1, 97, 0, 7, 42] pkt) ∧
    ¬ ∃ pkt, StoredPacket.decodeFrame 0x90 (0 :: 7 :: List.replicate 17 2 ++ [3]) = .ok pkt := by
  obtain ⟨-, haccepts, hspells⟩ :=
    @decoder_accepts_grammar .littleEndian 0x32 [0, 1, 97, 0, 7, 42]
  obtain ⟨pkt, hpkt⟩ := haccepts.mpr
    (.inl ⟨by decide, by decide, 0, 1, ['a'], [0, 7, 42], by decide, by decide, by decide⟩)
  refine ⟨⟨pkt, hpkt, hspells pkt hpkt⟩, fun h => ?_⟩
  rcases (@decoder_accepts_grammar .littleEndian _ _).2.1.mp h with ⟨htype, -⟩ | ⟨-, -, hcodes⟩ |
    ⟨⟨ty, hty, htype⟩, -⟩ | htype
  · revert htype
    decide
  · exact absurd (hcodes 3 (by decide)) (by unfold IsResult; decide)
  · simp only [fixedTypes, List.mem_cons, List.not_mem_nil, or_false] at hty
    rcases hty with rfl | rfl | rfl | rfl | rfl | rfl <;> exact absurd htype (by decide)
  · revert htype
    decide

end Lmc
