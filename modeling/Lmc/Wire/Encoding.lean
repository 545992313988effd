import Lmc.Wire.Packets

/-!
# What the encoders write

`Writes wr a bytes` says that a writer with enough space appends exactly `bytes` and returns
`a`. Every encoder of the client writes as many bytes as `compute_size` says
(`makePacket_of_writes`), so a packet whose fields fit has a control field, a length field
and the bytes of its content.
-/

namespace Lmc

/-! ## Writers -/

namespace ByteWriter

/-- A writer that appends exactly these bytes if there is space for them. -/
def Writes {α : Type} (wr : WriteM α) (a : α) (bytes : List UInt8) : Prop :=
  ∀ w : ByteWriter, bytes.length ≤ w.space →
    wr.run w = .ok a ⟨w.space - bytes.length, w.written ++ bytes⟩

variable {α β : Type}

theorem Writes.pure (a : α) : Writes (pure a : WriteM α) a [] := by
  intro w _
  rw [List.append_nil]
  rfl

theorem Writes.bind {x : WriteM α} {k : α → WriteM β} {a : α} {b : β} {bytes more : List UInt8}
    (hx : Writes x a bytes) (hk : Writes (k a) b more) : Writes (x >>= k) b (bytes ++ more) := by
  intro w hspace
  rw [List.length_append] at hspace
  rw [EStateM.run_bind, hx w (by omega)]
  refine (hk _ (by show more.length ≤ w.space - bytes.length; omega)).trans ?_
  rw [List.length_append, List.append_assoc, Nat.sub_add_eq]

theorem Writes.returns {x : WriteM α} {a : α} {bytes : List UInt8} (hx : Writes x a bytes)
    (b : β) : Writes (do let _ ← x; return b) b bytes := by
  rw [← List.append_nil bytes]
  exact hx.bind (.pure b)

theorem writes_writeTrivial (data : List UInt8) : Writes (writeTrivial data) () data := by
  intro w hspace
  have hnot : ¬ w.space < data.length := by omega
  simp only [writeTrivial, EStateM.run_bind, EStateM.run_get, if_neg hnot]
  rfl

/-- A field with its length in front. -/
def field (data : List UInt8) : List UInt8 := u16ToBe (UInt16.ofNat data.length) ++ data

@[simp] theorem length_field (data : List UInt8) : (field data).length = arraySize data := by
  rw [field, List.length_append, length_u16ToBe, arraySize]

theorem writes_writeBytes {data : List UInt8} (h : data.length ≤ 65535) :
    Writes (writeBytes data) () (field data) := by
  rw [writeBytes, if_neg (by omega)]
  exact writes_writeTrivial _

/-- A loop writes what its rounds write, one after the other. -/
theorem writes_forM {f : α → WriteM Unit} {g : α → List UInt8} (l : List α)
    (h : ∀ a ∈ l, Writes (f a) () (g a)) : Writes (l.forM f) () (l.flatMap g) := by
  induction l with
  | nil => exact .pure ()
  | cons a l ih =>
    rw [List.flatMap_cons]
    exact (h a List.mem_cons_self).bind (ih fun b hb => h b (List.mem_cons_of_mem _ hb))

theorem writes_finishAndCheck (w : ByteWriter) (h : w.space = 0) :
    finishAndCheck.run w = .ok () w := by
  simp only [finishAndCheck, EStateM.run_bind, EStateM.run_get, h]
  rfl

/-- A writer fills a slice of the length it needs. -/
theorem fill_of_writes {wr : WriteM UInt8} {flags : UInt8} {bytes : List UInt8}
    (h : Writes wr flags bytes) : fill bytes.length wr = .ok (flags, bytes) := by
  have hrun : (do let flags ← wr; finishAndCheck; return flags : WriteM UInt8).run
      ⟨bytes.length, []⟩ = .ok flags ⟨0, bytes⟩ := by
    rw [EStateM.run_bind, h _ le_rfl]
    simp only [Nat.sub_self, List.nil_append, EStateM.run_bind]
    rw [writes_finishAndCheck ⟨0, bytes⟩ rfl]
    rfl
  change (do let flags ← wr; finishAndCheck; return flags : WriteM UInt8) _ = _ at hrun
  rw [fill, hrun]

end ByteWriter

/-! ## Packets -/

/-- Four bytes are enough for a length of 28 bits. -/
theorem encodePacketSize_of_lt {len sz : Nat} (hlen : 0 < len) (hsz : sz < 128 ^ len) :
    ∃ size, encodePacketSize len sz = .ok size := by
  induction len generalizing sz with
  | zero => omega
  | succ len ih =>
    rw [encodePacketSize]
    by_cases hlast : sz >>> 7 = 0
    · exact ⟨_, if_pos hlast⟩
    · rw [if_neg hlast]
      have hshift : sz >>> 7 = sz / 128 := Nat.shiftRight_eq_div_pow sz 7
      have hlt : sz / 128 < 128 ^ len :=
        Nat.div_lt_of_lt_mul (by rwa [Nat.pow_succ, Nat.mul_comm] at hsz)
      have hpos : 0 < len := by
        rcases Nat.eq_zero_or_pos len with rfl | hpos
        · rw [hshift] at hlast
          omega
        · exact hpos
      obtain ⟨more, hmore⟩ := ih hpos (hshift ▸ hlt)
      exact ⟨_, by rw [hmore]; rfl⟩

/-- The size of the content that the remaining length can say. -/
def maxContentSize : Nat := 2 ^ 28

theorem makePacket_of_writes {α : Type} [Encode α] {p : α} {flags : UInt8} {content : List UInt8}
    (hwrites : ByteWriter.Writes (Encode.encode p) flags content)
    (hsize : Encode.computeSize p = content.length) (hflags : flags < 16)
    (hfits : Encode.computeSize p < maxContentSize) : ∃ size,
      encodePacketSize (maxHeaderSize - 1) content.length = .ok size ∧
      makePacket p = .ok ⟨((Encode.packetType α).code <<< 4) ||| flags, size ++ content⟩ := by
  obtain ⟨size, hfield⟩ : ∃ size,
      encodePacketSize (maxHeaderSize - 1) (Encode.computeSize p) = .ok size :=
    encodePacketSize_of_lt (by decide) hfits
  have hctrl : ControlField.fromTypeAndFlags (Encode.packetType α) flags =
      .ok ⟨((Encode.packetType α).code <<< 4) ||| flags⟩ := by
    rw [ControlField.fromTypeAndFlags, if_neg (by simpa using hflags)]
  refine ⟨size, hsize ▸ hfield, makePacket_eq_ok hfield ?_ hctrl⟩
  rw [hsize]
  exact ByteWriter.fill_of_writes hwrites

open ByteWriter

/-! ## CONNECT -/

namespace ConnectPacket

/-- Every field with a length in front fits. -/
def Fits (p : ConnectPacket) : Prop :=
  p.clientId.asBytes.length ≤ 65535 ∧
  (∀ will ∈ p.will, will.topic.asBytes.length ≤ 65535 ∧ will.message.length ≤ 65535) ∧
  (∀ username ∈ p.username, username.asBytes.length ≤ 65535) ∧
  ∀ password ∈ p.password, password.length ≤ 65535

/-- The fields of an optional part, one after the other. -/
def optional {α : Type} (part : Option α) (fields : α → List (List UInt8)) : List UInt8 :=
  (part.toList.flatMap fields).flatMap field

/-- What the encoder writes. -/
def content (p : ConnectPacket) : List UInt8 :=
  p.header ++ (field p.clientId.asBytes ++
    (optional p.will (fun will => [will.topic.asBytes, will.message]) ++
      (optional p.username (fun x => [x.asBytes]) ++ optional p.password (fun x => [x]))))

theorem computeSize_eq (p : ConnectPacket) : Encode.computeSize p = p.content.length := by
  obtain ⟨cleanSession, keepAlive, clientId, will, username, password⟩ := p
  cases will <;> cases username <;> cases password <;>
    simp [Encode.computeSize, content, header, optional] <;> omega

theorem writes_optional {α : Type} {part : Option α} {fields : α → List (List UInt8)}
    (h : ∀ a ∈ part, ∀ data ∈ fields a, data.length ≤ 65535) :
    Writes ((part.toList.flatMap fields).forM writeBytes) () (optional part fields) := by
  refine writes_forM _ fun data hdata => writes_writeBytes ?_
  obtain ⟨a, ha, hmem⟩ := List.mem_flatMap.mp hdata
  exact h a (Option.mem_toList.mp ha) data hmem

/-- The optional parts are loops over their fields. -/
theorem encode_eq (p : ConnectPacket) : Encode.encode p = (do
    writeTrivial p.header
    writeBytes p.clientId.asBytes
    (p.will.toList.flatMap fun will => [will.topic.asBytes, will.message]).forM writeBytes
    (p.username.toList.flatMap fun x => [x.asBytes]).forM writeBytes
    (p.password.toList.flatMap fun x => [x]).forM writeBytes
    return 0) := by
  obtain ⟨cleanSession, keepAlive, clientId, will, username, password⟩ := p
  cases will <;> cases username <;> cases password <;> simp [Encode.encode]

theorem writes_encode {p : ConnectPacket} (h : p.Fits) : Writes (Encode.encode p) 0 p.content := by
  obtain ⟨hid, hwill, huser, hpass⟩ := h
  rw [encode_eq]
  refine (writes_writeTrivial _).bind ((writes_writeBytes hid).bind ?_)
  refine (writes_optional fun will hmem => ?_).bind ((writes_optional fun x hmem => ?_).bind ?_)
  · simpa using hwill will hmem
  · simpa using huser x hmem
  · refine Writes.returns (writes_optional fun x hmem => ?_) 0
    simpa using hpass x hmem

end ConnectPacket

/-! ## PUBLISH and the packets of an identifier -/

namespace OutgoingPublishPacket

def Fits (p : OutgoingPublishPacket) : Prop := p.topic.asBytes.length ≤ 65535

def idBytes (p : OutgoingPublishPacket) : List UInt8 :=
  if p.flags.qos = .atMostOnce then [] else u16ToBe p.packetId

def content (p : OutgoingPublishPacket) : List UInt8 :=
  field p.topic.asBytes ++ (p.idBytes ++ p.payload)

theorem computeSize_eq (p : OutgoingPublishPacket) :
    Encode.computeSize p = p.content.length := by
  simp only [Encode.computeSize, content, idBytes, List.length_append, length_field]
  by_cases hqos : p.flags.qos = .atMostOnce
  · rw [if_pos hqos, if_pos hqos, List.length_nil]
    omega
  · rw [if_neg hqos, if_neg hqos, length_u16ToBe]
    omega

theorem writes_encode {p : OutgoingPublishPacket} (h : p.Fits) :
    Writes (Encode.encode p) p.flags.val p.content := by
  refine (writes_writeBytes h).bind ?_
  by_cases hqos : p.flags.qos = .atMostOnce
  · rw [if_pos hqos, idBytes, if_pos hqos, List.nil_append]
    exact (writes_writeTrivial p.payload).returns p.flags.val
  · rw [if_neg hqos, idBytes, if_neg hqos]
    exact (writes_writeTrivial _).bind ((writes_writeTrivial p.payload).returns p.flags.val)

end OutgoingPublishPacket

theorem SimplePacket.writes_encode {ty : PacketType} {flags : UInt8} (p : SimplePacket ty flags) :
    Writes (Encode.encode p) flags (u16ToBe p.packetId) :=
  (writes_writeTrivial (u16ToBe p.packetId)).returns flags

/-! ## SUBSCRIBE and UNSUBSCRIBE -/

namespace SubscribePacket

def Fits (p : SubscribePacket) : Prop := ∀ t ∈ p.topics, t.1.asBytes.length ≤ 65535

/-- One topic of a subscription. -/
def entry (t : Str × QoS) : List UInt8 := field t.1.asBytes ++ [t.2.code]

def content (p : SubscribePacket) : List UInt8 := u16ToBe p.packetId ++ p.topics.flatMap entry

theorem computeSize_eq (p : SubscribePacket) : Encode.computeSize p = p.content.length := by
  simp only [Encode.computeSize, content, List.length_append, length_u16ToBe, List.length_flatMap,
    entry, length_field, List.length_singleton]

theorem writes_encode {p : SubscribePacket} (h : p.Fits) :
    Writes (Encode.encode p) 2 p.content := by
  refine (writes_writeTrivial _).bind (Writes.returns (writes_forM _ fun t ht => ?_) 2)
  exact (writes_writeBytes (h t ht)).bind (writes_writeTrivial _)

end SubscribePacket

namespace UnsubscribePacket

def Fits (p : UnsubscribePacket) : Prop := ∀ t ∈ p.topics, t.asBytes.length ≤ 65535

def entry (t : Str) : List UInt8 := field t.asBytes

def content (p : UnsubscribePacket) : List UInt8 := u16ToBe p.packetId ++ p.topics.flatMap entry

theorem computeSize_eq (p : UnsubscribePacket) : Encode.computeSize p = p.content.length := by
  simp only [Encode.computeSize, content, List.length_append, length_u16ToBe, List.length_flatMap,
    entry, length_field]

theorem writes_encode {p : UnsubscribePacket} (h : p.Fits) :
    Writes (Encode.encode p) 2 p.content := by
  exact (writes_writeTrivial _).bind
    (Writes.returns (writes_forM _ fun t ht => writes_writeBytes (h t ht)) 2)

end UnsubscribePacket

end Lmc
