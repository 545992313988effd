import Lmc.Wire.Asked
import Lmc.Wire.Encoding

/-!
# Sizes of packets

`compute_size` and `encode` are written separately for each packet, and `make_packet_t`
allocates what the first says and hands out what the second has written. Where every field
with a length in front is short enough and the content is below 2²⁸ bytes they agree to
the byte; otherwise `make_packet_t` panics (`encoded_size_exact`).
-/

namespace Lmc

/-! ## Writers that fail -/

namespace ByteWriter

/-- A writer that panics whatever the slice is. -/
def Panics {α : Type} (wr : WriteM α) : Prop := ∀ w, ∃ e w', wr.run w = .error e w'

variable {α β : Type}

theorem Panics.bind {x : WriteM α} (h : Panics x) (k : α → WriteM β) : Panics (x >>= k) := by
  intro w
  obtain ⟨e, w', hrun⟩ := h w
  exact ⟨e, w', by rw [EStateM.run_bind, hrun]⟩

theorem Panics.bind_right (x : WriteM α) {k : α → WriteM β} (h : ∀ a, Panics (k a)) :
    Panics (x >>= k) := by
  intro w
  rw [EStateM.run_bind]
  cases x.run w with
  | ok a w' => exact h a w'
  | error e w' => exact ⟨e, w', rfl⟩

theorem panics_writeBytes {data : List UInt8} (h : ¬ data.length ≤ 65535) :
    Panics (writeBytes data) := by
  intro w
  rw [writeBytes, if_pos (by omega)]
  exact ⟨_, w, rfl⟩

/-- A loop panics if one of its rounds does. -/
theorem panics_forM {f : α → WriteM Unit} {l : List α} {a : α} (ha : a ∈ l)
    (h : Panics (f a)) : Panics (l.forM f) := by
  induction l with
  | nil => cases ha
  | cons b l ih =>
    rcases List.mem_cons.mp ha with rfl | hmem
    · exact h.bind _
    · exact .bind_right _ fun _ => ih hmem

theorem fill_of_panics {wr : WriteM UInt8} (h : Panics wr) (len : Nat) :
    ∃ e, fill len wr = .error e := by
  obtain ⟨e, w', hrun⟩ := h.bind (fun flags => do finishAndCheck; return flags) ⟨len, []⟩
  change (do let flags ← wr; finishAndCheck; return flags : WriteM UInt8) ⟨len, []⟩ = _ at hrun
  exact ⟨e, by rw [fill, hrun]⟩

end ByteWriter

/-! ## Lengths that do not fit -/

theorem encodePacketSize_of_le {len sz : Nat} (h : 128 ^ len ≤ sz) :
    encodePacketSize len sz = .error .packetTooBig := by
  induction len generalizing sz with
  | zero => rfl
  | succ len ih =>
    have hshift : sz >>> 7 = sz / 128 := Nat.shiftRight_eq_div_pow sz 7
    have hle : 128 ^ len ≤ sz / 128 := by
      rw [Nat.le_div_iff_mul_le (by decide), ← Nat.pow_succ]
      exact h
    have hne : sz >>> 7 ≠ 0 := by
      have hpos : 0 < 128 ^ len := Nat.pow_pos (by decide)
      omega
    rw [encodePacketSize, if_neg hne, hshift, ih hle]
    rfl

open ByteWriter

section Make

variable {α : Type} [Encode α] {p : α}

theorem makePacket_of_big (h : ¬ Encode.computeSize p < 2 ^ 28) : ∃ e, makePacket p = .error e := by
  have hfield : encodePacketSize (maxHeaderSize - 1) (Encode.computeSize p) =
      .error .packetTooBig := encodePacketSize_of_le (show 2 ^ 28 ≤ _ by omega)
  exact ⟨_, by simp only [makePacket, hfield]; rfl⟩

theorem makePacket_of_panics (h : Panics (Encode.encode p)) : ∃ e, makePacket p = .error e := by
  obtain ⟨e, hfill⟩ := fill_of_panics h (Encode.computeSize p)
  cases hfield : encodePacketSize (maxHeaderSize - 1) (Encode.computeSize p) with
  | error e' => exact ⟨e', by simp only [makePacket, hfield]; rfl⟩
  | ok size => exact ⟨e, by simp only [makePacket, hfield, hfill]; rfl⟩

variable (p) in
/-- The encoder fills a slice of `compute_size` bytes, and the packet is the control byte, the
length field and these bytes. -/
def ExactSize : Prop :=
  ∃ flags content length,
    (Encode.encode p).run ⟨Encode.computeSize p, []⟩ = .ok flags ⟨0, content⟩ ∧
    content.length = Encode.computeSize p ∧ flags < 16 ∧
    encodePacketSize (maxHeaderSize - 1) (Encode.computeSize p) = .ok length ∧
    makePacket p = .ok ⟨((Encode.packetType α).code <<< 4) ||| flags, length ++ content⟩

theorem exactSize_of_writes {flags : UInt8} {content : List UInt8}
    (hwrites : Writes (Encode.encode p) flags content)
    (hsize : Encode.computeSize p = content.length) (hflags : flags < 16)
    (hfits : Encode.computeSize p < 2 ^ 28) : ExactSize p := by
  obtain ⟨length, hlength, hmake⟩ := makePacket_of_writes hwrites hsize hflags hfits
  refine ⟨flags, content, length, ?_, hsize.symm, hflags, hsize ▸ hlength, hmake⟩
  have hrun := hwrites ⟨Encode.computeSize p, []⟩ (Nat.le_of_eq hsize.symm)
  rw [hsize, Nat.sub_self] at hrun
  rw [hsize]
  exact hrun

/-- The encoder of a packet that writes what `compute_size` says if the fields fit, and panics
if they do not. -/
theorem exactSize_or_panics {fits : Prop} {flags : UInt8} {content : List UInt8}
    (hflags : flags < 16) (hsize : Encode.computeSize p = content.length)
    (hwrites : fits → Writes (Encode.encode p) flags content)
    (hpanics : ¬ fits → Panics (Encode.encode p)) :
    (fits ∧ Encode.computeSize p < 2 ^ 28 → ExactSize p) ∧
      (¬ (fits ∧ Encode.computeSize p < 2 ^ 28) → ∃ e, makePacket p = .error e) := by
  refine ⟨fun ⟨hfits, hlt⟩ => exactSize_of_writes (hwrites hfits) hsize hflags hlt, fun h => ?_⟩
  by_cases hfits : fits
  · exact makePacket_of_big fun hlt => h ⟨hfits, hlt⟩
  · exact makePacket_of_panics (hpanics hfits)

end Make

/-! ## Fields that do not fit -/

theorem ConnectPacket.panics_encode {p : ConnectPacket} (h : ¬ p.Fits) :
    Panics (Encode.encode p) := by
  have hfield : ∀ {α : Type} {part : Option α} {fields : α → List (List UInt8)} {a : α}
      {data : List UInt8}, a ∈ part → data ∈ fields a → ¬ data.length ≤ 65535 →
      Panics ((part.toList.flatMap fields).forM writeBytes) :=
    fun ha hdata hlong => panics_forM
      (List.mem_flatMap.mpr ⟨_, Option.mem_toList.mpr ha, hdata⟩) (panics_writeBytes hlong)
  rw [ConnectPacket.encode_eq]
  by_cases hid : p.clientId.asBytes.length ≤ 65535
  swap
  · exact .bind_right _ fun _ => (panics_writeBytes hid).bind _
  refine .bind_right _ fun _ => .bind_right _ fun _ => ?_
  by_cases hwill : ∀ will ∈ p.will, will.topic.asBytes.length ≤ 65535 ∧ will.message.length ≤ 65535
  swap
  · simp only [not_forall, not_and_or] at hwill
    obtain ⟨will, hmem, htopic | hmessage⟩ := hwill
    · exact (hfield hmem List.mem_cons_self htopic).bind _
    · exact (hfield hmem (List.mem_cons_of_mem _ List.mem_cons_self) hmessage).bind _
  refine .bind_right _ fun _ => ?_
  by_cases huser : ∀ username ∈ p.username, username.asBytes.length ≤ 65535
  swap
  · simp only [not_forall] at huser
    obtain ⟨username, hmem, hlong⟩ := huser
    exact (hfield hmem List.mem_cons_self hlong).bind _
  refine .bind_right _ fun _ => ?_
  have hpass : ¬ ∀ password ∈ p.password, password.length ≤ 65535 :=
    fun hpass => h ⟨hid, hwill, huser, hpass⟩
  simp only [not_forall] at hpass
  obtain ⟨password, hmem, hlong⟩ := hpass
  exact (hfield hmem List.mem_cons_self hlong).bind _

theorem OutgoingPublishPacket.panics_encode {p : OutgoingPublishPacket} (h : ¬ p.Fits) :
    Panics (Encode.encode p) := (panics_writeBytes h).bind _

theorem SubscribePacket.panics_encode {p : SubscribePacket} (h : ¬ p.Fits) :
    Panics (Encode.encode p) := by
  unfold Fits at h
  simp only [not_forall] at h
  obtain ⟨t, ht, hlong⟩ := h
  refine .bind_right _ fun _ => Panics.bind (panics_forM ht ?_) _
  exact (panics_writeBytes hlong).bind _

theorem UnsubscribePacket.panics_encode {p : UnsubscribePacket} (h : ¬ p.Fits) :
    Panics (Encode.encode p) := by
  unfold Fits at h
  simp only [not_forall] at h
  obtain ⟨t, ht, hlong⟩ := h
  exact .bind_right _ fun _ => Panics.bind (panics_forM ht (panics_writeBytes hlong)) _

theorem EmptyPacket.writes_encode {ty : PacketType} (p : EmptyPacket ty) :
    Writes (Encode.encode p) 0 [] := .pure 0

/-! ## Every packet of a client -/

/-- Encoded sizes are exact: a packet of the client whose fields with a length in front are at
most 65535 bytes long and whose content is below 2²⁸ bytes is written to the byte, with no
assertion failing, and `make_packet_t` hands out the control byte, the length field and what
was written. In every other case `make_packet_t` panics. -/
theorem encoded_size_exact :
    (∀ p : ConnectPacket, (p.Fits ∧ Encode.computeSize p < 2 ^ 28 → ExactSize p) ∧
      (¬ (p.Fits ∧ Encode.computeSize p < 2 ^ 28) → ∃ e, makePacket p = .error e)) ∧
    (∀ p : OutgoingPublishPacket, (p.Fits ∧ Encode.computeSize p < 2 ^ 28 → ExactSize p) ∧
      (¬ (p.Fits ∧ Encode.computeSize p < 2 ^ 28) → ∃ e, makePacket p = .error e)) ∧
    (∀ p : SubscribePacket, (p.Fits ∧ Encode.computeSize p < 2 ^ 28 → ExactSize p) ∧
      (¬ (p.Fits ∧ Encode.computeSize p < 2 ^ 28) → ∃ e, makePacket p = .error e)) ∧
    (∀ p : UnsubscribePacket, (p.Fits ∧ Encode.computeSize p < 2 ^ 28 → ExactSize p) ∧
      (¬ (p.Fits ∧ Encode.computeSize p < 2 ^ 28) → ∃ e, makePacket p = .error e)) ∧
    (∀ p : PubAckPacket, ExactSize p) ∧ (∀ p : PubRecPacket, ExactSize p) ∧
    (∀ p : PubRelPacket, ExactSize p) ∧ (∀ p : PubCompPacket, ExactSize p) ∧
    (∀ p : PingReqPacket, ExactSize p) ∧ ∀ p : DisconnectPacket, ExactSize p := by
  have hsimple : ∀ {ty : PacketType} {flags : UInt8} (p : SimplePacket ty flags), flags < 16 →
      ExactSize p := fun p hflags =>
    exactSize_of_writes (SimplePacket.writes_encode p) rfl hflags (by decide : 2 < 2 ^ 28)
  have hempty : ∀ {ty : PacketType} (p : EmptyPacket ty), ExactSize p := fun p =>
    exactSize_of_writes p.writes_encode rfl (by decide) (by decide : 0 < 2 ^ 28)
  refine ⟨fun p => ?_, fun p => ?_, fun p => ?_, fun p => ?_, fun p => hsimple p (by decide),
    fun p => hsimple p (by decide), fun p => hsimple p (by decide),
    fun p => hsimple p (by decide), fun p => hempty p, fun p => hempty p⟩
  · exact exactSize_or_panics (by decide) p.computeSize_eq ConnectPacket.writes_encode
      ConnectPacket.panics_encode
  · exact exactSize_or_panics p.flags.val_lt p.computeSize_eq OutgoingPublishPacket.writes_encode
      OutgoingPublishPacket.panics_encode
  · exact exactSize_or_panics (by decide) p.computeSize_eq SubscribePacket.writes_encode
      SubscribePacket.panics_encode
  · exact exactSize_or_panics (by decide) p.computeSize_eq UnsubscribePacket.writes_encode
      UnsubscribePacket.panics_encode

theorem length_asBytes_replicate (n : Nat) : (Str.asBytes (List.replicate n 'a')).length = n := by
  rw [Str.asBytes, List.length_flatMap, List.map_replicate, List.sum_replicate_nat]
  exact Nat.mul_one n

/-- A CONNECT with every optional field, and a publish whose topic is one byte too long. -/
theorem encoded_size_exact_connect :
    ExactSize (⟨true, 30, ['a'], some ⟨['b', '/', 'c'], [1, 2], true, .exactlyOnce⟩,
      some ['u'], some [3]⟩ : ConnectPacket) ∧
    ∃ e, makePacket (⟨.new false .atMostOnce false, List.replicate 65536 'a', 0, []⟩ :
      OutgoingPublishPacket) = .error e := by
  refine ⟨(encoded_size_exact.1 _).1 ⟨?_, by decide⟩, (encoded_size_exact.2.1 _).2 fun h => ?_⟩
  · simp only [ConnectPacket.Fits]
    decide
  · have hle := h.1
    rw [OutgoingPublishPacket.Fits, length_asBytes_replicate] at hle
    exact absurd hle (by decide)

end Lmc
