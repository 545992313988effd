import Mathlib.Tactic.Ring
import Lmc.Lib.EState
import Lmc.Wire.PacketReader

/-!
# Frames are reassembled independently of the reads

A frame is a control byte, a remaining-length field of one to four bytes and a body of
exactly that length. However the socket cuts a stream of frames into reads, calling
`recv` again and again gives what the decoder makes of each frame, in order and once
each (`recv_reassembles`).

The invariant is `Synced`: the buffer followed by the bytes still to come is the
concatenation of the frames not delivered yet, and the size the reader remembers is
what `parsePacketSize` reads off the buffer. Parsing is stable under further bytes
(`parseSizeLoop_append`), so a size once known is the size of the first frame, and a
size not yet known means that not even its header is complete.
-/

namespace Lmc.PacketReader

/-! ## Frames -/

/-- The continuation bit is set on every byte but the last one. -/
inductive IsLengthField : List UInt8 → Prop
  | last {b : UInt8} : b &&& 0x80 = 0 → IsLengthField [b]
  | more {b : UInt8} {rest : List UInt8} : b &&& 0x80 ≠ 0 → IsLengthField rest →
      IsLengthField (b :: rest)

/-- The number a remaining-length field stands for. -/
def fieldValue : List UInt8 → Nat
  | [] => 0
  | b :: rest => (b &&& 0x7f).toNat + 128 * fieldValue rest

/-- One packet on the wire. -/
structure Frame where
  ctrl : UInt8
  field : List UInt8
  body : List UInt8
  isField : IsLengthField field
  field_le : field.length ≤ 4
  body_length : body.length = fieldValue field

namespace Frame

def header (f : Frame) : List UInt8 := f.ctrl :: f.field

def bytes (f : Frame) : List UInt8 := f.header ++ f.body

/-- What `parsePacketSize` should find. -/
def info (f : Frame) : PacketSizeInfo := ⟨f.bytes.length, f.header.length⟩

/-- What the decoder makes of the frame. -/
def decoded (f : Frame) : Except PacketDecodeError IncomingPacket := decodeFrame f.ctrl f.body

theorem length_header (f : Frame) : f.header.length = f.field.length + 1 := rfl

theorem length_bytes (f : Frame) : f.bytes.length = f.header.length + f.body.length :=
  List.length_append

end Frame

/-- The bytes of a list of frames. -/
def stream (frames : List Frame) : List UInt8 := frames.flatMap Frame.bytes

theorem stream_cons (f : Frame) (fs : List Frame) : stream (f :: fs) = f.bytes ++ stream fs :=
  List.flatMap_cons

/-! ## Parsing the size -/

theorem low_bits_lt (b : UInt8) : (b &&& 0x7f).toNat < 128 := by
  rw [UInt8.toNat_and]
  exact Nat.lt_of_le_of_lt Nat.and_le_right (by decide)

theorem fieldValue_lt (field : List UInt8) : fieldValue field < 128 ^ field.length := by
  induction field with
  | nil => decide
  | cons b rest ih =>
    have hb := low_bits_lt b
    simp only [fieldValue, List.length_cons, Nat.pow_succ]
    omega

/-- Setting bits above the ones in use adds them. -/
theorem or_shiftLeft_eq_add {ret shift : Nat} (v : Nat) (h : ret < 2 ^ shift) :
    ret ||| (v <<< shift) = ret + v * 2 ^ shift := by
  rw [Nat.or_comm, ← Nat.shiftLeft_add_eq_or_of_lt h, Nat.shiftLeft_eq, Nat.add_comm]

theorem parseSizeLoop_field {field : List UInt8} (hf : IsLengthField field) (more : List UInt8) :
    ∀ pos ret shift, ret < 2 ^ shift →
      parseSizeLoop (field ++ more) pos ret shift =
        some ⟨ret + fieldValue field * 2 ^ shift + (pos + field.length), pos + field.length⟩ := by
  induction hf with
  | @last b hb =>
    intro pos ret shift hret
    simp [parseSizeLoop, hb, or_shiftLeft_eq_add _ hret, fieldValue]
  | @more b rest hb _ ih =>
    intro pos ret shift hret
    have hlow := low_bits_lt b
    have hret' : ret + (b &&& 0x7f).toNat * 2 ^ shift < 2 ^ (shift + 7) := by
      have : (b &&& 0x7f).toNat * 2 ^ shift ≤ 127 * 2 ^ shift :=
        Nat.mul_le_mul_right _ (by omega)
      rw [Nat.pow_add]
      omega
    rw [List.cons_append, parseSizeLoop, if_neg hb, or_shiftLeft_eq_add _ hret,
      ih _ _ _ hret']
    simp only [fieldValue, List.length_cons, Option.some.injEq, PacketSizeInfo.mk.injEq,
      Nat.pow_add]
    constructor
    · ring
    · omega

/-- Bytes that come later do not change a size that was found. -/
theorem parseSizeLoop_append {info : PacketSizeInfo} (ys : List UInt8) :
    ∀ xs pos ret shift, parseSizeLoop xs pos ret shift = some info →
      parseSizeLoop (xs ++ ys) pos ret shift = some info := by
  intro xs
  induction xs with
  | nil => intro pos ret shift h; cases h
  | cons b rest ih =>
    intro pos ret shift h
    rw [List.cons_append, parseSizeLoop]
    rw [parseSizeLoop] at h
    split at h
    · rename_i hb
      rw [if_pos hb]
      exact h
    · rename_i hb
      rw [if_neg hb]
      exact ih _ _ _ h

theorem parseSizeLoop_of_parse {bytes : List UInt8} {info : PacketSizeInfo}
    (h : parsePacketSize bytes = .ok (some info)) :
    parseSizeLoop (bytes.drop 1) 1 0 0 = some info := by
  unfold parsePacketSize at h
  split at h
  · cases h
  · rename_i info' hp
    split at h
    · cases h
    · cases h
      exact hp

theorem parsePacketSize_frame (f : Frame) (more : List UInt8) :
    parsePacketSize (f.header ++ more) = .ok (some f.info) := by
  have hloop : parseSizeLoop ((f.header ++ more).drop 1) 1 0 0 = some f.info := by
    rw [Frame.header, List.cons_append, List.drop_succ_cons, List.drop_zero,
      parseSizeLoop_field f.isField more 1 0 0 (by decide)]
    simp only [Frame.info, Frame.length_bytes, Frame.length_header, f.body_length,
      Option.some.injEq, PacketSizeInfo.mk.injEq]
    omega
  have hsize : ¬ f.info.size > maxPacketSize := by
    have hv := fieldValue_lt f.field
    have hp : 128 ^ f.field.length ≤ 128 ^ 4 := Nat.pow_le_pow_right (by decide) f.field_le
    have hl := f.field_le
    simp only [Frame.info, Frame.length_bytes, Frame.length_header, f.body_length, maxPacketSize]
    omega
  rw [parsePacketSize, hloop]
  simp only [if_neg hsize]

/-- Parsing is stable: once the buffer shows a size, the stream shows the same one. -/
theorem parsePacketSize_append {bytes : List UInt8} {info : PacketSizeInfo}
    (h : parsePacketSize bytes = .ok (some info)) (more : List UInt8) :
    parsePacketSize (bytes ++ more) = .ok (some info) := by
  have hloop := parseSizeLoop_of_parse h
  have hne : bytes ≠ [] := by
    rintro rfl
    cases hloop
  have hdrop : (bytes ++ more).drop 1 = bytes.drop 1 ++ more := by
    cases bytes with
    | nil => exact absurd rfl hne
    | cons b rest => rfl
  have happ := parseSizeLoop_append more _ _ _ _ hloop
  unfold parsePacketSize at h ⊢
  rw [hloop] at h
  rw [hdrop, happ]
  exact h

/-! ## What the socket delivers -/

/-- The bytes a script of reads delivers. -/
def scriptBytes : List ReadEvent → List UInt8
  | [] => []
  | .data first more :: rest => first :: more ++ scriptBytes rest
  | _ :: rest => scriptBytes rest

/-- An upper bound on the reads a script takes. -/
def scriptWeight : List ReadEvent → Nat
  | [] => 0
  | .data _ more :: rest => more.length + 1 + scriptWeight rest
  | _ :: rest => 1 + scriptWeight rest

/-- The socket delivers exactly `future`, cut and delayed in any way, and then nothing. -/
structure Feeds (t : TcpTransport) (future : List UInt8) : Prop where
  bytes : scriptBytes t.tcp.reads = future
  noError : ∀ e, .error e ∉ t.tcp.reads
  isOpen : t.tcp.peerClosed = false

/-- One read: it would block, or it delivers between one and `n` bytes of the stream. -/
theorem Feeds.read {t : TcpTransport} {future : List UInt8} (h : Feeds t future) {n : Nat}
    (hn : 0 < n) :
    (∃ t', Transport.read t n = (.error .wouldBlock, t') ∧ Feeds t' future ∧
        (scriptWeight t'.tcp.reads < scriptWeight t.tcp.reads ∨ (future = [] ∧ t' = t))) ∨
      ∃ got future' t', Transport.read t n = (.ok got, t') ∧ got ≠ [] ∧ got.length ≤ n ∧
        future = got ++ future' ∧ Feeds t' future' ∧
        scriptWeight t'.tcp.reads < scriptWeight t.tcp.reads := by
  obtain ⟨⟨reads, closed, writes⟩⟩ := t
  obtain ⟨hbytes, hnoError, hopen⟩ := h
  simp only at hbytes hnoError hopen
  subst hopen
  simp only [Transport.read, TcpStream.tryRead]
  cases reads with
  | nil =>
    refine Or.inl ⟨_, rfl, ⟨hbytes, hnoError, rfl⟩, Or.inr ⟨?_, rfl⟩⟩
    rw [← hbytes]
    rfl
  | cons ev rest =>
    have hrest : ∀ e, .error e ∉ rest := fun e he => hnoError e (List.mem_cons_of_mem _ he)
    cases ev with
    | wouldBlock =>
      refine Or.inl ⟨_, rfl, ⟨hbytes, hrest, rfl⟩, Or.inl ?_⟩
      simp [scriptWeight]
    | error e => exact absurd List.mem_cons_self (hnoError e)
    | data first more =>
      refine Or.inr ?_
      simp only [scriptBytes] at hbytes
      cases hd : (first :: more).drop n with
      | nil =>
        have hlen : (first :: more).length ≤ n := List.drop_eq_nil_iff.mp hd
        refine ⟨first :: more, scriptBytes rest, ⟨⟨rest, false, writes⟩⟩, by simp only [hd],
          List.cons_ne_nil _ _, hlen, hbytes.symm, ⟨rfl, hrest, rfl⟩, ?_⟩
        simp only [scriptWeight]
        omega
      | cons b left =>
        have hsplit : (first :: more).take n ++ (b :: left) = first :: more := by
          rw [← hd, List.take_append_drop]
        refine ⟨(first :: more).take n, b :: left ++ scriptBytes rest,
          ⟨⟨.data b left :: rest, false, writes⟩⟩, by simp only [hd], ?_, ?_, ?_,
          ⟨rfl, ?_, rfl⟩, ?_⟩
        · obtain ⟨m, rfl⟩ := Nat.exists_eq_succ_of_ne_zero (by omega : n ≠ 0)
          simp
        · exact List.length_take_le n _
        · rw [← hbytes, ← List.append_assoc, hsplit]
        · intro e he
          rcases List.mem_cons.mp he with he | he
          · cases he
          · exact hrest e he
        · have hlen := congrArg List.length hd
          simp only [List.length_drop, List.length_cons] at hlen
          simp only [scriptWeight]
          omega

/-! ## One call of `recv` -/

/-- The buffer and the bytes still to come are the frames not delivered yet, and the
remembered size is the one the buffer shows. -/
structure Synced (rx : Rx TcpTransport) (frames : List Frame) : Prop where
  pending : ∃ future, Feeds rx.transport future ∧ rx.reader.bytes ++ future = stream frames
  size : parsePacketSize rx.reader.bytes = .ok rx.reader.size

theorem info_of_isPrefix {bytes future : List UInt8} {f : Frame} {fs : List Frame}
    {info : PacketSizeInfo} (h : bytes ++ future = stream (f :: fs))
    (hp : parseSizeLoop (bytes.drop 1) 1 0 0 = some info) : info = f.info := by
  have hne : bytes ≠ [] := by
    rintro rfl
    cases hp
  have happ := parseSizeLoop_append future _ _ _ _ hp
  have hdrop : bytes.drop 1 ++ future = (bytes ++ future).drop 1 := by
    cases bytes with
    | nil => exact absurd rfl hne
    | cons b rest => rfl
  have hframe := parsePacketSize_frame f (f.body ++ stream fs)
  rw [← List.append_assoc, ← Frame.bytes, ← stream_cons, ← h] at hframe
  rw [hdrop, parseSizeLoop_of_parse hframe] at happ
  exact (Option.some.inj happ).symm

/-- The buffer never shows a size that is too large. -/
theorem parse_of_isPrefix {bytes future : List UInt8} {frames : List Frame}
    (h : bytes ++ future = stream frames) : ∃ size, parsePacketSize bytes = .ok size := by
  cases hp : parseSizeLoop (bytes.drop 1) 1 0 0 with
  | none => exact ⟨none, by rw [parsePacketSize, hp]⟩
  | some info =>
    cases frames with
    | nil =>
      have hnil : bytes = [] := (List.append_eq_nil_iff.mp h).1
      subst hnil
      cases hp
    | cons f fs =>
      have hinfo := info_of_isPrefix h hp
      have hframe := parseSizeLoop_of_parse (parsePacketSize_frame f [])
      have hok := parsePacketSize_frame f []
      rw [parsePacketSize, hframe] at hok
      refine ⟨some f.info, ?_⟩
      rw [parsePacketSize, hp, hinfo]
      exact hok

theorem Synced.known {rx : Rx TcpTransport} {frames : List Frame} (h : Synced rx frames)
    {info : PacketSizeInfo} (hs : rx.reader.size = some info) :
    ∃ f fs, frames = f :: fs ∧ info = f.info := by
  obtain ⟨future, _, hstream⟩ := h.pending
  have hsize := h.size
  rw [hs] at hsize
  have hloop := parseSizeLoop_of_parse hsize
  cases frames with
  | nil =>
    have hnil : rx.reader.bytes = [] := (List.append_eq_nil_iff.mp hstream).1
    rw [hnil] at hloop
    cases hloop
  | cons f fs => exact ⟨f, fs, rfl, info_of_isPrefix hstream hloop⟩

/-- While the size is unknown, not even the header of the next frame is complete. -/
theorem Synced.unknown {rx : Rx TcpTransport} {f : Frame} {fs : List Frame}
    (h : Synced rx (f :: fs)) (hs : rx.reader.size = none) :
    rx.reader.bytes.length < f.header.length := by
  obtain ⟨future, _, hstream⟩ := h.pending
  by_contra hlen
  have hpre : f.header <+: rx.reader.bytes := by
    apply @List.prefix_of_prefix_length_le _ _ _ (stream (f :: fs))
    · rw [stream_cons, Frame.bytes, List.append_assoc]
      exact List.prefix_append _ _
    · rw [← hstream]
      exact List.prefix_append _ _
    · omega
  obtain ⟨more, hmore⟩ := hpre
  have hsize := h.size
  rw [← hmore, parsePacketSize_frame, hs] at hsize
  cases hsize

theorem Synced.unknown_lt {rx : Rx TcpTransport} {frames : List Frame} (h : Synced rx frames)
    (hs : rx.reader.size = none) : rx.reader.bytes.length < maxHeaderSize := by
  cases frames with
  | nil =>
    obtain ⟨future, _, hstream⟩ := h.pending
    have hnil : rx.reader.bytes = [] := (List.append_eq_nil_iff.mp hstream).1
    rw [hnil]
    decide
  | cons f fs =>
    have hlt := h.unknown hs
    have hfield := f.field_le
    rw [Frame.length_header] at hlt
    simp only [maxHeaderSize]
    omega

/-- The buffer holds no complete frame. -/
def NoFrame (bytes : List UInt8) : Prop := ∀ f : Frame, ¬ f.bytes <+: bytes

theorem noFrame_of_unknown {bytes : List UInt8} (h : parsePacketSize bytes = .ok none) :
    NoFrame bytes := by
  rintro f ⟨more, rfl⟩
  rw [Frame.bytes, List.append_assoc, parsePacketSize_frame] at h
  cases h

theorem noFrame_of_incomplete {bytes : List UInt8} {info : PacketSizeInfo}
    (h : parsePacketSize bytes = .ok (some info)) (hlt : bytes.length < info.size) :
    NoFrame bytes := by
  rintro f ⟨more, rfl⟩
  rw [Frame.bytes, List.append_assoc, parsePacketSize_frame] at h
  cases h
  simp only [Frame.info, List.length_append] at hlt
  omega

/-! ## Steps of `recv` -/

section Reads

variable {τ : Type} [Transport τ]

theorem run_recvN_error {n : Nat} (hn : 0 < n) {rx : Rx τ} {e : IoError} {t : τ}
    (h : Transport.read rx.transport n = (.error e, t)) :
    (recvN n).run rx = .error e { rx with transport := t } := by
  simp [recvN, Nat.ne_of_gt hn, h]

theorem run_recvN_ok {n : Nat} (hn : 0 < n) {rx : Rx τ} {got : List UInt8} {t : τ}
    (h : Transport.read rx.transport n = (.ok got, t)) (hne : got ≠ []) :
    (recvN n).run rx = .ok false ⟨⟨rx.reader.bytes ++ got, rx.reader.size⟩, t⟩ := by
  have hempty : got.isEmpty = false := by simpa using hne
  simp only [recvN, Nat.ne_of_gt hn, if_false, EStateM.run_bind, EStateM.run_get, h,
    EStateM.run_set, EStateM.run_pure, hempty]

theorem run_recvN_closed {n : Nat} (hn : 0 < n) {rx : Rx τ} {t : τ}
    (h : Transport.read rx.transport n = (.ok [], t)) :
    (recvN n).run rx = .ok true ⟨rx.reader, t⟩ := by
  simp only [recvN, Nat.ne_of_gt hn, if_false, EStateM.run_bind, EStateM.run_get, h,
    EStateM.run_set, EStateM.run_pure, List.append_nil]
  rfl

end Reads

/-- Reads still to be made. -/
def weight (rx : Rx TcpTransport) : Nat := scriptWeight rx.transport.tcp.reads

/-- The outcome of the call that completes the frame `f`. -/
def outcome (f : Frame) (rx : Rx TcpTransport) :
    EStateM.Result IoError (Rx TcpTransport) PacketReadState :=
  match f.decoded with
  | .ok pkt => .ok (.incoming pkt) rx
  | .error e => .error (.decode e) rx

theorem run_takePacket {f : Frame} {fs : List Frame} {more future : List UInt8}
    (h : more ++ future = stream fs) (rx : Rx TcpTransport) :
    ∃ size, parsePacketSize more = .ok size ∧
      (takePacket (f.bytes ++ more) f.info).run rx = outcome f ⟨⟨more, size⟩, rx.transport⟩ := by
  obtain ⟨size, hsize⟩ := parse_of_isPrefix h
  have hbody : ((f.bytes ++ more).take f.info.size).drop f.info.startOffset = f.body := by
    have htake : (f.bytes ++ more).take f.info.size = f.bytes := by simp [Frame.info]
    rw [htake]
    simp [Frame.info, Frame.bytes]
  have hhead : (f.bytes ++ more).headD 0 = f.ctrl := rfl
  have hdrop : (f.bytes ++ more).drop f.info.size = more := by simp [Frame.info]
  have hlen : (f.bytes ++ more).length > f.info.size ↔ more ≠ [] := by
    simp [Frame.info, List.length_pos_iff]
  refine ⟨size, hsize, ?_⟩
  unfold takePacket dropPacket outcome Frame.decoded
  rw [hbody, hhead, hdrop]
  by_cases hmore : more = []
  · have hnone : size = none := by
      subst hmore
      exact (Except.ok.inj hsize).symm
    rw [if_neg (by rw [hlen]; simpa using hmore), hmore, hnone]
    cases decodeFrame f.ctrl f.body <;> rfl
  · rw [if_pos (hlen.mpr hmore), hsize]
    cases decodeFrame f.ctrl f.body <;> rfl

/-- A call of `recv` would block without a complete frame in the buffer, or reads
something without completing a frame, or completes the next frame. -/
inductive RecvStep (rx : Rx TcpTransport) (frames : List Frame) : Prop
  | blocks (rx' : Rx TcpTransport) (run : recv.run rx = .error .wouldBlock rx')
      (synced : Synced rx' frames) (noFrame : NoFrame rx'.reader.bytes)
      (progress : weight rx' < weight rx ∨ frames = [] ∧ rx' = rx)
  | reads (rx' : Rx TcpTransport) (run : recv.run rx = .ok .needMoreData rx')
      (synced : Synced rx' frames) (progress : weight rx' < weight rx)
  | completes (f : Frame) (fs : List Frame) (rx' : Rx TcpTransport) (first : frames = f :: fs)
      (run : recv.run rx = outcome f rx') (synced : Synced rx' fs)
      (progress : weight rx' ≤ weight rx)

theorem recv_known {rx : Rx TcpTransport} {f : Frame} {fs : List Frame}
    (h : Synced rx (f :: fs)) (hs : rx.reader.size = some f.info) : RecvStep rx (f :: fs) := by
  obtain ⟨⟨bytes, size⟩, t⟩ := rx
  obtain ⟨⟨future, hfeeds, hstream⟩, hsize⟩ := h
  simp only at hs hfeeds hstream hsize
  subst hs
  -- the part of the call behind the read, on a buffer that is a prefix of the stream
  have hrest : ∀ (bytes future : List UInt8) (t : TcpTransport),
      Feeds t future → bytes ++ future = stream (f :: fs) → f.info.size ≤ bytes.length →
      ∃ rx', (takePacket bytes f.info).run ⟨⟨bytes, some f.info⟩, t⟩ = outcome f rx' ∧
        Synced rx' fs ∧ rx'.transport = t := by
    intro bytes future t hfeeds hstream hlen
    have hpre : f.bytes <+: bytes := by
      apply @List.prefix_of_prefix_length_le _ _ _ (stream (f :: fs))
      · rw [stream_cons]
        exact List.prefix_append _ _
      · rw [← hstream]
        exact List.prefix_append _ _
      · exact hlen
    obtain ⟨more, rfl⟩ := hpre
    rw [stream_cons, List.append_assoc] at hstream
    have hmore := List.append_cancel_left hstream
    obtain ⟨size, hparse, hrun⟩ := run_takePacket (f := f) hmore ⟨⟨f.bytes ++ more, some f.info⟩, t⟩
    exact ⟨_, hrun, ⟨⟨future, hfeeds, hmore⟩, hparse⟩, rfl⟩
  by_cases hlt : bytes.length < f.info.size
  · have hpos : 0 < f.info.size - bytes.length := by omega
    rcases hfeeds.read hpos with ⟨t', hread, hfeeds', hprog⟩ |
        ⟨got, future', t', hread, hne, hgot, hsplit, hfeeds', hprog⟩
    · refine .blocks ⟨⟨bytes, some f.info⟩, t'⟩ ?_ ⟨⟨future, hfeeds', hstream⟩, hsize⟩
        (noFrame_of_incomplete hsize hlt) ?_
      · simp only [recv, recvBody, recvMissing, EStateM.run_bind, EStateM.run_get, if_pos hlt]
        rw [run_recvN_error hpos hread]
      · rcases hprog with hprog | ⟨hnil, -⟩
        · exact Or.inl hprog
        · -- nothing is left to read, so the buffer is the whole stream
          exfalso
          subst hnil
          have hlen := congrArg List.length hstream
          rw [List.append_nil, stream_cons, List.length_append] at hlen
          simp only [Frame.info] at hlt
          omega
    · have hstream' : (bytes ++ got) ++ future' = stream (f :: fs) := by
        rw [List.append_assoc, ← hsplit, hstream]
      have hrecv : recv.run ⟨⟨bytes, some f.info⟩, t⟩ =
          if f.info.size ≤ (bytes ++ got).length
          then (takePacket (bytes ++ got) f.info).run ⟨⟨bytes ++ got, some f.info⟩, t'⟩
          else .ok .needMoreData ⟨⟨bytes ++ got, some f.info⟩, t'⟩ := by
        simp only [recv, recvBody, recvMissing, EStateM.run_bind, EStateM.run_get, if_pos hlt]
        rw [run_recvN_ok hpos hread hne]
        simp only [Bool.false_eq_true, if_false, ge_iff_le, EStateM.run_bind, EStateM.run_get]
        split <;> rfl
      by_cases hfull : f.info.size ≤ (bytes ++ got).length
      · obtain ⟨rx', hrun, hsync, ht⟩ := hrest _ _ t' hfeeds' hstream' hfull
        refine .completes f fs rx' rfl (by rw [hrecv, if_pos hfull, hrun]) hsync ?_
        simp only [weight, ht]
        exact Nat.le_of_lt hprog
      · exact .reads ⟨⟨bytes ++ got, some f.info⟩, t'⟩ (by rw [hrecv, if_neg hfull])
          ⟨⟨future', hfeeds', hstream'⟩, parsePacketSize_append hsize got⟩ hprog
  · have hrecv : recv.run ⟨⟨bytes, some f.info⟩, t⟩ =
        (takePacket bytes f.info).run ⟨⟨bytes, some f.info⟩, t⟩ := by
      simp only [recv, recvBody, recvMissing, EStateM.run_bind, EStateM.run_get, if_neg hlt,
        EStateM.run_pure, Bool.false_eq_true, if_false, ge_iff_le, if_pos (Nat.le_of_not_lt hlt)]
    obtain ⟨rx', hrun, hsync, ht⟩ := hrest _ _ t hfeeds hstream (Nat.le_of_not_lt hlt)
    refine .completes f fs rx' rfl (by rw [hrecv, hrun]) hsync ?_
    simp only [weight, ht]
    exact le_refl _

theorem recv_unknown {rx : Rx TcpTransport} {frames : List Frame}
    (h : Synced rx frames) (hs : rx.reader.size = none) : RecvStep rx frames := by
  have hlt := h.unknown_lt hs
  have hheader := fun f fs (hf : frames = f :: fs) => Synced.unknown (hf ▸ h) hs
  obtain ⟨⟨bytes, size⟩, t⟩ := rx
  obtain ⟨⟨future, hfeeds, hstream⟩, hsize⟩ := h
  simp only at hs hfeeds hstream hsize hlt hheader
  subst hs
  have hpos : 0 < maxHeaderSize - bytes.length := by omega
  rcases hfeeds.read hpos with ⟨t', hread, hfeeds', hprog⟩ |
      ⟨got, future', t', hread, hne, hgot, hsplit, hfeeds', hprog⟩
  · refine .blocks ⟨⟨bytes, none⟩, t'⟩ ?_ ⟨⟨future, hfeeds', hstream⟩, hsize⟩
      (noFrame_of_unknown hsize) ?_
    · simp only [recv, recvHeader, EStateM.run_bind, EStateM.run_get]
      rw [run_recvN_error hpos hread]
    · rcases hprog with hprog | ⟨hnil, rfl⟩
      · exact Or.inl hprog
      · refine Or.inr ⟨?_, rfl⟩
        cases hf : frames with
        | nil => rfl
        | cons f fs =>
          exfalso
          have hhead := hheader f fs hf
          have hlen := congrArg List.length hstream
          rw [hnil, List.append_nil, hf, stream_cons, List.length_append,
            Frame.length_bytes] at hlen
          omega
  · have hstream' : (bytes ++ got) ++ future' = stream frames := by
      rw [List.append_assoc, ← hsplit, hstream]
    obtain ⟨size, hparse⟩ := parse_of_isPrefix hstream'
    refine .reads ⟨⟨bytes ++ got, size⟩, t'⟩ ?_ ⟨⟨future', hfeeds', hstream'⟩, hparse⟩ hprog
    simp only [recv, recvHeader, EStateM.run_bind, EStateM.run_get]
    rw [run_recvN_ok hpos hread hne]
    simp only [Bool.false_eq_true, if_false, EStateM.run_bind, EStateM.run_get, hparse]
    rfl

theorem recv_step {rx : Rx TcpTransport} {frames : List Frame} (h : Synced rx frames) :
    RecvStep rx frames := by
  cases hs : rx.reader.size with
  | none => exact recv_unknown h hs
  | some info =>
    obtain ⟨f, fs, rfl, rfl⟩ := h.known hs
    exact recv_known h hs

/-! ## Repeated calls -/

/-- Up to `n` calls of `recv` in a row: what each one returns, with the reader it leaves.
As in the read loop of the task, a call that would block is followed by further calls,
while any other failure or the end of the connection is the last one. -/
def recvTimes {τ : Type} [Transport τ] :
    Nat → Rx τ → List (Except IoError PacketReadState × PacketReader)
  | 0, _ => []
  | n + 1, rx =>
    match recv.run rx with
    | .ok .connectionClosed rx' => [(.ok .connectionClosed, rx'.reader)]
    | .ok st rx' => (.ok st, rx'.reader) :: recvTimes n rx'
    | .error .wouldBlock rx' => (.error .wouldBlock, rx'.reader) :: recvTimes n rx'
    | .error e rx' => [(.error e, rx'.reader)]

/-- A call without a result for the caller: it has to be called again. -/
def isSilent : Except IoError PacketReadState → Bool
  | .ok .needMoreData => true
  | .error .wouldBlock => true
  | _ => false

/-- The results of a row of calls. -/
def delivered (calls : List (Except IoError PacketReadState × PacketReader)) :
    List (Except IoError PacketReadState) :=
  (calls.map Prod.fst).filter fun r => !isSilent r

/-- What the decoder makes of the frames, up to and including the first failure. -/
def expected : List Frame → List (Except IoError PacketReadState)
  | [] => []
  | f :: fs =>
    match f.decoded with
    | .ok pkt => .ok (.incoming pkt) :: expected fs
    | .error e => [.error (.decode e)]

theorem delivered_silent {r : Except IoError PacketReadState} (h : isSilent r = true)
    (rd : PacketReader) (calls : List (Except IoError PacketReadState × PacketReader)) :
    delivered ((r, rd) :: calls) = delivered calls := by
  simp [delivered, h]

theorem delivered_result {r : Except IoError PacketReadState} (h : isSilent r = false)
    (rd : PacketReader) (calls : List (Except IoError PacketReadState × PacketReader)) :
    delivered ((r, rd) :: calls) = r :: delivered calls := by
  simp [delivered, h]

/-- A run of `n + 1` calls, by what the first one does. -/
theorem recvTimes_step {rx : Rx TcpTransport} {frames : List Frame} (h : Synced rx frames)
    (n : Nat) :
    (∃ r rx', recvTimes (n + 1) rx = (r, rx'.reader) :: recvTimes n rx' ∧ isSilent r = true ∧
      (r = .error .wouldBlock → NoFrame rx'.reader.bytes) ∧ Synced rx' frames ∧
      (weight rx' < weight rx ∨ frames = [])) ∨
    (∃ f fs pkt rx', frames = f :: fs ∧ f.decoded = .ok pkt ∧
      recvTimes (n + 1) rx = (.ok (.incoming pkt), rx'.reader) :: recvTimes n rx' ∧
      Synced rx' fs ∧ weight rx' ≤ weight rx) ∨
    ∃ f fs e rd, frames = f :: fs ∧ f.decoded = .error e ∧
      recvTimes (n + 1) rx = [(.error (.decode e), rd)] := by
  rw [recvTimes]
  cases recv_step h with
  | blocks rx' run synced noFrame progress =>
    refine Or.inl ⟨.error .wouldBlock, rx', ?_, rfl, fun _ => noFrame, synced, ?_⟩
    · rw [run]
    · exact progress.imp_right And.left
  | reads rx' run synced progress =>
    refine Or.inl ⟨.ok .needMoreData, rx', ?_, rfl, ?_, synced, Or.inl progress⟩
    · rw [run]
    · intro hr
      cases hr
  | completes f fs rx' first run synced progress =>
    refine Or.inr ?_
    rw [run, outcome]
    cases hd : f.decoded with
    | ok pkt => exact Or.inl ⟨f, fs, pkt, rx', first, hd, rfl, synced, progress⟩
    | error e => exact Or.inr ⟨f, fs, e, rx'.reader, first, hd, rfl⟩

theorem delivered_isPrefix (n : Nat) : ∀ {rx : Rx TcpTransport} {frames : List Frame},
    Synced rx frames → delivered (recvTimes n rx) <+: expected frames := by
  induction n with
  | zero =>
    intro rx frames _
    exact List.nil_prefix
  | succ n ih =>
    intro rx frames h
    rcases recvTimes_step h n with ⟨r, rx', hrun, hsilent, -, hsync, -⟩ |
        ⟨f, fs, pkt, rx', rfl, hd, hrun, hsync, -⟩ | ⟨f, fs, e, rd, rfl, hd, hrun⟩
    · rw [hrun, delivered_silent hsilent]
      exact ih hsync
    · rw [hrun, delivered_result rfl, expected, hd]
      exact List.cons_prefix_cons.mpr ⟨rfl, ih hsync⟩
    · rw [hrun, expected, hd]
      exact List.prefix_refl _

theorem delivered_complete (n : Nat) : ∀ {rx : Rx TcpTransport} {frames : List Frame},
    Synced rx frames → weight rx + frames.length ≤ n →
    delivered (recvTimes n rx) = expected frames := by
  induction n with
  | zero =>
    intro rx frames _ hn
    have hnil : frames = [] := List.length_eq_zero_iff.mp (by omega)
    rw [hnil]
    rfl
  | succ n ih =>
    intro rx frames h hn
    rcases recvTimes_step h n with ⟨r, rx', hrun, hsilent, -, hsync, hprog⟩ |
        ⟨f, fs, pkt, rx', rfl, hd, hrun, hsync, hprog⟩ | ⟨f, fs, e, rd, rfl, hd, hrun⟩
    · rcases hprog with hlt | rfl
      · rw [hrun, delivered_silent hsilent]
        exact ih hsync (by omega)
      · -- nothing is left, so nothing can be delivered
        exact List.prefix_nil.mp (delivered_isPrefix (n + 1) h)
    · rw [List.length_cons] at hn
      rw [hrun, delivered_result rfl, expected, hd, ih hsync (by omega)]
    · rw [hrun, expected, hd]
      rfl

theorem blocked_noFrame (n : Nat) : ∀ {rx : Rx TcpTransport} {frames : List Frame},
    Synced rx frames → ∀ call ∈ recvTimes n rx, call.1 = .error .wouldBlock →
      NoFrame call.2.bytes := by
  induction n with
  | zero =>
    intro rx frames _ call hmem
    cases hmem
  | succ n ih =>
    intro rx frames h call hmem hblock
    rcases recvTimes_step h n with ⟨r, rx', hrun, -, hnoFrame, hsync, -⟩ |
        ⟨f, fs, pkt, rx', rfl, hd, hrun, hsync, -⟩ | ⟨f, fs, e, rd, rfl, hd, hrun⟩ <;>
      rw [hrun] at hmem
    · rcases List.mem_cons.mp hmem with rfl | hmem
      · exact hnoFrame hblock
      · exact ih hsync call hmem hblock
    · rcases List.mem_cons.mp hmem with rfl | hmem
      · cases hblock
      · exact ih hsync call hmem hblock
    · rw [List.mem_singleton.mp hmem] at hblock
      cases hblock

/-- However the socket cuts the bytes of `frames` into reads and delays them, the calls
of `recv` give the decoded frames in order and once each, and give all of them when it
is called often enough. A call that would block leaves no complete frame behind. -/
theorem recv_reassembles (frames : List Frame) (t : TcpTransport) (h : Feeds t (stream frames)) :
    (∀ n, delivered (recvTimes n ⟨PacketReader.new, t⟩) <+: expected frames) ∧
    (∀ n, scriptWeight t.tcp.reads + frames.length ≤ n →
      delivered (recvTimes n ⟨PacketReader.new, t⟩) = expected frames) ∧
    ∀ n, ∀ call ∈ recvTimes n ⟨PacketReader.new, t⟩, call.1 = .error .wouldBlock →
      NoFrame call.2.bytes := by
  have hsync : Synced ⟨PacketReader.new, t⟩ frames := ⟨⟨_, h, rfl⟩, rfl⟩
  exact ⟨fun n => delivered_isPrefix n hsync, fun n hn => delivered_complete n hsync hn,
    fun n => blocked_noFrame n hsync⟩

/-- Two `PUBACK`s and a `PINGRESP`, cut in the middle of the second header. -/
def sampleFrames : List Frame :=
  [⟨0x40, [2], [0, 7], .last (by decide), by decide, rfl⟩,
    ⟨0x40, [2], [0, 8], .last (by decide), by decide, rfl⟩,
    ⟨0xd0, [0], [], .last (by decide), by decide, rfl⟩]

def sampleSocket : TcpTransport :=
  ⟨⟨[.data 0x40 [2, 0], .wouldBlock, .data 7 [0x40], .data 2 [0, 8, 0xd0], .wouldBlock,
    .data 0 []], false, []⟩⟩

theorem recv_reassembles_sample :
    Feeds sampleSocket (stream sampleFrames) ∧
      delivered (recvTimes 20 ⟨PacketReader.new, sampleSocket⟩) =
        [.ok (.incoming (.pubAck ⟨7⟩)), .ok (.incoming (.pubAck ⟨8⟩)),
          .ok (.incoming .pingResp)] := by
  have hfeeds : Feeds sampleSocket (stream sampleFrames) :=
    ⟨rfl, by intro e; simp [sampleSocket], rfl⟩
  exact ⟨hfeeds, (recv_reassembles sampleFrames sampleSocket hfeeds).2.1 20 (by decide)⟩

end Lmc.PacketReader
