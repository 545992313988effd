import Lmc.Wire.LengthField

/-!
# The arithmetic of the packet reader

The source subtracts lengths, shifts, indexes and copies within its buffer, and reads into
memory that it has reserved. `Checked.recv` is `recv` with each of these steps checked; a
check that fails is a `ReaderFault`. No check fails in a reader that calls of `recv` lead to,
over any transport that does not read more than it is asked to (`reader_arithmetic_safe`).

The invariant is `Bounded`. It rests on the size of the buffer while the size of the packet is
not known: in five bytes the loop over the length field reads at most four, so its shift and
its result are small (`parse_bounds`).
-/

namespace Lmc.PacketReader

open EStateLogic

/-- How the checked reader fails. -/
inductive ReaderFault where
  | io (e : IoError)
  /-- A subtraction below zero. -/
  | underflow
  /-- A shift further than a field of four bytes needs. -/
  | shift
  /-- An access outside of the buffer, or beyond the reserved bytes. -/
  | outOfRange
  /-- A packet has been decoded and is dropped, since the next one is too large. -/
  | discarded
deriving DecidableEq, Repr

/-! ## The checked reader -/

namespace Checked

/-- `a - b`. -/
def sub (a b : Nat) : Except ReaderFault Nat :=
  if b ≤ a then .ok (a - b) else .error .underflow

/-- `v << shift`. -/
def shiftLeft (v shift : Nat) : Except ReaderFault Nat :=
  if shift ≤ 21 then .ok (v <<< shift) else .error .shift

/-- `bytes[i]`. -/
def index (bytes : List UInt8) (i : Nat) : Except ReaderFault UInt8 :=
  match bytes[i]? with
  | some b => .ok b
  | none => .error .outOfRange

/-- `&bytes[start..stop]`. -/
def slice (bytes : List UInt8) (start stop : Nat) : Except ReaderFault (List UInt8) :=
  if start ≤ stop ∧ stop ≤ bytes.length then .ok ((bytes.take stop).drop start)
  else .error .outOfRange

/-- `bytes.copy_within(start.., 0)`. The bytes at the end stay where they are. -/
def copyWithin (bytes : List UInt8) (start : Nat) : Except ReaderFault (List UInt8) :=
  if start ≤ bytes.length then .ok (bytes.drop start ++ bytes.drop (bytes.length - start))
  else .error .outOfRange

/-- The loop of `parse_packet_size`. It ends with the buffer, so `fuel` is the length of it. -/
def parseSizeLoop (bytes : List UInt8) :
    Nat → Nat → Nat → Nat → Except ReaderFault (Option PacketSizeInfo)
  | 0, _, _, _ => .ok none
  | fuel + 1, pos, ret, shift =>
    if pos ≥ bytes.length then .ok none
    else do
      let b ← index bytes pos
      let ret := ret ||| (← shiftLeft (b &&& 0x7f).toNat shift)
      if b &&& 0x80 = 0 then return some ⟨ret + (pos + 1), pos + 1⟩
      else parseSizeLoop bytes fuel (pos + 1) ret (shift + 7)

def parsePacketSize (bytes : List UInt8) :
    Except ReaderFault (Except IoError (Option PacketSizeInfo)) := do
  match ← parseSizeLoop bytes bytes.length 1 0 0 with
  | none => return .ok none
  | some info =>
    if info.size > maxPacketSize then return .error (.decode .reachedMaxSize)
    else return .ok (some info)

/-- A program on a reader and its transport, with checks. -/
abbrev CheckedM (τ : Type) := EStateM ReaderFault (Rx τ)

variable {τ : Type}

def check {α : Type} : Except ReaderFault α → CheckedM τ α
  | .ok a => return a
  | .error fault => throw fault

def setReader (rd : PacketReader) : CheckedM τ Unit := modify fun rx => { rx with reader := rd }

/-- `recv_n`. The transport writes into `n` reserved bytes. -/
def recvN [Transport τ] (n : Nat) : CheckedM τ Bool := do
  if n = 0 then
    return false
  else
    let rx ← get
    match Transport.read rx.transport n with
    | (.error e, t) =>
      set { rx with transport := t }
      throw (.io e)
    | (.ok got, t) =>
      if got.length ≤ n then
        set ({ reader := { rx.reader with bytes := rx.reader.bytes ++ got },
               transport := t } : Rx τ)
        return got.isEmpty
      else throw .outOfRange

def dropPacket (bytes : List UInt8) (info : PacketSizeInfo) : CheckedM τ Unit :=
  if bytes.length > info.size then do
    let remaining ← check (sub bytes.length info.size)
    let moved ← check (copyWithin bytes info.size)
    match ← check (parsePacketSize (moved.take remaining)) with
    | .error _ =>
      setReader ⟨[], some info⟩
      throw .discarded
    | .ok size => setReader ⟨moved.take remaining, size⟩
  else
    setReader ⟨[], none⟩

def takePacket (bytes : List UInt8) (info : PacketSizeInfo) : CheckedM τ PacketReadState := do
  let ctrl ← check (index bytes 0)
  let body ← check (slice bytes info.startOffset info.size)
  dropPacket bytes info
  match decodeFrame ctrl body with
  | .ok pkt => return .incoming pkt
  | .error e => throw (.io (.decode e))

def recvMissing [Transport τ] (rd : PacketReader) (info : PacketSizeInfo) : CheckedM τ Bool :=
  if rd.bytes.length < info.size then do
    recvN (← check (sub info.size rd.bytes.length))
  else pure false

def recvBody [Transport τ] (rd : PacketReader) (info : PacketSizeInfo) :
    CheckedM τ PacketReadState := do
  if ← recvMissing rd info then
    return .connectionClosed
  else
    let bytes := (← get).reader.bytes
    if bytes.length ≥ info.size then takePacket bytes info else return .needMoreData

def recvHeader [Transport τ] (rd : PacketReader) : CheckedM τ PacketReadState := do
  if ← recvN (← check (sub maxHeaderSize rd.bytes.length)) then
    return .connectionClosed
  else
    let bytes := (← get).reader.bytes
    match ← check (parsePacketSize bytes) with
    | .error e =>
      setReader ⟨[], none⟩
      throw (.io e)
    | .ok size =>
      setReader ⟨bytes, size⟩
      return .needMoreData

/-- `PacketReader::recv` with its checks. -/
def recv [Transport τ] : CheckedM τ PacketReadState := do
  let rd := (← get).reader
  match rd.size with
  | some info => recvBody rd info
  | none => recvHeader rd

end Checked

/-! ## The bounds -/

/-- The bounds of a reader. -/
structure Bounded (rd : PacketReader) : Prop where
  unknown : rd.size = none → rd.bytes.length ≤ 5
  offset : ∀ info, rd.size = some info → 2 ≤ info.startOffset ∧ info.startOffset ≤ 5
  size : ∀ info, rd.size = some info → info.startOffset ≤ info.size ∧ info.size < 2 ^ 28 + 5
  known : ∀ info, rd.size = some info → rd.bytes.length ≤ max 5 info.size

theorem bounds_of_parseSizeLoop {info : PacketSizeInfo} :
    ∀ xs pos ret shift, ret < 2 ^ shift → parseSizeLoop xs pos ret shift = some info →
      pos < info.startOffset ∧ info.startOffset ≤ pos + xs.length ∧
        info.startOffset ≤ info.size ∧
        info.size < 2 ^ (shift + 7 * xs.length) + info.startOffset := by
  intro xs
  induction xs with
  | nil => exact fun _ _ _ _ h => nomatch h
  | cons b rest ih =>
    intro pos ret shift hret h
    -- the bits of a byte are above those already there
    have hnext : ret ||| ((b &&& 0x7f).toNat <<< shift) < 2 ^ (shift + 7) := by
      have hlow := low_bits_lt b
      have hmul : (b &&& 0x7f).toNat * 2 ^ shift ≤ 127 * 2 ^ shift :=
        Nat.mul_le_mul_right _ (by omega)
      rw [or_shiftLeft_eq_add _ hret, Nat.pow_add]
      omega
    have hlen : shift + 7 + 7 * rest.length = shift + 7 * (b :: rest).length := by
      rw [List.length_cons]
      omega
    rw [parseSizeLoop] at h
    split at h
    · cases h
      have hpow : 2 ^ (shift + 7) ≤ 2 ^ (shift + 7 * (b :: rest).length) :=
        Nat.pow_le_pow_right (by decide) (by rw [← hlen]; omega)
      rw [List.length_cons] at hpow ⊢
      refine ⟨Nat.lt_succ_self _, ?_, ?_, ?_⟩ <;> simp only <;> omega
    · obtain ⟨h₁, h₂, h₃, h₄⟩ := ih _ _ _ hnext h
      rw [hlen] at h₄
      rw [List.length_cons]
      exact ⟨by omega, by omega, h₃, h₄⟩

/-- What the first five bytes of a packet can say of its size. -/
theorem parse_bounds {bytes : List UInt8} (hlen : bytes.length ≤ 5) :
    ∃ size, parsePacketSize bytes = .ok size ∧ Bounded ⟨bytes, size⟩ := by
  unfold parsePacketSize
  cases hloop : parseSizeLoop (bytes.drop 1) 1 0 0 with
  | none => exact ⟨none, rfl, fun _ => hlen, nofun, nofun, nofun⟩
  | some info =>
    obtain ⟨h₁, h₂, h₃, h₄⟩ := bounds_of_parseSizeLoop _ _ _ _ (by decide) hloop
    rw [List.length_drop] at h₂ h₄
    have hpow : 2 ^ (0 + 7 * (bytes.length - 1)) ≤ 2 ^ 28 :=
      Nat.pow_le_pow_right (by decide) (by omega)
    have hoffset : info.startOffset ≤ 5 := by omega
    have hsize : info.size < 2 ^ 28 + 5 := by omega
    refine ⟨some info, if_neg ?_, nofun, ?_, ?_, ?_⟩
    · simp only [maxPacketSize]
      omega
    · rintro _ ⟨⟩
      exact ⟨h₁, hoffset⟩
    · rintro _ ⟨⟩
      exact ⟨h₃, hsize⟩
    · rintro _ ⟨⟩
      exact hlen.trans (le_max_left _ _)

theorem Bounded.empty : Bounded ⟨[], none⟩ := ⟨fun _ => Nat.zero_le _, nofun, nofun, nofun⟩

/-- What a call leaves in the reader: what was there, or a reader that has its bounds. When a
packet has left the buffer, decoded or not, at most three bytes are left of it. -/
inductive Leaves {τ : Type} (rx : Rx τ) : EStateM.Result IoError (Rx τ) PacketReadState → Prop
  | fails (e : IoError) (t : τ) : Leaves rx (.error e ⟨rx.reader, t⟩)
  | closed (t : τ) : Leaves rx (.ok .connectionClosed ⟨rx.reader, t⟩)
  | reads (rd : PacketReader) (t : τ) (bounded : Bounded rd) :
      Leaves rx (.ok .needMoreData ⟨rd, t⟩)
  | takes (pkt : IncomingPacket) (rd : PacketReader) (t : τ) (bounded : Bounded rd)
      (left : rd.bytes.length ≤ 3) : Leaves rx (.ok (.incoming pkt) ⟨rd, t⟩)
  | rejects (e : PacketDecodeError) (rd : PacketReader) (t : τ) (bounded : Bounded rd)
      (left : rd.bytes.length ≤ 3) : Leaves rx (.error (.decode e) ⟨rd, t⟩)

theorem Leaves.bounded {τ : Type} {rx : Rx τ} {x : RxM τ PacketReadState}
    (h : Leaves rx (x.run rx)) (hrx : Bounded rx.reader) : Bounded (after x rx).reader := by
  generalize hrun : x.run rx = r at h
  cases h with
  | fails e t => rw [after_of_error hrun]; exact hrx
  | closed t => rw [after_of_ok hrun]; exact hrx
  | reads rd t bounded => rw [after_of_ok hrun]; exact bounded
  | takes pkt rd t bounded left => rw [after_of_ok hrun]; exact bounded
  | rejects e rd t bounded left => rw [after_of_error hrun]; exact bounded

/-! ## The checks succeed -/

namespace Checked

theorem sub_of_le {a b : Nat} (h : b ≤ a) : sub a b = .ok (a - b) := if_pos h

theorem index_of_lt {bytes : List UInt8} {i : Nat} (h : i < bytes.length) :
    index bytes i = .ok bytes[i] := by
  rw [index, List.getElem?_eq_getElem h]

theorem copyWithin_take {bytes : List UInt8} {start : Nat} (h : start ≤ bytes.length) :
    ∃ moved, copyWithin bytes start = .ok moved ∧
      moved.take (bytes.length - start) = bytes.drop start := by
  refine ⟨_, if_pos h, ?_⟩
  rw [List.take_append_of_le_length (by rw [List.length_drop]),
    List.take_of_length_le (by rw [List.length_drop])]

/-- At the byte `pos` the shift is seven for every byte of the field before it. -/
theorem parseSizeLoop_eq {bytes : List UInt8} (hlen : bytes.length ≤ 5) :
    ∀ fuel pos ret, 1 ≤ pos → bytes.length ≤ pos + fuel →
      parseSizeLoop bytes fuel pos ret (7 * (pos - 1)) =
        .ok (PacketReader.parseSizeLoop (bytes.drop pos) pos ret (7 * (pos - 1))) := by
  intro fuel
  induction fuel with
  | zero =>
    intro pos ret _ hfuel
    rw [List.drop_eq_nil_of_le (by omega)]
    rfl
  | succ fuel ih =>
    intro pos ret hpos hfuel
    rw [parseSizeLoop]
    by_cases hend : pos ≥ bytes.length
    · rw [if_pos hend, List.drop_eq_nil_of_le hend]
      rfl
    · have hlt : pos < bytes.length := by omega
      have hshift : ∀ v, shiftLeft v (7 * (pos - 1)) = .ok (v <<< (7 * (pos - 1))) := fun v =>
        if_pos (by omega)
      have hnext : 7 * (pos - 1) + 7 = 7 * (pos + 1 - 1) := by omega
      rw [if_neg hend, index_of_lt hlt, List.drop_eq_getElem_cons hlt,
        PacketReader.parseSizeLoop]
      show (do
        let ret := ret ||| (← shiftLeft (bytes[pos] &&& 0x7f).toNat (7 * (pos - 1)))
        if bytes[pos] &&& 0x80 = 0 then return some ⟨ret + (pos + 1), pos + 1⟩
        else parseSizeLoop bytes fuel (pos + 1) ret (7 * (pos - 1) + 7) :
          Except ReaderFault (Option PacketSizeInfo)) = _
      rw [hshift]
      show (if bytes[pos] &&& 0x80 = 0 then _ else _ :
        Except ReaderFault (Option PacketSizeInfo)) = _
      split
      · rfl
      · rw [hnext]
        exact ih (pos + 1) _ (by omega) (by omega)

theorem parsePacketSize_eq {bytes : List UInt8} (hlen : bytes.length ≤ 5) :
    parsePacketSize bytes = .ok (PacketReader.parsePacketSize bytes) := by
  have hloop := parseSizeLoop_eq hlen bytes.length 1 0 (Nat.le_refl 1) (by omega)
  rw [parsePacketSize, show (0 : Nat) = 7 * (1 - 1) from rfl, hloop]
  show (match PacketReader.parseSizeLoop (bytes.drop 1) 1 0 0 with
    | none => return .ok none
    | some info => if info.size > maxPacketSize then return .error (.decode .reachedMaxSize)
        else return .ok (some info) :
      Except ReaderFault (Except IoError (Option PacketSizeInfo))) = _
  rw [PacketReader.parsePacketSize]
  cases PacketReader.parseSizeLoop (bytes.drop 1) 1 0 0 with
  | none => rfl
  | some info =>
    dsimp only
    split <;> rfl

end Checked

/-! ## Taking a packet -/

section Take

variable {τ : Type} {bytes : List UInt8} {info : PacketSizeInfo}

/-- What stays of a buffer when its first packet leaves it came with the header. -/
theorem dropPacket_spec (hoffset : 2 ≤ info.size) (hfull : info.size ≤ bytes.length)
    (hmax : bytes.length ≤ max 5 info.size) (rx : Rx τ) :
    ∃ rd, Bounded rd ∧ rd.bytes.length ≤ 3 ∧
      (dropPacket bytes info).run rx = .ok () ⟨rd, rx.transport⟩ ∧
      (Checked.dropPacket bytes info).run rx = .ok () ⟨rd, rx.transport⟩ := by
  unfold dropPacket Checked.dropPacket
  by_cases hmore : bytes.length > info.size
  · have hleft : (bytes.drop info.size).length ≤ 3 := by
      rw [List.length_drop]
      omega
    obtain ⟨moved, hmoved, htake⟩ := Checked.copyWithin_take hfull
    obtain ⟨size, hparse, hbounded⟩ := parse_bounds (hleft.trans (by decide))
    have hchecked := Checked.parsePacketSize_eq (hleft.trans (by decide))
    refine ⟨⟨bytes.drop info.size, size⟩, hbounded, hleft, ?_, ?_⟩
    · rw [if_pos hmore, hparse]
      rfl
    · rw [if_pos hmore, Checked.sub_of_le hfull, hmoved]
      show (do
        match ← Checked.check (Checked.parsePacketSize (moved.take (bytes.length - info.size))) with
        | .error _ =>
          Checked.setReader ⟨[], some info⟩
          throw .discarded
        | .ok size => Checked.setReader ⟨moved.take (bytes.length - info.size), size⟩ :
          Checked.CheckedM τ Unit).run rx = _
      rw [htake, hchecked, hparse]
      rfl
  · refine ⟨⟨[], none⟩, .empty, Nat.zero_le _, ?_, ?_⟩
    · rw [if_neg hmore]
      rfl
    · rw [if_neg hmore]
      rfl

theorem takePacket_spec (hoffset : 2 ≤ info.startOffset) (hsize : info.startOffset ≤ info.size)
    (hfull : info.size ≤ bytes.length) (hmax : bytes.length ≤ max 5 info.size) (rx before : Rx τ) :
    Mirrors .io (Checked.takePacket bytes info) (takePacket bytes info) rx ∧
      Leaves before ((takePacket bytes info).run rx) := by
  obtain ⟨rd, hbounded, hleft, hdrop, hchecked⟩ :=
    dropPacket_spec (hoffset.trans hsize) hfull hmax rx
  have hctrl : Checked.index bytes 0 = .ok (bytes.headD 0) := by
    rw [Checked.index_of_lt (by omega)]
    cases bytes with
    | nil => exact absurd (hoffset.trans (hsize.trans hfull)) (by decide)
    | cons b rest => rfl
  have hbody : Checked.slice bytes info.startOffset info.size =
      .ok ((bytes.take info.size).drop info.startOffset) := if_pos ⟨hsize, hfull⟩
  have hmirrors : Mirrors .io (Checked.dropPacket bytes info) (dropPacket bytes info) rx := by
    rw [Mirrors, hdrop, hchecked]
    rfl
  refine ⟨?_, ?_⟩
  · refine .check (congrArg Checked.check hctrl) (.check (congrArg Checked.check hbody) ?_)
    refine hmirrors.bind fun _ rx' _ => ?_
    cases decodeFrame (bytes.headD 0) ((bytes.take info.size).drop info.startOffset) <;> rfl
  · rw [takePacket, EStateM.run_bind, hdrop]
    dsimp only
    cases decodeFrame (bytes.headD 0) ((bytes.take info.size).drop info.startOffset) with
    | ok pkt => exact .takes pkt rd rx.transport hbounded hleft
    | error e => exact .rejects e rd rx.transport hbounded hleft

end Take

/-! ## One call -/

section Call

variable {τ : Type} [Transport τ] (hfit : ReadsFit τ)

include hfit

theorem mirrors_recvN (n : Nat) (rx : Rx τ) : Mirrors .io (Checked.recvN n) (recvN n) rx := by
  unfold Mirrors Checked.recvN recvN
  by_cases hn : n = 0
  · rw [if_pos hn, if_pos hn]
    rfl
  · rw [if_neg hn, if_neg hn]
    simp only [EStateM.run_bind, EStateM.run_get]
    rcases hread : Transport.read rx.transport n with ⟨r, t⟩
    cases r with
    | error e => rfl
    | ok got =>
      dsimp only
      rw [if_pos (hfit _ _ _ _ hread)]
      rfl

theorem recvN_cases (n : Nat) (rx : Rx τ) :
    (∃ e t, (recvN n).run rx = .error e ⟨rx.reader, t⟩) ∨
      (∃ t, (recvN n).run rx = .ok true ⟨rx.reader, t⟩) ∨
      ∃ got t, got.length ≤ n ∧
        (recvN n).run rx = .ok false ⟨⟨rx.reader.bytes ++ got, rx.reader.size⟩, t⟩ := by
  by_cases hn : n = 0
  · refine Or.inr (Or.inr ⟨[], rx.transport, Nat.zero_le _, ?_⟩)
    rw [recvN, if_pos hn, List.append_nil]
    rfl
  · have hpos : 0 < n := Nat.pos_of_ne_zero hn
    rcases hread : Transport.read rx.transport n with ⟨r, t⟩
    cases r with
    | error e => exact Or.inl ⟨e, t, run_recvN_error hpos hread⟩
    | ok got =>
      by_cases hgot : got = []
      · subst hgot
        exact Or.inr (Or.inl ⟨t, run_recvN_closed hpos hread⟩)
      · exact Or.inr (Or.inr ⟨got, t, hfit _ _ _ _ hread, run_recvN_ok hpos hread hgot⟩)

theorem mirrors_recvMissing (rd : PacketReader) (info : PacketSizeInfo) (rx : Rx τ) :
    Mirrors .io (Checked.recvMissing rd info) (recvMissing rd info) rx := by
  unfold Checked.recvMissing recvMissing
  split
  · rename_i hlt
    exact .check (congrArg Checked.check (Checked.sub_of_le (Nat.le_of_lt hlt)))
      (mirrors_recvN hfit _ rx)
  · rfl

theorem recvMissing_cases {rx : Rx τ} (h : Bounded rx.reader) {info : PacketSizeInfo}
    (hinfo : rx.reader.size = some info) :
    (∃ e t, (recvMissing rx.reader info).run rx = .error e ⟨rx.reader, t⟩) ∨
      (∃ t, (recvMissing rx.reader info).run rx = .ok true ⟨rx.reader, t⟩) ∨
      ∃ bytes t, bytes.length ≤ max 5 info.size ∧
        (recvMissing rx.reader info).run rx = .ok false ⟨⟨bytes, some info⟩, t⟩ := by
  by_cases hlt : rx.reader.bytes.length < info.size
  · have heq : (recvMissing rx.reader info : RxM τ Bool) =
        recvN (info.size - rx.reader.bytes.length) := if_pos hlt
    rw [heq]
    rcases recvN_cases hfit (info.size - rx.reader.bytes.length) rx with
      herror | hclosed | ⟨got, t, hgot, hrun⟩
    · exact Or.inl herror
    · exact Or.inr (Or.inl hclosed)
    · refine Or.inr (Or.inr ⟨rx.reader.bytes ++ got, t, ?_, hinfo ▸ hrun⟩)
      rw [List.length_append]
      omega
  · refine Or.inr (Or.inr ⟨rx.reader.bytes, rx.transport, h.known info hinfo, ?_⟩)
    rw [recvMissing, if_neg hlt, ← hinfo]
    rfl

/-- A call that knows the size of its packet. -/
theorem recvBody_spec {rx : Rx τ} (h : Bounded rx.reader) {info : PacketSizeInfo}
    (hinfo : rx.reader.size = some info) :
    Mirrors .io (Checked.recvBody rx.reader info) (recvBody rx.reader info) rx ∧
      Leaves rx ((recvBody rx.reader info).run rx) := by
  obtain ⟨hlow, -⟩ := h.offset info hinfo
  obtain ⟨hle, -⟩ := h.size info hinfo
  have hmissing := mirrors_recvMissing hfit rx.reader info rx
  rcases recvMissing_cases hfit h hinfo with ⟨e, t, hrun⟩ | ⟨t, hrun⟩ | ⟨bytes, t, hlen, hrun⟩
  · refine ⟨hmissing.bind fun a rx' hok => ?_, ?_⟩
    · cases hrun.symm.trans hok
    · rw [recvBody, EStateM.run_bind, hrun]
      exact .fails e t
  · refine ⟨hmissing.bind fun a rx' hok => ?_, ?_⟩
    · cases hrun.symm.trans hok
      rfl
    · rw [recvBody, EStateM.run_bind, hrun]
      exact .closed t
  · have hbody := run_recvBody hrun
    by_cases hfull : bytes.length ≥ info.size
    · -- the packet is complete
      obtain ⟨hmirrors, htakes⟩ :=
        takePacket_spec hlow hle hfull hlen (⟨⟨bytes, some info⟩, t⟩ : Rx τ) rx
      rw [if_pos hfull] at hbody
      rw [hbody]
      refine ⟨hmissing.bind fun a rx' hok => ?_, htakes⟩
      cases hrun.symm.trans hok
      show (if bytes.length ≥ info.size then Checked.takePacket bytes info
          else return .needMoreData : Checked.CheckedM τ PacketReadState).run _ =
        mapError .io ((if bytes.length ≥ info.size then takePacket bytes info
          else return .needMoreData : RxM τ PacketReadState).run _)
      rw [if_pos hfull, if_pos hfull]
      exact hmirrors
    · rw [if_neg hfull] at hbody
      rw [hbody]
      refine ⟨hmissing.bind fun a rx' hok => ?_, .reads _ t ⟨?_, ?_, ?_, ?_⟩⟩
      · cases hrun.symm.trans hok
        show (if bytes.length ≥ info.size then Checked.takePacket bytes info
            else return .needMoreData : Checked.CheckedM τ PacketReadState).run _ =
          mapError .io ((if bytes.length ≥ info.size then takePacket bytes info
            else return .needMoreData : RxM τ PacketReadState).run _)
        rw [if_neg hfull, if_neg hfull]
        rfl
      · rintro ⟨⟩
      · rintro _ ⟨⟩
        exact h.offset info hinfo
      · rintro _ ⟨⟩
        exact h.size info hinfo
      · rintro _ ⟨⟩
        exact hlen

/-- A call that does not know the size of its packet yet. -/
theorem recvHeader_spec {rx : Rx τ} (h : Bounded rx.reader) (hnone : rx.reader.size = none) :
    Mirrors .io (Checked.recvHeader rx.reader) (recvHeader rx.reader) rx ∧
      Leaves rx ((recvHeader rx.reader).run rx) := by
  have hlen := h.unknown hnone
  have hsub : (Checked.check (Checked.sub maxHeaderSize rx.reader.bytes.length) :
      Checked.CheckedM τ Nat) = pure (maxHeaderSize - rx.reader.bytes.length) :=
    congrArg Checked.check (Checked.sub_of_le hlen)
  have hrecv := mirrors_recvN hfit (maxHeaderSize - rx.reader.bytes.length) rx
  rcases recvN_cases hfit (maxHeaderSize - rx.reader.bytes.length) rx with
    ⟨e, t, hrun⟩ | ⟨t, hrun⟩ | ⟨got, t, hgot, hrun⟩
  · refine ⟨.check hsub (hrecv.bind fun a rx' hok => ?_), ?_⟩
    · cases hrun.symm.trans hok
    · rw [recvHeader, EStateM.run_bind, hrun]
      exact .fails e t
  · refine ⟨.check hsub (hrecv.bind fun a rx' hok => ?_), ?_⟩
    · cases hrun.symm.trans hok
      rfl
    · rw [recvHeader, EStateM.run_bind, hrun]
      exact .closed t
  · have hfive : (rx.reader.bytes ++ got).length ≤ 5 := by
      rw [List.length_append]
      have hmax : maxHeaderSize = 5 := rfl
      omega
    obtain ⟨size, hparse, hbounded⟩ := parse_bounds hfive
    have hbody := run_recvHeader hrun
    simp only [hparse] at hbody
    rw [hbody]
    refine ⟨.check hsub (hrecv.bind fun a rx' hok => ?_), .reads _ t hbounded⟩
    cases hrun.symm.trans hok
    show (do
      match ← Checked.check (Checked.parsePacketSize (rx.reader.bytes ++ got)) with
      | .error e =>
        Checked.setReader ⟨[], none⟩
        throw (.io e)
      | .ok size =>
        Checked.setReader ⟨rx.reader.bytes ++ got, size⟩
        return .needMoreData : Checked.CheckedM τ PacketReadState).run _ =
      mapError .io ((match parsePacketSize (rx.reader.bytes ++ got) with
      | .error e => do
        setReader ⟨[], none⟩
        throw e
      | .ok size => do
        setReader ⟨rx.reader.bytes ++ got, size⟩
        return .needMoreData : RxM τ PacketReadState).run _)
    rw [Checked.parsePacketSize_eq hfive, hparse]
    rfl

theorem recv_spec {rx : Rx τ} (h : Bounded rx.reader) :
    Mirrors .io Checked.recv recv rx ∧ Leaves rx (recv.run rx) := by
  unfold Mirrors Checked.recv recv
  simp only [EStateM.run_bind, EStateM.run_get]
  cases hsize : rx.reader.size with
  | none => exact recvHeader_spec hfit h hsize
  | some info => exact recvBody_spec hfit h hsize

theorem Reached.bounded {rd : PacketReader} (h : Reached τ rd) : Bounded rd := by
  induction h with
  | new => exact .empty
  | recv before t ih => exact (recv_spec hfit ih).2.bounded ih

end Call

/-- The arithmetic of the reader is safe, over every transport and whatever it has read. The
reader has its bounds. In its next call no subtraction is below zero, no shift is over 21 bits,
every access is in range and no decoded packet is dropped: the call with these checks does what
the one without them does, and fails only where that one fails. Whatever the call leaves of the
buffer when a packet has left it, it is no more than three bytes. -/
theorem reader_arithmetic_safe {τ : Type} [Transport τ] (hfit : ReadsFit τ) {rd : PacketReader}
    (h : Reached τ rd) :
    Bounded rd ∧ ∀ t : τ,
      Mirrors .io Checked.recv recv (⟨rd, t⟩ : Rx τ) ∧
      (∀ fault rx', Checked.recv.run (⟨rd, t⟩ : Rx τ) = .error fault rx' →
        ∃ e, fault = .io e) ∧
      (∀ pkt rx', recv.run (⟨rd, t⟩ : Rx τ) = .ok (.incoming pkt) rx' →
        rx'.reader.bytes.length ≤ 3) ∧
      ∀ e rx', recv.run (⟨rd, t⟩ : Rx τ) = .error e rx' →
        rx'.reader = rd ∨ rx'.reader.bytes.length ≤ 3 := by
  have hbounded := h.bounded hfit
  refine ⟨hbounded, fun t => ?_⟩
  obtain ⟨hmirrors, hleaves⟩ := @recv_spec τ _ hfit ⟨rd, t⟩ hbounded
  refine ⟨hmirrors, fun fault rx' hrun => ?_, fun pkt rx' hrun => ?_, fun e rx' hrun => ?_⟩
  · obtain ⟨e, rfl, -⟩ := hmirrors.error hrun
    exact ⟨e, rfl⟩
  · rw [hrun] at hleaves
    cases hleaves with
    | takes pkt rd' t' bounded left => exact left
  · rw [hrun] at hleaves
    cases hleaves with
    | fails e t' => exact Or.inl rfl
    | rejects e rd' t' bounded left => exact Or.inr left

/-- A socket with a `PINGRESP` and the first bytes of another packet. -/
def overReadSocket : TcpTransport := ⟨⟨[.data 0xd0 [0x00, 0x30, 0x80, 0x01]], false, []⟩⟩

/-- The reader that has asked this socket for the five bytes of a header. -/
def overReader : PacketReader := ⟨[0xd0, 0x00, 0x30, 0x80, 0x01], some ⟨2, 2⟩⟩

theorem run_overReader (t : TcpTransport) : recv.run (⟨overReader, t⟩ : Rx TcpTransport) =
    .ok (.incoming .pingResp) ⟨⟨[0x30, 0x80, 0x01], some ⟨131, 3⟩⟩, t⟩ := by
  have hframe : decodeFrame 0xd0 [] = .ok .pingResp := by decide +kernel
  have hsize : parsePacketSize [0x30, 0x80, 0x01] = .ok (some ⟨131, 3⟩) := by decide +kernel
  have hdrop : (dropPacket overReader.bytes ⟨2, 2⟩).run (⟨overReader, t⟩ : Rx TcpTransport) =
      .ok () ⟨⟨[0x30, 0x80, 0x01], some ⟨131, 3⟩⟩, t⟩ := by
    rw [dropPacket, if_pos (by decide)]
    simp only [overReader, List.drop_succ_cons, List.drop_zero, hsize]
    rfl
  have hmissing : (recvMissing overReader ⟨2, 2⟩).run (⟨overReader, t⟩ : Rx TcpTransport) =
      .ok false ⟨overReader, t⟩ := rfl
  have hbody : recv.run (⟨overReader, t⟩ : Rx TcpTransport) =
      (recvBody overReader ⟨2, 2⟩).run ⟨overReader, t⟩ := rfl
  rw [hbody, @run_recvBody _ _ ⟨overReader, t⟩ _ _ hmissing,
    if_pos (show overReader.bytes.length ≥ 2 by decide), takePacket, EStateM.run_bind, hdrop]
  simp only [overReader, List.headD_cons, List.take_succ_cons, List.take_zero,
    List.drop_succ_cons, List.drop_zero, hframe]
  rfl

/-- The five bytes hold a packet of two. The next call returns it and carries the other three
over. -/
theorem reader_arithmetic_safe_over_read :
    Reached TcpTransport overReader ∧ Bounded overReader ∧ ∀ t : TcpTransport,
      ∃ rx', recv.run (⟨overReader, t⟩ : Rx TcpTransport) = .ok (.incoming .pingResp) rx' ∧
        rx'.reader.bytes = [0x30, 0x80, 0x01] ∧ rx'.reader.bytes.length ≤ 3 := by
  have hreached : Reached TcpTransport overReader := by
    have hrecv := Reached.recv (.new : Reached TcpTransport .new) overReadSocket
    have hafter : (after recv (⟨.new, overReadSocket⟩ : Rx TcpTransport)).reader = overReader := by
      decide +kernel
    rw [hafter] at hrecv
    exact hrecv
  obtain ⟨hbounded, hcall⟩ := reader_arithmetic_safe readsFit_tcp hreached
  refine ⟨hreached, hbounded, fun t => ⟨_, run_overReader t, rfl, ?_⟩⟩
  obtain ⟨-, -, hleft, -⟩ := hcall t
  exact hleft _ _ (run_overReader t)

end Lmc.PacketReader
