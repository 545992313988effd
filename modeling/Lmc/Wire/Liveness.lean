import Lmc.Wire.Reassembly

/-!
# The packet reader makes progress

`recv_cases` says what one call of `recv` does, on any stream of bytes: it fails, finds
the connection closed, reads some bytes, takes a packet out of the buffer, or does
nothing at all. The last happens only to an `overlong` reader, whose buffer holds a fixed
header with four continuation bytes: it wants no further header byte and has no size. Any
other reader makes progress, and what is left of a finite input gets less
(`Sized.recv_lt`).
-/

namespace Lmc.PacketReader

open EStateLogic

/-! ## Sizes -/

/-- The byte of a length field says that another one follows. -/
def continues (b : UInt8) : Bool := b &&& 0x80 != 0

/-- The fixed header is complete and its length field does not end. -/
def overlong (rd : PacketReader) : Bool :=
  rd.size.isNone && rd.bytes.length == maxHeaderSize && (rd.bytes.drop 1).all continues

theorem all_continues_of_parse :
    ∀ xs pos ret shift, parseSizeLoop xs pos ret shift = none → xs.all continues = true := by
  intro xs
  induction xs with
  | nil => exact fun _ _ _ _ => rfl
  | cons b rest ih =>
    intro pos ret shift h
    rw [parseSizeLoop] at h
    split at h
    · cases h
    · rename_i hb
      have hc : continues b = true := by simpa [continues] using hb
      rw [List.all_cons, hc, ih _ _ _ h]
      rfl

theorem parse_of_all_continues :
    ∀ xs pos ret shift, xs.all continues = true → parseSizeLoop xs pos ret shift = none := by
  intro xs
  induction xs with
  | nil => exact fun _ _ _ _ => rfl
  | cons b rest ih =>
    intro pos ret shift h
    rw [List.all_cons, Bool.and_eq_true] at h
    have hb : b &&& 0x80 ≠ 0 := by simpa [continues] using h.1
    rw [parseSizeLoop, if_neg hb]
    exact ih _ _ _ h.2

theorem lt_size_of_parse {info : PacketSizeInfo} :
    ∀ xs pos ret shift, parseSizeLoop xs pos ret shift = some info → pos < info.size := by
  intro xs
  induction xs with
  | nil => exact fun _ _ _ h => nomatch h
  | cons b rest ih =>
    intro pos ret shift h
    rw [parseSizeLoop] at h
    split at h
    · cases h
      show pos < _ + (pos + 1)
      omega
    · have := ih _ _ _ h
      omega

/-- What the reader knows fits its buffer: without a size every byte of the length field
so far asks for another one; with a size, no byte behind the packet is in the buffer
except those that came with the header. -/
structure Sized (rd : PacketReader) : Prop where
  unknown : rd.size = none →
    rd.bytes.length ≤ maxHeaderSize ∧ (rd.bytes.drop 1).all continues = true
  known : ∀ info, rd.size = some info →
    2 ≤ info.size ∧ rd.bytes.length ≤ max maxHeaderSize info.size

theorem Sized.empty : Sized ⟨[], none⟩ where
  unknown _ := ⟨Nat.zero_le _, rfl⟩
  known _ h := nomatch h

theorem Sized.of_parse {bytes : List UInt8} {size : Option PacketSizeInfo}
    (h : parsePacketSize bytes = .ok size) (hlen : bytes.length ≤ maxHeaderSize) :
    Sized ⟨bytes, size⟩ := by
  unfold parsePacketSize at h
  cases hp : parseSizeLoop (bytes.drop 1) 1 0 0 with
  | none =>
    rw [hp] at h
    cases h
    exact ⟨fun _ => ⟨hlen, all_continues_of_parse _ _ _ _ hp⟩, fun _ h => nomatch h⟩
  | some info =>
    simp only [hp] at h
    split at h
    · cases h
    · cases h
      refine ⟨fun h => (nomatch h), fun info' hinfo => ?_⟩
      cases hinfo
      exact ⟨lt_size_of_parse _ _ _ _ hp, le_trans hlen (le_max_left _ _)⟩

/-! ## One call -/

variable {τ : Type} [Transport τ]

/-- A read never returns more bytes than there is room for. -/
def ReadsFit (τ : Type) [Transport τ] : Prop :=
  ∀ (t : τ) n got t', Transport.read t n = (.ok got, t') → got.length ≤ n

/-- Bytes `got` have been read, with the transport behind it; none if nothing was asked
for. -/
inductive Supplied (t : τ) : List UInt8 → τ → Prop
  | nothing : Supplied t [] t
  | read (n : Nat) (b : UInt8) (more : List UInt8) (t' : τ) (asked : 0 < n)
      (got : Transport.read t n = (.ok (b :: more), t')) : Supplied t (b :: more) t'

/-- What a call of `recv` does. -/
inductive RecvCase (rx : Rx τ) : EStateM.Result IoError (Rx τ) PacketReadState → Prop
  /-- The transport fails. -/
  | fails (n : Nat) (e : IoError) (t : τ) (asked : 0 < n)
      (read : Transport.read rx.transport n = (.error e, t)) :
      RecvCase rx (.error e ⟨rx.reader, t⟩)
  /-- The bytes are no packet. -/
  | rejects (e : PacketDecodeError) (rx' : Rx τ) (sized : Sized rx'.reader) :
      RecvCase rx (.error (.decode e) rx')
  | closed (n : Nat) (t : τ) (asked : 0 < n)
      (read : Transport.read rx.transport n = (.ok [], t)) :
      RecvCase rx (.ok .connectionClosed ⟨rx.reader, t⟩)
  | reads (n : Nat) (b : UInt8) (more : List UInt8) (t : τ) (size : Option PacketSizeInfo)
      (asked : 0 < n) (read : Transport.read rx.transport n = (.ok (b :: more), t))
      (sized : Sized ⟨rx.reader.bytes ++ b :: more, size⟩) :
      RecvCase rx (.ok .needMoreData ⟨⟨rx.reader.bytes ++ b :: more, size⟩, t⟩)
  /-- A packet of two bytes or more leaves the buffer. -/
  | takes (pkt : IncomingPacket) (got : List UInt8) (rd : PacketReader) (t : τ)
      (supplied : Supplied rx.transport got t)
      (taken : rd.bytes.length + 2 ≤ rx.reader.bytes.length + got.length)
      (sized : Sized rd) :
      RecvCase rx (.ok (.incoming pkt) ⟨rd, t⟩)
  | stuck (overlong : rx.reader.overlong = true) : RecvCase rx (.ok .needMoreData rx)

theorem parsePacketSize_error {bytes : List UInt8} {e : IoError}
    (h : parsePacketSize bytes = .error e) : e = .decode .reachedMaxSize := by
  unfold parsePacketSize at h
  split at h
  · cases h
  · split at h
    · exact (Except.error.inj h).symm
    · cases h

theorem recvCase_takePacket {rx : Rx τ} {bytes got : List UInt8} {info : PacketSizeInfo}
    {size : Option PacketSizeInfo} {t : τ} (supplied : Supplied rx.transport got t)
    (hbytes : bytes = rx.reader.bytes ++ got) (hinfo : 2 ≤ info.size)
    (hlen : info.size ≤ bytes.length) (hmax : bytes.length ≤ max maxHeaderSize info.size) :
    RecvCase rx ((takePacket bytes info).run ⟨⟨bytes, size⟩, t⟩) := by
  have hcount : bytes.length = rx.reader.bytes.length + got.length := by
    rw [hbytes, List.length_append]
  -- What stays in the buffer came with the header.
  have hdecode : ∀ rd : PacketReader, Sized rd → rd.bytes.length + info.size ≤ bytes.length →
      (dropPacket bytes info).run (⟨⟨bytes, size⟩, t⟩ : Rx τ) = .ok () ⟨rd, t⟩ →
      RecvCase rx ((takePacket bytes info).run ⟨⟨bytes, size⟩, t⟩) := by
    intro rd hrd hrest hdrop
    unfold takePacket
    rw [EStateM.run_bind, hdrop]
    dsimp only
    cases decodeFrame (bytes.headD 0) ((bytes.take info.size).drop info.startOffset) with
    | ok pkt => exact .takes pkt got rd t supplied (by omega) hrd
    | error e => exact .rejects e ⟨rd, t⟩ hrd
  by_cases hmore : bytes.length > info.size
  · have hleft : (bytes.drop info.size).length + info.size ≤ bytes.length := by
      rw [List.length_drop]
      omega
    cases hp : parsePacketSize (bytes.drop info.size) with
    | ok size' =>
      refine hdecode ⟨bytes.drop info.size, size'⟩ (.of_parse hp (by omega)) hleft ?_
      simp only [dropPacket, hmore, if_true, hp]
      rfl
    | error e =>
      have herr := parsePacketSize_error hp
      subst herr
      have hrun : (takePacket bytes info).run (⟨⟨bytes, size⟩, t⟩ : Rx τ) =
          .error (.decode .reachedMaxSize) ⟨⟨[], some info⟩, t⟩ := by
        simp only [takePacket, dropPacket, hmore, if_true, hp]
        rfl
      rw [hrun]
      refine .rejects _ _ ⟨fun h => (nomatch h), fun info' h => ?_⟩
      cases h
      exact ⟨hinfo, Nat.zero_le _⟩
  · refine hdecode ⟨[], none⟩ .empty (by simpa using hlen) ?_
    simp only [dropPacket, hmore, if_false]
    rfl

theorem run_recvBody {rx rx' : Rx τ} {info : PacketSizeInfo}
    (h : (recvMissing rx.reader info).run rx = .ok false rx') :
    (recvBody rx.reader info).run rx =
      if rx'.reader.bytes.length ≥ info.size then (takePacket rx'.reader.bytes info).run rx'
      else .ok .needMoreData rx' := by
  unfold recvBody
  rw [EStateM.run_bind, h]
  dsimp only
  rw [if_neg Bool.false_ne_true, EStateM.run_bind, EStateM.run_get]
  dsimp only
  split <;> rfl

/-- A call that knows the size of its packet. -/
theorem recvCase_body (hfit : ReadsFit τ) {rx : Rx τ} (h : Sized rx.reader)
    {info : PacketSizeInfo} (hsize : rx.reader.size = some info) :
    RecvCase rx ((recvBody rx.reader info).run rx) := by
  obtain ⟨hinfo, hmax⟩ := h.known info hsize
  by_cases hlt : rx.reader.bytes.length < info.size
  · have hn : 0 < info.size - rx.reader.bytes.length := by omega
    have hmissing : (recvMissing rx.reader info : RxM τ Bool) =
        recvN (info.size - rx.reader.bytes.length) := if_pos hlt
    rcases hread : Transport.read rx.transport (info.size - rx.reader.bytes.length) with ⟨r, t⟩
    match r with
    | .error e =>
      rw [recvBody, EStateM.run_bind, hmissing, run_recvN_error hn hread]
      exact .fails _ e t hn hread
    | .ok [] =>
      rw [recvBody, EStateM.run_bind, hmissing, run_recvN_closed hn hread]
      exact .closed _ t hn hread
    | .ok (b :: more) =>
      have hlen : (rx.reader.bytes ++ b :: more).length ≤ max maxHeaderSize info.size := by
        have hroom := hfit _ _ _ _ hread
        rw [List.length_append]
        omega
      rw [run_recvBody (hmissing ▸ run_recvN_ok hn hread (List.cons_ne_nil _ _))]
      split
      · rename_i hfull
        exact recvCase_takePacket (.read _ b more t hn hread) rfl hinfo hfull hlen
      · refine .reads _ b more t _ hn hread ⟨fun hnone => ?_, fun info' h' => ?_⟩
        · cases hsize.symm.trans hnone
        · cases hsize.symm.trans h'
          exact ⟨hinfo, hlen⟩
  · have hmissing : (recvMissing rx.reader info).run rx = .ok false rx := by
      rw [recvMissing, if_neg hlt]
      rfl
    rw [run_recvBody hmissing, if_pos (Nat.le_of_not_lt hlt)]
    exact recvCase_takePacket .nothing (List.append_nil _).symm hinfo (Nat.le_of_not_lt hlt) hmax

theorem run_recvHeader {rx rx' : Rx τ}
    (h : (recvN (maxHeaderSize - rx.reader.bytes.length)).run rx = .ok false rx') :
    (recvHeader rx.reader).run rx =
      match parsePacketSize rx'.reader.bytes with
      | .error e => .error e ⟨⟨[], none⟩, rx'.transport⟩
      | .ok size => .ok .needMoreData ⟨⟨rx'.reader.bytes, size⟩, rx'.transport⟩ := by
  unfold recvHeader
  rw [EStateM.run_bind, h]
  dsimp only
  rw [if_neg Bool.false_ne_true, EStateM.run_bind, EStateM.run_get]
  dsimp only
  cases parsePacketSize rx'.reader.bytes <;> rfl

/-- An overlong reader asks for no byte and finds no size. -/
theorem run_recvHeader_overlong {rx : Rx τ} (h : rx.reader.overlong = true) :
    (recvHeader rx.reader).run rx = .ok .needMoreData rx := by
  simp only [overlong, Bool.and_eq_true, beq_iff_eq, Option.isNone_iff_eq_none] at h
  obtain ⟨⟨hsize, hlen⟩, hall⟩ := h
  have hn : (recvN (maxHeaderSize - rx.reader.bytes.length)).run rx = .ok false rx := by
    rw [hlen, Nat.sub_self]
    rfl
  have hp : parsePacketSize rx.reader.bytes = .ok none := by
    rw [parsePacketSize, parse_of_all_continues _ _ _ _ hall]
  rw [run_recvHeader hn, hp]
  dsimp only
  rw [← hsize]

/-- A call that does not know the size of its packet yet. -/
theorem recvCase_header (hfit : ReadsFit τ) {rx : Rx τ} (h : Sized rx.reader)
    (hsize : rx.reader.size = none) : RecvCase rx ((recvHeader rx.reader).run rx) := by
  obtain ⟨hle, hall⟩ := h.unknown hsize
  by_cases hlt : rx.reader.bytes.length < maxHeaderSize
  · have hn : 0 < maxHeaderSize - rx.reader.bytes.length := by omega
    rcases hread : Transport.read rx.transport (maxHeaderSize - rx.reader.bytes.length)
      with ⟨r, t⟩
    match r with
    | .error e =>
      rw [recvHeader, EStateM.run_bind, run_recvN_error hn hread]
      exact .fails _ e t hn hread
    | .ok [] =>
      rw [recvHeader, EStateM.run_bind, run_recvN_closed hn hread]
      exact .closed _ t hn hread
    | .ok (b :: more) =>
      have hlen : (rx.reader.bytes ++ b :: more).length ≤ maxHeaderSize := by
        have hroom := hfit _ _ _ _ hread
        rw [List.length_append]
        omega
      rw [run_recvHeader (run_recvN_ok hn hread (List.cons_ne_nil _ _))]
      dsimp only
      cases hp : parsePacketSize (rx.reader.bytes ++ b :: more) with
      | error e =>
        cases parsePacketSize_error hp
        exact .rejects _ _ .empty
      | ok size =>
        exact .reads _ b more t size hn hread (.of_parse hp hlen)
  · -- Five bytes are there, and none of the four behind the first ends the field.
    have heq : rx.reader.bytes.length = maxHeaderSize := by omega
    have hover : rx.reader.overlong = true := by
      rw [overlong, hsize, heq, hall]
      rfl
    rw [run_recvHeader_overlong hover]
    exact .stuck hover

theorem recv_cases (hfit : ReadsFit τ) {rx : Rx τ} (h : Sized rx.reader) :
    RecvCase rx (recv.run rx) := by
  unfold recv
  rw [EStateM.run_bind, EStateM.run_get]
  dsimp only
  cases hsize : rx.reader.size with
  | none => exact recvCase_header hfit h hsize
  | some info => exact recvCase_body hfit h hsize

theorem run_recv_overlong {rx : Rx τ} (h : rx.reader.overlong = true) :
    recv.run rx = .ok .needMoreData rx := by
  have hsize : rx.reader.size = none := by
    simp only [overlong, Bool.and_eq_true, Option.isNone_iff_eq_none] at h
    exact h.1.1
  unfold recv
  rw [EStateM.run_bind, EStateM.run_get]
  dsimp only
  rw [hsize]
  exact run_recvHeader_overlong h

/-! ## Progress -/

theorem RecvCase.sized {rx : Rx τ} {x : RxM τ PacketReadState} (h : RecvCase rx (x.run rx))
    (hrx : Sized rx.reader) : Sized (after x rx).reader := by
  generalize hrun : x.run rx = r at h
  cases h with
  | fails n e t asked read => rw [after_of_error hrun]; exact hrx
  | rejects e rx' sized => rw [after_of_error hrun]; exact sized
  | closed n t asked read => rw [after_of_ok hrun]; exact hrx
  | reads n b more t size asked read sized => rw [after_of_ok hrun]; exact sized
  | takes pkt got rd t supplied taken sized => rw [after_of_ok hrun]; exact sized
  | stuck overlong => rw [after_of_ok hrun]; exact hrx

/-- The readers that calls of `recv` lead to, on whatever the transport holds each
time. -/
inductive Reached (τ : Type) [Transport τ] : PacketReader → Prop
  | new : Reached τ .new
  | recv {rd : PacketReader} (before : Reached τ rd) (t : τ) :
      Reached τ (after PacketReader.recv (⟨rd, t⟩ : Rx τ)).reader

theorem Reached.sized (hfit : ReadsFit τ) {rd : PacketReader} (h : Reached τ rd) : Sized rd := by
  induction h with
  | new => exact .empty
  | recv before t ih => exact (recv_cases hfit ih).sized ih

/-- A call returns a packet, a failure or the end of the connection, takes bytes from the
transport or finds the size of the packet. -/
def Progress (rx : Rx τ) : Prop :=
  match recv.run rx with
  | .ok .needMoreData rx' =>
    (∃ n got, Transport.read rx.transport n = (.ok got, rx'.transport) ∧ got ≠ [] ∧
      rx'.reader.bytes = rx.reader.bytes ++ got) ∨
      rx.reader.size = none ∧ rx'.reader.size.isSome
  | _ => True

theorem Sized.progress (hfit : ReadsFit τ) {rx : Rx τ} (h : Sized rx.reader)
    (ho : rx.reader.overlong = false) : Progress rx := by
  have hcase := recv_cases hfit h
  unfold Progress
  generalize recv.run rx = r at hcase
  cases hcase with
  | reads n b more t size asked read sized =>
    exact Or.inl ⟨n, b :: more, read, List.cons_ne_nil _ _, rfl⟩
  | stuck overlong => rw [overlong] at ho; cases ho
  | _ => trivial

/-- The transport has `left` bytes of input left: a read takes its bytes from them. -/
def Drains (left : τ → Nat) : Prop :=
  ∀ t n got t', Transport.read t n = (.ok got, t') → left t' + got.length ≤ left t

/-- What the calls of `recv` use up. A byte counts twice while it is in the transport. -/
def inputLeft (left : τ → Nat) (rx : Rx τ) : Nat :=
  2 * left rx.transport + rx.reader.bytes.length

/-- Every call after which the read loop goes on uses up some of the input. -/
theorem Sized.recv_lt (hfit : ReadsFit τ) {left : τ → Nat} (hleft : Drains left) {rx rx' : Rx τ}
    (h : Sized rx.reader) (ho : rx.reader.overlong = false) {state : PacketReadState}
    (hrun : recv.run rx = .ok state rx') (hopen : state ≠ .connectionClosed) :
    inputLeft left rx' < inputLeft left rx := by
  have hcase := recv_cases hfit h
  rw [hrun] at hcase
  unfold inputLeft
  cases hcase with
  | closed n t asked read => exact absurd rfl hopen
  | reads n b more t size asked read sized =>
    have hless := hleft _ _ _ _ read
    rw [List.length_cons] at hless
    simp only [List.length_append, List.length_cons]
    omega
  | takes pkt got rd t supplied taken sized =>
    have hless : left t + got.length ≤ left rx.transport := by
      cases supplied with
      | nothing => exact le_refl _
      | read n b more _ asked read => exact hleft _ _ _ _ read
    simp only
    omega
  | stuck overlong => rw [overlong] at ho; cases ho

/-! ## The socket -/

/-- A read of the socket returns the next bytes of its script. -/
theorem tryRead_ok {tcp tcp' : TcpStream} {n : Nat} {got : List UInt8}
    (h : tcp.tryRead n = (.ok got, tcp')) :
    got.length ≤ n ∧ scriptBytes tcp.reads = got ++ scriptBytes tcp'.reads := by
  obtain ⟨reads, closed, writes⟩ := tcp
  unfold TcpStream.tryRead at h
  match reads with
  | [] =>
    cases closed <;> cases h
    exact ⟨Nat.zero_le n, rfl⟩
  | .wouldBlock :: rest => cases h
  | .error e :: rest => cases h
  | .data first more :: rest =>
    dsimp only at h
    cases hd : (first :: more).drop n with
    | nil =>
      rw [hd] at h
      cases h
      exact ⟨List.drop_eq_nil_iff.mp hd, rfl⟩
    | cons b left =>
      rw [hd] at h
      cases h
      refine ⟨List.length_take_le n _, ?_⟩
      show first :: more ++ scriptBytes rest =
        (first :: more).take n ++ (b :: left ++ scriptBytes rest)
      rw [← List.append_assoc, ← hd, List.take_append_drop]

theorem tryRead_of_read {t t' : TcpTransport} {n : Nat} {r : Except IoError (List UInt8)}
    (h : Transport.read t n = (r, t')) : t.tcp.tryRead n = (r, t'.tcp) := by
  have hresult : (t.tcp.tryRead n).1 = r := congrArg Prod.fst h
  have hsocket : (t.tcp.tryRead n).2 = t'.tcp :=
    congrArg (fun p : Except IoError (List UInt8) × TcpTransport => p.2.tcp) h
  rw [← hresult, ← hsocket]

theorem readsFit_tcp : ReadsFit TcpTransport :=
  fun _ _ _ _ h => (tryRead_ok (tryRead_of_read h)).1

/-- The bytes that the socket has not delivered yet. -/
def undelivered (t : TcpTransport) : Nat := (scriptBytes t.tcp.reads).length

theorem drains_tcp : Drains undelivered := by
  intro t n got t' h
  unfold undelivered
  rw [(tryRead_ok (tryRead_of_read h)).2, List.length_append]
  omega

end Lmc.PacketReader
