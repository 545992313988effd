import Lmc.Wire.Asked

/-!
# The decoder over slices and buffers

The decoders of `Lmc.Wire.Packets` return values. The source indexes slices, writes the results
of a `SUBACK` into an array of sixteen places, and stores a message in one buffer: a header
whose layout the compiler chooses, the topic and the payload. Here each of these accesses is
checked, the unsafe ones too, and a failed check is a `SliceFault`. The decoders of this file are
those of `Lmc.Wire.Packets` with the value stored that way (`fromBytes_eq`), so no check ever
fails, and what `info()`, `topic()`, `payload()` and `sub_results()` read is what was decoded.
-/

namespace Lmc

/-- Why a decoder or an accessor stops. -/
inductive SliceFault where
  | decode (e : PacketDecodeError)
  /-- An index out of range: a panic, or an access outside of the buffer. -/
  | outOfRange
  /-- Bytes that were never written, or no UTF-8, in the place of valid ones. -/
  | invalid
deriving DecidableEq, Repr

namespace SliceFault

/-- `&data[start..stop]`. -/
def slice {α : Type} (data : List α) (start stop : Nat) : Except SliceFault (List α) :=
  if start ≤ stop ∧ stop ≤ data.length then .ok ((data.take stop).drop start)
  else .error .outOfRange

variable {α : Type}

theorem slice_front (front rest : List α) :
    slice (front ++ rest) 0 front.length = .ok front := by
  rw [slice, if_pos ⟨Nat.zero_le _, by simp⟩, List.take_left, List.drop_zero]

theorem slice_back (front rest : List α) :
    slice (front ++ rest) front.length (front ++ rest).length = .ok rest := by
  rw [slice, if_pos ⟨by simp, Nat.le_refl _⟩, List.take_length, List.drop_left]

theorem slice_middle (front mid rest : List α) :
    slice (front ++ (mid ++ rest)) front.length (front.length + mid.length) = .ok mid := by
  rw [slice, if_pos ⟨Nat.le_add_right _ _, by simp⟩, List.take_length_add_append, List.drop_left,
    List.take_left]

end SliceFault

open SliceFault (slice)

/-- A computation on a `ByteReader` in which every access is checked. -/
abbrev SliceM := EStateM SliceFault (List UInt8)

namespace SliceM

variable {α β : Type}

/-- A check inside of a decoder. -/
def check : Except SliceFault α → SliceM α
  | .ok a => return a
  | .error fault => throw fault

/-- A decoder whose only faults are decode errors. -/
def lift (rd : ReadM α) : SliceM α := fun bytes =>
  match rd bytes with
  | .ok a rest => .ok a rest
  | .error e rest => .error (.decode e) rest

theorem run_lift (rd : ReadM α) (bytes : List UInt8) : (lift rd).run bytes =
    match rd.run bytes with
    | .ok a rest => .ok a rest
    | .error e rest => .error (.decode e) rest := rfl

@[simp] theorem lift_pure (a : α) : lift (pure a) = pure a := rfl

@[simp] theorem lift_throw (e : PacketDecodeError) : lift (throw e : ReadM α) = throw (.decode e) :=
  rfl

@[simp] theorem lift_bind (rd : ReadM α) (f : α → ReadM β) :
    lift (rd >>= f) = lift rd >>= fun a => lift (f a) := by
  funext bytes
  change (lift (rd >>= f)).run bytes = (lift rd >>= fun a => lift (f a)).run bytes
  rw [run_lift, EStateM.run_bind, EStateM.run_bind, run_lift]
  cases rd.run bytes with
  | ok a rest => exact (run_lift (f a) rest).symm
  | error e rest => rfl

theorem lift_map (f : α → β) (rd : ReadM α) : lift (f <$> rd) = f <$> lift rd := by
  rw [map_eq_pure_bind, lift_bind, map_eq_pure_bind]
  rfl

theorem map_lift_apply (f : α → β) (rd : ReadM α) (bytes : List UInt8) :
    (f <$> lift rd) bytes = match rd bytes with
      | .ok a rest => .ok (f a) rest
      | .error e rest => .error (.decode e) rest := by
  show EStateM.map f (lift rd) bytes = _
  rw [EStateM.map, lift]
  cases rd bytes <;> rfl

end SliceM

open SliceM

/-! ## `ByteReader` -/

namespace SliceReader

def readTrivial (size : Nat) : SliceM (List UInt8) := do
  let bytes ← get
  if bytes.length < size then
    throw (.decode .reachedEndUnexpectedly)
  else
    -- `ptr::read_unaligned` reads as many bytes as the type has
    let ret ← check (slice bytes 0 size)
    set (← check (slice bytes size bytes.length))
    return ret

def readU16 : SliceM UInt16 := do
  match ← readTrivial 2 with
  | [hi, lo] => return u16OfBe hi lo
  | _ => throw .outOfRange

def readByteArray : SliceM (List UInt8) := do
  let len := (← readU16).toNat
  let bytes ← get
  if bytes.length < len then
    throw (.decode .reachedEndUnexpectedly)
  else
    let ret ← check (slice bytes 0 len)
    set (← check (slice bytes len bytes.length))
    return ret

def readUtf8 : SliceM Str := do
  match fromUtf8 (← readByteArray) with
  | some s => return s
  | none => throw (.decode .utf8Error)

def remaining : SliceM Nat := do
  return (← get).length

def readRemaining : SliceM (List UInt8) := do
  let bytes ← get
  set ([] : List UInt8)
  return bytes

/-- Both halves of a slice that is long enough. -/
theorem run_split {bytes : List UInt8} {len : Nat} (h : ¬ bytes.length < len) :
    EStateM.run (do
      let ret ← check (slice bytes 0 len)
      set (← check (slice bytes len bytes.length))
      return ret : SliceM (List UInt8)) bytes = .ok (bytes.take len) (bytes.drop len) := by
  have hlen : (bytes.take len).length = len := by
    rw [List.length_take]
    omega
  have hfront := SliceFault.slice_front (bytes.take len) (bytes.drop len)
  have hback := SliceFault.slice_back (bytes.take len) (bytes.drop len)
  rw [List.take_append_drop, hlen] at hfront hback
  rw [hfront, hback]
  rfl

theorem readTrivial_eq (size : Nat) : readTrivial size = lift (ByteReader.readTrivial size) := by
  funext bytes
  change (readTrivial size).run bytes = (lift (ByteReader.readTrivial size)).run bytes
  rw [run_lift]
  by_cases h : bytes.length < size
  · simp only [readTrivial, ByteReader.readTrivial, EStateM.run_bind, EStateM.run_get, if_pos h]
    rfl
  · simp only [readTrivial, ByteReader.readTrivial, EStateM.run_bind, EStateM.run_get, if_neg h]
    exact run_split h

theorem readU16_eq : readU16 = lift ByteReader.readU16 := by
  funext bytes
  change readU16.run bytes = (lift ByteReader.readU16).run bytes
  rw [readU16, readTrivial_eq]
  match bytes with
  | [] => rfl
  | [_] => rfl
  | _ :: _ :: _ => rfl

theorem readByteArray_eq : readByteArray = lift ByteReader.readByteArray := by
  show (readU16 >>= fun len => readTrivial len.toNat) =
    lift (ByteReader.readU16 >>= fun len => ByteReader.readTrivial len.toNat)
  rw [lift_bind, readU16_eq]
  simp only [readTrivial_eq]

theorem readUtf8_eq : readUtf8 = lift ByteReader.readUtf8 := by
  rw [readUtf8, ByteReader.readUtf8, readByteArray_eq, lift_bind]
  congr 1
  funext data
  cases fromUtf8 data <;> rfl

theorem readRemaining_eq : readRemaining = lift ByteReader.readRemaining := rfl

end SliceReader

/-! ## CONNACK and the packets with an identifier only -/

/-- `read_trivial::<ConnAckHeader>` and the match on its return code. -/
def ConnAckPacket.decodeSlice : SliceM ConnAckPacket := do
  match ← SliceReader.readTrivial 2 with
  | [ackFlags, returnCode] =>
    return ⟨if returnCode = 0 then .ok ((ackFlags &&& 1) != 0)
      else if returnCode = 1 then .error .unacceptableProtocolVersion
      else if returnCode = 2 then .error .identifierRejected
      else if returnCode = 3 then .error .serverUnavailable
      else if returnCode = 4 then .error .badUserNameOrPassword
      else if returnCode = 5 then .error .notAuthorized
      else .error (.unknown returnCode)⟩
  | _ => throw .outOfRange

theorem ConnAckPacket.decodeSlice_eq : decodeSlice = lift decode := by
  funext bytes
  change decodeSlice.run bytes = (lift decode).run bytes
  rw [decodeSlice, SliceReader.readTrivial_eq]
  match bytes with
  | [] => rfl
  | [_] => rfl
  | _ :: _ :: _ => rfl

def SimplePacket.decodeSlice {ty : PacketType} {flags : UInt8} :
    SliceM (SimplePacket ty flags) := do
  return ⟨← SliceReader.readU16⟩

theorem SimplePacket.decodeSlice_eq {ty : PacketType} {flags : UInt8} :
    (decodeSlice : SliceM (SimplePacket ty flags)) = lift decode := by
  rw [decodeSlice, SliceReader.readU16_eq, decode, lift_bind]
  rfl

/-! ## SUBACK -/

namespace SubAckPacket

/-- The results read by `sub_results()`: a slice of the array, or the whole vector. -/
def subResultsSlice (p : SubAckPacket) : Except SliceFault (List SubscriptionResult) :=
  match p.results with
  | .static len values => slice values 0 len
  | .dynamic values => .ok values

/-- One round of either loop. -/
def parseSlice (r : UInt8) : SliceM SubscriptionResult :=
  match parseSubResult r with
  | .error e => throw (.decode e)
  | .ok v => return v

/-- The loop over the array: `values[i] = parse_sub_result(r)?`. -/
def parseStatic (i : Nat) (values : List SubscriptionResult) :
    List UInt8 → SliceM (List SubscriptionResult)
  | [] => return values
  | r :: rest => do
    let v ← parseSlice r
    if i < values.length then parseStatic (i + 1) (values.set i v) rest
    else throw .outOfRange

/-- The loop over the vector: `values.push(parse_sub_result(r)?)`. -/
def parseDynamic (values : List SubscriptionResult) :
    List UInt8 → SliceM (List SubscriptionResult)
  | [] => return values
  | r :: rest => do
    let v ← parseSlice r
    parseDynamic (values ++ [v]) rest

/-- The array if the results fit, the vector if not. -/
def parseList (numResults : Nat) : SliceM SubscriptionResultList := do
  if numResults ≤ maxStaticSubs then
    let values ← parseStatic 0 (List.replicate maxStaticSubs (.error ()))
      (← SliceReader.readRemaining)
    return .static numResults values
  else
    let values ← parseDynamic [] (← SliceReader.readRemaining)
    return .dynamic values

def decodeSlice : SliceM SubAckPacket := do
  let packetId ← SliceReader.readU16
  let numResults ← SliceReader.remaining
  return ⟨packetId, ← parseList numResults⟩

/-- Both loops stop at the first malformed byte. -/
theorem lift_parseResults_cons (r : UInt8) (rest : List UInt8) :
    lift (parseResults (r :: rest)) = do
      let v ← parseSlice r
      return v :: (← lift (parseResults rest)) := by
  rw [parseResults, parseSlice]
  cases parseSubResult r with
  | error e => rfl
  | ok v =>
    simp only [lift_bind, lift_pure, pure_bind]

theorem parseDynamic_eq (values : List SubscriptionResult) (bytes : List UInt8) :
    parseDynamic values bytes = (values ++ ·) <$> lift (parseResults bytes) := by
  induction bytes generalizing values with
  | nil =>
    rw [parseDynamic, parseResults, lift_pure, map_pure, List.append_nil]
  | cons r rest ih =>
    rw [parseDynamic, lift_parseResults_cons, map_bind]
    congr 1
    funext v
    rw [ih, map_bind]
    simp only [map_eq_pure_bind, pure_bind, List.append_assoc, List.singleton_append]

/-- The array: the results that are parsed already, and the places that are still unused. -/
theorem parseStatic_eq (done : List SubscriptionResult) (free : Nat) {bytes : List UInt8}
    (hfits : bytes.length ≤ free) :
    parseStatic done.length (done ++ List.replicate free (.error ())) bytes =
      (fun values => done ++ (values ++ List.replicate (free - bytes.length) (.error ()))) <$>
        lift (parseResults bytes) := by
  induction bytes generalizing done free with
  | nil =>
    rw [parseStatic, parseResults, lift_pure, map_pure]
    rfl
  | cons r rest ih =>
    obtain ⟨free, rfl⟩ : ∃ more, free = more + 1 := ⟨free - 1, by
      rw [List.length_cons] at hfits
      omega⟩
    rw [parseStatic, lift_parseResults_cons, map_bind]
    congr 1
    funext v
    have hset : (done ++ List.replicate (free + 1) (Except.error ())).set done.length v =
        done ++ [v] ++ List.replicate free (.error ()) := by
      rw [List.replicate_succ, List.set_append_right _ _ (Nat.le_refl _), Nat.sub_self,
        List.set_cons_zero, List.append_assoc, List.singleton_append]
    have hlen : (done ++ [v]).length = done.length + 1 := List.length_append
    rw [if_pos (by simp), hset, ← hlen, ih (done ++ [v]) free (Nat.le_of_succ_le_succ hfits),
      map_bind]
    simp only [map_eq_pure_bind, pure_bind, List.append_assoc, List.cons_append, List.nil_append,
      List.length_cons, Nat.add_sub_add_right]

theorem run_parseList (bytes : List UInt8) : (parseList bytes.length).run bytes =
    EStateM.run (do
      let values ← lift (parseResults bytes)
      return if bytes.length ≤ maxStaticSubs
        then .static bytes.length
          (values ++ List.replicate (maxStaticSubs - bytes.length) (.error ()))
        else .dynamic values : SliceM SubscriptionResultList) [] := by
  by_cases hfits : bytes.length ≤ maxStaticSubs
  · have hstatic : parseStatic 0 (List.replicate maxStaticSubs (.error ())) bytes = do
        let values ← lift (parseResults bytes)
        return values ++ List.replicate (maxStaticSubs - bytes.length) (.error ()) :=
      (parseStatic_eq [] maxStaticSubs hfits).trans (map_eq_pure_bind _ _)
    simp only [parseList, if_pos hfits]
    show EStateM.run (do
      let values ← parseStatic 0 (List.replicate maxStaticSubs (.error ())) bytes
      return SubscriptionResultList.static bytes.length values) [] = _
    rw [hstatic, bind_assoc]
    simp only [pure_bind]
  · have hdynamic : parseDynamic [] bytes = lift (parseResults bytes) :=
      (parseDynamic_eq [] bytes).trans (id_map _)
    simp only [parseList, if_neg hfits, ← hdynamic]
    rfl

theorem decodeSlice_eq : decodeSlice = lift decode := by
  rw [decodeSlice, decode, SliceReader.readU16_eq, lift_bind]
  congr 1
  funext packetId bytes
  -- the decoder of values has read all bytes before it parses the first result
  have hvalues : lift (do
      let numResults ← ByteReader.remaining
      let values ← parseResults (← ByteReader.readRemaining)
      return (⟨packetId, if numResults ≤ maxStaticSubs
        then .static numResults (values ++ List.replicate (maxStaticSubs - numResults) (.error ()))
        else .dynamic values⟩ : SubAckPacket)) bytes =
    EStateM.run (do
      let values ← lift (parseResults bytes)
      return (⟨packetId, if bytes.length ≤ maxStaticSubs
        then .static bytes.length
          (values ++ List.replicate (maxStaticSubs - bytes.length) (.error ()))
        else .dynamic values⟩ : SubAckPacket)) [] := by
    simp only [lift_bind, lift_pure]
    rfl
  rw [hvalues]
  show EStateM.run (do return (⟨packetId, ← parseList bytes.length⟩ : SubAckPacket)) bytes = _
  rw [EStateM.run_bind, run_parseList, ← EStateM.run_bind, bind_assoc]
  simp only [pure_bind]

end SubAckPacket

/-! ## PUBLISH -/

/-- How the compiler lays out an `InternalPublishHeader`. A topic is shorter than 2¹⁶ bytes, so
its length fits a `usize`. -/
class HeaderLayout where
  /-- `size_of::<InternalPublishHeader>()`. -/
  size : Nat
  write : InternalPublishHeader → List UInt8
  read : List UInt8 → InternalPublishHeader
  length_write : ∀ hdr, (write hdr).length = size
  read_write : ∀ hdr, hdr.topicLen < 65536 → read (write hdr) = hdr

/-- The layout of a machine with addresses of eight bytes, the lowest byte first: the length,
the flags, a byte of padding, the identifier and four bytes of padding. -/
@[reducible] def HeaderLayout.littleEndian : HeaderLayout where
  size := 16
  write hdr := (u16ToBe (UInt16.ofNat hdr.topicLen)).reverse ++ List.replicate 6 0 ++
    [hdr.info.flags.val, 0] ++ (u16ToBe hdr.info.packetId).reverse ++ List.replicate 4 0
  read
    | [l₀, l₁, _, _, _, _, _, _, flags, _, i₀, i₁, _, _, _, _] =>
      match PublishFlags.tryFrom flags with
      | .ok flags => ⟨(u16OfBe l₁ l₀).toNat, ⟨flags, u16OfBe i₁ i₀⟩⟩
      | .error _ => ⟨0, ⟨.new false .atMostOnce false, 0⟩⟩
    | _ => ⟨0, ⟨.new false .atMostOnce false, 0⟩⟩
  length_write _ := rfl
  read_write := by
    rintro ⟨topicLen, flags, packetId⟩ h
    have hlen : (UInt16.ofNat topicLen).toNat = topicLen := by
      rw [UInt16.toNat_ofNat']
      exact Nat.mod_eq_of_lt h
    have hback := u16OfBe_toBe (UInt16.ofNat topicLen)
    rw [hlen] at hback
    simp only [u16ToBe, List.reverse_cons, List.reverse_nil, List.nil_append, List.cons_append,
      List.replicate, flags.tryFrom_val, u16OfBe_toBe, hlen, hback]

/-- A buffer in which some bytes have not been written yet. -/
abbrev Uninit := List (Option UInt8)

namespace Uninit

/-- Copy bytes to an offset of a buffer (`ptr::write_unaligned`, `copy_nonoverlapping`). -/
def copyTo (buffer : Uninit) (off : Nat) (data : List UInt8) : Except SliceFault Uninit :=
  if off + data.length ≤ buffer.length then
    .ok (buffer.take off ++ (data.map some ++ buffer.drop (off + data.length)))
  else .error .outOfRange

def assumeInit (buffer : Uninit) : Except SliceFault (List UInt8) :=
  match buffer.mapM id with
  | some bytes => .ok bytes
  | none => .error .invalid

/-- Bytes that are written behind those that are there already. -/
theorem copyTo_next (front data : List UInt8) (free : Nat) :
    copyTo (front.map some ++ List.replicate (data.length + free) none) front.length data =
      .ok ((front ++ data).map some ++ List.replicate free none) := by
  have hlen : (front.map (some : UInt8 → Option UInt8)).length = front.length :=
    List.length_map some
  rw [copyTo, if_pos (by simp only [List.length_append, List.length_map, List.length_replicate]
                         omega)]
  rw [← hlen, List.take_left, List.drop_length_add_append, List.drop_replicate,
    Nat.add_sub_cancel_left, List.map_append, List.append_assoc]

theorem assumeInit_map (bytes : List UInt8) : assumeInit (bytes.map some) = .ok bytes := by
  have hmap : (bytes.map some).mapM id = some bytes := by
    induction bytes with
    | nil => rfl
    | cons b bytes ih => simp only [List.map_cons, List.mapM_cons, ih]; rfl
  rw [assumeInit, hmap]

end Uninit

/-- The buffer of an `IncomingPublishPacket`. -/
abbrev PublishBuffer := List UInt8

namespace PublishBuffer

variable [HeaderLayout]

/-- The unsafe part of `decode`: allocate, write the header, copy the topic and the payload. -/
def store (hdr : InternalPublishHeader) (topic payload : List UInt8) :
    Except SliceFault PublishBuffer := do
  let hdrSize := HeaderLayout.size
  let arcSize := hdrSize + topic.length + payload.length
  let arc : Uninit := List.replicate arcSize none
  let arc ← arc.copyTo 0 (HeaderLayout.write hdr)
  let arc ← arc.copyTo hdrSize topic
  let arc ← arc.copyTo (hdrSize + topic.length) payload
  arc.assumeInit

/-- The unaligned read of the header at the start of the buffer. -/
def hdr (m : PublishBuffer) : Except SliceFault InternalPublishHeader := do
  return HeaderLayout.read (← slice m 0 HeaderLayout.size)

def info (m : PublishBuffer) : Except SliceFault PublishPacketInfo := do
  return (← hdr m).info

def topic (m : PublishBuffer) : Except SliceFault Str := do
  let topicLen := (← hdr m).topicLen
  let start := HeaderLayout.size
  -- `from_utf8_unchecked`
  match fromUtf8 (← slice m start (start + topicLen)) with
  | some s => .ok s
  | none => .error .invalid

def payload (m : PublishBuffer) : Except SliceFault (List UInt8) := do
  let topicLen := (← hdr m).topicLen
  let start := HeaderLayout.size + topicLen
  slice m start m.length

def decode (ctrl : ControlField) : SliceM PublishBuffer := do
  match PublishFlags.tryFrom ctrl.flags with
  | .error e => throw (.decode e)
  | .ok flags =>
    let topic ← SliceReader.readUtf8
    let packetId ← if flags.qos = .atMostOnce then pure 0 else SliceReader.readU16
    let payload ← SliceReader.readRemaining
    check (store ⟨topic.asBytes.length, ⟨flags, packetId⟩⟩ topic.asBytes payload)

/-- The buffer in which a message is stored. -/
def of (m : IncomingPublishPacket) : PublishBuffer := HeaderLayout.write m.hdr ++ m.data

theorem store_eq (hdr : InternalPublishHeader) (topic payload : List UInt8) :
    store hdr topic payload = .ok (of ⟨hdr, topic ++ payload⟩) := by
  have hsize : (HeaderLayout.write hdr).length = HeaderLayout.size := HeaderLayout.length_write hdr
  have hhdr := Uninit.copyTo_next [] (HeaderLayout.write hdr) (topic.length + payload.length)
  have htopic := Uninit.copyTo_next (HeaderLayout.write hdr) topic payload.length
  have hpayload := Uninit.copyTo_next (HeaderLayout.write hdr ++ topic) payload 0
  rw [List.length_append] at hpayload
  simp only [hsize, List.map_nil, List.nil_append, List.length_nil] at hhdr htopic hpayload
  simp only [store, bind, Except.bind, Nat.add_assoc, hhdr, htopic]
  rw [Nat.add_zero] at hpayload
  rw [hpayload]
  simp only [List.replicate_zero, List.append_nil, Uninit.assumeInit_map, of, List.append_assoc]

theorem decode_eq (ctrl : ControlField) :
    decode ctrl = of <$> lift (IncomingPublishPacket.decode ctrl) := by
  rw [decode, IncomingPublishPacket.decode]
  cases PublishFlags.tryFrom ctrl.flags with
  | error e => rfl
  | ok flags =>
    simp only [SliceReader.readUtf8_eq, SliceReader.readU16_eq, SliceReader.readRemaining_eq,
      lift_bind, map_bind, store_eq]
    by_cases hqos : flags.qos = .atMostOnce
    · simp only [if_pos hqos]
      rfl
    · simp only [if_neg hqos, lift_bind, map_bind]
      rfl

section Of

variable {m : IncomingPublishPacket}

theorem hdr_of (h : m.hdr.topicLen < 65536) : hdr (of m) = .ok m.hdr := by
  have hfront := SliceFault.slice_front (HeaderLayout.write m.hdr) m.data
  rw [HeaderLayout.length_write] at hfront
  rw [hdr, of, hfront]
  exact congrArg Except.ok (HeaderLayout.read_write m.hdr h)

theorem info_of (h : m.hdr.topicLen < 65536) : info (of m) = .ok m.info := by
  rw [info, hdr_of h]
  rfl

theorem topic_of {s : Str} {payload : List UInt8} (h : m.hdr.topicLen < 65536)
    (hlen : m.hdr.topicLen = s.asBytes.length) (hdata : m.data = s.asBytes ++ payload) :
    topic (of m) = .ok s := by
  have hmid := SliceFault.slice_middle (HeaderLayout.write m.hdr) s.asBytes payload
  rw [HeaderLayout.length_write] at hmid
  simp only [topic, hdr_of h, bind, Except.bind, hlen]
  rw [of, hdata, hmid]
  simp only [fromUtf8_asBytes]

theorem payload_of {front back : List UInt8} (h : m.hdr.topicLen < 65536)
    (hlen : m.hdr.topicLen = front.length) (hdata : m.data = front ++ back) :
    payload (of m) = .ok back := by
  have hback := SliceFault.slice_back (HeaderLayout.write m.hdr ++ front) back
  rw [List.length_append, HeaderLayout.length_write] at hback
  simp only [payload, hdr_of h, bind, Except.bind, hlen]
  rw [of, hdata, ← List.append_assoc]
  exact hback

end Of

end PublishBuffer

/-! ## Received packets -/

/-- `IncomingPacket` with a message as its buffer. -/
inductive StoredPacket where
  | connAck (p : ConnAckPacket)
  | subAck (p : SubAckPacket)
  | publish (p : PublishBuffer)
  | pubAck (p : PubAckPacket)
  | pubRec (p : PubRecPacket)
  | pubRel (p : PubRelPacket)
  | pubComp (p : PubCompPacket)
  | unsubAck (p : UnsubAckPacket)
  | pingResp
deriving DecidableEq, Repr

namespace StoredPacket

variable [HeaderLayout]

def fromBytes (ctrl : ControlField) : SliceM StoredPacket :=
  if ctrl.packetType = PacketType.connAck.code then .connAck <$> ConnAckPacket.decodeSlice
  else if ctrl.packetType = PacketType.subAck.code then .subAck <$> SubAckPacket.decodeSlice
  else if ctrl.packetType = PacketType.publish.code then .publish <$> PublishBuffer.decode ctrl
  else if ctrl.packetType = PacketType.pubAck.code then .pubAck <$> SimplePacket.decodeSlice
  else if ctrl.packetType = PacketType.pubRec.code then .pubRec <$> SimplePacket.decodeSlice
  else if ctrl.packetType = PacketType.pubRel.code then .pubRel <$> SimplePacket.decodeSlice
  else if ctrl.packetType = PacketType.pubComp.code then .pubComp <$> SimplePacket.decodeSlice
  else if ctrl.packetType = PacketType.unsubAck.code then .unsubAck <$> SimplePacket.decodeSlice
  else if ctrl.packetType = PacketType.pingResp.code then return .pingResp
  else throw (.decode (.invalidPacketId ctrl.packetType))

/-- A received packet, stored. -/
def of : IncomingPacket → StoredPacket
  | .connAck p => .connAck p
  | .subAck p => .subAck p
  | .publish p => .publish (.of p)
  | .pubAck p => .pubAck p
  | .pubRec p => .pubRec p
  | .pubRel p => .pubRel p
  | .pubComp p => .pubComp p
  | .unsubAck p => .unsubAck p
  | .pingResp => .pingResp

theorem fromBytes_eq (ctrl : ControlField) :
    fromBytes ctrl = of <$> lift (IncomingPacket.fromBytes ctrl) := by
  rw [fromBytes, IncomingPacket.fromBytes]
  simp only [apply_ite lift, apply_ite (of <$> ·), lift_map, Functor.map_map,
    ConnAckPacket.decodeSlice_eq, SubAckPacket.decodeSlice_eq, PublishBuffer.decode_eq,
    SimplePacket.decodeSlice_eq]
  rfl

/-- What the decoder makes of one frame. -/
def decodeFrame (ctrl : UInt8) (body : List UInt8) : Except SliceFault StoredPacket :=
  match fromBytes ⟨ctrl⟩ body with
  | .ok pkt _ => .ok pkt
  | .error fault _ => .error fault

theorem decodeFrame_eq (ctrl : UInt8) (body : List UInt8) :
    decodeFrame ctrl body = match Lmc.decodeFrame ctrl body with
      | .ok pkt => .ok (of pkt)
      | .error e => .error (.decode e) := by
  rw [decodeFrame, Lmc.decodeFrame, fromBytes_eq, map_lift_apply]
  cases IncomingPacket.fromBytes ⟨ctrl⟩ body <;> rfl

end StoredPacket

end Lmc
