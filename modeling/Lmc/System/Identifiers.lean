import Lmc.System.Waiting

/-!
# Packet identifiers

Identifiers come from a free-running counter of 16 bits that starts at 1 and is never
compared with what is still in flight. The identifier number `k`, counted from 0, is
therefore `(k + 1) mod 2^16`, and everything about identifiers follows from how many were
taken. As long as these are less than `2^16`, no identifier that the client puts into a
packet is 0 (`encoded_identifiers_nonzero`) and none is taken again. Beyond that both happen:
then an identifier is not in use twice only if it is free whenever the counter comes back to it
(`identifiers_not_reused`).
-/

namespace Lmc

open Runs

/-! ## Identifiers that were handed out -/

/-- The identifier that a packet carries on the wire. -/
def Outgoing.identifier : Outgoing → Option UInt16
  | .publish p => if p.flags.qos = .atMostOnce then none else some p.packetId
  | .subscribe p => some p.packetId
  | .unsubscribe p => some p.packetId

/-- One of the first identifiers of the counter. -/
def Issued (allocated : Nat) (id : UInt16) : Prop :=
  ∃ k, k < allocated ∧ id.toNat = (k + 1) % 65536

instance (allocated : Nat) (id : UInt16) : Decidable (Issued allocated id) :=
  inferInstanceAs (Decidable (∃ k, k < allocated ∧ id.toNat = (k + 1) % 65536))

theorem Issued.mono {m n : Nat} {id : UInt16} (h : Issued m id) (hle : m ≤ n) : Issued n id := by
  obtain ⟨k, hk, hid⟩ := h
  exact ⟨k, Nat.lt_of_lt_of_le hk hle, hid⟩

theorem Issued.ne_zero {n : Nat} {id : UInt16} (h : Issued n id) (hn : n < 65536) : id ≠ 0 := by
  obtain ⟨k, hk, hid⟩ := h
  rintro rfl
  have hzero : (k + 1) % 65536 = 0 := hid.symm
  omega

namespace Book

/-- The counter shows how many identifiers were taken. -/
def Counted (b : Book) : Prop :=
  b.shared.nextPacketId.toNat = (b.history.allocated + 1) % 65536

variable {b b' : Book}

/-- The next identifier is none of the earlier ones until the counter has gone round. -/
theorem Counted.fresh (h : b.Counted) (hroom : b.history.allocated < 65536) :
    ¬ Issued b.history.allocated b.shared.nextPacketId := by
  rintro ⟨k, hk, hid⟩
  rw [h] at hid
  omega

theorem Counted.takePacketId (h : b.Counted) : b.takePacketId.Counted := by
  show (b.shared.nextPacketId + 1).toNat = (b.history.allocated + 1 + 1) % 65536
  have hone : (1 : UInt16).toNat = 1 := rfl
  rw [UInt16.toNat_add, h, hone]
  omega

theorem Counted.issued (h : b.Counted) :
    Issued (b.history.allocated + 1) b.shared.nextPacketId :=
  ⟨b.history.allocated, Nat.lt_succ_self _, h⟩

/-- The counter and the packets encoded are as before. -/
structure SameNumbers (b b' : Book) : Prop where
  next : b'.shared.nextPacketId = b.shared.nextPacketId
  allocated : b'.history.allocated = b.history.allocated
  encoded : b'.history.encoded = b.history.encoded

/-- What a step does with the counter: nothing, except that it may encode a packet without
an identifier, or it takes one identifier for at most one packet. -/
inductive Numbers (b b' : Book) : Prop
  | same (numbers : SameNumbers b b') : Numbers b b'
  | plain (p : Outgoing) (none : p.identifier = .none) (next : b'.shared.nextPacketId =
        b.shared.nextPacketId) (allocated : b'.history.allocated = b.history.allocated)
      (encoded : b'.history.encoded = b.history.encoded ++ [p]) : Numbers b b'
  | take (numbers : SameNumbers b.takePacketId b') : Numbers b b'
  | takeFor (p : Outgoing) (id : p.identifier = some b.shared.nextPacketId)
      (numbers : SameNumbers (b.takePacketId.logEncoded p) b') : Numbers b b'

theorem SameNumbers.refl (b : Book) : SameNumbers b b := ⟨rfl, rfl, rfl⟩

theorem Counted.of_same (h : b.Counted) (hsame : SameNumbers b b') : b'.Counted := by
  rw [Counted, hsame.next, hsame.allocated]
  exact h

theorem Counted.step (h : b.Counted) (hstep : Numbers b b') : b'.Counted := by
  cases hstep with
  | same numbers => exact h.of_same numbers
  | plain p none next allocated encoded =>
    rw [Counted, next, allocated]
    exact h
  | take numbers => exact h.takePacketId.of_same numbers
  | takeFor p id numbers =>
    exact Counted.of_same (b := b.takePacketId.logEncoded p) h.takePacketId numbers

theorem Numbers.allocated_le (h : Numbers b b') : b.history.allocated ≤ b'.history.allocated := by
  cases h with
  | same numbers => exact le_of_eq numbers.allocated.symm
  | plain p none next allocated encoded => exact le_of_eq allocated.symm
  | take numbers =>
    have htaken : b'.history.allocated = b.history.allocated + 1 := numbers.allocated
    omega
  | takeFor p id numbers =>
    have htaken : b'.history.allocated = b.history.allocated + 1 := numbers.allocated
    omega

theorem sameNumbers_acknowledge (id : IdType) (n : Notifier) (b : Book) :
    SameNumbers b (b.acknowledge id n) := by
  rcases b.acknowledge_cases id n with ⟨-, heq⟩ | ⟨-, heq⟩
  · rw [heq]
    exact ⟨rfl, rfl, rfl⟩
  · rw [heq]
    exact ⟨b.shared.nextPacketId_setNotifierMap n _, rfl, rfl⟩

theorem sameNumbers_processSubAck (ack : SubAckPacket) (b : Book) :
    SameNumbers b (b.processSubAck ack) := by
  rcases b.processSubAck_cases ack with
    ⟨-, heq⟩ | ⟨sub, -, ⟨-, heq⟩ | ⟨qos, heq⟩ | ⟨-, heq⟩⟩ <;> rw [heq] <;> exact ⟨rfl, rfl, rfl⟩

end Book

open Book in
theorem PacketEffect.sameNumbers {pkt : IncomingPacket} {b b' : Book}
    (h : PacketEffect pkt b b') : SameNumbers b b' := by
  cases h with
  | subAck ack => exact sameNumbers_processSubAck ack b
  | pubAck ack => exact sameNumbers_acknowledge _ _ b
  | pubRecAgain rec => exact sameNumbers_acknowledge _ _ b
  | pubRec rec pkt =>
    obtain ⟨hnext, hallocated, hencoded⟩ :=
      sameNumbers_acknowledge (.publish rec.packetId) .pubRec
        (b.insertPending (.pubRel rec.packetId) pkt)
    exact ⟨hnext, hallocated, hencoded⟩
  | pubComp comp => exact sameNumbers_acknowledge _ _ b
  | _ => exact ⟨rfl, rfl, rfl⟩

theorem CommandEffect.numbers {q : Option Panic} {cmd : Command} {b b' : Book}
    (h : CommandEffect q cmd b b') : b.Numbers b' := by
  cases h with
  | subscribePanic p cmd => exact .take ⟨rfl, rfl, rfl⟩
  | subscribe q cmd pkt _ accepted unsubscribed =>
    exact .takeFor (.subscribe ⟨b.shared.nextPacketId, [(cmd.topic, cmd.qos)]⟩) rfl ⟨rfl, rfl, rfl⟩
  | unsubscribePanic p topic _ subscribed => exact .take ⟨rfl, rfl, rfl⟩
  | unsubscribe q topic pkt _ subscribed =>
    exact .takeFor (.unsubscribe ⟨b.shared.nextPacketId, [topic]⟩) rfl ⟨rfl, rfl, rfl⟩
  | _ => exact .same ⟨rfl, rfl, rfl⟩

/-- The command makes the task take an identifier. -/
def Book.takes (b : Book) : Command → Bool
  | .subscribe cmd =>
    !b.subscriptions.rejects cmd.topic && !b.subscriptions.isSubscribed cmd.topic
  | .unsub ⟨topic, .immediate⟩ => b.subscriptions.isSubscribed topic
  | _ => false

theorem CommandEffect.takes {q : Option Panic} {cmd : Command} {b b' : Book}
    (h : CommandEffect q cmd b b') (hallocated : b'.history.allocated = b.history.allocated + 1) :
    b.takes cmd = true := by
  cases h with
  | subscribePanic p cmd _ accepted unsubscribed => simp [Book.takes, accepted, unsubscribed]
  | subscribe q cmd pkt _ accepted unsubscribed => simp [Book.takes, accepted, unsubscribed]
  | unsubscribePanic p topic _ subscribed => exact subscribed
  | unsubscribe q topic pkt _ subscribed => exact subscribed
  | _ => exact absurd hallocated (Nat.ne_of_lt (Nat.lt_succ_self _))

namespace System

variable {τ : Type} {s s' : System τ}

theorem numbers_startPublish (c : Nat) (mode : PublishMode) (topic : Str)
    (payload : List UInt8) (retain : Bool) (s : System τ) :
    s.tx.Numbers (s.startPublish c mode topic payload retain).tx.toBook := by
  unfold startPublish encodePublish
  split
  · rename_i hqos
    split
    · exact .same ⟨rfl, rfl, rfl⟩
    · refine .plain (.publish _) ?_ rfl rfl rfl
      simp [Outgoing.identifier, hqos]
  · rename_i hqos
    split
    · exact .take ⟨rfl, rfl, rfl⟩
    · refine .takeFor (.publish _) ?_ ⟨rfl, rfl, rfl⟩
      simp [Outgoing.identifier, hqos]

theorem ClientMove.numbers {e : ClientEvent} (h : ClientMove s e s') :
    s.tx.Numbers s'.tx.toBook := by
  rcases h.counters_cases with
    ⟨c, mode, topic, payload, retain, -, rfl⟩ |
      ⟨c, topic, qos, req, actual, kind, built, -, -, made, rfl⟩ | hsame
  · exact numbers_startPublish c mode topic payload retain s
  · rw [buildKind_frame made]
    exact .same ⟨rfl, rfl, rfl⟩
  · exact .same ⟨hsame.nextPacketId, congrArg _ hsame.history, congrArg _ hsame.history⟩

/-- What a step of the system does with the counter. -/
theorem numbers_step [Transport τ] {e : Event} (hstep : s.step e = some s') :
    s.tx.Numbers s'.tx.toBook := by
  cases e with
  | client e => exact (clientMove_of_clientStep hstep).numbers
  | task e =>
    cases taskMove_of_taskStep hstep with
    | quiet tx p clean running next book => exact .same (book ▸ .refl _)
    | connAck tx p clean running next pkt arrived waiting book =>
      refine .same ?_
      show Book.SameNumbers s.tx.toBook tx.toBook
      rw [book]
      exact ⟨rfl, rfl, rfl⟩
    | packet tx p clean running next pkt arrived connected effect =>
      obtain ⟨hnext, hallocated, hencoded⟩ := effect.sameNumbers
      exact .same ⟨hnext, hallocated, hencoded⟩
    | command tx p clean running next cmd rest queue taken connected effect =>
      cases effect.numbers with
      | same numbers => exact .same ⟨numbers.next, numbers.allocated, numbers.encoded⟩
      | plain p none next allocated encoded => exact .plain p none next allocated encoded
      | take numbers => exact .take ⟨numbers.next, numbers.allocated, numbers.encoded⟩
      | takeFor p id numbers =>
        exact .takeFor p id ⟨numbers.next, numbers.allocated, numbers.encoded⟩
    | finish status ended => exact .same (.refl _)
    | fail n next stage => exact .same ⟨s.tx.shared.nextPacketId_setNotifierMap n _, rfl, rfl⟩
    | drain stage => exact .same ⟨rfl, rfl, rfl⟩
    | wake stage => exact .same ⟨rfl, rfl, rfl⟩
    | drop status ended => exact .same ⟨rfl, rfl, rfl⟩

end System

/-! ## Packets on the wire -/

/-- The counter is right, and every packet was encoded with an identifier of it. -/
structure Book.Numbered (b : Book) : Prop where
  counted : b.Counted
  encoded : ∀ p ∈ b.history.encoded, ∀ id, p.identifier = some id → Issued b.history.allocated id

/-- Packets that were encoded keep their identifiers. -/
theorem Book.Numbered.old {b b' : Book} (h : b.Numbered) (hle : b.history.allocated ≤
    b'.history.allocated) {p : Outgoing} (hp : p ∈ b.history.encoded) {id : UInt16}
    (hid : p.identifier = some id) : Issued b'.history.allocated id :=
  (h.encoded p hp id hid).mono hle

theorem Book.Numbered.step {b b' : Book} (h : b.Numbered) (hstep : b.Numbers b') :
    b'.Numbered := by
  have hold := fun p => h.old hstep.allocated_le (p := p)
  refine ⟨h.counted.step hstep, ?_⟩
  cases hstep with
  | same numbers =>
    rw [numbers.encoded]
    exact fun p hp _ => hold p hp
  | plain p none next allocated encoded =>
    rw [encoded]
    intro p' hp' id hid
    rcases List.mem_append.mp hp' with hmem | hnew
    · exact hold p' hmem hid
    · rw [List.mem_singleton.mp hnew, none] at hid
      cases hid
  | take numbers =>
    rw [numbers.encoded]
    exact fun p hp _ => hold p hp
  | takeFor p id numbers =>
    rw [numbers.encoded]
    intro p' hp' id' hid'
    rcases List.mem_append.mp hp' with hmem | hnew
    · exact hold p' hmem hid'
    · rw [List.mem_singleton.mp hnew, id] at hid'
      cases hid'
      rw [numbers.allocated]
      exact h.counted.issued

namespace System

variable {τ : Type} [Transport τ] {s : System τ}

omit [Transport τ] in
theorem numbered_spawn (setup : Setup τ) : (spawn setup).tx.Numbered :=
  ⟨rfl, fun _ hp => by cases hp⟩

/-- In every run in which fewer than `2^16` identifiers were taken, no packet was encoded
with the identifier 0. -/
theorem encoded_identifiers_nonzero (setup : Setup τ)
    (h : Reaches System.step always (spawn setup) s) (hroom : s.tx.history.allocated < 65536) :
    ∀ p ∈ s.tx.history.encoded, p.identifier ≠ some 0 := by
  have hinv : s.tx.Numbered :=
    h.invariant (I := fun s => s.tx.Numbered) (numbered_spawn setup) fun _ _ _ hn _ hstep =>
      hn.step (numbers_step hstep)
  intro p hp hzero
  exact (hinv.encoded p hp 0 hzero).ne_zero hroom rfl

end System

/-! ## Pending packets -/

/-- The command carries the identifier. Publishes of quality 0 carry none. -/
def PublishCommand.uses (id : UInt16) (cmd : PublishCommand) : Bool :=
  cmd.qos != .atMostOnce && cmd.packetId == id

def Command.carries (id : UInt16) : Command → Bool
  | .publish cmd => cmd.uses id
  | _ => false

section Pending

variable {b b' : Book} {key : IdType} {p : Packet}

theorem lookup_of_erase {key' : IdType} {m : LmcHashMap IdType Packet}
    (h : (m.erase key').lookup key = some p) : m.lookup key = some p := by
  rw [Table.lookup_erase] at h
  split at h
  · cases h
  · exact h

theorem lookup_of_insert {key' : IdType} {p' : Packet} {m : LmcHashMap IdType Packet}
    (h : (m.insert key' p').lookup key = some p) : key = key' ∨ m.lookup key = some p := by
  rw [Table.lookup_insert] at h
  split at h
  · exact Or.inl ‹_›
  · exact Or.inr h

/-- The packets that handling a packet makes pending. -/
theorem PacketEffect.pending_cases {pkt : IncomingPacket} (h : PacketEffect pkt b b')
    (hp : b'.pendingPackets.lookup key = some p) :
    b.pendingPackets.lookup key = some p ∨ key.ty = .pubRec ∨
      ∃ rec, pkt = .pubRec rec ∧ key = .pubRel rec.packetId := by
  cases h with
  | subAck ack =>
    rw [Book.pendingPackets_processSubAck] at hp
    exact Or.inl hp
  | record msg pkt =>
    rcases lookup_of_insert hp with rfl | hold
    · exact Or.inr (Or.inl rfl)
    · exact Or.inl hold
  | recordDispatch msg pkt =>
    rcases lookup_of_insert hp with rfl | hold
    · exact Or.inr (Or.inl rfl)
    · exact Or.inl hold
  | pubAck ack =>
    rw [Book.pendingPackets_acknowledge] at hp
    exact Or.inl (lookup_of_erase hp)
  | pubRecAgain rec =>
    rw [Book.pendingPackets_acknowledge] at hp
    exact Or.inl (lookup_of_erase hp)
  | release rec pkt =>
    rcases lookup_of_insert hp with rfl | hold
    · exact Or.inr (Or.inr ⟨rec, rfl, rfl⟩)
    · exact Or.inl hold
  | pubRec rec pkt =>
    rw [Book.pendingPackets_acknowledge] at hp
    rcases lookup_of_insert (lookup_of_erase hp) with rfl | hold
    · exact Or.inr (Or.inr ⟨rec, rfl, rfl⟩)
    · exact Or.inl hold
  | pubRel rel => exact Or.inl (lookup_of_erase hp)
  | pubComp comp =>
    rw [Book.pendingPackets_acknowledge] at hp
    exact Or.inl (lookup_of_erase hp)
  | unsubAck ack => exact Or.inl (lookup_of_erase hp)
  | _ => exact Or.inl hp

/-- The packets that a command makes pending. -/
theorem CommandEffect.pending_cases {q : Option Panic} {cmd : Command}
    (h : CommandEffect q cmd b b') (hp : b'.pendingPackets.lookup key = some p) :
    b.pendingPackets.lookup key = some p ∨
      (∃ pub, cmd = .publish pub ∧ pub.uses pub.packetId = true ∧
        key = .publish pub.packetId) ∨
      key = .unsubscribe b.shared.nextPacketId ∧
        b'.history.allocated = b.history.allocated + 1 := by
  cases h with
  | publish q pub qos =>
    rcases lookup_of_insert hp with rfl | hold
    · exact Or.inr (Or.inl ⟨pub, rfl, by simp [PublishCommand.uses, qos], rfl⟩)
    · exact Or.inl hold
  | unsubscribe q topic pkt _ subscribed =>
    rcases lookup_of_insert hp with rfl | hold
    · exact Or.inr (Or.inr ⟨rfl, rfl⟩)
    · exact Or.inl hold
  | _ => exact Or.inl hp

theorem PacketEffect.pendingSub_cases {pkt : IncomingPacket} {id : UInt16} {sub : PendingSub}
    (h : PacketEffect pkt b b') (hp : b'.pendingSubs.lookup id = some sub) :
    b.pendingSubs.lookup id = some sub := by
  cases h with
  | subAck ack =>
    rw [Book.lookup_pendingSubs_processSubAck] at hp
    split at hp
    · cases hp
    · exact hp
  | pubAck ack => rwa [Book.pendingSubs_acknowledge] at hp
  | pubRecAgain rec => rwa [Book.pendingSubs_acknowledge] at hp
  | pubRec rec pkt => rwa [Book.pendingSubs_acknowledge] at hp
  | pubComp comp => rwa [Book.pendingSubs_acknowledge] at hp
  | _ => exact hp

theorem CommandEffect.pendingSub_cases {q : Option Panic} {cmd : Command} {id : UInt16}
    {sub : PendingSub} (h : CommandEffect q cmd b b')
    (hp : b'.pendingSubs.lookup id = some sub) :
    b.pendingSubs.lookup id = some sub ∨ id = b.shared.nextPacketId ∧
      b'.history.allocated = b.history.allocated + 1 := by
  cases h with
  | subscribe q cmd pkt _ accepted unsubscribed =>
    change (b.pendingSubs.insert b.shared.nextPacketId _).lookup id = some sub at hp
    rw [Table.lookup_insert] at hp
    split at hp
    · exact Or.inr ⟨‹_›, rfl⟩
    · exact Or.inl hp
  | _ => exact Or.inl hp

/-- A packet leaves a pending subscription alone unless it is its `SUBACK`. -/
theorem PacketEffect.keepsSub {pkt : IncomingPacket} {id : UInt16} {sub : PendingSub}
    (h : PacketEffect pkt b b') (hp : b.pendingSubs.lookup id = some sub) :
    b'.pendingSubs.lookup id = some sub ∨ ∃ ack, pkt = .subAck ack ∧ ack.packetId = id := by
  cases h with
  | subAck ack =>
    by_cases hid : ack.packetId = id
    · exact Or.inr ⟨ack, rfl, hid⟩
    refine Or.inl ?_
    rwa [Book.lookup_pendingSubs_processSubAck, if_neg (Ne.symm hid)]
  | pubAck ack => exact Or.inl (by rwa [Book.pendingSubs_acknowledge])
  | pubRecAgain rec => exact Or.inl (by rwa [Book.pendingSubs_acknowledge])
  | pubRec rec pkt => exact Or.inl (by rwa [Book.pendingSubs_acknowledge])
  | pubComp comp => exact Or.inl (by rwa [Book.pendingSubs_acknowledge])
  | _ => exact Or.inl hp

theorem CommandEffect.keepsSub {q : Option Panic} {cmd : Command} {id : UInt16}
    {sub : PendingSub} (h : CommandEffect q cmd b b')
    (hp : b.pendingSubs.lookup id = some sub) :
    b'.pendingSubs.lookup id = some sub ∨ ∃ req, cmd = .subscribe req ∧
      b.subscriptions.isSubscribed req.topic = false ∧ id = b.shared.nextPacketId := by
  cases h with
  | subscribe q req pkt _ accepted unsubscribed =>
    by_cases hid : id = b.shared.nextPacketId
    · exact Or.inr ⟨req, rfl, unsubscribed, hid⟩
    refine Or.inl ?_
    show (b.pendingSubs.insert b.shared.nextPacketId _).lookup id = some sub
    rwa [Table.lookup_insert, if_neg hid]
  | _ => exact Or.inl hp

theorem PacketEffect.cmdQueue {pkt : IncomingPacket} (h : PacketEffect pkt b b') :
    b'.cmdQueue = b.cmdQueue := by
  cases h with
  | subAck ack =>
    rcases b.processSubAck_cases ack with
      ⟨-, heq⟩ | ⟨sub, -, ⟨-, heq⟩ | ⟨qos, heq⟩ | ⟨-, heq⟩⟩ <;> rw [heq] <;> rfl
  | pubAck ack => exact b.cmdQueue_acknowledge _ _
  | pubRecAgain rec => exact b.cmdQueue_acknowledge _ _
  | pubRec rec pkt => exact Book.cmdQueue_acknowledge _ _ _
  | pubComp comp => exact b.cmdQueue_acknowledge _ _
  | _ => rfl

theorem CommandEffect.cmdQueue {q : Option Panic} {cmd : Command}
    (h : CommandEffect q cmd b b') : b'.cmdQueue = b.cmdQueue := by
  cases h <;> rfl

end Pending

/-! ## Identifiers in use -/

/-- The call has yet to register under the identifier. -/
def Call.registers (id : UInt16) : Call → Bool
  | .registering cmd _ => cmd.packetId == id
  | _ => false

/-- The call has yet to send a publish with the identifier. -/
def Call.holds (id : UInt16) : Call → Bool
  | .registering cmd _ => cmd.packetId == id
  | call => call.command.any (Command.carries id)

theorem Call.holds_of_registers {id : UInt16} {call : Call} (h : call.registers id = true) :
    call.holds id = true := by
  cases call <;> first | exact h | cases h

theorem Call.holds_sent (id : UInt16) (call : Call) : call.sent.holds id = false := by
  rcases call.sent_cases with ⟨_, h⟩ | ⟨_, _, h⟩ | ⟨_, h⟩ <;> rw [h] <;> rfl

theorem Call.holds_command {id : UInt16} {call : Call} {cmd : Command}
    (h : call.command = some cmd) : call.holds id = cmd.carries id := by
  cases call <;> cases h <;> rfl

namespace System

variable {τ : Type} {s s' : System τ} {e : Event}

/-- The number of publishes with the identifier that the task has not taken on. -/
def unsent (s : System τ) (id : UInt16) : Nat :=
  Table.count (Call.holds id) s.calls + s.tx.cmdQueue.countP (Command.carries id)

/-- The number of publishes with the identifier that are not acknowledged. -/
def owners (s : System τ) (id : UInt16) : Nat :=
  s.unsent id + Table.hit (fun _ => true) (s.tx.pendingPackets.lookup (.publish id))

theorem owners_pos_of_queued {id : UInt16} {cmd : Command} (hmem : cmd ∈ s.tx.cmdQueue)
    (hcarries : cmd.carries id = true) : 0 < s.owners id := by
  have hcount : 0 < s.tx.cmdQueue.countP (Command.carries id) :=
    List.countP_pos_iff.mpr ⟨cmd, hmem, hcarries⟩
  unfold owners unsent
  omega

theorem owners_pos_of_call {id : UInt16} {c : Nat} {call : Call}
    (hcall : s.calls.lookup c = some call) (hholds : call.holds id = true) :
    0 < s.owners id := by
  have hcount := Table.hit_le_count (Call.holds id) c s.calls
  rw [hcall, Table.hit_pos hholds] at hcount
  unfold owners unsent
  omega

/-- A call that goes on holds an identifier, or has put it into the queue, only if it held
it before or has just taken it. -/
theorem CallStep.holds_le {old : Option Call} {call : Call} {cmds : List Command}
    (h : CallStep s s' old call cmds) (id : UInt16) :
    Table.hit (Call.holds id) (some call) + cmds.countP (Command.carries id) ≤
        Table.hit (Call.holds id) old ∨
      id = s.tx.shared.nextPacketId ∧
        s'.tx.history.allocated = s.tx.history.allocated + 1 ∧
        Table.hit (Call.holds id) (some call) + cmds.countP (Command.carries id) ≤ 1 := by
  have hidle : call.holds id = false → cmds = [] → Table.hit (Call.holds id) (some call) +
      cmds.countP (Command.carries id) ≤ Table.hit (Call.holds id) old := by
    rintro hcall rfl
    rw [Table.hit_some, hcall]
    exact Nat.zero_le _
  cases h with
  | publish mode cmd qos hid =>
    cases hp : (mode.firstStage cmd).holds id with
    | false => exact Or.inl (hidle hp rfl)
    | true =>
      have huses : cmd.packetId = id ∧ mode.qos ≠ .atMostOnce := by
        cases mode with
        | tryPublish q | noWait q =>
          obtain ⟨hqos, hpid⟩ := Bool.and_eq_true_iff.mp hp
          exact ⟨beq_iff_eq.mp hpid, qos ▸ bne_iff_ne.mp hqos⟩
        | _ => exact ⟨beq_iff_eq.mp hp, QoS.noConfusion⟩
      obtain ⟨hnext, hallocated⟩ := hid huses.2
      refine Or.inr ⟨huses.1.symm.trans hnext, hallocated, ?_⟩
      rw [Table.hit_pos hp]
      exact le_rfl
  | register cmd n fut =>
    refine Or.inl ?_
    cases hp : (Call.sendingPublish cmd (some fut)).holds id with
    | false => exact hidle hp rfl
    | true =>
      have hold : (Call.registering cmd n).holds id = true := (Bool.and_eq_true_iff.mp hp).2
      rw [Table.hit_pos hp, Table.hit_pos hold]
      exact le_rfl
  | sent call cmd sends =>
    refine Or.inl (le_of_eq ?_)
    rw [Table.hit_some, Table.hit_some, Call.holds_sent, Call.holds_command sends,
      List.countP_singleton, if_neg Bool.false_ne_true, Nat.zero_add]
  | command cmd other =>
    refine Or.inl (hidle ?_ rfl)
    cases cmd <;> first | rfl | cases other
  | pollTopic call fut fut' waits =>
    refine Or.inl (hidle ?_ rfl)
    cases call <;> first | rfl | cases waits
  | ready call fut result waits entry =>
    refine Or.inl (hidle ?_ rfl)
    cases call <;> cases result <;> first | rfl | cases waits
  | _ => exact Or.inl (hidle rfl rfl)

/-- What a client does to the publishes that are not sent. -/
theorem ClientMove.unsent {e : ClientEvent} (h : ClientMove s e s') (id : UInt16) :
    s'.unsent id ≤ s.unsent id ∨ id = s.tx.shared.nextPacketId ∧
      s'.tx.history.allocated = s.tx.history.allocated + 1 ∧
      s'.unsent id ≤ s.unsent id + 1 := by
  unfold System.unsent
  cases h.callMove with
  | none calls queue =>
    refine Or.inl (le_of_eq ?_)
    rcases queue with queue | queue
    · rw [calls, queue]
    · rw [calls, queue, List.countP_append]
      rfl
  | step c call cmds calls queue goes =>
    have hcount := Table.count_insert (Call.holds id) c call s.calls
    rw [calls, queue, List.countP_append]
    rcases goes.holds_le id with hle | ⟨hid, hallocated, hle⟩
    · exact Or.inl (by omega)
    · exact Or.inr ⟨hid, hallocated, by omega⟩

/-- What a client does to the publishes that are not acknowledged. -/
theorem ClientMove.owners {e : ClientEvent} (h : ClientMove s e s') (id : UInt16) :
    s'.owners id ≤ s.owners id ∨ id = s.tx.shared.nextPacketId ∧
      s'.tx.history.allocated = s.tx.history.allocated + 1 ∧
      s'.owners id ≤ s.owners id + 1 := by
  unfold System.owners
  rw [h.sameTask.pendingPackets]
  rcases h.unsent id with hle | ⟨hid, hallocated, hle⟩
  · exact Or.inl (by omega)
  · exact Or.inr ⟨hid, hallocated, by omega⟩

section Task

variable [Transport τ]

omit [Transport τ] in
/-- A task step that takes nothing on. -/
theorem owners_le {id : UInt16} (hcalls : s'.calls = s.calls)
    (hqueue : s'.tx.cmdQueue.countP (Command.carries id) ≤
      s.tx.cmdQueue.countP (Command.carries id))
    (hpending : ∀ p, s'.tx.pendingPackets.lookup (.publish id) = some p →
      ∃ p', s.tx.pendingPackets.lookup (.publish id) = some p') :
    s'.owners id ≤ s.owners id := by
  unfold System.owners System.unsent
  rw [hcalls]
  cases hp : s'.tx.pendingPackets.lookup (.publish id) with
  | none =>
    rw [Table.hit_none]
    omega
  | some p =>
    obtain ⟨p', hp'⟩ := hpending p hp
    rw [hp', Table.hit_some, Table.hit_some]
    omega

/-- The task takes on only what was in the queue. -/
theorem TaskMove.owners {e : TaskEvent} (h : TaskMove s e s') (id : UInt16) :
    s'.owners id ≤ s.owners id := by
  cases h with
  | quiet tx p clean running next book =>
    refine owners_le rfl ?_ ?_
    · show tx.cmdQueue.countP _ ≤ _
      rw [book]
    · intro pkt hpkt
      change tx.pendingPackets.lookup _ = some pkt at hpkt
      rw [book] at hpkt
      exact ⟨pkt, hpkt⟩
  | connAck tx p clean running next pkt arrived waiting book =>
    refine owners_le rfl ?_ ?_
    · show tx.cmdQueue.countP _ ≤ _
      rw [book]
    · intro pkt hpkt
      change tx.pendingPackets.lookup _ = some pkt at hpkt
      rw [book] at hpkt
      exact ⟨pkt, hpkt⟩
  | packet tx p clean running next pkt arrived connected effect =>
    refine owners_le rfl (le_of_eq ?_) fun p hp => ?_
    · show tx.cmdQueue.countP _ = _
      rw [effect.cmdQueue]
      rfl
    · rcases effect.pending_cases hp with hold | hty | ⟨rec, -, hkey⟩
      · exact ⟨p, hold⟩
      · cases hty
      · cases hkey
  | command tx p clean running next cmd rest queue taken connected effect =>
    have hrest : tx.cmdQueue = rest := effect.cmdQueue
    have hcount : s.tx.cmdQueue.countP (Command.carries id) =
        rest.countP (Command.carries id) + if cmd.carries id then 1 else 0 := by
      rw [queue, List.countP_cons]
    by_cases hcarries : cmd.carries id = true
    · -- The command may move from the queue to the pending packets.
      have hone : Table.hit (fun _ => true) (tx.pendingPackets.lookup (.publish id)) ≤ 1 := by
        cases tx.pendingPackets.lookup (.publish id) <;> simp [Table.hit]
      show Table.count _ s.calls + tx.cmdQueue.countP _ +
        Table.hit _ (tx.pendingPackets.lookup (.publish id)) ≤ _
      rw [hrest, System.owners, System.unsent, hcount, if_pos hcarries]
      omega
    · refine owners_le rfl ?_ fun pkt hpkt => ?_
      · show tx.cmdQueue.countP _ ≤ _
        rw [hrest, hcount]
        omega
      · rcases effect.pending_cases hpkt with hold | ⟨pub, rfl, huses, hkey⟩ | ⟨hkey, -⟩
        · exact ⟨pkt, hold⟩
        · cases hkey
          exact absurd huses hcarries
        · cases hkey
  | finish status ended => exact le_rfl
  | fail n next stage => exact le_rfl
  | drain stage => exact le_rfl
  | wake stage => exact le_rfl
  | drop status ended => exact owners_le rfl (Nat.zero_le _) fun p hp => ⟨p, hp⟩

/-! ### The ledger -/

/-- At most one publish uses an identifier, and it was taken from the counter. -/
structure Owned (s : System τ) : Prop where
  counted : s.tx.Counted
  owners_le_one : ∀ id, s.owners id ≤ 1
  owned : ∀ id, 0 < s.owners id → Issued s.tx.history.allocated id

/-- Every identifier in use was taken from the counter, at most one publish uses it, and
a call that has yet to register finds no entry under its identifier. -/
structure Ledger (s : System τ) : Prop extends Owned s where
  packets : ∀ key p, s.tx.pendingPackets.lookup key = some p → key.ty ≠ .pubRec →
    Issued s.tx.history.allocated key.id
  subs : ∀ id sub, s.tx.pendingSubs.lookup id = some sub → Issued s.tx.history.allocated id
  notifiers : ∀ n id r, (s.tx.shared.notifierMap n).lookup id = some r →
    Issued s.tx.history.allocated id
  registering : ∀ id, 0 < Table.count (Call.registers id) s.calls →
    ∀ n, (s.tx.shared.notifierMap n).lookup id = none

/-- The identifier of no publish, release, subscription or unsubscription in flight, and
not registered in a notifier map. -/
structure Unused (s : System τ) (id : UInt16) : Prop where
  calls : ∀ c call, s.calls.lookup c = some call → call.holds id = false
  queue : ∀ cmd ∈ s.tx.cmdQueue, cmd.carries id = false
  publish : s.tx.pendingPackets.lookup (.publish id) = none
  pubRel : s.tx.pendingPackets.lookup (.pubRel id) = none
  unsubscribe : s.tx.pendingPackets.lookup (.unsubscribe id) = none
  pendingSubs : s.tx.pendingSubs.lookup id = none
  notifiers : ∀ n, (s.tx.shared.notifierMap n).lookup id = none

/-- The identifier is in use nowhere. -/
def isFree (s : System τ) (id : UInt16) : Bool :=
  s.owners id == 0 && (s.tx.pendingPackets.lookup (.pubRel id)).isNone &&
    (s.tx.pendingPackets.lookup (.unsubscribe id)).isNone &&
    (s.tx.pendingSubs.lookup id).isNone &&
    [.pubAck, .pubRec, .pubComp].all fun n => ((s.tx.shared.notifierMap n).lookup id).isNone

omit [Transport τ] in
theorem owners_of_isFree {id : UInt16} (h : s.isFree id = true) : s.owners id = 0 := by
  simp only [isFree, Bool.and_eq_true, beq_iff_eq] at h
  exact h.1.1.1.1

omit [Transport τ] in
theorem unused_of_isFree {id : UInt16} (h : s.isFree id = true) : Unused s id := by
  have howners := owners_of_isFree h
  simp only [isFree, Bool.and_eq_true, Option.isNone_iff_eq_none, List.all_cons, List.all_nil]
    at h
  obtain ⟨⟨⟨⟨-, hrel⟩, hunsub⟩, hsub⟩, hack, hrec, hcomp, -⟩ := h
  refine ⟨fun c call hcall => ?_, fun cmd hmem => ?_, ?_, hrel, hunsub, hsub, fun n => ?_⟩
  · rw [← Bool.not_eq_true]
    exact fun hholds => Nat.pos_iff_ne_zero.mp (owners_pos_of_call hcall hholds) howners
  · rw [← Bool.not_eq_true]
    exact fun hcarries => Nat.pos_iff_ne_zero.mp (owners_pos_of_queued hmem hcarries) howners
  · refine Option.eq_none_iff_forall_ne_some.mpr fun p hp => ?_
    rw [owners, hp, Table.hit_pos rfl] at howners
    omega
  · cases n <;> assumption

/-- A `PUBREC` answers an identifier that the client has taken. -/
def releasesIssued (s : System τ) : Event → Bool
  | .task e =>
    match s.arriving e with
    | some (.pubRec rec) => decide (Issued s.tx.history.allocated rec.packetId)
    | _ => true
  | .client _ => true

theorem owners_step (hstep : s.step e = some s') (id : UInt16) :
    s'.owners id ≤ s.owners id ∨ id = s.tx.shared.nextPacketId ∧
      s'.tx.history.allocated = s.tx.history.allocated + 1 ∧
      s'.owners id ≤ s.owners id + 1 := by
  cases e with
  | task e => exact Or.inl ((taskMove_of_taskStep hstep).owners id)
  | client e => exact (clientMove_of_clientStep hstep).owners id

/-- Ownership is kept if an identifier that is taken has no owner. -/
theorem Owned.step_free (h : Owned s) (hfree : s'.tx.history.allocated =
      s.tx.history.allocated + 1 → s.owners s.tx.shared.nextPacketId = 0)
    (hstep : s.step e = some s') : Owned s' where
  counted := h.counted.step (numbers_step hstep)
  owners_le_one id := by
    have hle := h.owners_le_one id
    rcases owners_step hstep id with hless | ⟨rfl, hallocated, hone⟩
    · omega
    · have hzero := hfree hallocated
      omega
  owned id hpos := by
    rcases owners_step hstep id with hless | ⟨rfl, hallocated, hone⟩
    · exact (h.owned id (by omega)).mono (numbers_step hstep).allocated_le
    · rw [hallocated]
      exact h.counted.issued

/-- Ownership is kept until the counter has gone round. -/
theorem Owned.step (h : Owned s) (hroom : s'.tx.history.allocated ≤ 65536)
    (hstep : s.step e = some s') : Owned s' := by
  refine h.step_free (fun hallocated => Nat.eq_zero_of_not_pos fun hpos => ?_) hstep
  exact h.counted.fresh (by omega) (h.owned _ hpos)

theorem packets_step (h : Ledger s) (hreleases : s.releasesIssued e = true)
    (hstep : s.step e = some s') {key : IdType} {p : Packet}
    (hp : s'.tx.pendingPackets.lookup key = some p) (hkey : key.ty ≠ .pubRec) :
    Issued s'.tx.history.allocated key.id := by
  have hle := (numbers_step hstep).allocated_le
  have hsame : s.tx.pendingPackets.lookup key = some p →
      Issued s'.tx.history.allocated key.id := fun hold => (h.packets key p hold hkey).mono hle
  cases e with
  | client e =>
    rw [(clientMove_of_clientStep hstep).sameTask.pendingPackets] at hp
    exact hsame hp
  | task e =>
    cases taskMove_of_taskStep hstep with
    | quiet tx p clean running next book =>
      change tx.pendingPackets.lookup key = _ at hp
      rw [book] at hp
      exact hsame hp
    | connAck tx p clean running next pkt arrived waiting book =>
      change tx.pendingPackets.lookup key = _ at hp
      rw [book] at hp
      exact hsame hp
    | packet tx p clean running next pkt arrived connected effect =>
      rcases effect.pending_cases hp with hold | hty | ⟨rec, rfl, rfl⟩
      · exact hsame hold
      · exact absurd hty hkey
      · simp only [releasesIssued, arrived, decide_eq_true_eq] at hreleases
        exact hreleases.mono hle
    | command tx p clean running next cmd rest queue taken connected effect =>
      rcases effect.pending_cases hp with hold | ⟨pub, rfl, huses, rfl⟩ | ⟨rfl, hallocated⟩
      · exact hsame hold
      · have hqueued : Command.publish pub ∈ s.tx.cmdQueue := by
          rw [queue]
          exact List.mem_cons_self
        exact (h.owned pub.packetId (owners_pos_of_queued hqueued huses)).mono hle
      · rw [show tx.history.allocated = s.tx.history.allocated + 1 from hallocated]
        exact h.counted.issued
    | _ => exact hsame hp

theorem pendingSubs_step (h : Ledger s) (hstep : s.step e = some s') {id : UInt16}
    {sub : PendingSub} (hsub : s'.tx.pendingSubs.lookup id = some sub) :
    Issued s'.tx.history.allocated id := by
  have hle := (numbers_step hstep).allocated_le
  have hsame : s.tx.pendingSubs.lookup id = some sub → Issued s'.tx.history.allocated id :=
    fun hold => (h.subs id sub hold).mono hle
  cases e with
  | client e =>
    rw [(clientMove_of_clientStep hstep).sameTask.pendingSubs] at hsub
    exact hsame hsub
  | task e =>
    cases taskMove_of_taskStep hstep with
    | quiet tx p clean running next book =>
      change tx.pendingSubs.lookup id = _ at hsub
      rw [book] at hsub
      exact hsame hsub
    | connAck tx p clean running next pkt arrived waiting book =>
      change tx.pendingSubs.lookup id = _ at hsub
      rw [book] at hsub
      exact hsame hsub
    | packet tx p clean running next pkt arrived connected effect =>
      exact hsame (effect.pendingSub_cases hsub)
    | command tx p clean running next cmd rest queue taken connected effect =>
      rcases effect.pendingSub_cases hsub with hold | ⟨rfl, hallocated⟩
      · exact hsame hold
      · rw [show tx.history.allocated = s.tx.history.allocated + 1 from hallocated]
        exact h.counted.issued
    | _ => exact hsame hsub

omit [Transport τ] in
/-- Only a call that has just taken the identifier has yet to register under it. -/
theorem CallStep.registers_cases {old : Option Call} {call : Call} {cmds : List Command}
    (h : CallStep s s' old call cmds) (id : UInt16) :
    Table.hit (Call.registers id) (some call) = 0 ∨ id = s.tx.shared.nextPacketId ∧
      s'.tx.history.allocated = s.tx.history.allocated + 1 := by
  cases h with
  | publish mode cmd qos hpid =>
    by_cases hid : cmd.packetId = id ∧ mode.qos ≠ .atMostOnce
    · obtain ⟨hnext, hallocated⟩ := hpid hid.2
      exact Or.inr ⟨hid.1.symm.trans hnext, hallocated⟩
    · refine Or.inl (if_neg fun hreg => hid ?_)
      cases mode <;> first | cases hreg | exact ⟨beq_iff_eq.mp hreg, QoS.noConfusion⟩
  | sent call cmd sends =>
    rcases call.sent_cases with ⟨_, h⟩ | ⟨_, _, h⟩ | ⟨_, h⟩ <;> rw [h] <;> exact Or.inl rfl
  | pollTopic call fut fut' waits => cases call <;> first | exact Or.inl rfl | cases waits
  | ready call fut result waits entry =>
    cases call <;> cases result <;> first | exact Or.inl rfl | cases waits
  | _ => exact Or.inl rfl

theorem registering_le (hstep : s.step e = some s') (id : UInt16) :
    Table.count (Call.registers id) s'.calls ≤ Table.count (Call.registers id) s.calls ∨
      id = s.tx.shared.nextPacketId ∧
        s'.tx.history.allocated = s.tx.history.allocated + 1 := by
  cases e with
  | task e =>
    have hcalls : s'.calls = s.calls := by
      cases taskMove_of_taskStep hstep <;> rfl
    exact Or.inl (le_of_eq (by rw [hcalls]))
  | client e =>
    cases (clientMove_of_clientStep hstep).callMove with
    | none calls queue => exact Or.inl (le_of_eq (by rw [calls]))
    | step c call cmds calls queue goes =>
      refine (goes.registers_cases id).imp_left fun hzero => ?_
      have hcount := Table.count_insert (Call.registers id) c call s.calls
      rw [calls]
      omega

/-- A registration, read off its label. -/
theorem register_of_label {n : Notifier} {id : UInt16}
    (hlabel : s.publishLabel e = .register n id) (hstep : s.step e = some s') :
    ∃ c cmd, s.calls.lookup c = some (.registering cmd n) ∧ cmd.packetId = id ∧
      s' = s.registerPublish c cmd n := by
  unfold publishLabel at hlabel
  split at hlabel
  · rename_i c
    split at hlabel
    · rename_i cmd n' hcall
      cases hlabel
      simp only [System.step, clientStep, hcall] at hstep
      exact ⟨c, cmd, hcall, rfl, (Option.some.inj hstep).symm⟩
    · cases hlabel
  · split at hlabel
    · split at hlabel <;> cases hlabel
    · cases hlabel
  · split at hlabel <;> cases hlabel
  · cases hlabel

theorem notifiers_step (h : Ledger s) (hstep : s.step e = some s') {n : Notifier} {id : UInt16}
    {r : NotifyResult} (hr : (s'.tx.shared.notifierMap n).lookup id = some r) :
    Issued s'.tx.history.allocated id := by
  have hle := (numbers_step hstep).allocated_le
  obtain ⟨l, hl, hmove⟩ := publishStep hstep
  rcases hmove.entry_origin hr with ⟨r', hold⟩ | hreg
  · exact (h.notifiers n id r' hold).mono hle
  · have hlabel := publishLabel_of hl hreg Publishers.Label.noConfusion
    obtain ⟨c, cmd, hcall, rfl, -⟩ := register_of_label hlabel hstep
    have hholds : (Call.registering cmd n).holds cmd.packetId = true := beq_self_eq_true _
    exact (h.owned _ (owners_pos_of_call hcall hholds)).mono hle

omit [Transport τ] in
theorem registering_le_owners (s : System τ) (id : UInt16) :
    Table.count (Call.registers id) s.calls ≤ s.owners id := by
  have hle : Table.count (Call.registers id) s.calls ≤ Table.count (Call.holds id) s.calls :=
    List.countP_mono_left fun e _ he => Call.holds_of_registers he
  unfold owners unsent
  omega

theorem registering_step (h : Ledger s) (hfree : s'.tx.history.allocated =
      s.tx.history.allocated + 1 → Unused s s.tx.shared.nextPacketId)
    (hstep : s.step e = some s') {id : UInt16}
    (hcount : 0 < Table.count (Call.registers id) s'.calls) (n : Notifier) :
    (s'.tx.shared.notifierMap n).lookup id = none := by
  rw [Option.eq_none_iff_forall_ne_some]
  intro r hr
  obtain ⟨l, hl, hmove⟩ := publishStep hstep
  rcases hmove.entry_origin hr with ⟨r', hold⟩ | hreg
  · have hnone : Table.count (Call.registers id) s.calls = 0 := by
      by_contra hne
      cases hold.symm.trans (h.registering id (Nat.pos_of_ne_zero hne) n)
    rcases registering_le hstep id with hle | ⟨rfl, hallocated⟩
    · omega
    · cases hold.symm.trans ((hfree hallocated).notifiers n)
  · -- The only call with this identifier has just registered.
    have hlabel := publishLabel_of hl hreg Publishers.Label.noConfusion
    obtain ⟨c, cmd, hcall, rfl, rfl⟩ := register_of_label hlabel hstep
    let fut := (PublishFuture.new cmd.packetId n s.tx.shared).1
    have hins := Table.count_insert (Call.registers cmd.packetId) c
      (.sendingPublish cmd (some fut)) s.calls
    have hregisters : (Call.registering cmd n).registers cmd.packetId = true :=
      beq_self_eq_true _
    have hzero : Table.hit (Call.registers cmd.packetId)
        (some (.sendingPublish cmd (some fut))) = 0 := rfl
    rw [hcall, Table.hit_pos hregisters, hzero] at hins
    have hle := Nat.le_trans (registering_le_owners s cmd.packetId) (h.owners_le_one _)
    change 0 < Table.count _ (s.calls.insert c (.sendingPublish cmd (some fut))) at hcount
    omega

/-- The ledger is kept if an identifier that is taken is free. -/
theorem Ledger.step (h : Ledger s) (hfree : s'.tx.history.allocated =
      s.tx.history.allocated + 1 → s.isFree s.tx.shared.nextPacketId = true)
    (hreleases : s.releasesIssued e = true) (hstep : s.step e = some s') : Ledger s' where
  toOwned := h.toOwned.step_free (fun hallocated => owners_of_isFree (hfree hallocated)) hstep
  packets _ _ := packets_step h hreleases hstep
  subs _ _ := pendingSubs_step h hstep
  notifiers _ _ _ := notifiers_step h hstep
  registering _ := registering_step h (fun hallocated => unused_of_isFree (hfree hallocated)) hstep

omit [Transport τ] in
theorem owned_spawn (setup : Setup τ) : Owned (spawn setup) where
  counted := rfl
  owners_le_one _ := Nat.zero_le 1
  owned _ hpos := absurd hpos (lt_irrefl 0)

omit [Transport τ] in
theorem ledger_spawn (setup : Setup τ) : Ledger (spawn setup) where
  toOwned := owned_spawn setup
  packets _ _ hp := by cases hp
  subs _ _ hsub := by cases hsub
  notifiers n _ _ hr := by cases n <;> cases hr
  registering _ hcount := absurd hcount (lt_irrefl 0)

omit [Transport τ] in
/-- An identifier that was never taken is free. -/
theorem Ledger.isFree (h : Ledger s) {id : UInt16}
    (hid : ¬ Issued s.tx.history.allocated id) : s.isFree id = true := by
  have hpacket : ∀ key : IdType, key.ty ≠ .pubRec → key.id = id →
      s.tx.pendingPackets.lookup key = none := by
    rintro key hkey rfl
    exact Option.eq_none_iff_forall_ne_some.mpr fun p hp => hid (h.packets key p hp hkey)
  have howners : s.owners id = 0 := Nat.eq_zero_of_not_pos fun hpos => hid (h.owned id hpos)
  have hsub : s.tx.pendingSubs.lookup id = none :=
    Option.eq_none_iff_forall_ne_some.mpr fun sub hsub => hid (h.subs id sub hsub)
  have hnotifier : ∀ n, (s.tx.shared.notifierMap n).lookup id = none := fun n =>
    Option.eq_none_iff_forall_ne_some.mpr fun r hr => hid (h.notifiers n id r hr)
  simp [System.isFree, howners, hsub, hnotifier, hpacket (.pubRel id) nofun rfl,
    hpacket (.unsubscribe id) nofun rfl]

/-- The step takes an identifier. -/
def takes (s : System τ) : Event → Bool
  | .client (.publish _ mode _ _ _) => mode.qos != .atMostOnce
  | .task e => (s.consumed e).any s.tx.takes
  | _ => false

/-- An identifier that the step takes is one of the first `2^16`, or it is free. -/
def takesFree (s : System τ) (e : Event) : Bool :=
  !s.takes e || decide (s.tx.history.allocated < 65536) || s.isFree s.tx.shared.nextPacketId

theorem takes_of_allocated (hstep : s.step e = some s')
    (hallocated : s'.tx.history.allocated = s.tx.history.allocated + 1) : s.takes e = true := by
  have hsame : ∀ {P : Prop}, s'.tx.history.allocated = s.tx.history.allocated → P := fun h => by
    omega
  cases e with
  | client e =>
    rcases (clientMove_of_clientStep hstep).counters_cases with
      ⟨c, mode, topic, payload, retain, rfl, rfl⟩ |
        ⟨c, topic, qos, req, actual, kind, built, -, -, made, rfl⟩ | hcounters
    · cases hqos : mode.qos with
      | atMostOnce =>
        refine hsame ?_
        unfold startPublish encodePublish
        rw [if_pos hqos]
        split <;> rfl
      | _ => simp [takes, hqos]
    · refine hsame ?_
      rw [buildKind_frame made]
      rfl
    · exact hsame (congrArg History.allocated hcounters.history)
  | task e =>
    cases taskMove_of_taskStep hstep with
    | quiet tx p clean running next book => exact hsame (congrArg (·.history.allocated) book)
    | connAck tx p clean running next pkt arrived waiting book =>
      exact hsame (congrArg (·.history.allocated) book)
    | packet tx p clean running next pkt arrived connected effect =>
      exact hsame effect.sameNumbers.allocated
    | command tx p clean running next cmd rest queue taken connected effect =>
      rw [takes, taken, Option.any_some]
      exact effect.takes hallocated
    | _ => exact hsame rfl

theorem Ledger.takesFree (h : Ledger s) (hstep : s.step e = some s')
    (hfree : s.takesFree e = true)
    (hallocated : s'.tx.history.allocated = s.tx.history.allocated + 1) :
    s.isFree s.tx.shared.nextPacketId = true := by
  rw [System.takesFree, takes_of_allocated hstep hallocated, Bool.not_true, Bool.false_or,
    Bool.or_eq_true, decide_eq_true_eq] at hfree
  exact hfree.elim (fun hroom => h.isFree (h.counted.fresh hroom)) id

/-- In every run in which a `PUBREC` only answers identifiers that the client has taken, and
every identifier that is taken is one of the first `2^16` or free: an identifier that is taken
next under this condition is not in use; a publish call that registers replaces no entry; and a
publish that the task takes from the queue replaces no pending packet. -/
theorem identifiers_not_reused (setup : Setup τ)
    (h : Reaches System.step (fun s e => releasesIssued s e = true ∧ takesFree s e = true)
      (spawn setup) s) :
    (s.tx.history.allocated < 65536 ∨ s.isFree s.tx.shared.nextPacketId = true →
      Unused s s.tx.shared.nextPacketId) ∧
    (∀ c cmd n, s.calls.lookup c = some (.registering cmd n) →
      (s.tx.shared.notifierMap n).lookup cmd.packetId = none) ∧
    ∀ cmd, .publish cmd ∈ s.tx.cmdQueue → cmd.qos ≠ .atMostOnce →
      s.tx.pendingPackets.lookup (.publish cmd.packetId) = none := by
  have hledger : Ledger s := h.invariant (I := Ledger) (ledger_spawn setup)
    fun _ _ _ hs hok hstep => hs.step (hs.takesFree hstep hok.2) hok.1 hstep
  refine ⟨fun hfree => ?_, fun c cmd n hcall => ?_, fun cmd hmem hqos => ?_⟩
  · exact unused_of_isFree (hfree.elim (fun hroom => hledger.isFree (hledger.counted.fresh hroom))
      id)
  · refine hledger.registering cmd.packetId ?_ n
    have hcount := Table.hit_le_count (Call.registers cmd.packetId) c s.calls
    have hregisters : (Call.registering cmd n).registers cmd.packetId = true :=
      beq_self_eq_true _
    rw [hcall, Table.hit_pos hregisters] at hcount
    exact hcount
  · rw [Option.eq_none_iff_forall_ne_some]
    intro p hp
    have hcarries : (Command.publish cmd).carries cmd.packetId = true := by
      simp [Command.carries, PublishCommand.uses, hqos]
    have hcount : 0 < s.tx.cmdQueue.countP (Command.carries cmd.packetId) :=
      List.countP_pos_iff.mpr ⟨_, hmem, hcarries⟩
    have hle := hledger.owners_le_one cmd.packetId
    rw [owners, unsent, hp, Table.hit_pos rfl] at hle
    omega

end Task

/-! ## Once round the counter -/

theorem exists_makePacket_shortPublish (id : UInt16) : ∃ packet, makePacket
    (⟨.new false .atLeastOnce false, ['t'], id, []⟩ : OutgoingPublishPacket) = .ok packet := by
  have hbytes : Str.asBytes ['t'] = [116] := by decide
  have hqos : (PublishFlags.new false .atLeastOnce false).qos ≠ .atMostOnce := by decide
  have hflags : (PublishFlags.new false .atLeastOnce false).val = 2 := by decide
  have hcontent : Encode.computeSize
      (⟨.new false .atLeastOnce false, ['t'], id, []⟩ : OutgoingPublishPacket) = 5 := by
    simp only [Encode.computeSize, hbytes, if_neg hqos]
    rfl
  have hsize : encodePacketSize (maxHeaderSize - 1) 5 = .ok [5] := rfl
  have hfill : ByteWriter.fill 5 (Encode.encode
      (⟨.new false .atLeastOnce false, ['t'], id, []⟩ : OutgoingPublishPacket)) =
        .ok (2, [0, 1, 116] ++ u16ToBe id) := by
    simp only [Encode.encode, hbytes, if_neg hqos, hflags]
    rfl
  rw [← hcontent] at hsize hfill
  exact ⟨_, makePacket_eq_ok hsize hfill rfl⟩

/-- A call publishes with quality 1 and does not wait. -/
def shortPublish (c : Nat) : Event :=
  .client (.publish c (.noWait .atLeastOnce) ['t'] [] false)

section Round

variable [Transport τ]

/-- A state in which the calls from `c` on have not started. -/
structure Idle (s : System τ) (c : Nat) : Prop where
  connected : s.handle = .connected
  fresh : ∀ c', c ≤ c' → s.calls.lookup c' = none

theorem step_shortPublish {c : Nat} (h : Idle s c) :
    ∃ s' cmd, s.step (shortPublish c) = some s' ∧ s'.handle = .connected ∧
      s'.calls = s.calls.insert c (.sendingPublish cmd none) ∧
      cmd.packetId = s.tx.shared.nextPacketId ∧
      s'.tx.toBook = s.tx.takePacketId.logEncoded (.publish
        ⟨.new false .atLeastOnce false, ['t'], s.tx.shared.nextPacketId, []⟩) := by
  obtain ⟨packet, hpacket⟩ := exists_makePacket_shortPublish s.tx.shared.nextPacketId
  refine ⟨s.startPublish c (.noWait .atLeastOnce) ['t'] [] false,
    ⟨s.tx.shared.nextPacketId, .atLeastOnce, packet⟩,
    if_pos ⟨h.connected, h.fresh c le_rfl⟩, ?_⟩
  have hqos : (PublishMode.noWait .atLeastOnce).qos ≠ .atMostOnce := QoS.noConfusion
  rw [startPublish, if_neg hqos, encodePublish,
    show (PublishMode.noWait .atLeastOnce).qos = .atLeastOnce from rfl, hpacket]
  exact ⟨h.connected, rfl, rfl, rfl⟩

/-- A publish call that is dropped before its command is sent uses up an identifier. -/
theorem reaches_dropped {c : Nat} (h : Idle s c) :
    ∃ s', Reaches System.step always s s' ∧ Idle s' (c + 1) ∧
      s'.tx.shared.nextPacketId = s.tx.shared.nextPacketId + 1 ∧
      s'.tx.pendingPackets = s.tx.pendingPackets := by
  obtain ⟨s₁, cmd, hpublish, hconnected, hcalls, -, hbook⟩ := step_shortPublish h
  have hcall : s₁.calls.lookup c = some (.sendingPublish cmd none) := by
    rw [hcalls]
    exact AList.lookup_insert _
  have hcancel : s₁.step (.client (.cancel c)) = some (s₁.setCall c (.done .cancelled)) := by
    simp [System.step, clientStep, stepCancel, hcall]
  refine ⟨_, .tail (.tail .refl trivial hpublish) trivial hcancel, ⟨hconnected, fun c' hle => ?_⟩,
    ?_, ?_⟩
  · have hne : c' ≠ c := by omega
    show (s₁.calls.insert c _).lookup c' = none
    rw [hcalls, AList.lookup_insert_ne hne, AList.lookup_insert_ne hne]
    exact h.fresh c' (by omega)
  · show s₁.tx.shared.nextPacketId = _
    rw [hbook]
    rfl
  · show s₁.tx.pendingPackets = _
    rw [hbook]
    rfl

/-- So do many of them. -/
theorem reaches_dropped_many {c : Nat} (h : Idle s c) (n : Nat) :
    ∃ s', Reaches System.step always s s' ∧ Idle s' (c + n) ∧
      s'.tx.shared.nextPacketId = s.tx.shared.nextPacketId + UInt16.ofNat n ∧
      s'.tx.pendingPackets = s.tx.pendingPackets := by
  induction n with
  | zero => exact ⟨s, .refl, h, by simp, rfl⟩
  | succ n ih =>
    obtain ⟨s₁, hrun, hidle, hnext, hpending⟩ := ih
    obtain ⟨s₂, hlast, hidle', hnext', hpending'⟩ := reaches_dropped hidle
    refine ⟨s₂, hrun.trans hlast, hidle', ?_, hpending'.trans hpending⟩
    rw [hnext', hnext, UInt16.add_assoc]
    congr 1
    exact (UInt16.ofNat_add n 1).symm

end Round

/-- One publish is taken on by the task and never acknowledged. -/
def unacknowledged : List Event := connecting ++ [shortPublish 0, .client (.send 0), .task .command]

theorem encoded_identifiers_nonzero_short :
    ∃ s, Reaches System.step always (spawn (silentSetup false)) s ∧
      s.tx.history.encoded.length = 1 ∧ s.tx.history.allocated < 65536 ∧
      ∀ p ∈ s.tx.history.encoded, p.identifier ≠ some 0 := by
  have hrun : (runUnder System.step always (spawn (silentSetup false)) unacknowledged).any
      (fun s => s.tx.history.encoded.length == 1 && s.tx.history.allocated == 1) = true := by
    decide +kernel
  obtain ⟨s, hs, hp⟩ := exists_reaches _ hrun
  simp only [Bool.and_eq_true, beq_iff_eq] at hp
  have hroom : s.tx.history.allocated < 65536 := by omega
  exact ⟨s, hs, hp.1, hroom, encoded_identifiers_nonzero (silentSetup false) hs hroom⟩

theorem idle_of_keys {s : System TcpTransport} {c : Nat} (hconnected : s.handle = .connected)
    (hkeys : ∀ c' ∈ s.calls.keys, c' < c) : Idle s c := by
  refine ⟨hconnected, fun c' hle => AList.lookup_eq_none.mpr fun hmem => ?_⟩
  have hlt := hkeys c' (AList.mem_keys.mp hmem)
  omega

/-- The identifier number 65535, counted from 0, is 0. -/
theorem encoded_identifier_zero :
    ∃ s, Reaches System.step always (spawn (silentSetup false)) s ∧
      ∃ p ∈ s.tx.history.encoded, p.identifier = some 0 := by
  have hrun : (runUnder System.step always (spawn (silentSetup false)) connecting).any
      (fun s => s.handle == .connected && s.calls.keys == [] &&
        s.tx.shared.nextPacketId == 1) = true := by
    decide +kernel
  obtain ⟨s, hs, hp⟩ := exists_reaches _ hrun
  simp only [Bool.and_eq_true, beq_iff_eq] at hp
  obtain ⟨⟨hconnected, hkeys⟩, hone⟩ := hp
  have hidle : Idle s 0 := idle_of_keys hconnected (by simp [hkeys])
  obtain ⟨s₁, hround, hidle₁, hnext, -⟩ := reaches_dropped_many hidle 65535
  have hzero : s₁.tx.shared.nextPacketId = 0 := by
    rw [hnext, hone]
    decide
  obtain ⟨s₂, cmd, hstep, -, -, -, hbook⟩ := step_shortPublish hidle₁
  refine ⟨s₂, .tail (hs.trans hround) trivial hstep,
    .publish ⟨.new false .atLeastOnce false, ['t'], s₁.tx.shared.nextPacketId, []⟩, ?_, ?_⟩
  · rw [hbook]
    exact List.mem_append_right _ List.mem_cons_self
  · rw [hzero]
    decide

theorem identifiers_not_reused_short :
    ∃ s, Reaches System.step (fun s e => releasesIssued s e = true ∧ takesFree s e = true)
        (spawn (silentSetup false)) s ∧
      (s.tx.pendingPackets.lookup (.publish 1)).isSome = true ∧
      s.tx.history.allocated < 65536 ∧ Unused s s.tx.shared.nextPacketId := by
  have hrun : (runUnder System.step (fun s e => releasesIssued s e = true ∧ takesFree s e = true)
      (spawn (silentSetup false)) unacknowledged).any (fun s =>
        (s.tx.pendingPackets.lookup (.publish 1)).isSome &&
          s.tx.history.allocated == 1) = true := by
    decide +kernel
  obtain ⟨s, hs, hp⟩ := exists_reaches _ hrun
  simp only [Bool.and_eq_true, beq_iff_eq] at hp
  have hroom : s.tx.history.allocated < 65536 := by omega
  exact ⟨s, hs, hp.1, hroom,
    (identifiers_not_reused (silentSetup false) hs).1 (Or.inl hroom)⟩

/-- While the publish with the identifier 1 is not acknowledged, the counter goes round,
and another publish takes the identifier 1. -/
theorem identifier_reused :
    ∃ s s' c cmd, Reaches System.step always (spawn (silentSetup false)) s ∧
      (s.tx.pendingPackets.lookup (.publish 1)).isSome = true ∧
      s.step (shortPublish c) = some s' ∧
      s'.calls.lookup c = some (.sendingPublish cmd none) ∧ cmd.packetId = 1 := by
  have hrun : (runUnder System.step always (spawn (silentSetup false)) unacknowledged).any
      (fun s => s.handle == .connected && s.calls.keys == [0] &&
        s.tx.shared.nextPacketId == 2 &&
        (s.tx.pendingPackets.lookup (.publish 1)).isSome) = true := by
    decide +kernel
  obtain ⟨s, hs, hp⟩ := exists_reaches _ hrun
  simp only [Bool.and_eq_true, beq_iff_eq] at hp
  obtain ⟨⟨⟨hconnected, hkeys⟩, htwo⟩, hpending⟩ := hp
  have hidle : Idle s 1 := idle_of_keys hconnected (by simp [hkeys])
  obtain ⟨s₁, hround, hidle₁, hnext, hsame⟩ := reaches_dropped_many hidle 65535
  have hone : s₁.tx.shared.nextPacketId = 1 := by
    rw [hnext, htwo]
    decide
  obtain ⟨s₂, cmd, hstep, -, hcalls, hid, -⟩ := step_shortPublish hidle₁
  refine ⟨s₁, s₂, _, cmd, hs.trans hround, ?_, hstep, ?_, hid.trans hone⟩
  · rw [hsame]
    exact hpending
  · rw [hcalls]
    exact AList.lookup_insert _

end System

end Lmc
