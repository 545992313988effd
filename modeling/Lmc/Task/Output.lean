import Lmc.Task.Phases

/-!
# The output stream

Whatever the transport accepts of each write, the bytes it has accepted, followed by the
rest of the packet in transmission and the queued packets, are the packets handed over,
in order. This is `Link.Output`, together with the fact that nothing is queued while
nothing is transmitted.

`trySendPacket` takes a packet that is in neither place, so its lemma gives its exact
effect (`run_trySendPacket`). From it follow the loop over the queue and the round of the
write loop (`writeOnce_cases`), for writes that may fail, and the programs of the task for
those that do not.
-/

namespace Lmc

/-- The bytes of a packet on the wire. -/
def InternalPacket.wire (p : InternalPacket) : List UInt8 :=
  (if p.setDup then p.packet.ctrl ||| PublishFlags.dup else p.packet.ctrl) :: p.packet.rest

/-- The part of a packet in transmission that is still to be sent. -/
def TxPacket.unsent (tx : TxPacket) : List UInt8 :=
  (InternalPacket.wire ⟨tx.packet, tx.setDup⟩).drop tx.pos

namespace Link

open EStateLogic

variable {τ : Type}

def unsent (link : Link τ) : List UInt8 := (link.txPkt.map TxPacket.unsent).getD []

def queued (link : Link τ) : List UInt8 := link.internalPktQueue.flatMap InternalPacket.wire

def handedBytes (link : Link τ) : List UInt8 := link.handed.flatMap InternalPacket.wire

/-- The write loop has something to go on with: nothing is queued while nothing is transmitted,
and the packet in transmission is not at its end. -/
structure Ready (link : Link τ) : Prop where
  queue : link.txPkt = none → link.internalPktQueue = []
  pos : ∀ tx, link.txPkt = some tx → tx.pos < tx.packet.bytes.length

/-- Every packet handed over is accepted, in transmission or queued, and the write loop has
something to go on with. -/
structure Output (link : Link τ) : Prop extends Ready link where
  stream : link.accepted ++ link.unsent ++ link.queued = link.handedBytes

/-- The output is in order and the transport has not failed. -/
structure Sound (good : τ → Prop) (link : Link τ) : Prop extends Output link where
  good : good link.transport

theorem length_wire (p : InternalPacket) : p.wire.length = p.packet.bytes.length := rfl

/-- Behind its first byte a packet is sent as it is. -/
theorem take_offered (tx : TxPacket) {n : Nat} (h : n ≤ (offered tx).length) :
    (offered tx).take n = tx.unsent.take n := by
  unfold offered TxPacket.unsent InternalPacket.wire Packet.bytes at *
  cases hdup : tx.setDup with
  | false => simp
  | true =>
    by_cases hpos : tx.pos = 0
    · simp only [hdup, hpos, beq_self_eq_true, Bool.and_self, if_true, List.length_singleton] at h
      match n, h with
      | 0, _ => rfl
      | 1, _ => simp [hpos]
    · obtain ⟨m, hm⟩ := Nat.exists_eq_succ_of_ne_zero hpos
      simp [hm]

/-- What is accepted, in transmission and queued. -/
def stream (link : Link τ) : List UInt8 := link.accepted ++ link.unsent ++ link.queued

/-- The bytes that a round writes move from the unsent part to the accepted one. -/
theorem unsent_split (tx : TxPacket) {n : Nat} (h : n ≤ (offered tx).length) :
    tx.unsent = (offered tx).take n ++ TxPacket.unsent { tx with pos := tx.pos + n } := by
  rw [take_offered tx h, TxPacket.unsent, TxPacket.unsent, ← List.drop_drop,
    List.take_append_drop]

theorem stream_accept_nil (t : τ) (link : Link τ) : (link.accept t []).stream = link.stream := by
  simp only [stream, accept, unsent, queued, List.append_nil]

/-- What is left to send gets less as the accepted bytes grow. -/
theorem left_lt {link link' : Link τ} (hstream : link'.stream = link.stream)
    (haccepted : link.accepted.length < link'.accepted.length) :
    (link'.unsent ++ link'.queued).length < (link.unsent ++ link.queued).length := by
  have hlen := congrArg List.length hstream
  simp only [stream, List.length_append] at hlen ⊢
  omega

section Writes

variable [Transport τ] {good : τ → Prop} {fails : Bool → IoError → Prop}

section Programs

variable (hw : Writes good fails) (link : Link τ)

include hw

theorem run_write (hg : good link.transport) (src : List UInt8) (z : Bool) :
    (∃ n t, n ≤ src.length ∧ good t ∧
      (write src z).run link = .ok n (link.accept t (src.take n))) ∨
    ∃ e t, fails z e ∧ good t ∧ (write src z).run link = .error (.io e) (link.setTransport t) := by
  simp only [write, EStateM.run_bind, EStateM.run_get]
  rcases hw.write link.transport src z hg with ⟨n, t, hn, ht, hres⟩ | ⟨e, t, he, ht, hres⟩
  · rw [hres]
    exact Or.inl ⟨n, t, hn, ht, rfl⟩
  · rw [hres]
    exact Or.inr ⟨e, t, he, ht, rfl⟩

theorem run_flush (hg : good link.transport) :
    ∃ t, good t ∧ flush.run link = .ok () (link.setTransport t) := by
  obtain ⟨t, ht, hres⟩ := hw.flush link.transport hg
  refine ⟨t, ht, ?_⟩
  simp only [flush, EStateM.run_bind, EStateM.run_get]
  rw [hres]
  rfl

theorem run_writeFirst (hg : good link.transport) (packet : Packet) (setDup : Bool) :
    (∃ n t, n ≤ packet.bytes.length ∧ good t ∧ (writeFirst packet setDup).run link =
      .ok n (link.accept t ((InternalPacket.wire ⟨packet, setDup⟩).take n))) ∨
    ∃ e link', fails true e ∧ (writeFirst packet setDup).run link = .error (.io e) link' := by
  unfold writeFirst
  cases setDup with
  | false =>
    rcases run_write hw link hg packet.bytes true with hok | ⟨e, t, he, -, hrun⟩
    · exact Or.inl hok
    · exact Or.inr ⟨e, _, he, hrun⟩
  | true =>
    rcases run_write hw link hg [packet.ctrl ||| PublishFlags.dup] true with
      ⟨n, t, hn, ht, hrun⟩ | ⟨e, t, he, -, hrun⟩
    · simp only [if_true, EStateM.run_bind, hrun]
      match n, hn with
      | 0, _ => exact Or.inl ⟨0, t, Nat.zero_le _, ht, rfl⟩
      | 1, _ =>
        rcases run_write hw (link.accept t [packet.ctrl ||| PublishFlags.dup]) ht
          (packet.bytes.drop 1) true with ⟨m, t', hm, ht', hrun'⟩ | ⟨e, t', he, -, hrun'⟩
        · refine Or.inl ⟨1 + m, t', ?_, ht', ?_⟩
          · simp only [Packet.bytes, List.drop_succ_cons, List.drop_zero, List.length_cons] at hm ⊢
            omega
          · have htake : (InternalPacket.wire ⟨packet, true⟩).take (1 + m) =
                [packet.ctrl ||| PublishFlags.dup] ++ (packet.bytes.drop 1).take m := by
              rw [Nat.add_comm]
              rfl
            simp only [List.take_succ_cons, List.take_zero, Nat.lt_one_iff, gt_iff_lt, if_true,
              EStateM.run_bind, hrun', EStateM.run_pure, htake]
            simp [accept]
        · refine Or.inr ⟨e, (link.accept t [packet.ctrl ||| PublishFlags.dup]).setTransport t', he,
            ?_⟩
          simp only [List.take_succ_cons, List.take_zero, Nat.lt_one_iff, gt_iff_lt, if_true,
            EStateM.run_bind, hrun']
    · refine Or.inr ⟨e, link.setTransport t, he, ?_⟩
      simp only [if_true, EStateM.run_bind, hrun]

/-- The exact effect of sending a packet while nothing is in transmission: a prefix of
it is accepted and the rest stays in transmission. -/
theorem run_trySendPacket (hg : good link.transport) (htx : link.txPkt = none) (packet : Packet)
    (setDup : Bool) :
    (∃ n t, n ≤ packet.bytes.length ∧ good t ∧ (trySendPacket packet setDup).run link =
      .ok () ((link.accept t ((InternalPacket.wire ⟨packet, setDup⟩).take n)).setTx
        (if packet.bytes.length ≤ n then none else some ⟨packet, n, setDup⟩))) ∨
    ∃ e link', fails true e ∧ (trySendPacket packet setDup).run link = .error (.io e) link' := by
  simp only [trySendPacket, EStateM.run_bind, EStateM.run_get, htx, Option.isSome_none,
    Bool.false_eq_true, if_false]
  rcases run_writeFirst hw link hg packet setDup with
    ⟨n, t, hn, ht, hrun⟩ | ⟨e, link', he, hrun⟩
  · rw [hrun]
    by_cases hfull : packet.bytes.length ≤ n
    · obtain ⟨t', ht', hflush⟩ := run_flush hw
        (link.accept t ((InternalPacket.wire ⟨packet, setDup⟩).take n)) ht
      refine Or.inl ⟨n, t', hn, ht', ?_⟩
      simp only [if_pos hfull, hflush]
      simp [setTransport, accept, setTx, htx]
    · refine Or.inl ⟨n, t, hn, ht, ?_⟩
      simp only [if_neg hfull]
      rfl
  · rw [hrun]
    exact Or.inr ⟨e, link', he, rfl⟩

theorem trySendPacket_accounts (hg : good link.transport) (htx : link.txPkt = none)
    (packet : Packet) (setDup : Bool) :
    (∃ link', (trySendPacket packet setDup).run link = .ok () link' ∧ good link'.transport ∧
      link'.accepted ++ link'.unsent = link.accepted ++ InternalPacket.wire ⟨packet, setDup⟩ ∧
      link.accepted <+: link'.accepted ∧ link'.internalPktQueue = link.internalPktQueue ∧
      link'.handed = link.handed ∧
      ∀ tx, link'.txPkt = some tx → tx.pos < tx.packet.bytes.length) ∨
    ∃ e link', fails true e ∧ (trySendPacket packet setDup).run link = .error (.io e) link' := by
  rcases run_trySendPacket hw link hg htx packet setDup with ⟨n, t, hn, ht, hrun⟩ | hfail
  · refine Or.inl ⟨_, hrun, ht, ?_, List.prefix_append _ _, rfl, rfl, fun tx hsome => ?_⟩
    · show link.accepted ++ (InternalPacket.wire ⟨packet, setDup⟩).take n ++
        (Option.map TxPacket.unsent _).getD [] = _
      rw [List.append_assoc]
      congr 1
      split
      · rename_i hfull
        rw [← length_wire ⟨packet, setDup⟩] at hfull
        rw [List.take_of_length_le hfull]
        exact List.append_nil _
      · exact List.take_append_drop _ _
    · change (if _ then none else some _) = some tx at hsome
      split at hsome
      · cases hsome
      · rename_i hfull
        cases hsome
        exact Nat.lt_of_not_le hfull
  · exact Or.inr hfail

/-- The packets of the queue are sent until one is cut or the queue is empty. -/
theorem run_sendQueued (q : List InternalPacket) : ∀ link : Link τ, good link.transport →
    link.txPkt = none → link.internalPktQueue = q →
    (∃ link', (sendQueued q).run link = .ok () link' ∧ good link'.transport ∧
      link'.handed = link.handed ∧ link.accepted <+: link'.accepted ∧
      link'.stream = link.accepted ++ q.flatMap InternalPacket.wire ∧ Ready link') ∨
    ∃ e link', fails true e ∧ (sendQueued q).run link = .error (.io e) link' := by
  induction q with
  | nil =>
    intro link hg htx hq
    refine Or.inl ⟨link, rfl, hg, rfl, List.prefix_rfl, ?_, fun _ => hq, fun tx hsome => ?_⟩
    · simp [stream, unsent, queued, htx, hq]
    · cases htx.symm.trans hsome
  | cons pkt rest ih =>
    intro link hg htx hq
    have hmod : (modify (setQueue rest) : LinkM τ PUnit).run link =
        .ok .unit (link.setQueue rest) := rfl
    simp only [sendQueued, EStateM.run_bind, hmod]
    rcases trySendPacket_accounts hw (link.setQueue rest) hg htx pkt.packet pkt.setDup with
      ⟨l, hrun, hgood, hacc, hgrows, hqueue, hhanded, hpos⟩ | ⟨e, l, he, hrun⟩
    · simp only [hrun, EStateM.run_get]
      cases htx' : l.txPkt with
      | some tx =>
        refine Or.inl ⟨l, rfl, hgood, hhanded, hgrows, ?_, fun h => ?_, hpos⟩
        · rw [stream, hacc, queued, hqueue, List.flatMap_cons, List.append_assoc]
          rfl
        · rw [htx'] at h
          cases h
      | none =>
        rcases ih l hgood htx' hqueue with
          ⟨l', hrun', hgood', hhanded', hgrows', hacc', hready⟩ | hfail
        · refine Or.inl ⟨l', hrun', hgood', hhanded'.trans hhanded, hgrows.trans hgrows', ?_,
            hready⟩
          have hunsent : l.unsent = [] := by rw [unsent, htx']; rfl
          rw [hunsent, List.append_nil] at hacc
          rw [hacc', hacc, List.flatMap_cons, List.append_assoc]
          rfl
        · exact Or.inr hfail
    · rw [hrun]
      exact Or.inr ⟨e, l, he, rfl⟩

theorem run_finishPacket (hg : good link.transport) :
    (∃ link', finishPacket.run link = .ok () link' ∧ good link'.transport ∧
      link'.handed = link.handed ∧ link.accepted <+: link'.accepted ∧
      link'.stream = link.accepted ++ link.queued ∧ Ready link') ∨
    ∃ e link', fails true e ∧ finishPacket.run link = .error (.io e) link' := by
  obtain ⟨t, ht, hflush⟩ := run_flush hw link hg
  have hclear : clearTxPacket.run (link.setTransport t) =
      (sendQueued link.internalPktQueue).run ((link.setTransport t).setTx none) := rfl
  simp only [finishPacket, EStateM.run_bind, hflush, hclear]
  rcases run_sendQueued hw link.internalPktQueue ((link.setTransport t).setTx none) ht rfl rfl with
    ⟨l, hrun, hgood, hhanded, hgrows, hstream, hready⟩ | ⟨e, l, he, hrun⟩
  · rw [hrun]
    exact Or.inl ⟨{ l with nows := l.nows + 1, lastTx := l.clock l.nows }, rfl, hgood, hhanded,
      hgrows, hstream, hready.queue, hready.pos⟩
  · rw [hrun]
    exact Or.inr ⟨e, l, he, rfl⟩

end Programs

/-- What a round of the write loop does. -/
inductive Round (good : τ → Prop) (fails : Bool → IoError → Prop) (link : Link τ) :
    EStateM.Result Fault (Link τ) (Option Bool) → Prop
  | idle (resting : link.txPkt = none) : Round good fails link (.ok (some false) link)
  | closed (tx : TxPacket) (t : τ) (sending : link.txPkt = some tx) (fine : good t) :
      Round good fails link (.ok (some true) (link.accept t []))
  /-- The write of the loop fails, and nothing else has changed. -/
  | stops (tx : TxPacket) (e : IoError) (t : τ) (sending : link.txPkt = some tx)
      (allowed : fails false e) (fine : good t) :
      Round good fails link (.error (.io e) (link.setTransport t))
  /-- A packet from the queue cannot be sent. -/
  | breaks (e : IoError) (link' : Link τ) (allowed : fails true e) :
      Round good fails link (.error (.io e) link')
  | goesOn (link' : Link τ) (fine : good link'.transport) (handed : link'.handed = link.handed)
      (stream : link'.stream = link.stream) (ready : Ready link')
      (less : (link'.unsent ++ link'.queued).length < (link.unsent ++ link.queued).length) :
      Round good fails link (.ok none link')

theorem writeOnce_cases (hw : Writes good fails) (link : Link τ) (hg : good link.transport) :
    Round good fails link (writeOnce.run link) := by
  simp only [writeOnce, EStateM.run_bind, EStateM.run_get]
  cases htx : link.txPkt with
  | none => exact .idle htx
  | some tx =>
    have hunsent : link.unsent = tx.unsent := by rw [unsent, htx]; rfl
    simp only
    rcases run_write hw link hg (offered tx) false with
      ⟨n, t, hn, ht, hrun⟩ | ⟨e, t, he, ht, hrun⟩
    · rw [EStateM.run_bind, hrun]
      by_cases hzero : n = 0
      · subst hzero
        exact .closed tx t htx ht
      · have hsplit := unsent_split tx hn
        have htake : ((offered tx).take n).length = n := by
          rw [List.length_take, Nat.min_eq_left hn]
        have hmod : ∀ l : Link τ, (modify (setTx (some { tx with pos := tx.pos + n })) :
            LinkM τ PUnit).run l = .ok .unit (l.setTx (some { tx with pos := tx.pos + n })) :=
          fun _ => rfl
        simp only [if_neg hzero, EStateM.run_bind, hmod]
        by_cases hfull : tx.packet.bytes.length ≤ tx.pos + n
        · have hdone : TxPacket.unsent { tx with pos := tx.pos + n } = [] :=
            List.drop_eq_nil_of_le hfull
          rw [hdone, List.append_nil] at hsplit
          rw [if_pos hfull]
          rcases run_finishPacket hw
            ((link.accept t ((offered tx).take n)).setTx (some { tx with pos := tx.pos + n })) ht
            with ⟨l, hfin, hgood, hhanded, hgrows, hstream, hready⟩ | ⟨e, l, he, hfin⟩
          · rw [hfin]
            have hsame : l.stream = link.stream := by
              rw [hstream, stream, hunsent, hsplit]
              rfl
            have hlen := hgrows.length_le
            simp only [accept, setTx, List.length_append, htake] at hlen
            exact .goesOn l hgood hhanded hsame hready (left_lt hsame (by omega))
          · rw [hfin]
            exact .breaks e l he
        · rw [if_neg hfull]
          have hsame : ((link.accept t ((offered tx).take n)).setTx
              (some { tx with pos := tx.pos + n })).stream = link.stream := by
            rw [stream, stream, hunsent, hsplit, ← List.append_assoc]
            rfl
          refine .goesOn _ ht rfl hsame ⟨nofun, ?_⟩ (left_lt hsame ?_)
          · rintro _ ⟨⟩
            exact Nat.lt_of_not_le hfull
          · simp only [accept, setTx, List.length_append, htake]
            omega
    · rw [EStateM.run_bind, hrun]
      exact .stops tx e t htx he ht

section Partial

variable (hw : PartialWrites good) (link : Link τ)

include hw

/-- A packet handed over while nothing is in transmission. -/
theorem run_sendPacket (h : Sound good link) (htx : link.txPkt = none) (packet : Packet)
    (setDup : Bool) :
    ∃ link', (sendPacket packet setDup).run link = .ok () link' ∧ Sound good link' ∧
      link'.handed = link.handed ++ [⟨packet, setDup⟩] := by
  have haccounts := trySendPacket_accounts hw.writes (link.hand ⟨packet, setDup⟩) h.good htx packet
    setDup
  rcases haccounts with ⟨l, hrun, hgood, hacc, -, hqueue, hhanded, hpos⟩ | ⟨e, l, he, -⟩
  · have hempty := h.queue htx
    have hstream := h.stream
    rw [unsent, htx, queued, hempty] at hstream
    simp only [Option.map_none, Option.getD_none, List.flatMap_nil, List.append_nil] at hstream
    refine ⟨l, hrun, ⟨⟨⟨fun _ => hqueue.trans hempty, hpos⟩, ?_⟩, hgood⟩, hhanded⟩
    rw [hacc, queued, hqueue, handedBytes, hhanded]
    simp [hand, hempty, hstream, handedBytes]
  · cases he.1

omit hw in
theorem run_queueInternalPacket_eq (packet : Packet) (setDup : Bool) :
    (queueInternalPacket packet setDup).run link =
      if link.txPkt.isNone then (sendPacket packet setDup).run link
      else .ok () ((link.hand ⟨packet, setDup⟩).setQueue
        (link.internalPktQueue ++ [⟨packet, setDup⟩])) := by
  have hmod : (modify (hand ⟨packet, setDup⟩) : LinkM τ PUnit).run link =
      .ok .unit (link.hand ⟨packet, setDup⟩) := rfl
  simp only [queueInternalPacket, sendPacket, EStateM.run_bind, hmod, EStateM.run_get]
  show (if link.txPkt.isNone then _ else _ : LinkM τ Unit).run _ = _
  split <;> rfl

/-- A packet handed over at any time. -/
theorem run_queueInternalPacket (h : Sound good link) (packet : Packet) (setDup : Bool) :
    ∃ link', (queueInternalPacket packet setDup).run link = .ok () link' ∧ Sound good link' ∧
      link'.handed = link.handed ++ [⟨packet, setDup⟩] := by
  rw [run_queueInternalPacket_eq]
  cases htx : link.txPkt with
  | none =>
    rw [Option.isNone_none, if_pos rfl]
    exact run_sendPacket hw link h htx packet setDup
  | some tx =>
    rw [Option.isNone_some, if_neg Bool.false_ne_true]
    refine ⟨_, rfl, ⟨⟨⟨fun hnone => ?_, h.pos⟩, ?_⟩, h.good⟩, rfl⟩
    · simp only [hand, setQueue, htx] at hnone
      cases hnone
    · have hstream := h.stream
      simp only [unsent, queued, handedBytes, hand, setQueue] at hstream ⊢
      rw [List.flatMap_append, List.flatMap_append, ← hstream, List.append_assoc,
        List.append_assoc, List.append_assoc]

/-- One round of the write loop keeps the output in order and fails only by blocking. -/
theorem triple_writeOnce :
    Triple (Sound good) (writeOnce : LinkM τ (Option Bool))
      (fun _ link => Sound good link) (fun e link => e = .io .wouldBlock ∧ Sound good link) := by
  intro link h
  have hcase := writeOnce_cases hw.writes link h.good
  generalize writeOnce.run link = r at hcase
  cases hcase with
  | idle resting => exact h
  | closed tx t sending fine =>
    exact ⟨⟨⟨h.queue, h.pos⟩, (stream_accept_nil t link).trans h.stream⟩, fine⟩
  | stops tx e t sending allowed fine =>
    obtain ⟨-, rfl⟩ := allowed
    exact ⟨rfl, ⟨⟨h.queue, h.pos⟩, h.stream⟩, fine⟩
  | breaks e link' allowed => cases allowed.1
  | goesOn link' fine handed stream ready less =>
    refine ⟨⟨ready, ?_⟩, fine⟩
    rw [handedBytes, handed]
    exact stream.trans h.stream

end Partial

end Writes

end Link

/-! ## Programs of the task -/

namespace PacketReader

open EStateLogic

variable {τ : Type} [Transport τ] {good : τ → Prop} (hw : PartialWrites good)

include hw

theorem triple_recvN (n : Nat) :
    Triple (fun rx : Rx τ => good rx.transport) (recvN n) (fun _ rx => good rx.transport)
      (fun _ rx => good rx.transport) := by
  unfold recvN
  refine .ite (fun _ => .pure _ fun _ h => h) (fun _ => .get_bind fun _ => ?_)
  rintro rx ⟨rfl, h⟩
  have hread := hw.read rx.transport n h
  cases hr : Transport.read rx.transport n with
  | mk r t =>
    rw [hr] at hread
    cases r <;> exact hread

omit hw [Transport τ] in
theorem keeps_takePacket (bytes : List UInt8) (info : PacketSizeInfo) :
    Keeps (Rx.transport : Rx τ → τ) (takePacket bytes info) := by
  refine .bind ?_ fun _ => ?_
  · unfold dropPacket
    refine .ite ?_ fun _ => rfl
    cases parsePacketSize (bytes.drop info.size) <;> exact fun _ => rfl
  · cases decodeFrame (bytes.headD 0) _ <;> exact fun _ => rfl

theorem triple_recvBody (rd : PacketReader) (info : PacketSizeInfo) :
    Triple (fun rx : Rx τ => good rx.transport) (recvBody rd info)
      (fun _ rx => good rx.transport) (fun _ rx => good rx.transport) := by
  refine .bind (R := fun _ (rx : Rx τ) => good rx.transport) ?_ fun closed => ?_
  · exact .ite (fun _ => triple_recvN hw _) (fun _ => .pure _ fun _ h => h)
  · refine .ite (fun _ => .pure _ fun _ h => h) fun _ => .get_bind fun rx => ?_
    refine .conseq ?_ (fun _ h => h.2) (fun _ _ h => h) (fun _ _ h => h)
    exact .ite (fun _ => .of_keeps (keeps_takePacket _ _) good) (fun _ => .pure _ fun _ h => h)

theorem triple_recvHeader (rd : PacketReader) :
    Triple (fun rx : Rx τ => good rx.transport) (recvHeader rd)
      (fun _ rx => good rx.transport) (fun _ rx => good rx.transport) := by
  refine .bind (R := fun _ (rx : Rx τ) => good rx.transport) (triple_recvN hw _) fun closed => ?_
  refine .ite (fun _ => .pure _ fun _ h => h) fun _ => .get_bind fun rx => ?_
  refine .conseq ?_ (fun _ h => h.2) (fun _ _ h => h) (fun _ _ h => h)
  intro rx' h
  cases hp : parsePacketSize rx.reader.bytes <;> simp only [hp] <;> exact h

/-- Reading a packet leaves the transport in order. -/
theorem triple_recv :
    Triple (fun rx : Rx τ => good rx.transport) recv (fun _ rx => good rx.transport)
      (fun _ rx => good rx.transport) := by
  refine .get_bind fun rx => ?_
  refine .conseq ?_ (fun _ h => h.2) (fun _ _ h => h) (fun _ _ h => h)
  obtain ⟨⟨bytes, size⟩, t⟩ := rx
  cases size with
  | some info => exact triple_recvBody hw _ info
  | none => exact triple_recvHeader hw _

end PacketReader

namespace Transceiver

open EStateLogic

variable {τ : Type} {α β : Type}

/-- What holds of the output when a program fails: it is in order, and the assertion of
`trySendPacket` was not the cause. -/
def Fails (good : τ → Prop) (e : Fault) (tx : Transceiver τ) : Prop :=
  Link.Sound good tx.link ∧ e ≠ .panic .alreadyTransmitting

/-- A program that keeps the output in order. -/
def Steady (good : τ → Prop) (x : TaskM τ α) : Prop :=
  Triple (fun tx => Link.Sound good tx.link) x (fun _ tx => Link.Sound good tx.link) (Fails good)

/-- A program that starts with nothing in transmission and keeps the output in order. -/
def SteadyIdle (good : τ → Prop) (x : TaskM τ α) : Prop :=
  Triple (fun tx => Link.Sound good tx.link ∧ tx.link.txPkt = none) x
    (fun _ tx => Link.Sound good tx.link) (Fails good)

section Rules

variable {good : τ → Prop}

theorem Steady.idle {x : TaskM τ α} (h : Steady good x) : SteadyIdle good x :=
  h.conseq (fun _ hs => hs.1) (fun _ _ hs => hs) (fun _ _ hs => hs)

theorem Steady.pure (a : α) : Steady good (pure a : TaskM τ α) := fun _ h => h

theorem Steady.bind {x : TaskM τ α} {k : α → TaskM τ β} (hx : Steady good x)
    (hk : ∀ a, Steady good (k a)) : Steady good (x >>= k) := Triple.bind hx hk

theorem Steady.get_bind {k : Transceiver τ → TaskM τ β} (hk : ∀ tx, Steady good (k tx)) :
    Steady good (get >>= k) := fun tx h => hk tx tx h

theorem Steady.ite {c : Prop} [Decidable c] {x y : TaskM τ α} (hx : Steady good x)
    (hy : Steady good y) : Steady good (if c then x else y) :=
  Triple.ite (fun _ => hx) (fun _ => hy)

theorem Steady.io (e : IoError) : Steady good (throw (.io e) : TaskM τ α) :=
  fun _ h => ⟨h, by simp⟩

theorem steady_onBook (f : Book → Book) : Steady good (onBook f : TaskM τ Unit) := fun _ h => h

theorem steady_modify {f : Transceiver τ → Transceiver τ} (hf : ∀ tx, (f tx).link = tx.link) :
    Steady good (modify f : TaskM τ Unit) := by
  intro tx h
  change Link.Sound good (f tx).link
  rw [hf]
  exact h

theorem steady_encode [Encode α] (p : α) : Steady good (encode p : TaskM τ Packet) := by
  unfold encode
  cases makePacket p with
  | ok pkt => exact .pure pkt
  | error e => exact fun _ h => ⟨h, by simp⟩

theorem SteadyIdle.get_bind {k : Transceiver τ → TaskM τ β} (hk : ∀ tx, SteadyIdle good (k tx)) :
    SteadyIdle good (get >>= k) := fun tx h => hk tx tx h

/-- Changes of the books leave nothing in transmission. -/
theorem SteadyIdle.onBook_bind {f : Book → Book} {k : Unit → TaskM τ β}
    (hk : SteadyIdle good (k ())) : SteadyIdle good (onBook f >>= k) := fun _ h => hk _ h

theorem SteadyIdle.encode_bind [Encode α] {p : α} {k : Packet → TaskM τ β}
    (hk : ∀ pkt, SteadyIdle good (k pkt)) : SteadyIdle good (encode p >>= k) := by
  unfold encode
  cases makePacket p with
  | ok pkt => exact hk pkt
  | error e => exact fun _ h => ⟨h.1, by simp⟩

theorem SteadyIdle.bind {x : TaskM τ α} {k : α → TaskM τ β} (hx : SteadyIdle good x)
    (hk : ∀ a, Steady good (k a)) : SteadyIdle good (x >>= k) := Triple.bind hx hk

theorem steady_onLink {x : LinkM τ α}
    (h : ∀ link, Link.Sound good link →
      ∃ a link', x.run link = .ok a link' ∧ Link.Sound good link') : Steady good (onLink x) := by
  intro tx hs
  obtain ⟨a, link', hrun, hs'⟩ := h tx.link hs
  rw [onLink, run_zoom, hrun]
  exact hs'

theorem steady_now : Steady good (onLink Link.now : TaskM τ Nat) :=
  steady_onLink fun link h => ⟨_, { link with nows := link.nows + 1 }, rfl,
    ⟨⟨h.queue, h.pos⟩, h.stream⟩, h.good⟩

theorem steady_stampLastTx : Steady good (onLink Link.stampLastTx : TaskM τ Unit) :=
  steady_onLink fun link h =>
    ⟨_, { link with nows := link.nows + 1, lastTx := link.clock link.nows }, rfl,
      ⟨⟨h.queue, h.pos⟩, h.stream⟩, h.good⟩

theorem steady_scheduleTimeout (id : IdType) : Steady good (scheduleTimeout id : TaskM τ Unit) :=
  steady_now.bind fun _ => steady_modify fun _ => rfl

end Rules

section Programs

variable [Transport τ] {good : τ → Prop} (hw : PartialWrites good)

include hw

theorem steady_queueInternalPacket (pkt : Packet) (setDup : Bool) :
    Steady good (queueInternalPacket pkt setDup : TaskM τ Unit) := by
  refine steady_onLink fun link h => ?_
  obtain ⟨link', hrun, hs, -⟩ := Link.run_queueInternalPacket hw link h pkt setDup
  exact ⟨(), link', hrun, hs⟩

theorem steadyIdle_sendPacket (pkt : Packet) (setDup : Bool) :
    SteadyIdle good (onLink (Link.sendPacket pkt setDup) : TaskM τ Unit) := by
  rintro tx ⟨h, htx⟩
  obtain ⟨link', hrun, hs, -⟩ := Link.run_sendPacket hw tx.link h htx pkt setDup
  rw [onLink, run_zoom, hrun]
  exact hs

theorem steady_queueInternalPacketWithTimeout (pkt : Packet) (id : IdType) :
    Steady good (queueInternalPacketWithTimeout pkt id : TaskM τ Unit) :=
  .get_bind fun _ => (steady_onBook _).bind fun _ =>
    (Steady.ite (.pure _) (steady_scheduleTimeout id)).bind fun _ =>
      steady_queueInternalPacket hw pkt false

theorem steady_processPublish (msg : IncomingPublishPacket) :
    Steady good (processPublish msg : TaskM τ Unit) := by
  unfold processPublish
  cases msg.info.flags.qos with
  | atMostOnce => exact steady_onBook _
  | atLeastOnce =>
    exact (steady_encode _).bind fun pkt =>
      (steady_queueInternalPacket hw pkt false).bind fun _ => steady_onBook _
  | exactlyOnce =>
    refine .get_bind fun tx => ?_
    cases tx.pendingPackets.lookup (.pubRec msg.info.packetId) with
    | some existing => exact steady_queueInternalPacket hw existing false
    | none =>
      exact (steady_encode _).bind fun pkt =>
        (steady_queueInternalPacketWithTimeout hw pkt _).bind fun _ => steady_onBook _

theorem steady_processPubRec (id : UInt16) : Steady good (processPubRec id : TaskM τ Unit) := by
  refine .bind (.get_bind fun tx => ?_) fun _ => steady_onBook _
  cases tx.pendingPackets.lookup (.pubRel id) with
  | some existing => exact steady_queueInternalPacket hw existing false
  | none =>
    exact (steady_encode _).bind fun pkt => steady_queueInternalPacketWithTimeout hw pkt _

theorem steady_processPubRel (id : UInt16) : Steady good (processPubRel id : TaskM τ Unit) :=
  (steady_onBook _).bind fun _ => (steady_encode _).bind fun pkt =>
    steady_queueInternalPacket hw pkt false

theorem steady_handlePacket (pkt : IncomingPacket) :
    Steady good (handlePacket pkt : TaskM τ Unit) := by
  cases pkt with
  | connAck ack => exact .pure _
  | subAck ack => exact steady_onBook _
  | publish msg => exact steady_processPublish hw msg
  | pubAck ack => exact steady_onBook _
  | pubRec rec => exact steady_processPubRec hw _
  | pubRel rel => exact steady_processPubRel hw _
  | pubComp comp => exact steady_onBook _
  | unsubAck ack => exact fun _ h => h
  | pingResp => exact .pure _

theorem steady_processPacket (pkt : IncomingPacket) :
    Steady good (processPacket pkt : TaskM τ Bool) :=
  .get_bind fun _ => .ite ((steady_onBook _).bind fun _ => .pure _)
    ((steady_onBook _).bind fun _ => (steady_handlePacket hw pkt).bind fun _ => .pure _)

theorem steadyIdle_sendSubscribe (cmd : SubscribeCommand) :
    SteadyIdle good (sendSubscribe cmd : TaskM τ Unit) :=
  .get_bind fun _ => .onBook_bind <| .encode_bind fun pkt => .onBook_bind <| .onBook_bind <|
    (steadyIdle_sendPacket hw pkt false).bind fun _ => steady_scheduleTimeout _

theorem steadyIdle_onSubscribe (cmd : SubscribeCommand) :
    SteadyIdle good (onSubscribe cmd : TaskM τ Unit) := by
  refine .get_bind fun tx => ?_
  match tx.subscriptions.get cmd.topic with
  | .ok (some sub) =>
    exact Triple.ite (fun _ => (steady_onBook _).idle) (fun _ => steadyIdle_sendSubscribe hw cmd)
  | .ok none => exact steadyIdle_sendSubscribe hw cmd
  | .error () => exact (Steady.pure _).idle

theorem steady_unsubImmediate (topic : Str) : Steady good (unsubImmediate topic : TaskM τ Unit) :=
  (steady_onBook _).bind fun _ => .get_bind fun _ => (steady_onBook _).bind fun _ =>
    (steady_encode _).bind fun pkt => (steady_onBook _).bind fun _ =>
      steady_queueInternalPacketWithTimeout hw pkt _

theorem steady_onUnsub (cmd : UnsubCommand) : Steady good (onUnsub cmd : TaskM τ Unit) := by
  unfold onUnsub
  cases cmd.kind with
  | fastCallback id => exact steady_onBook _
  | immediate =>
    refine .get_bind fun tx => (steady_onBook _).bind fun _ => ?_
    split
    · exact steady_unsubImmediate hw _
    · exact .pure _

theorem steadyIdle_onPublish (cmd : PublishCommand) :
    SteadyIdle good (onPublish cmd : TaskM τ Unit) := by
  unfold onPublish
  cases cmd.qos with
  | atMostOnce => exact steadyIdle_sendPacket hw _ _
  | atLeastOnce => exact (steady_queueInternalPacketWithTimeout hw _ _).idle
  | exactlyOnce => exact (steady_queueInternalPacketWithTimeout hw _ _).idle

theorem steadyIdle_onCommand (cmd : Option Command) :
    SteadyIdle good (onCommand cmd : TaskM τ Bool) := by
  match cmd with
  | none => exact Steady.idle (.bind (steady_modify fun _ => rfl) fun _ => .pure _)
  | some .disconnect => exact (Steady.pure _).idle
  | some (.publish cmd) => exact (steadyIdle_onPublish hw cmd).bind fun _ => .pure _
  | some (.subscribe cmd) => exact (steadyIdle_onSubscribe hw cmd).bind fun _ => .pure _
  | some (.unsub cmd) => exact (steady_onUnsub hw cmd).idle.bind fun _ => .pure _

theorem steady_resend (id : IdType) : Steady good (resend id : TaskM τ Unit) := by
  refine .get_bind fun tx => ?_
  cases tx.pendingPacket id with
  | none => exact .pure _
  | some pkt =>
    exact (steady_queueInternalPacket hw pkt _).bind fun _ => steady_scheduleTimeout _

theorem steady_resendLoop (n : Nat) : Steady good (resendLoop n : TaskM τ Unit) := by
  induction n with
  | zero => exact .pure _
  | succ n ih =>
    refine .get_bind fun tx => ?_
    cases tx.timeoutQueue with
    | nil => exact fun _ h => ⟨h, by simp⟩
    | cons timeout rest =>
      exact steady_now.bind fun _ => .get_bind fun _ => .ite (.pure _)
        (.bind (steady_modify fun _ => rfl) fun _ => (steady_resend hw _).bind fun _ => ih)

theorem steady_onAlarm : Steady good (onAlarm : TaskM τ Unit) := by
  refine .get_bind fun _ => .ite (.bind ?_ fun _ => .get_bind fun _ => steady_resendLoop hw _)
    (.pure _)
  exact steady_now.bind fun _ => .get_bind fun _ => .ite
    (steady_stampLastTx.bind fun _ => steady_queueInternalPacket hw _ _) (.pure _)

end Programs

end Transceiver

end Lmc
