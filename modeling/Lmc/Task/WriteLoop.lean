import Lmc.Task.Output

/-!
# The write loop

`continue_writing_packet` has no counter. A round writes a part of the packet in transmission,
and at the end of a packet it takes the next ones from the queue. What is left to send, in
transmission and in the queue, gets less in every round that is not the last (`writeOnce_cases`),
so the loop ends whatever the transport accepts or refuses (`write_loop_ends`).

The loop looks at the packet in transmission only. If there is none it does not look at the
queue, and at the end of a packet it offers no bytes: what its results say rests on `Ready`.
Every link of a run over a transport that does not fail is so (`System.ready_reached`).
-/

namespace Lmc.Link

open EStateLogic

variable {τ : Type} [Transport τ]

/-- `continue_writing_packet`. Without a result the rounds are used up. -/
def continueWritingPacket (fuel : Nat) : LinkM τ (Option Bool) := loop writeOnce fuel

/-- A write may fail with any error. With `zero_if_would_block` this one is not `WouldBlock`. -/
def WriteError (zeroIfWouldBlock : Bool) (e : IoError) : Prop :=
  zeroIfWouldBlock = true → e ≠ .wouldBlock

theorem writes_tcp : Writes (fun _ : TcpTransport => True) WriteError where
  write t src z _ := by
    obtain ⟨⟨reads, closed, writes⟩⟩ := t
    cases writes with
    | nil => exact Or.inl ⟨src.length, _, Nat.le_refl _, trivial, rfl⟩
    | cons w rest =>
      cases w with
      | accept n => exact Or.inl ⟨_, _, Nat.min_le_right n src.length, trivial, rfl⟩
      | wouldBlock =>
        cases z with
        | true => exact Or.inl ⟨0, _, Nat.zero_le _, trivial, rfl⟩
        | false => exact Or.inr ⟨.wouldBlock, _, Bool.noConfusion, trivial, rfl⟩
      | error e =>
        cases e with
        | wouldBlock =>
          cases z with
          | true => exact Or.inl ⟨0, _, Nat.zero_le _, trivial, rfl⟩
          | false => exact Or.inr ⟨.wouldBlock, _, Bool.noConfusion, trivial, rfl⟩
        | unexpectedEof => exact Or.inr ⟨.unexpectedEof, _, fun _ => nofun, trivial, rfl⟩
        | decode e => exact Or.inr ⟨.decode e, _, fun _ => nofun, trivial, rfl⟩
        | other code => exact Or.inr ⟨.other code, _, fun _ => nofun, trivial, rfl⟩
  flush t _ := ⟨t, trivial, rfl⟩

variable {good : τ → Prop} (hw : Writes good WriteError)

include hw

/-- The loop ends with a last round, and it has lost nothing until then. Before the last round
it is where it started, or has written. -/
theorem exists_last_round (link : Link τ) (hg : good link.transport) :
    ∃ last, last.stream = link.stream ∧ (last = link ∨ Ready last) ∧
      Round good WriteError last (writeOnce.run last) ∧
      (∀ link', writeOnce.run last ≠ .ok none link') ∧
      ∀ fuel, (link.unsent ++ link.queued).length < fuel →
        (continueWritingPacket fuel).run link = writeOnce.run last := by
  have hround : ∀ s s' : Link τ,
      (good s.transport ∧ s.stream = link.stream ∧ (s = link ∨ Ready s)) →
      writeOnce.run s = .ok none s' →
      (good s'.transport ∧ s'.stream = link.stream ∧ (s' = link ∨ Ready s')) ∧
        (s'.unsent ++ s'.queued).length < (s.unsent ++ s.queued).length := by
    rintro s s' ⟨hs, hstream, -⟩ hrun
    have hcase := writeOnce_cases hw s hs
    rw [hrun] at hcase
    cases hcase with
    | goesOn _ fine handed stream ready less =>
      exact ⟨⟨fine, stream.trans hstream, Or.inr ready⟩, less⟩
  obtain ⟨last, ⟨hlast, hstream, hready⟩, hends, hrun⟩ :=
    loop_ends hround ⟨hg, rfl, Or.inl rfl⟩
  exact ⟨last, hstream, hready, writeOnce_cases hw last hlast, hends, hrun⟩

/-- Handing over a packet leaves the loop something to go on with. -/
theorem ready_queueInternalPacket {link link' : Link τ} (h : Ready link)
    (hg : good link.transport) (packet : Packet) (setDup : Bool)
    (hrun : (queueInternalPacket packet setDup).run link = .ok () link') : Ready link' := by
  rw [run_queueInternalPacket_eq] at hrun
  cases htx : link.txPkt with
  | none =>
    rw [htx, Option.isNone_none, if_pos rfl] at hrun
    have hsend : (trySendPacket packet setDup).run (link.hand ⟨packet, setDup⟩) = .ok () link' :=
      hrun
    rcases trySendPacket_accounts hw (link.hand ⟨packet, setDup⟩) hg htx packet setDup with
      ⟨l, hl, -, -, -, hqueue, -, hpos⟩ | ⟨e, l, -, hl⟩
    · cases hl.symm.trans hsend
      exact ⟨fun _ => hqueue.trans (h.queue htx), hpos⟩
    · cases hl.symm.trans hsend
  | some tx =>
    rw [htx, Option.isNone_some, if_neg Bool.false_ne_true] at hrun
    cases hrun
    refine ⟨fun hnone => ?_, fun tx' hsome => h.pos tx' hsome⟩
    cases htx.symm.trans hnone

/-- The write loop ends, from every state whose position is in its packet, and does not panic.
When it returns that nothing is left, nothing is in transmission. The queue is empty then, unless
it started with packets in the queue and none in transmission. When it would block, a packet is
in transmission, and not at its end unless it started there. In both cases the bytes accepted,
unsent and queued are those of the start, so the next call goes on where this one stops. From a
`Ready` link, which has neither exception, handing over a packet leads to a `Ready` link. -/
theorem write_loop_ends (link : Link τ) (hg : good link.transport)
    (hpos : ∀ tx, link.txPkt = some tx → tx.pos ≤ tx.packet.bytes.length) :
    (∃ r : EStateM.Result Fault (Link τ) (Option Bool),
      (∀ fuel, (link.unsent ++ link.queued).length < fuel →
        (continueWritingPacket fuel).run link = r) ∧
      (∀ link', r ≠ .ok none link') ∧
      (∀ p link', r ≠ .error (.panic p) link') ∧
      (∀ link', r = .ok (some false) link' → link'.txPkt = none ∧
        ((link.txPkt = none → link.internalPktQueue = []) → link'.internalPktQueue = [])) ∧
      (∀ link', r = .error (.io .wouldBlock) link' → ∃ tx, link'.txPkt = some tx ∧
        tx.pos ≤ tx.packet.bytes.length ∧
        ((∀ tx₀, link.txPkt = some tx₀ → tx₀.pos < tx₀.packet.bytes.length) →
          tx.pos < tx.packet.bytes.length)) ∧
      ∀ link', (∃ b, r = .ok (some b) link') ∨ r = .error (.io .wouldBlock) link' →
        link'.stream = link.stream) ∧
    (Ready link → ∀ packet setDup link',
      (queueInternalPacket packet setDup).run link = .ok () link' → Ready link') := by
  refine ⟨?_, fun h packet setDup link' => ready_queueInternalPacket hw h hg packet setDup⟩
  obtain ⟨last, hstream, hready, hround, hends, hrun⟩ := exists_last_round hw link hg
  generalize writeOnce.run last = r at hround hends hrun
  refine ⟨r, hrun, hends, ?_⟩
  cases hround with
  | idle resting =>
    refine ⟨nofun, fun link' h => ?_, nofun, fun link' h => ?_⟩
    · cases h
      refine ⟨resting, fun hqueue => ?_⟩
      rcases hready with rfl | hready
      · exact hqueue resting
      · exact hready.queue resting
    · rcases h with ⟨b, h⟩ | h
      · cases h
        exact hstream
      · cases h
  | closed tx t sending fine =>
    refine ⟨nofun, nofun, nofun, fun link' h => ?_⟩
    rcases h with ⟨b, h⟩ | h
    · cases h
      exact (stream_accept_nil t last).trans hstream
    · cases h
  | stops tx e t sending allowed fine =>
    refine ⟨nofun, nofun, fun link' h => ?_, fun link' h => ?_⟩
    · cases h
      rcases hready with rfl | hready
      · exact ⟨tx, sending, hpos tx sending, fun hbefore => hbefore tx sending⟩
      · have hlt := hready.pos tx sending
        exact ⟨tx, sending, Nat.le_of_lt hlt, fun _ => hlt⟩
    · rcases h with ⟨b, h⟩ | h
      · cases h
      · cases h
        exact hstream
  | breaks e link' allowed =>
    have hne : e ≠ .wouldBlock := allowed rfl
    refine ⟨nofun, nofun, fun link' h => ?_, fun link' h => ?_⟩
    · cases h
      exact (hne rfl).elim
    · rcases h with ⟨b, h⟩ | h
      · cases h
      · cases h
        exact (hne rfl).elim
  | goesOn link' fine handed stream ready less => exact (hends link' rfl).elim

omit hw

/-- Two packets for a socket that takes a byte and then blocks. The first packet is in
transmission and has the duplicate flag to set. -/
def cutLink : Link TcpTransport :=
  { transport := ⟨⟨[], false, [.accept 1, .wouldBlock]⟩⟩
    txPkt := some ⟨⟨0x32, [0x02, 0x00, 0x00]⟩, 0, true⟩
    internalPktQueue := [⟨⟨0xc0, [0x00]⟩, false⟩]
    lastTx := 0, clock := id, nows := 0, accepted := [], handed := [] }

theorem write_loop_ends_dup :
    ∃ link', (continueWritingPacket 8).run cutLink = .error (.io .wouldBlock) link' ∧
      link'.accepted = [0x3a] ∧ link'.stream = cutLink.stream ∧
      ∃ tx, link'.txPkt = some tx ∧ tx.pos < tx.packet.bytes.length := by
  obtain ⟨⟨r, hrun, -, -, -, hblocked, hstream⟩, -⟩ :=
    write_loop_ends writes_tcp cutLink trivial (by rintro tx ⟨⟩; decide)
  have hloop : (continueWritingPacket 8).run cutLink = r := hrun 8 (by decide)
  have hresult : (continueWritingPacket 8).run cutLink = .error (.io .wouldBlock)
      { cutLink with
        transport := ⟨⟨[], false, []⟩⟩
        txPkt := some ⟨⟨0x32, [0x02, 0x00, 0x00]⟩, 1, true⟩
        accepted := [0x3a] } := rfl
  have hr := hloop.symm.trans hresult
  obtain ⟨tx, htx, -, hpos⟩ := hblocked _ hr
  exact ⟨_, hresult, rfl, hstream _ (Or.inr hr), tx, htx, hpos (by rintro tx₀ ⟨⟩; decide)⟩

/-- A packet in the queue and none in transmission. -/
def queuedLink : Link TcpTransport := { cutLink with txPkt := none }

/-- A packet in transmission that is at its end. -/
def endedLink : Link TcpTransport :=
  { cutLink with
    transport := ⟨⟨[], false, [.wouldBlock]⟩⟩
    txPkt := some ⟨⟨0xc0, [0x00]⟩, 2, false⟩
    internalPktQueue := [] }

/-- Without a packet in transmission the loop returns at once that nothing is left, and the queue
stays. At the end of a packet it would block, and the position is not before the end. -/
theorem write_loop_looks_at_tx_only :
    Writes (fun _ : TcpTransport => True) WriteError ∧
      (∀ fuel, (continueWritingPacket (fuel + 1)).run queuedLink = .ok (some false) queuedLink) ∧
      queuedLink.internalPktQueue ≠ [] ∧
      ∀ fuel, ∃ link' tx, (continueWritingPacket (fuel + 1)).run endedLink =
          .error (.io .wouldBlock) link' ∧
        link'.txPkt = some tx ∧ tx.pos = tx.packet.bytes.length :=
  ⟨writes_tcp, fun _ => rfl, by decide, fun _ => ⟨_, _, rfl, rfl, rfl⟩⟩

end Lmc.Link
