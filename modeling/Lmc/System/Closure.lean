import Lmc.System.Schedule
import Lmc.Task.ReadLoop
import Lmc.Wire.Tls

/-!
# The end of the connection

When the peer has closed the connection, the task learns it by reading. A step of the main
loop that is woken up for reading asks the transport first (`pre_read`) and then calls
`recv` until it would block. Over plain TCP the loop ends with the end of the connection
or a failure, so the step never goes back to `select`. Over TLS it depends on `pre_read`,
which passes over the end of the stream and every failure of `read_tls`: the step looks at
the connection only while there is plaintext left.

* `closure_noticed`: both transports, where the length field in the reader ends and, over
  TLS, plaintext is left.
* `closure_unnoticed`: a step over TLS that goes back to `select` empty-handed, and the
  read loop over TCP that does not come to the end of the stream.
-/

namespace Lmc.System

open EStateLogic PacketReader Runs

variable {τ : Type} [Transport τ] {s s' : System τ}

theorem reader_reached {setup : Setup τ} {ok : System τ → Event → Prop}
    (hs : Reaches step ok (spawn setup) s) : Reached τ s.tx.rxPkt :=
  hs.invariant (I := fun s => Reached τ s.tx.rxPkt) .new
    fun _ _ _ h _ hstep => (onward_step hstep).reader h

/-! ## A round that does not wait -/

/-- The next call of `recv` gives a packet, the end of the connection or a failure other
than that it would block, or it takes bytes. -/
def Finds (rx : Rx τ) : Prop :=
  match recv.run rx with
  | .ok .needMoreData rx' => ∃ n got, Transport.read rx.transport n = (.ok got, rx'.transport) ∧
      got ≠ [] ∧ rx'.reader.bytes = rx.reader.bytes ++ got
  | .error .wouldBlock _ => False
  | _ => True

theorem finds_of_sized (hfit : ReadsFit τ) {rx : Rx τ} (h : rx.reader.Sized)
    (ho : rx.reader.overlong = false)
    (hread : ∀ n, 0 < n → (Transport.read rx.transport n).1 ≠ .error .wouldBlock) :
    Finds rx := by
  have hcase := recv_cases hfit h
  unfold Finds
  generalize recv.run rx = r at hcase
  cases hcase with
  | fails n e t asked read =>
    have hne := hread n asked
    rw [read] at hne
    cases e with
    | wouldBlock => exact hne rfl
    | _ => trivial
  | rejects e rx' sized => trivial
  | closed n t asked read => trivial
  | reads n b more t size asked read sized =>
    exact ⟨n, b :: more, read, List.cons_ne_nil _ _, rfl⟩
  | takes pkt got rd t supplied taken sized => trivial
  | stuck overlong => rw [overlong] at ho; cases ho

theorem step_reading (hphase : s.phase = .reading) :
    s.step (.task .proceed) = some (s.runProgram Transceiver.readRound) := by
  change s.taskStep .proceed = _
  simp only [taskStep, hphase, Transceiver.program, Option.map_some]

/-- Where a round of the read loop leads. -/
inductive RoundLeads (S : τ → τ → Prop) (s s' : System τ) : Prop
  | ends (phase : s'.phase ≠ .reading) (busy : s'.phase ≠ .select)
  | waits (phase : s'.phase = .select) (rx : Rx τ) (run : recv.run s.tx.rx = .error .wouldBlock rx)
  | reads (phase : s'.phase = .reading) (run : Transceiver.readRound.run s.tx = .ok .reading s'.tx)
      (round : Transceiver.RoundCase S s.tx s'.tx .reading)

theorem roundLeads {S : τ → τ → Prop} [Std.Refl S] [IsTrans τ S] (hS : Outputs S)
    (hphase : s.phase = .reading) (hstep : s.step (.task .proceed) = some s') :
    RoundLeads S s s' := by
  rw [step_reading hphase, Option.some_inj] at hstep
  subst hstep
  unfold runProgram
  cases hrun : Transceiver.readRound.run s.tx with
  | error f tx =>
    cases f with
    | io e =>
      have hafter : s.phase.afterError = .stopping := by rw [hphase]; rfl
      refine .ends ?_ ?_ <;> simp [hafter]
    | panic p => exact .ends nofun nofun
  | ok p tx =>
    have hround := Transceiver.roundCase hS hrun
    cases hround with
    | waits rx run => exact .waits rfl rx run
    | closed rx run => exact .ends nofun nofun
    | stops => exact .ends nofun nofun
    | reads state rx run isOpen reader transport =>
      exact .reads rfl hrun (.reads state rx run isOpen reader transport)

/-- A round that finds something does not end the step. -/
theorem phase_ne_select (hphase : s.phase = .reading) (hfinds : Finds s.tx.rx)
    (hstep : s.step (.task .proceed) = some s') : s'.phase ≠ .select := by
  have : Std.Refl fun _ _ : τ => True := ⟨fun _ => trivial⟩
  have : IsTrans τ fun _ _ => True := ⟨fun _ _ _ _ _ => trivial⟩
  cases roundLeads (S := fun _ _ => True) ⟨fun _ _ _ => trivial, fun _ => trivial⟩ hphase hstep with
  | ends phase busy => exact busy
  | waits phase rx run =>
    rw [Finds, run] at hfinds
    exact hfinds.elim
  | reads phase run round => rw [phase]; exact nofun

/-! ## The first round -/

/-- A step that was woken up for reading has failed, or it reads, and its first round is
not in vain. -/
inductive Noticed (s : System τ) : Prop
  | fails (phase : s.phase = .stopping)
  | reads (phase : s.phase = .reading) (finds : Finds s.tx.rx)
      (busy : ∀ s', s.step (.task .proceed) = some s' → s'.phase ≠ .select)

theorem run_readyRead (tx : Transceiver τ) (next idle : Phase) :
    (Transceiver.readyRead (.ok ()) next idle).run tx =
      match Transport.preRead tx.link.transport with
      | (.ok ready, t) =>
        .ok (if ready then next else idle) { tx with link := tx.link.setTransport t }
      | (.error e, t) => .error (.io e) { tx with link := tx.link.setTransport t } := by
  unfold Transceiver.readyRead Transceiver.onTransport
  rw [EStateM.run_bind]
  change (Transceiver.onLink _ >>= fun canRead => _ : TaskM τ Phase).run tx = _
  rw [EStateM.run_bind, Transceiver.onLink, run_zoom]
  simp only [EStateM.run_bind, EStateM.run_get, EStateM.run_set]
  rcases Transport.preRead tx.link.transport with ⟨r, t⟩
  cases r <;> rfl

/-- A step that is woken up for reading fails, or reads if the transport says so. -/
theorem woken_cases {ready : Except IoError Unit} (hphase : s.phase = .select)
    (hstep : s.step (.task (.readable ready)) = some s') :
    s'.phase = .stopping ∨ ∃ canRead t, Transport.preRead s.tx.link.transport = (.ok canRead, t) ∧
      s' = { s with
        tx := { s.tx with link := s.tx.link.setTransport t }
        phase := if canRead then .reading else .select } := by
  have hafter : s.phase.afterError = .stopping := by rw [hphase]; rfl
  change s.taskStep (.readable ready) = some s' at hstep
  simp only [taskStep, hphase, Transceiver.program] at hstep
  split at hstep
  · simp only [Option.map_some, Option.some_inj] at hstep
    subst hstep
    unfold runProgram
    cases ready with
    | error e => exact Or.inl hafter
    | ok u =>
      rw [run_readyRead]
      rcases Transport.preRead s.tx.link.transport with ⟨r, t⟩
      cases r with
      | error e => exact Or.inl hafter
      | ok canRead => exact Or.inr ⟨canRead, t, rfl, rfl⟩
  · cases hstep

theorem noticed_of_ended (hfit : ReadsFit τ) {ready : Except IoError Unit}
    (hphase : s.phase = .select) (hended : Transport.Ended s.tx.link.transport)
    (hsized : s.tx.rxPkt.Sized) (ho : s.tx.rxPkt.overlong = false)
    (hstep : s.step (.task (.readable ready)) = some s') : Noticed s' := by
  rcases woken_cases hphase hstep with hstop | ⟨canRead, t, hpre, rfl⟩
  · exact .fails hstop
  · rw [Transport.Ended, hpre] at hended
    obtain ⟨rfl, hread⟩ := hended
    have hfinds : Finds (⟨s.tx.rxPkt, t⟩ : Rx τ) := finds_of_sized hfit hsized ho hread
    exact .reads rfl hfinds fun s'' => phase_ne_select rfl hfinds

/-! ## All rounds -/

/-- The states of a step that was woken up for reading in `s`, behind `n` rounds of the
read loop. The reader of no round is overlong. -/
inductive ReadStep (s : System τ) : Nat → System τ → Prop
  | woken (ready : Except IoError Unit) {s₁ : System τ} (phase : s.phase = .select)
      (step : s.step (.task (.readable ready)) = some s₁) : ReadStep s 0 s₁
  | round {n : Nat} {s₁ s₂ : System τ} (before : ReadStep s n s₁) (phase : s₁.phase = .reading)
      (fits : s₁.tx.rxPkt.overlong = false) (step : s₁.step (.task .proceed) = some s₂) :
      ReadStep s (n + 1) s₂

/-- Reading what the peer sent before it closed the connection. -/
theorem peerGone_of_read {t t' : TcpTransport} {n : Nat} {b : UInt8} {more : List UInt8}
    (h : t.peerGone = true) (hread : Transport.read t n = (.ok (b :: more), t')) :
    t'.peerGone = true := by
  have htry := tryRead_of_read hread
  obtain ⟨⟨reads, closed, writes⟩⟩ := t
  obtain ⟨tcp'⟩ := t'
  unfold TcpStream.tryRead at htry
  match reads with
  | [] => cases closed <;> cases htry
  | .wouldBlock :: rest => cases h
  | .error e :: rest => cases htry
  | .data first rest :: later =>
    dsimp only at htry
    cases hd : (first :: rest).drop n with
    | nil => rw [hd] at htry; cases htry; exact h
    | cons b left =>
      rw [hd] at htry
      obtain ⟨-, hsocket⟩ := Prod.mk.inj htry
      change _ = tcp' at hsocket
      subst hsocket
      exact h

/-- A call of `recv` after which the loop goes on. -/
theorem peerGone_of_recv {rx rx' : Rx TcpTransport} {state : PacketReadState}
    (hsized : rx.reader.Sized) (h : rx.transport.peerGone = true)
    (hrun : recv.run rx = .ok state rx') (hopen : state ≠ .connectionClosed) :
    rx'.transport.peerGone = true := by
  have hcase := recv_cases readsFit_tcp hsized
  rw [hrun] at hcase
  cases hcase with
  | closed n t asked read => exact absurd rfl hopen
  | reads n b more t size asked read sized => exact peerGone_of_read h read
  | takes pkt got rd t supplied taken sized =>
    cases supplied with
    | nothing => exact h
    | read n b more _ asked read => exact peerGone_of_read h read
  | stuck overlong => exact h

/-- What the rounds keep over a socket that the peer has closed. -/
structure Ending (s : System TcpTransport) : Prop where
  sized : s.tx.rxPkt.Sized
  gone : s.tx.link.transport.peerGone = true

theorem Ending.round {s s' : System TcpTransport} (h : Ending s)
    (ho : s.tx.rxPkt.overlong = false) (hphase : s.phase = .reading)
    (hstep : s.step (.task .proceed) = some s') :
    s'.phase ≠ .select ∧ (s'.phase = .reading → Ending s' ∧
      inputLeft undelivered s'.tx.rx < inputLeft undelivered s.tx.rx) := by
  have hread : ∀ n, 0 < n → (Transport.read s.tx.link.transport n).1 ≠ .error .wouldBlock :=
    (TcpTransport.ended h.gone).2
  have hfinds : Finds s.tx.rx := finds_of_sized readsFit_tcp h.sized ho hread
  refine ⟨phase_ne_select hphase hfinds hstep, fun hreading => ?_⟩
  cases roundLeads outputs_sameInput hphase hstep with
  | ends phase busy => exact absurd hreading phase
  | waits phase rx run => rw [hreading] at phase; cases phase
  | reads phase run round =>
    obtain ⟨hsized, hlt⟩ := Transceiver.readRound_lt readsFit_tcp finiteInput_tcp h.sized ho run
    refine ⟨⟨hsized, ?_⟩, hlt⟩
    cases round with
    | reads state rx run isOpen reader transport =>
      have hgone : rx.transport.peerGone = true := peerGone_of_recv h.sized h.gone run isOpen
      rw [TcpTransport.peerGone, transport.1, transport.2]
      exact hgone

/-- The loop does not come back to `select`, and each of its rounds uses up some of what
the peer has sent. -/
theorem Ending.readStep {s s' : System TcpTransport} (h : Ending s) {n : Nat}
    (hrun : ReadStep s n s') : s'.phase ≠ .select ∧
      n ≤ inputLeft undelivered s.tx.rx + 1 ∧ (s'.phase = .reading → Ending s' ∧
        n + inputLeft undelivered s'.tx.rx ≤ inputLeft undelivered s.tx.rx) := by
  induction hrun with
  | woken ready phase step =>
    rcases woken_cases phase step with hstop | ⟨canRead, t, hpre, rfl⟩
    · rw [hstop]
      exact ⟨nofun, Nat.zero_le _, nofun⟩
    · cases hpre
      exact ⟨nofun, Nat.zero_le _, fun _ => ⟨⟨h.sized, h.gone⟩, le_of_eq (Nat.zero_add _)⟩⟩
  | round before phase fits step ih =>
    obtain ⟨-, -, hkept⟩ := ih
    obtain ⟨hending, hle⟩ := hkept phase
    obtain ⟨hselect, hreading⟩ := hending.round fits phase step
    refine ⟨hselect, by omega, fun hphase => ?_⟩
    obtain ⟨hending', hlt⟩ := hreading hphase
    exact ⟨hending', by omega⟩

/-! ## Both transports -/

theorem readsFit_tls (σ : Type) [ConnectionCommon σ] : ReadsFit (TlsTransport σ) :=
  fun t n got _ h => ConnectionCommon.length_read t.tls n got (congrArg Prod.fst h)

/-- The peer has closed the connection, and the task is woken up for reading. Over TCP,
the step ends after as many rounds as there are bytes left, without going back to
`select`, unless it meets a length field that does not end. Over TLS, the step fails or
its first round finds something, if besides some plaintext is left or what was received
is rejected. -/
theorem closure_noticed (σ : Type) [ConnectionCommon σ] (tcp : Setup TcpTransport)
    (tls : Setup (TlsTransport σ)) :
    (∀ (s s' : System TcpTransport) (n : Nat),
      Reaches step always (spawn tcp) s → s.tx.link.transport.peerGone = true →
      ReadStep s n s' → s'.phase ≠ .select ∧
        n ≤ 2 * undelivered s.tx.link.transport + s.tx.rxPkt.bytes.length + 1) ∧
    ∀ (s s' : System (TlsTransport σ)) (ready : Except IoError Unit),
      Reaches step always (spawn tls) s → s.phase = .select →
      s.tx.link.transport.peerGone = true → s.tx.link.transport.exhausted = false →
      s.tx.rxPkt.overlong = false → s.step (.task (.readable ready)) = some s' →
      Noticed s' := by
  constructor
  · intro s s' n hs hgone hrun
    have hending : Ending s := ⟨(reader_reached hs).sized readsFit_tcp, hgone⟩
    obtain ⟨hselect, hbound, -⟩ := hending.readStep hrun
    exact ⟨hselect, hbound⟩
  · intro s s' ready hs hphase hgone hplain ho hstep
    exact noticed_of_ended (readsFit_tls σ) hphase (TlsTransport.ended hgone hplain)
      ((reader_reached hs).sized (readsFit_tls σ)) ho hstep

/-- A session over a connection that the peer has closed. What it has received is either
still to be decrypted or can be read. -/
structure EndedSession where
  received : List UInt8
  plain : List UInt8

instance : ConnectionCommon EndedSession where
  wantsRead tls := tls.plain.isEmpty
  wantsWrite _ := false
  readTls tls tcp := (.ok 0, tls, tcp)
  processNewPackets tls :=
    (.ok (tls.plain ++ tls.received).length, ⟨[], tls.plain ++ tls.received⟩)
  read tls n := match tls.plain with
    | [] => (.error .unexpectedEof, tls)
    | b :: more => (.ok ((b :: more).take n), { tls with plain := (b :: more).drop n })
  writeTls tls tcp := (.ok 0, tls, tcp)
  write tls src := (.ok src.length, tls)
  flush tls := (.ok (), tls)
  sendCloseNotify tls := tls
  length_read tls n got h := by
    obtain ⟨received, plain⟩ := tls
    cases plain <;> cases h
    exact List.length_take_le n _
  read_plaintext tls plain n h hplain hn := by
    cases h
    cases hp : tls.plain ++ tls.received with
    | nil => rw [hp] at hplain; cases hplain
    | cons b more =>
      obtain ⟨m, rfl⟩ := Nat.exists_eq_succ_of_ne_zero (Nat.ne_of_gt hn)
      exact ⟨b, more.take m, rfl⟩

def endedSetup (received : List UInt8) : Setup (TlsTransport EndedSession) where
  transport := ⟨⟨[], true, []⟩, received, []⟩
  connectPacket := ⟨0x10, [6, 0, 4, 0x4d, 0x51, 0x54, 0x54]⟩
  pingInterval := 30
  packetResendDelay := 1
  clock := id
  mail := ⟨fun _ => ⟨none, [], false⟩, []⟩

/-- The task has sent `CONNECT`. -/
def waitingFor {τ : Type} [Transport τ] (setup : Setup τ) : System τ :=
  (spawn setup).runProgram (do Transceiver.bootstrap; return .select)

theorem reaches_waitingFor {τ : Type} [Transport τ] (setup : Setup τ) :
    Reaches step always (spawn setup) (waitingFor setup) :=
  .tail .refl trivial (rfl : (spawn setup).step (.task .proceed) = some (waitingFor setup))

/-- The answer to `CONNECT` has been received, over either transport. -/
theorem closure_noticed_connack :
    (∃ s', ReadStep (waitingFor (scripted ⟨[acceptance], true, []⟩)) 3 s' ∧ s'.phase = .closed ∧
      s'.phase ≠ .select) ∧
      ∃ s', (waitingFor (endedSetup [0x20, 2, 0, 0])).step (.task (.readable (.ok ()))) = some s' ∧
        Noticed s' := by
  have hnoticed := closure_noticed EndedSession (scripted ⟨[acceptance], true, []⟩)
    (endedSetup [0x20, 2, 0, 0])
  constructor
  · obtain ⟨s', hrun, hclosed⟩ : ∃ s',
        ReadStep (waitingFor (scripted ⟨[acceptance], true, []⟩)) 3 s' ∧ s'.phase = .closed :=
      ⟨_, .round (.round (.round (.woken (.ok ()) rfl rfl) rfl rfl rfl) rfl rfl rfl) rfl rfl rfl,
        rfl⟩
    exact ⟨s', hrun, hclosed,
      (hnoticed.1 _ _ 3 (reaches_waitingFor _) (by decide +kernel) hrun).1⟩
  · exact ⟨_, rfl, hnoticed.2 _ _ (.ok ()) (reaches_waitingFor _) rfl rfl rfl rfl rfl⟩

/-- The header of a `PUBLISH` whose length field does not end, and then the end of the
stream. -/
def unendingSetup : Setup TcpTransport :=
  scripted ⟨[.data 0x30 [0x80, 0x80, 0x80, 0x80]], true, []⟩

/-- Over TLS, a step without plaintext leads back to where it started. Over TCP, so does a
round behind a length field that does not end. -/
theorem closure_unnoticed :
    ((waitingFor (endedSetup [])).tx.link.transport.peerGone = true ∧
      (waitingFor (endedSetup [])).step (.task (.readable (.ok ()))) =
        some (waitingFor (endedSetup []))) ∧
      ∃ s, Reaches step always (spawn unendingSetup) s ∧ s.phase = .reading ∧
        s.tx.link.transport.peerGone = true ∧ s.step (.task .proceed) = some s := by
  refine ⟨⟨rfl, rfl⟩, ?_⟩
  have hrun : (runUnder step always (spawn unendingSetup)
      [.task .proceed, .task (.readable (.ok ())), .task .proceed]).any (fun s =>
        s.phase == .reading && s.tx.link.transport.peerGone && s.tx.rxPkt.overlong) = true := by
    decide +kernel
  obtain ⟨s, hs, hp⟩ := exists_reaches _ hrun
  simp only [Bool.and_eq_true, beq_iff_eq] at hp
  obtain ⟨⟨hphase, hgone⟩, hover⟩ := hp
  refine ⟨s, hs, hphase, hgone, ?_⟩
  rw [step_reading hphase, runProgram, Transceiver.readRound_overlong hover]
  exact congrArg some (by rw [← hphase])

end Lmc.System
