import Lmc.System.Acceptance
import Lmc.System.Traffic

/-!
# The end of the handshake

The first packet makes the task send the connection result on `connect_sig`, for which
`Client::connect` waits. Until then the task takes no commands.

* `connect_result_reported`: a task that is not cut off from the broker before the first
  packet reports exactly one result. A task that is cut off never reports
  (`closed_before_answer`).
* `disconnect_never_blocked`: if `Client::connect` does not give up before the first packet,
  a `Disconnect` at the head of the queue is taken. One that gives up earlier enqueues a
  `Disconnect` that nobody takes (`disconnect_blocked`).
-/

namespace Lmc

open EStateLogic

namespace System

open Runs Transceiver

variable {τ : Type} [Transport τ] {s s' : System τ}

/-! ## Leaving the main loop -/

/-- A program of the main loop goes on with the loop, unless the peer has closed the
connection or the first packet has arrived. -/
theorem stays_in_loop {tx tx' : Transceiver τ} {gone : Bool} {p p' : Phase} {e : TaskEvent}
    {x : TaskM τ Phase} (hx : tx.program gone p e = some x) (hp : p.inMainLoop = true)
    (hsig : tx.connectSig = true) (hrun : x.run tx = .ok p' tx') :
    p'.inMainLoop = true ∨ p' = .closed ∨ tx'.connectSig = false := by
  have hends : ∀ {x : TaskM τ Phase}, Ends (fun p => p.inMainLoop = true ∨ p = .closed) x →
      x.run tx = .ok p' tx' → p'.inMainLoop = true ∨ p' = .closed ∨ tx'.connectSig = false :=
    fun h hrun => (h _ _ _ hrun).imp_right Or.inl
  cases isProgram_of_program hx with
  | boot | alarm => exact hends (.bind fun _ => .pure (Or.inl rfl)) hrun
  | selectWritable r wanted => exact hends (ends_readyWrite _ (Or.inl rfl)) hrun
  | selectReadable r wanted => exact hends (ends_readyRead _ (Or.inl rfl) (Or.inl rfl)) hrun
  | command opened connected idle ready =>
    -- commands are taken by a connected task only
    rw [Book.connected, hsig] at connected
    cases connected
  | writing => exact hends (ends_writeRound (Or.inr rfl) (Or.inl rfl) (Or.inl rfl)) hrun
  | reading =>
    rcases run_bind_cases recvPacket processIncoming tx with
      ⟨found, tx₁, hrecv, hread⟩ | ⟨e, tx₁, -, hread⟩
    · rw [readRound, hread] at hrun
      cases found with
      | packet pkt =>
        have hdesk : tx₁.desk = tx.desk := quiet_recvPacket.ok hrecv
        have hsig₁ : tx₁.connectSig = true :=
          (congrArg (fun d : Desk => d.book.connectSig) hdesk).trans hsig
        have hpkt : (processPacket pkt).run tx₁ = (processConnAck pkt).run tx₁ := by
          simp only [processPacket, EStateM.run_bind, EStateM.run_get, hsig₁, if_true]
        have hconn : (processConnAck pkt).run tx₁ = .ok (!(connResult pkt).isOk) { tx₁ with
            connectSig := false, connectResult := some (connResult pkt) } := rfl
        simp only [processIncoming, EStateM.run_bind, hpkt, hconn] at hrun
        split at hrun <;> cases hrun <;> exact Or.inr (Or.inr rfl)
      | closed | again | idle =>
        cases hrun
        simp [Phase.inMainLoop]
    · rw [readRound, hread] at hrun
      cases hrun
  | _ => cases hp

/-- The main loop is not entered again. -/
theorem ends_behind_loop {tx : Transceiver τ} {gone : Bool} {p : Phase} {e : TaskEvent}
    {x : TaskM τ Phase} (hx : tx.program gone p e = some x) (hp : p.inMainLoop = false) :
    Ends (·.inMainLoop = false) x := by
  cases isProgram_of_program hx with
  | stopping => exact .bind fun _ => .ite (.bind fun _ => .pure rfl) (.pure rfl)
  | flushed readDone writeDone | closeNotify => exact .bind fun _ => .pure rfl
  | flushingWritable r wanted | notifyingWritable r wanted => exact ends_readyWrite _ rfl
  | flushingReadable r wanted | notifyingReadable r wanted => exact ends_readyRead _ rfl rfl
  | flushWriting => exact ends_writeRound rfl rfl rfl
  | notified readDone writeDone => exact .pure rfl
  | _ => cases hp

theorem behind_loop_taskStep {e : TaskEvent} (hstep : s.taskStep e = some s')
    (hp : s.phase.inMainLoop = false) : s'.phase.inMainLoop = false := by
  have herror : s.phase.afterError.inMainLoop = false := by
    cases s.phase <;> rfl
  cases isTaskStep_of_taskStep hstep with
  | program x runs =>
    rcases phase_runProgram s x with ⟨p, tx, hrun, heq⟩ | ⟨f, tx, -, hnext⟩
    · rw [heq]
      exact ends_behind_loop runs hp _ _ _ hrun
    · rcases hnext with hnext | ⟨q, hnext⟩
      · rw [hnext]
        exact herror
      · rw [hnext]
        rfl
  | fail n next stage =>
    rcases sweepStage_cases stage with ⟨-, rfl⟩ | ⟨-, rfl⟩ | ⟨-, rfl⟩ <;> rfl
  | _ => rfl

/-! ## The connection result -/

/-- The step of the task finds itself cut off from the broker. -/
def cutsOff (s : System τ) : Event → Bool
  | .task e => s.tx.cutsOff s.phase e
  | .client _ => false

/-- The step cuts the task off before the first packet. -/
def cutsOffEarly (s : System τ) (e : Event) : Bool := s.tx.connectSig && s.cutsOff e

/-- The sender of the result is there as long as no result was sent. -/
def ResultOnce (s : System τ) : Prop :=
  s.tx.connectSig = s.tx.connectResult.isNone

theorem ResultOnce.step {e : Event} (h : ResultOnce s) (hstep : s.step e = some s') :
    ResultOnce s' := by
  unfold ResultOnce at h ⊢
  cases e with
  | client e =>
    have hsame := (clientMove_of_clientStep hstep).sameTask
    rw [hsame.connectSig, hsame.connectResult, h]
  | task e =>
    rcases connect_taskStep hstep with ⟨hsig, hresult⟩ | ⟨-, pkt, -, hsig, hresult⟩
    · rw [hsig, hresult, h]
    · rw [hsig, hresult]
      rfl

omit [Transport τ] in
theorem resultOnce_spawn (setup : Setup τ) : ResultOnce (spawn setup) := rfl

/-- A result that was sent stays the same. -/
theorem connectResult_stays {e : Event} {r : Except ServerConnectError Bool} (h : ResultOnce s)
    (hr : s.tx.connectResult = some r) (hstep : s.step e = some s') :
    s'.tx.connectResult = some r := by
  cases e with
  | client e => exact (clientMove_of_clientStep hstep).sameTask.connectResult.trans hr
  | task e =>
    rcases connect_taskStep hstep with ⟨-, hresult⟩ | ⟨hsig, -⟩
    · exact hresult.trans hr
    · unfold ResultOnce at h
      rw [hsig, hr] at h
      cases h

/-- While no result was sent the task is in its main loop. -/
theorem loops_step {e : Event} {packet : Packet} (hsent : Unanswered packet s)
    (h : s.tx.connectSig = true → s.phase.inMainLoop = true)
    (hok : s.cutsOffEarly e = false) (hstep : s.step e = some s')
    (hsig' : s'.tx.connectSig = true) : s'.phase.inMainLoop = true := by
  cases e with
  | client e =>
    have hsame := (clientMove_of_clientStep hstep).sameTask
    rw [hsame.phase]
    exact h (hsame.connectSig.symm.trans hsig')
  | task e =>
    have hsig : s.tx.connectSig = true := by
      rcases connect_taskStep hstep with ⟨hsame, -⟩ | ⟨hsig, -⟩
      · exact hsame.symm.trans hsig'
      · exact hsig
    have hloop := h hsig
    simp only [cutsOffEarly, hsig, Bool.true_and, cutsOff] at hok
    cases isTaskStep_of_taskStep hstep with
    | program x runs =>
      obtain ⟨p, tx, hrun, hopen⟩ := goesOn_program runs hloop hsig (hsent.queue hsig) hok
      rw [runProgram, hrun] at hsig' ⊢
      rcases stays_in_loop runs hloop hsig hrun with hstays | hclosed | htaken
      · exact hstays
      · exact absurd hclosed hopen
      · cases htaken.symm.trans hsig'
    | fail n next stage =>
      rcases sweepStage_cases stage with ⟨hp, -⟩ | ⟨hp, -⟩ | ⟨hp, -⟩
      all_goals
        rw [hp] at hloop
        cases hloop
    | timeout stage event =>
      rcases stage with hp | hp
      all_goals
        rw [hp] at hloop
        cases hloop
    | closed stage | drain stage | wake stage | returns stage | drop status stage =>
      rw [stage] at hloop
      cases hloop

/-- The task has terminated. -/
def terminated (s : System τ) : Bool :=
  match s.phase with
  | .finished _ | .gone | .crashed _ => true
  | _ => false

/-- In every run in which the task is not cut off before the first packet: when the task has
terminated a result was sent, a result that was sent is never replaced, and
`Client::connect` fails only with a result that says so. -/
theorem connect_result_reported {setup : Setup τ}
    (hs : Reaches System.step (fun s e => s.cutsOffEarly e = false) (spawn setup) s) :
    (s.terminated = true → ∃ r, s.tx.connectResult = some r ∧ s.tx.connectSig = false) ∧
      (∀ r s', s.tx.connectResult = some r → Reaches System.step always s s' →
        s'.tx.connectResult = some r) ∧
      ∀ s', s.step (.client .connectFailed) = some s' →
        ∃ err, s.tx.connectResult = some (.error err) := by
  have honce := hs.invariant (I := ResultOnce) (resultOnce_spawn _)
    fun _ _ _ h _ hstep => h.step hstep
  have hloop : s.tx.connectSig = true → s.phase.inMainLoop = true :=
    (hs.invariant (I := fun s => Unanswered setup.connectPacket s ∧
        (s.tx.connectSig = true → s.phase.inMainLoop = true))
      ⟨unanswered_spawn setup, fun _ => rfl⟩ fun _ _ _ h hok hstep =>
        ⟨h.1.step hstep, loops_step h.1 h.2 hok hstep⟩).2
  have hsent : s.terminated = true → s.tx.connectSig = false := by
    intro hterm
    refine Bool.eq_false_iff.mpr fun hsig => ?_
    have hmain := hloop hsig
    revert hterm hmain
    unfold terminated
    cases s.phase <;> nofun
  have hresult : s.tx.connectSig = false → ∃ r, s.tx.connectResult = some r := by
    intro hsig
    rw [ResultOnce, hsig] at honce
    exact Option.isSome_iff_exists.mp (by simpa using honce.symm)
  refine ⟨fun hterm => ?_, fun r s' hr hs' => ?_, fun s' hstep => ?_⟩
  · obtain ⟨r, hr⟩ := hresult (hsent hterm)
    exact ⟨r, hr, hsent hterm⟩
  · have hkept : ResultOnce s' ∧ s'.tx.connectResult = some r :=
      hs'.invariant (I := fun s => ResultOnce s ∧ s.tx.connectResult = some r) ⟨honce, hr⟩
        fun _ _ _ h _ hstep => ⟨h.1.step hstep, connectResult_stays h.1 h.2 hstep⟩
    exact hkept.2
  · simp only [step, clientStep, connectStep] at hstep
    split at hstep
    · split at hstep
      · simp_all
      · exact ⟨_, ‹_›⟩
      · split at hstep
        · cases hstep
        · rename_i hnone halive
          have hterm : s.terminated = true := by
            revert halive
            unfold receiverAlive terminated
            cases s.phase <;> simp
          obtain ⟨r, hr⟩ := hresult (hsent hterm)
          cases hnone.symm.trans hr
      · simp_all
      · cases hstep
    · cases hstep

/-- A peer that refuses the connection: the task reports it and ends. -/
theorem connect_result_reported_refusal : ∃ s, Reaches System.step
    (fun s e => s.cutsOffEarly e = false) (spawn (scripted ⟨[.data 0x20 [2, 0, 5]], true, []⟩)) s ∧
      s.terminated = true ∧
      ∃ r, s.tx.connectResult = some r ∧ s.tx.connectSig = false := by
  have hrun : (runUnder System.step (fun s e => s.cutsOffEarly e = false)
      (spawn (scripted ⟨[.data 0x20 [2, 0, 5]], true, []⟩))
      (.task .proceed :: .task (.readable (.ok ())) :: List.replicate 12 (.task .proceed))).any
      (fun s => s.terminated) = true := by
    decide +kernel
  obtain ⟨s, hs, hterm⟩ := exists_reaches _ hrun
  exact ⟨s, hs, hterm, (connect_result_reported hs).1 hterm⟩

/-- The peer closes the connection before it has answered: the task ends without a result,
and `Client::connect` fails because the sender is gone. -/
theorem closed_before_answer : ∃ s, Reaches System.step always (spawn (scripted ⟨[], true, []⟩)) s ∧
    s.terminated = true ∧ s.tx.connectResult = none ∧
      (s.step (.client .connectFailed)).isSome = true := by
  have hrun : (runUnder System.step always (spawn (scripted ⟨[], true, []⟩))
      [.task .proceed, .task (.readable (.ok ())), .task .proceed, .task .proceed,
        .task .proceed]).any
      (fun s => s.terminated && s.tx.connectResult.isNone &&
        (s.step (.client .connectFailed)).isSome) = true := by
    decide +kernel
  obtain ⟨s, hs, hp⟩ := exists_reaches _ hrun
  simp only [Bool.and_eq_true, Option.isNone_iff_eq_none] at hp
  exact ⟨s, hs, hp.1.1, hp.1.2, hp.2⟩

/-! ## The first command -/

/-- `Client::connect` gives up while the main loop waits for the first packet. -/
def givesUpEarly (s : System τ) : Event → Bool
  | .client .connectTimeout => s.tx.connectSig && s.phase.inMainLoop
  | _ => false

/-- Calls are made between the answer to `CONNECT` and the end of the last handle. Commands
come from calls, and from `Client::connect` when it gives up. -/
structure Handshake (s : System τ) : Prop where
  idle : s.handle ≠ .connected → ∀ c call, s.calls.lookup c = some call → call.isDone = true
  accepted : s.handle = .connected → s.tx.connectSig = false
  early : s.tx.connectSig = true → s.phase.inMainLoop = true → s.tx.cmdQueue = []
  closed : s.tx.cmdQueueClosed = true → s.handle = .dropped ∧ s.tx.cmdQueue = []

omit [Transport τ] in
theorem start_connected {c : Nat} {t : System τ} (h : s.start c t = some s') :
    s.handle = .connected := by
  unfold start at h
  split at h
  · rename_i hstart
    exact hstart.1
  · cases h

omit [Transport τ] in
/-- Without a client and without calls, only `Client::connect` and the holders of channels
do something. -/
theorem clientStep_of_idle {e : ClientEvent} (hstep : s.clientStep e = some s')
    (hhandle : s.handle ≠ .connected)
    (hidle : ∀ c call, s.calls.lookup c = some call → call.isDone = true) :
    (∃ ch f, s' = s.setChannel ch f) ∨ s.handle = .connecting ∧ s.connectStep e = some s' := by
  have hlive : ∀ {c call} {P : Prop}, s.calls.lookup c = some call → call.isDone = false → P :=
    fun hcall hlive => absurd (hidle _ _ hcall) (by rw [hlive]; nofun)
  have hstart : ∀ {c t} {P : Prop}, s.start c t = some s' → P :=
    fun h => absurd (start_connected h) hhandle
  cases e with
  | connected | connectFailed | connectTimeout =>
    simp only [clientStep] at hstep
    split at hstep
    · exact Or.inr ⟨‹_›, hstep⟩
    · cases hstep
  | dropHandles =>
    simp only [clientStep] at hstep
    split at hstep
    · rename_i hguard
      exact absurd hguard.1 hhandle
    · cases hstep
  | publish | subscribe | unsubscribe | disconnect => exact hstart hstep
  | removeCallback c other =>
    simp only [clientStep, startRemoveCallback] at hstep
    split at hstep
    · exact hstart hstep
    · cases hstep
  | register c | build c =>
    simp only [clientStep] at hstep
    split at hstep
    · exact hlive ‹_› rfl
    · cases hstep
  | send c =>
    obtain ⟨call, hcall, h⟩ := Option.bind_eq_some_iff.mp hstep
    obtain ⟨cmd, hcmd, -⟩ := Option.bind_eq_some_iff.mp h
    exact hlive hcall (Call.live_of_command hcmd)
  | poll c =>
    obtain ⟨call, hcall, h⟩ := Option.bind_eq_some_iff.mp hstep
    split at h
    · exact hlive hcall rfl
    · obtain ⟨fut, hfut, -⟩ := Option.bind_eq_some_iff.mp h
      exact hlive hcall (Call.live_of_subscribes hfut)
  | cancel c =>
    obtain ⟨call, hcall, h⟩ := Option.bind_eq_some_iff.mp hstep
    split at h
    all_goals first | exact hlive hcall rfl | cases h
  | receive ch | closeChannel ch =>
    cases hstep
    exact Or.inl ⟨ch, _, rfl⟩

omit [Transport τ] in
/-- The client goes when its last call has ended. -/
theorem clientStep_of_connected {e : ClientEvent} (hstep : s.clientStep e = some s')
    (hhandle : s.handle = .connected) :
    s'.handle = .connected ∨ s' = { s with handle := .dropped } ∧
      ∀ c call, s.calls.lookup c = some call → call.isDone = true := by
  have hbusy : ¬ s.handle = .connecting := by
    rw [hhandle]
    nofun
  cases e with
  | connected | connectFailed | connectTimeout =>
    simp only [clientStep, if_neg hbusy] at hstep
    cases hstep
  | dropHandles =>
    simp only [clientStep] at hstep
    split at hstep
    · rename_i hguard
      cases hstep
      refine Or.inr ⟨rfl, fun c call hcall => ?_⟩
      exact List.all_eq_true.mp hguard.2 _ (AList.mem_lookup_iff.mp hcall)
    · cases hstep
  | publish c mode topic payload retain =>
    obtain ⟨-, rfl⟩ := start_eq_some hstep
    refine Or.inl (Eq.trans ?_ hhandle)
    unfold startPublish encodePublish
    split <;> split <;> rfl
  | subscribe c topic qos req =>
    obtain ⟨-, rfl⟩ := start_eq_some hstep
    refine Or.inl (Eq.trans ?_ hhandle)
    unfold startSubscribe
    split <;> rfl
  | unsubscribe | disconnect =>
    obtain ⟨-, rfl⟩ := start_eq_some hstep
    exact Or.inl hhandle
  | removeCallback c other =>
    simp only [clientStep, startRemoveCallback] at hstep
    split at hstep
    · obtain ⟨-, rfl⟩ := start_eq_some hstep
      exact Or.inl hhandle
    · cases hstep
  | register c =>
    simp only [clientStep] at hstep
    split at hstep <;> cases hstep
    exact Or.inl hhandle
  | build c =>
    simp only [clientStep] at hstep
    split at hstep
    · split at hstep <;> cases hstep
      · rename_i made
        exact Or.inl (Eq.trans (by rw [buildKind_frame made]; rfl) hhandle)
      · exact Or.inl hhandle
    · cases hstep
  | send c =>
    obtain ⟨call, hcall, h⟩ := Option.bind_eq_some_iff.mp hstep
    obtain ⟨cmd, hcmd, h⟩ := Option.bind_eq_some_iff.mp h
    refine Or.inl (Eq.trans ?_ hhandle)
    split at h
    · cases h
      unfold sendFailed
      split <;> rfl
    · split at h
      · cases h
        rfl
      · split at h <;> cases h
        rfl
  | poll c =>
    obtain ⟨call, hcall, h⟩ := Option.bind_eq_some_iff.mp hstep
    refine Or.inl (Eq.trans ?_ hhandle)
    split at h
    · cases h
      unfold pollPublish
      split <;> rfl
    · obtain ⟨fut, -, h⟩ := Option.bind_eq_some_iff.mp h
      cases h
      unfold pollSubscribe
      split <;> rfl
  | cancel c =>
    obtain ⟨call, hcall, h⟩ := Option.bind_eq_some_iff.mp hstep
    refine Or.inl (Eq.trans ?_ hhandle)
    split at h
    all_goals cases h
    all_goals try rfl
    all_goals
      unfold cancelSubscribe
      split <;> rfl
  | receive ch | closeChannel ch =>
    cases hstep
    exact Or.inl hhandle

omit [Transport τ] in
theorem Handshake.clientStep {e : ClientEvent} (h : Handshake s) (honce : ResultOnce s)
    (hok : s.givesUpEarly (.client e) = false) (hstep : s.clientStep e = some s') :
    Handshake s' := by
  have hmove := clientMove_of_clientStep hstep
  have hsame := hmove.sameTask
  by_cases hhandle : s.handle = .connected
  · have hsig := h.accepted hhandle
    have hopen : s.tx.cmdQueueClosed = false := by
      refine Bool.eq_false_iff.mpr fun hclosed => ?_
      cases hhandle.symm.trans (h.closed hclosed).1
    have hopen' : s'.tx.cmdQueueClosed = false := by
      rw [hmove.onlyBook]
      exact hopen
    have hsig' : s'.tx.connectSig = false := hsame.connectSig.trans hsig
    refine ⟨fun hgone => ?_, fun _ => hsig', fun h => ?_, fun h => ?_⟩
    · rcases clientStep_of_connected hstep hhandle with hstays | ⟨rfl, hdone⟩
      · exact absurd hstays hgone
      · exact hdone
    · cases hsig'.symm.trans h
    · cases hopen'.symm.trans h
  · have hidle := h.idle hhandle
    rcases clientStep_of_idle hstep hhandle hidle with ⟨ch, f, rfl⟩ | ⟨hconnecting, hconn⟩
    · exact ⟨h.idle, h.accepted, h.early, h.closed⟩
    have hopen : s.tx.cmdQueueClosed = true → False := by
      intro hclosed
      cases hconnecting.symm.trans (h.closed hclosed).1
    unfold connectStep at hconn
    split at hconn
    · rename_i hresult
      cases hconn
      refine ⟨fun _ => hidle, fun _ => ?_, h.early, fun hclosed => (hopen hclosed).elim⟩
      rw [ResultOnce, hresult] at honce
      exact honce
    · cases hconn
      exact ⟨fun _ => hidle, nofun, h.early, fun hclosed => (hopen hclosed).elim⟩
    · split at hconn <;> cases hconn
      exact ⟨fun _ => hidle, nofun, h.early, fun hclosed => (hopen hclosed).elim⟩
    · cases hconn
      split
      · refine ⟨fun _ => hidle, nofun, fun hsig hloop => ?_, fun hclosed => (hopen hclosed).elim⟩
        have hearly : (s.tx.connectSig && s.phase.inMainLoop) = true :=
          Bool.and_eq_true_iff.mpr ⟨hsig, hloop⟩
        cases hearly.symm.trans hok
      · exact ⟨fun _ => hidle, nofun, h.early, fun hclosed => (hopen hclosed).elim⟩
    · cases hconn

/-- Only the command branch closes the queue. -/
theorem cmdQueueClosed_taskStep {e : TaskEvent} (hstep : s.taskStep e = some s')
    (hclosed : s'.tx.cmdQueueClosed = true) :
    s.tx.cmdQueueClosed = true ∨ s.handle = .dropped ∧ s.tx.cmdQueue = [] := by
  by_cases hends : s.handle = .dropped ∧ s.tx.cmdQueue = []
  · exact Or.inr hends
  · have hfixes : Fixes (·.cmdQueueClosed) s.tx s'.tx :=
      driven_step (e := .task e) (driven_fixes fun _ _ _ _ _ => rfl) hstep
        (fun _ _ hqueue hdropped => absurd ⟨hdropped, hqueue⟩ hends) fun _ _ => rfl
    exact Or.inl (hfixes.eq.symm.trans hclosed)

theorem Handshake.taskStep {e : TaskEvent} (h : Handshake s) (hstep : s.taskStep e = some s') :
    Handshake s' := by
  have hmove := taskMove_of_taskStep hstep
  have hhandle : s'.handle = s.handle := by
    cases hmove <;> rfl
  have hcalls := calls_taskStep hstep
  have hqueue : s.tx.cmdQueue = [] → s'.tx.cmdQueue = [] := by
    intro hempty
    have hsuffix := hmove.cmdQueue
    rw [hempty] at hsuffix
    exact List.suffix_nil.mp hsuffix
  refine ⟨fun hgone => ?_, fun hconn => ?_, fun hsig hloop => ?_, fun hclosed => ?_⟩
  · rw [hcalls]
    exact h.idle (hhandle ▸ hgone)
  · have hsig := h.accepted (hhandle ▸ hconn)
    rcases connect_taskStep hstep with ⟨hsame, -⟩ | ⟨-, pkt, -, hsent, -⟩
    · exact hsame.trans hsig
    · exact hsent
  · have hwaits : s.tx.connectSig = true := by
      rcases connect_taskStep hstep with ⟨hsame, -⟩ | ⟨hwaits, -⟩
      · exact hsame.symm.trans hsig
      · exact hwaits
    refine hqueue (h.early hwaits ?_)
    rw [← Bool.not_eq_false]
    intro hbehind
    cases (behind_loop_taskStep hstep hbehind).symm.trans hloop
  · rw [hhandle]
    rcases cmdQueueClosed_taskStep hstep hclosed with hclosed | ⟨hdropped, hempty⟩
    · exact ⟨(h.closed hclosed).1, hqueue (h.closed hclosed).2⟩
    · exact ⟨hdropped, hqueue hempty⟩

theorem handshake {setup : Setup τ}
    (hs : Reaches System.step (fun s e => s.givesUpEarly e = false) (spawn setup) s) :
    Handshake s := by
  have hinv : ResultOnce s ∧ Handshake s := by
    refine hs.invariant (I := fun s => ResultOnce s ∧ Handshake s) ⟨resultOnce_spawn _, ?_⟩ ?_
    · exact ⟨fun _ _ _ h => (by cases h), nofun, fun _ _ => rfl, nofun⟩
    · intro s e s' h hok hstep
      refine ⟨h.1.step hstep, ?_⟩
      cases e with
      | client e => exact h.2.clientStep h.1 hok hstep
      | task e => exact h.2.taskStep hstep
  exact hinv.2

/-- In every run in which `Client::connect` does not give up before the first packet: a
`Disconnect` at the head of the queue can be taken when no packet is in transmission, and
taking it ends the main loop. -/
theorem disconnect_never_blocked {setup : Setup τ} {rest : List Command}
    (hs : Reaches System.step (fun s e => s.givesUpEarly e = false) (spawn setup) s)
    (hphase : s.phase = .select) (hqueue : s.tx.cmdQueue = .disconnect :: rest)
    (hidle : s.tx.link.txPkt = none) :
    ∃ s', s.step (.task .command) = some s' ∧ s'.phase = .stopping := by
  have hinv := handshake hs
  have hsig : s.tx.connectSig = false := by
    refine Bool.eq_false_iff.mpr fun hsig => ?_
    cases hqueue.symm.trans (hinv.early hsig (by rw [hphase]; rfl))
  have hopen : s.tx.cmdQueueClosed = false := by
    refine Bool.eq_false_iff.mpr fun hclosed => ?_
    cases hqueue.symm.trans (hinv.closed hclosed).2
  have hprog : s.tx.program (s.handle = .dropped) s.phase .command = some commandRound := by
    simp [program, hphase, hopen, Book.connected, hsig, hidle, hqueue]
  have hrun : commandRound.run s.tx = .ok .stopping { s.tx with cmdQueue := rest } := by
    simp only [commandRound, takeCommand, EStateM.run_bind, EStateM.run_get, hqueue]
    rfl
  refine ⟨s.runProgram commandRound, ?_, ?_⟩
  · show s.taskStep .command = _
    unfold taskStep
    split
    case h_11 => rw [hprog, Option.map_some]
    all_goals cases hphase.symm.trans ‹s.phase = _›
  · rw [runProgram, hrun]

theorem disconnect_never_blocked_call : ∃ s s', Reaches System.step
    (fun s e => s.givesUpEarly e = false) (spawn (silentSetup false)) s ∧
      s.step (.task .command) = some s' ∧ s'.phase = .stopping := by
  have hrun : (runUnder System.step (fun s e => s.givesUpEarly e = false)
      (spawn (silentSetup false)) (connecting ++ [.client (.disconnect 0), .client (.send 0)])).any
      (fun s => s.phase == .select && s.tx.cmdQueue == [.disconnect] &&
        s.tx.link.txPkt == none) = true := by
    decide +kernel
  obtain ⟨s, hs, hp⟩ := exists_reaches _ hrun
  simp only [Bool.and_eq_true, beq_iff_eq] at hp
  obtain ⟨s', hstep, hstops⟩ := disconnect_never_blocked hs hp.1.1 hp.1.2 hp.2
  exact ⟨s, s', hs, hstep, hstops⟩

/-- The broker does not answer and `Client::connect` gives up: its `Disconnect` is at the
head of the queue and no packet is in transmission, but the command branch is disabled. -/
theorem disconnect_blocked : ∃ s, Reaches System.step always
    (spawn (scripted ⟨[.wouldBlock], false, []⟩)) s ∧ s.phase = .select ∧
      s.tx.cmdQueue = [.disconnect] ∧ s.tx.link.txPkt = none ∧
      (s.step (.task .command)).isNone = true := by
  have hrun : (runUnder System.step always (spawn (scripted ⟨[.wouldBlock], false, []⟩))
      [.task .proceed, .client .connectTimeout]).any
      (fun s => s.phase == .select && s.tx.cmdQueue == [.disconnect] &&
        s.tx.link.txPkt == none && (s.step (.task .command)).isNone) = true := by
    decide +kernel
  obtain ⟨s, hs, hp⟩ := exists_reaches _ hrun
  simp only [Bool.and_eq_true, beq_iff_eq] at hp
  exact ⟨s, hs, hp.1.1.1, hp.1.1.2, hp.1.2, hp.2⟩

end System

end Lmc
