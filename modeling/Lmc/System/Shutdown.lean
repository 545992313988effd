import Lmc.System.Slots

/-!
# The end of the task

When the task stops it fails the entries of the three notifier maps, drains the map of
subscriptions, and wakes everybody it has found there. `task_strands_nobody` is about the
moment at which it returns: nothing waits in the maps, and every waiting call has been
woken. `shutdown_resolves_calls` is about the time after the command receiver is gone:
every call that still waits is resolved by its next poll.

Neither holds of all runs. A task that ends because the peer has closed the connection
sweeps nothing, whoever waits (`task_strands_publisher`), and between the sweep of a map
and the drop of the receiver a call can still register there and send its command
(`shutdown_loses_publisher`). The conditions below exclude these steps.
-/

namespace Lmc

open Runs

/-- The call waits in the map, under the identifier. -/
def Call.waitsUnder (n : Notifier) (id : UInt16) (call : Call) : Bool :=
  call.publishFuture.any fun fut => fut.notifier == n && fut.packetId == id

/-- The call waits for a subscription to the topic. -/
def Call.waitsFor (topic : Str) (call : Call) : Bool :=
  call.subscribeFuture.any fun fut => fut.topic == topic

/-- The sweep has begun and has not woken what it collected. -/
def Phase.sweeping : Phase → Bool
  | .failRec | .failComp | .draining | .waking => true
  | _ => false

namespace System

variable {τ : Type} {s s' : System τ} {e : Event}

/-! ## Conditions -/

/-- The task does not return because the peer has closed the connection. -/
def staysOpen (s : System τ) : Event → Bool
  | .task _ => s.phase != .closed
  | .client _ => true

/-- No entry of a notifier map waits, and no topic is pending. -/
def nobodyWaits (s : System τ) : Bool :=
  ([.pubAck, .pubRec, .pubComp].all fun n =>
    Table.count NotifyResult.isWaiting (s.tx.shared.notifierMap n) == 0) &&
    Table.count SubscriptionState.isPending s.tx.shared.subs == 0

theorem nobodyWaits_entry (h : s.nobodyWaits = true) (n : Notifier) (id : UInt16)
    (r : NotifyResult) (hr : s.publishers.entry n id = some r) : r.isWaiting = false := by
  simp only [nobodyWaits, Bool.and_eq_true, List.all_cons, List.all_nil, beq_iff_eq] at h
  obtain ⟨⟨hack, hrec, hcomp, -⟩, -⟩ := h
  have hnone : Table.count NotifyResult.isWaiting (s.tx.shared.notifierMap n) = 0 := by
    cases n <;> assumption
  exact Table.count_eq_zero.mp hnone id r hr

theorem nobodyWaits_idle (h : s.nobodyWaits = true) (topic : Str) : s.subscribers.Idle topic := by
  simp only [nobodyWaits, Bool.and_eq_true, beq_iff_eq] at h
  intro slots hs
  cases Table.count_eq_zero.mp h.2 topic _ hs

/-- No call registers under an identifier that another call waits under. -/
def registersFree (s : System τ) (e : Event) : Bool :=
  match s.publishLabel e with
  | .register n id => Table.count (Call.waitsUnder n id) s.calls == 0
  | _ => true

/-- No call registers in a map that was swept. -/
def registersEarly (s : System τ) (e : Event) : Bool :=
  (match s.publishLabel e with
    | .register n _ => !s.phase.swept n
    | _ => true) &&
  match s.subscribeLabel e with
  | .start _ => !s.phase.drained
  | _ => true

theorem publishLabel_ne_abandon (h : s.staysOpen e = true) : s.publishLabel e ≠ .abandon := by
  intro heq
  unfold publishLabel at heq
  split at heq
  · split at heq <;> cases heq
  · split at heq
    · split at heq <;> cases heq
    · cases heq
  · rw [if_neg (by simpa [staysOpen] using h)] at heq
    cases heq
  · cases heq

theorem subscribeLabel_ne_abandon (h : s.staysOpen e = true) :
    s.subscribeLabel e ≠ .abandon := by
  intro heq
  unfold subscribeLabel at heq
  split at heq
  · split at heq <;> cases heq
  · split at heq
    · split at heq <;> cases heq
    · cases heq
  · rw [if_neg (by simpa [staysOpen] using h)] at heq
    split at heq
    · split at heq <;> cases heq
    · cases heq
  · cases heq

theorem free_of_registersFree (h : s.registersFree e = true) {n : Notifier} {id : UInt16}
    (hlabel : s.publishLabel e = .register n id) : s.publishers.Free n id := by
  rintro c fut hfut ⟨hn, hid⟩
  obtain ⟨call, hcall, hwaits⟩ := Option.bind_eq_some_iff.mp hfut
  unfold registersFree at h
  rw [hlabel] at h
  have hnone := Table.count_eq_zero.mp (beq_iff_eq.mp h) c call hcall
  simp [Call.waitsUnder, hwaits, hn, hid] at hnone

/-! ## Undisturbed waiting -/

/-- Outside of the sweep nothing is collected. -/
def Collects (s : System τ) : Prop := s.phase.sweeping = false → s.sweep = []

/-- Every waiting call has its waker in the maps, or the waker was called. -/
structure Undisturbed (s : System τ) : Prop where
  tracked : s.publishers.Tracked
  slots : s.subscribers.Slots
  collects : Collects s

theorem undisturbed_spawn (setup : Setup τ) : Undisturbed (spawn setup) where
  tracked := by constructor <;> rintro c <;> simp [publishers, spawn]
  slots := slots_spawn setup
  collects _ := rfl

/-- A publish call whose entry does not wait has been woken. -/
theorem Undisturbed.publisher_woken (h : Undisturbed s) (hphase : s.phase.sweeping = false)
    {c : Nat} {fut : PublishFuture} {w : Waker} (hfut : s.publishers.future c = some fut)
    (hw : fut.latest = some w)
    (hentry : ∀ r, (s.tx.shared.notifierMap fut.notifier).lookup fut.packetId = some r →
      r.isWaiting = false) : w ∈ s.tx.history.woken := by
  rcases h.tracked.waker c fut w hfut hw with hstored | hcalled
  · cases hentry _ hstored
  · rw [show s.publishers.called w = (w ∈ s.tx.history.woken ∨ w ∈ s.sweep) from rfl,
      h.collects hphase] at hcalled
    exact hcalled.resolve_right List.not_mem_nil

/-- A subscribe call whose topic is not pending has been woken. -/
theorem Undisturbed.subscriber_woken (h : Undisturbed s) (hphase : s.phase.sweeping = false)
    {c : Nat} {fut : SubscribeFuture} {w : Waker} (hfut : s.subscribers.future c = some fut)
    (hw : fut.latest = some w) (hidle : s.subscribers.Idle fut.topic) :
    w ∈ s.tx.history.woken := by
  have hcalled := (h.slots c fut hfut).mem_wakersOf hw
  rw [Subscribers.wakersOf_of_idle hidle,
    show s.subscribers.called w = (w ∈ s.tx.history.woken ∨ w ∈ s.sweep) from rfl,
    h.collects hphase] at hcalled
  exact (hcalled.resolve_left List.not_mem_nil).resolve_right List.not_mem_nil

section Steps

variable [Transport τ]

theorem tracked_step (h : s.publishers.Tracked) (hfree : s.registersFree e = true)
    (hstep : s.step e = some s') : s'.publishers.Tracked := by
  obtain ⟨l, hl, hmove⟩ := publishStep hstep
  refine h.step hmove fun n id hreg => free_of_registersFree hfree ?_
  exact publishLabel_of hl hreg Publishers.Label.noConfusion

theorem collects_step (h : Collects s) (hstep : s.step e = some s') : Collects s' := by
  cases e with
  | client e =>
    have hsame := (clientMove_of_clientStep hstep).sameTask
    rw [Collects, hsame.phase, hsame.sweep]
    exact h
  | task e =>
    have hrunning : s.phase.running = true → s.sweep = [] := by
      intro hrun
      refine h ?_
      generalize s.phase = p at hrun
      cases p <;> first | rfl | cases hrun
    cases taskMove_of_taskStep hstep with
    | quiet tx p clean running next book => exact fun _ => hrunning running
    | connAck tx p clean running next pkt arrived waiting book => exact fun _ => hrunning running
    | packet tx p clean running next pkt arrived connected effect =>
      exact fun _ => hrunning running
    | command tx p clean running next cmd rest queue taken connected effect =>
      exact fun _ => hrunning running
    | finish status ended =>
      refine fun _ => h ?_
      rcases ended with hphase | hphase <;> rw [hphase] <;> rfl
    | fail n next stage =>
      intro hsweeping
      change next.sweeping = false at hsweeping
      generalize s.phase = p at stage
      cases p <;> cases stage <;> cases hsweeping
    | drain stage => exact fun hsweeping => by cases hsweeping
    | wake stage => exact fun _ => rfl
    | drop status ended => exact fun _ => h (by rw [ended]; rfl)

theorem Undisturbed.step (h : Undisturbed s) (hslots : s.keepsSlots e = true)
    (hfree : s.registersFree e = true) (hstep : s.step e = some s') : Undisturbed s' where
  tracked := tracked_step h.tracked hfree hstep
  slots := slots_step h.slots hslots hstep
  collects := collects_step h.collects hstep

/-! ## The moment of return -/

/-- The steps that leave nobody behind when the task returns. -/
def strandsNobody (s : System τ) (e : Event) : Bool :=
  (s.staysOpen e || s.nobodyWaits) && s.registersEarly e && (s.registersFree e && s.keepsSlots e)

theorem swept_step (h : s.publishers.Swept) (hopen : (s.staysOpen e || s.nobodyWaits) = true)
    (hearly : s.registersEarly e = true) (hstep : s.step e = some s') :
    s'.publishers.Swept := by
  obtain ⟨l, hl, hmove⟩ := publishStep hstep
  refine h.step hmove (fun hl' => ?_) fun n id hreg => ?_
  · rcases Bool.or_eq_true_iff.mp hopen with hopen | hnobody
    · exact absurd (publishLabel_of hl hl' Publishers.Label.noConfusion)
        (publishLabel_ne_abandon hopen)
    · exact nobodyWaits_entry hnobody
  · have hlabel := publishLabel_of hl hreg Publishers.Label.noConfusion
    simp only [registersEarly, hlabel, Bool.and_eq_true, Bool.not_eq_true'] at hearly
    exact hearly.1

theorem drained_step (h : s.subscribers.Drained)
    (hopen : (s.staysOpen e || s.nobodyWaits) = true) (hearly : s.registersEarly e = true)
    (hstep : s.step e = some s') : s'.subscribers.Drained := by
  obtain ⟨l, hl, hmove⟩ := subscribeStep hstep
  refine h.step hmove (fun hl' => ?_) fun topic hstart => ?_
  · rcases Bool.or_eq_true_iff.mp hopen with hopen | hnobody
    · exact absurd (subscribeLabel_of hl hl' Subscribers.Label.noConfusion)
        (subscribeLabel_ne_abandon hopen)
    · exact nobodyWaits_idle hnobody
  · have hlabel := subscribeLabel_of hl hstart Subscribers.Label.noConfusion
    simp only [registersEarly, hlabel, Bool.and_eq_true, Bool.not_eq_true'] at hearly
    exact hearly.2

/-- In every run whose steps all strand nobody, when the task returns no entry of a
notifier map waits, no topic is pending, and the latest waker of every call that waits
has been woken. -/
theorem task_strands_nobody (setup : Setup τ)
    (h : Reaches System.step (fun s e => strandsNobody s e = true) (spawn setup) s)
    {status : ShutdownStatus} (hphase : s.phase = .finished status) :
    (∀ n id r, (s.tx.shared.notifierMap n).lookup id = some r → r = .failed) ∧
    (∀ topic slots, s.tx.shared.subs.lookup topic ≠ some (.pending slots)) ∧
    (∀ c call fut w, s.calls.lookup c = some call → call.publishFuture = some fut →
      fut.latest = some w → w ∈ s.tx.history.woken) ∧
    ∀ c call fut w, s.calls.lookup c = some call → call.subscribeFuture = some fut →
      fut.latest = some w → w ∈ s.tx.history.woken := by
  have hinv : Undisturbed s ∧ s.publishers.Swept ∧ s.subscribers.Drained := by
    refine h.invariant
      (I := fun s => Undisturbed s ∧ s.publishers.Swept ∧ s.subscribers.Drained) ?_ ?_
    · refine ⟨undisturbed_spawn setup, fun n id r hswept => ?_, fun hdrained => ?_⟩
      · cases hswept
      · cases hdrained
    · rintro s e s' ⟨hwait, hswept, hdrained⟩ hok hstep
      simp only [strandsNobody, Bool.and_eq_true] at hok
      obtain ⟨⟨hopen, hearly⟩, hfree, hslots⟩ := hok
      exact ⟨hwait.step hslots hfree hstep, swept_step hswept hopen hearly hstep,
        drained_step hdrained hopen hearly hstep⟩
  obtain ⟨hwait, hswept, hdrained⟩ := hinv
  have hentries : ∀ n id r, (s.tx.shared.notifierMap n).lookup id = some r →
      r.isWaiting = false := fun n id r =>
    hswept n id r (by show s.phase.swept n = true; rw [hphase]; rfl)
  have hidle := hdrained (by show s.phase.drained = true; rw [hphase]; rfl)
  have hdone : s.phase.sweeping = false := by rw [hphase]; rfl
  refine ⟨fun n id r hr => ?_, hidle, fun c call fut w hcall hwaits hw => ?_,
    fun c call fut w hcall hwaits hw => ?_⟩
  · have hwaiting := hentries n id r hr
    cases r <;> first | rfl | cases hwaiting
  · have hfut : s.publishers.future c = some fut :=
      Option.bind_eq_some_iff.mpr ⟨call, hcall, hwaits⟩
    exact hwait.publisher_woken hdone hfut hw (hentries _ _)
  · exact hwait.subscriber_woken hdone (future_subscribers hcall hwaits) hw (hidle _)

/-! ## The time after the receiver is gone -/

/-- No call begins to wait in a map that was swept. -/
def waitsEarly (s : System τ) (e : Event) : Bool :=
  (match s.publishLabel e with
    | .send c => !((s.calls.lookup c).bind Call.publishFuture).any fun fut =>
        s.phase.swept fut.notifier &&
          ((s.tx.shared.notifierMap fut.notifier).lookup fut.packetId).any NotifyResult.isWaiting
    | _ => true) &&
  match s.subscribeLabel e with
  | .start topic => !s.phase.drained || Table.count (Call.waitsFor topic) s.calls == 0
  | .join topic => !s.phase.drained || !s.isPending topic
  | _ => true

/-- The steps that leave no call waiting for a task that is gone. -/
def losesNobody (s : System τ) (e : Event) : Bool :=
  s.staysOpen e && s.waitsEarly e && (s.registersFree e && s.keepsSlots e)

theorem resolved_step (h : s.publishers.Resolved) (hopen : s.staysOpen e = true)
    (hfree : s.registersFree e = true) (hearly : s.waitsEarly e = true)
    (hstep : s.step e = some s') : s'.publishers.Resolved := by
  obtain ⟨l, hl, hmove⟩ := publishStep hstep
  refine h.step hmove (fun hl' => ?_) (fun n id hreg => ?_) fun c fut r hsend hfut hswept hr => ?_
  · exact publishLabel_ne_abandon hopen (publishLabel_of hl hl' Publishers.Label.noConfusion)
  · exact free_of_registersFree hfree (publishLabel_of hl hreg Publishers.Label.noConfusion)
  · have hlabel := publishLabel_of hl hsend Publishers.Label.noConfusion
    have hlookup : (s.tx.shared.notifierMap fut.notifier).lookup fut.packetId = some r := hr
    have hphase : s.phase.swept fut.notifier = true := hswept
    have hcall : (s.calls.lookup c).bind Call.publishFuture = some fut := hfut
    simp only [waitsEarly, hlabel, Bool.and_eq_true, hcall] at hearly
    simpa [hphase, hlookup] using hearly.1

theorem settled_step (h : s.subscribers.Settled) (hopen : s.staysOpen e = true)
    (hearly : s.waitsEarly e = true) (hstep : s.step e = some s') : s'.subscribers.Settled := by
  obtain ⟨l, hl, hmove⟩ := subscribeStep hstep
  refine h.step hmove (fun hl' => ?_) (fun topic hstart hdrained c fut hfut htopic => ?_)
    fun topic hjoin hdrained => ?_
  · exact subscribeLabel_ne_abandon hopen (subscribeLabel_of hl hl' Subscribers.Label.noConfusion)
  · have hlabel := subscribeLabel_of hl hstart Subscribers.Label.noConfusion
    have hphase : s.phase.drained = true := hdrained
    obtain ⟨call, hcall, hwaits⟩ := exists_call_of_future hfut
    simp only [waitsEarly, hlabel, hphase, Bool.and_eq_true, Bool.not_true, Bool.false_or,
      beq_iff_eq] at hearly
    have hnone := Table.count_eq_zero.mp hearly.2 c call hcall
    simp [Call.waitsFor, hwaits, htopic] at hnone
  · have hlabel := subscribeLabel_of hl hjoin Subscribers.Label.noConfusion
    have hphase : s.phase.drained = true := hdrained
    simp only [waitsEarly, hlabel, hphase, Bool.and_eq_true, Bool.not_true, Bool.false_or,
      Bool.not_eq_true'] at hearly
    exact isPending_eq_false.mp hearly.2

omit [Transport τ] in
/-- A call that sends its command when the receiver is gone ends with an error. -/
theorem stepSend_gone (hphase : s.phase = .gone) {c : Nat} {call : Call} {cmd : Command}
    (hcall : s.calls.lookup c = some call) (hcmd : call.command = some cmd) :
    ∃ s', s.stepSend c = some s' ∧ s'.calls.lookup c = some (.done .terminated) := by
  have halive : s.receiverAlive = false := by rw [receiverAlive, hphase]
  refine ⟨s.sendFailed c call, ?_, ?_⟩
  · simp [stepSend, hcall, hcmd, halive]
  · unfold sendFailed
    split <;> exact AList.lookup_insert _

/-- In every run whose steps all lose nobody, once the receiver is gone the next poll of
every call that waits for an acknowledgement or for a subscription is ready, and the
latest waker of the call has been woken; a call that has yet to send its command ends
with an error. -/
theorem shutdown_resolves_calls (setup : Setup τ)
    (h : Reaches System.step (fun s e => losesNobody s e = true) (spawn setup) s)
    (hphase : s.phase = .gone) :
    (∀ c fut, s.calls.lookup c = some (.awaitingPublish fut) →
      (∃ ended fut', fut.poll s.polls s.tx.shared = (.ready ended, fut', s.tx.shared)) ∧
      ∀ w, fut.latest = some w → w ∈ s.tx.history.woken) ∧
    (∀ c call fut, s.calls.lookup c = some call → call.subscribeFuture = some fut →
      (∃ result fut', fut.poll c s.polls s.tx.shared = .ok (.ready result, fut', s.tx.shared)) ∧
      ∀ w, fut.latest = some w → w ∈ s.tx.history.woken) ∧
    ∀ c call cmd, s.calls.lookup c = some call → call.command = some cmd →
      ∃ s', s.step (.client (.send c)) = some s' ∧
        s'.calls.lookup c = some (.done .terminated) := by
  have hinv : Undisturbed s ∧ s.publishers.Resolved ∧ s.subscribers.Settled := by
    refine h.invariant
      (I := fun s => Undisturbed s ∧ s.publishers.Resolved ∧ s.subscribers.Settled) ?_ ?_
    · refine ⟨undisturbed_spawn setup, fun c fut r hfut => ?_, fun hdrained => ?_⟩
      · cases hfut
      · cases hdrained
    · rintro s e s' ⟨hwait, hresolved, hsettled⟩ hok hstep
      simp only [losesNobody, Bool.and_eq_true] at hok
      obtain ⟨⟨hopen, hearly⟩, hfree, hslots⟩ := hok
      exact ⟨hwait.step hslots hfree hstep, resolved_step hresolved hopen hfree hearly hstep,
        settled_step hsettled hopen hearly hstep⟩
  obtain ⟨hwait, hresolved, hsettled⟩ := hinv
  have hdone : s.phase.sweeping = false := by rw [hphase]; rfl
  refine ⟨fun c fut hcall => ?_, fun c call fut hcall hwaits => ?_, fun c call cmd hcall hcmd =>
    stepSend_gone hphase hcall hcmd⟩
  · have hfut : s.publishers.future c = some fut :=
      Option.bind_eq_some_iff.mpr ⟨_, hcall, rfl⟩
    have hentry : ∀ r, (s.tx.shared.notifierMap fut.notifier).lookup fut.packetId = some r →
        r.isWaiting = false := by
      refine fun r => hresolved c fut r hfut ?_ ?_
      · show (s.calls.lookup c).any Call.awaitsAck = true
        rw [hcall]
        rfl
      · show s.phase.swept fut.notifier = true
        rw [hphase]
        rfl
    refine ⟨?_, fun w hw => hwait.publisher_woken hdone hfut hw hentry⟩
    rcases fut.poll_cases s.polls s.tx.shared with hready | ⟨r, hr, hne, -, -⟩
    · exact hready
    · have hwaiting := hentry r hr
      rw [NotifyResult.isWaiting_of_ne hne] at hwaiting
      cases hwaiting
  · have hfut := future_subscribers hcall hwaits
    have hidle : s.subscribers.Idle fut.topic := by
      refine hsettled ?_ c fut hfut
      show s.phase.drained = true
      rw [hphase]
      rfl
    refine ⟨?_, fun w hw => hwait.subscriber_woken hdone hfut hw hidle⟩
    rcases fut.poll_cases c s.polls s.tx.shared with hready | ⟨-, slots, hpending, -⟩
    · exact hready
    · exact absurd hpending (hidle slots)

end Steps

/-! ## Concrete runs -/

/-- A call publishes and waits for its acknowledgement. -/
def publishing : List Event :=
  [.client (.publish 0 .qos1AwaitAck ['t'] [] false), .client (.register 0), .client (.send 0),
    .client (.poll 0), .task .command]

/-- Another call disconnects. -/
def disconnecting : List Event := [.client (.disconnect 1), .client (.send 1), .task .command]

theorem task_strands_nobody_publishing :
    ∃ s status fut, Reaches System.step (fun s e => strandsNobody s e = true)
        (spawn (silentSetup false)) s ∧ s.phase = .finished status ∧
      s.calls.lookup 0 = some (.awaitingPublish fut) ∧ fut.latest = some 0 ∧
      0 ∈ s.tx.history.woken := by
  have hrun : (runUnder System.step (fun s e => strandsNobody s e = true)
      (spawn (silentSetup false)) (connecting ++ publishing ++ disconnecting ++
        List.replicate 10 (.task .proceed))).any (fun s =>
          s.phase == .finished ⟨true, true⟩ &&
            s.calls.lookup 0 == some (.awaitingPublish ⟨1, .pubAck, none, some 0⟩)) = true := by
    decide +kernel
  obtain ⟨s, hs, hp⟩ := exists_reaches _ hrun
  simp only [Bool.and_eq_true, beq_iff_eq] at hp
  refine ⟨s, _, _, hs, hp.1, hp.2, rfl, ?_⟩
  exact (task_strands_nobody (silentSetup false) hs hp.1).2.2.1 0 _ _ 0 hp.2 rfl rfl

/-- The peer closes the connection while a call waits. The task returns with the entry of
the call still waiting, and the waker of the call is not woken. -/
theorem task_strands_publisher :
    ∃ s status, Reaches System.step always (spawn (silentSetup true)) s ∧
      s.phase = .finished status ∧
      (s.tx.shared.notifierMap .pubAck).lookup 1 = some (.withWaker 0) ∧
      s.tx.history.woken = [] := by
  have hrun : (runUnder System.step always (spawn (silentSetup true)) (connecting ++ publishing ++
      [.task (.readable (.ok ())), .task .proceed, .task .proceed])).any (fun s =>
        s.phase == .finished ⟨false, false⟩ &&
          (s.tx.shared.notifierMap .pubAck).lookup 1 == some (.withWaker 0) &&
          s.tx.history.woken == []) = true := by
    decide +kernel
  obtain ⟨s, hs, hp⟩ := exists_reaches _ hrun
  simp only [Bool.and_eq_true, beq_iff_eq] at hp
  exact ⟨s, _, hs, hp.1.1, hp.1.2, hp.2⟩

theorem shutdown_resolves_calls_publishing :
    ∃ s fut, Reaches System.step (fun s e => losesNobody s e = true)
        (spawn (silentSetup false)) s ∧ s.phase = .gone ∧
      s.calls.lookup 0 = some (.awaitingPublish fut) ∧
      ∃ ended fut', fut.poll s.polls s.tx.shared = (.ready ended, fut', s.tx.shared) := by
  have hrun : (runUnder System.step (fun s e => losesNobody s e = true)
      (spawn (silentSetup false)) (connecting ++ publishing ++ disconnecting ++
        List.replicate 11 (.task .proceed))).any (fun s =>
          s.phase == .gone &&
            s.calls.lookup 0 == some (.awaitingPublish ⟨1, .pubAck, none, some 0⟩)) = true := by
    decide +kernel
  obtain ⟨s, hs, hp⟩ := exists_reaches _ hrun
  simp only [Bool.and_eq_true, beq_iff_eq] at hp
  refine ⟨s, _, hs, hp.1, hp.2, ?_⟩
  exact ((shutdown_resolves_calls (silentSetup false) hs hp.1).1 0 _ hp.2).1

/-- A call registers behind the sweep of its map and sends its command before the receiver
is dropped. Then the receiver is gone, the call was polled and is pending, and its next
poll is pending again. -/
theorem shutdown_loses_publisher :
    ∃ s fut, Reaches System.step always (spawn (silentSetup false)) s ∧ s.phase = .gone ∧
      s.calls.lookup 0 = some (.awaitingPublish fut) ∧ fut.latest = some 0 ∧
      s.tx.history.woken = [] ∧ (fut.poll s.polls s.tx.shared).1 = .pending := by
  have hrun : (runUnder System.step always (spawn (silentSetup false)) (connecting ++
      [.client (.publish 0 .qos1AwaitAck ['t'] [] false)] ++ disconnecting ++
      List.replicate 5 (.task .proceed) ++ [.client (.register 0), .client (.send 0)] ++
      List.replicate 6 (.task .proceed) ++ [.client (.poll 0)])).any (fun s =>
        s.phase == .gone &&
          s.calls.lookup 0 == some (.awaitingPublish ⟨1, .pubAck, none, some 0⟩) &&
          s.tx.history.woken == [] && (PublishFuture.poll ⟨1, .pubAck, none, some 0⟩ s.polls
            s.tx.shared).1 == .pending) = true := by
    decide +kernel
  obtain ⟨s, hs, hp⟩ := exists_reaches _ hrun
  simp only [Bool.and_eq_true, beq_iff_eq] at hp
  exact ⟨s, _, hs, hp.1.1.1, hp.1.1.2, rfl, hp.1.2, hp.2⟩

end System

end Lmc
