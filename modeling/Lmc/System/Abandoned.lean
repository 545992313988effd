import Lmc.System.Slots

/-!
# Subscribe calls that give up

A subscribe call that finds its topic absent makes it pending before it queues its
command. In between it may panic when it creates its channel, and it waits for room in the
queue, where it may be dropped, and where it fails if the task is gone. `Watched` is the
system together with a record of the call that has made a topic pending and of the calls
that gave up.

* `pending_topics_awaited`: as long as no call gives up while the entry it has made is
  pending, a pending topic was made pending by a call that did not give up.
* `abandoned_topic_pending`: a call that gives up leaves the entry behind, and the next
  call waits for it.
-/

namespace Lmc

/-- A topic becomes pending only at the start of a call that finds it absent. -/
theorem Subscribers.Step.pending {v v' : Subscribers} {l : Label} (h : Step v l v') {topic : Str}
    (hpending : ¬ v'.Idle topic) : ¬ v.Idle topic ∨ l = .start topic ∧ v.entry topic = none := by
  have hset : ∀ {other : Str} {state : Option SubscriptionState},
      (∀ slots, state = some (.pending slots) → ∃ old, v.entry other = some (.pending old)) →
      ¬ (v.setEntry other state).Idle topic → ¬ v.Idle topic := by
    intro other state hold hnot hidle
    refine hnot fun slots hentry => ?_
    by_cases ht : topic = other
    · subst ht
      obtain ⟨old, hentry'⟩ := hold slots ((entry_setEntry_self topic state).symm.trans hentry)
      exact hidle old hentry'
    · exact hidle slots ((entry_setEntry_ne ht state).symm.trans hentry)
  cases h with
  | start other absent =>
    by_cases ht : topic = other
    · subst ht
      exact Or.inr ⟨rfl, absent⟩
    · refine Or.inl fun hidle => hpending fun slots hentry => ?_
      exact hidle slots ((entry_setEntry_ne ht _).symm.trans hentry)
  | push c fut w slots found here index => exact Or.inl (hset (fun _ _ => ⟨slots, here⟩) hpending)
  | store c fut w slots i slot found here index range =>
    exact Or.inl (hset (fun _ _ => ⟨slots, here⟩) hpending)
  | cancel c fut slots i slot found here index range =>
    exact Or.inl (hset (fun _ _ => ⟨slots, here⟩) hpending)
  | settle other state closed =>
    exact Or.inl (hset (fun slots h => absurd h (closed slots)) hpending)
  | forget other => exact Or.inl (hset (fun _ h => by cases h) hpending)
  | drain => exact absurd nofun hpending
  | _ => exact Or.inl hpending

/-- The topic that a call has made pending, as long as its command is not queued. -/
def Call.opening : Call → Option Str
  | .building topic _ _ none => some topic
  | .sendingSubscribe cmd none => some cmd.topic
  | _ => none

/-- A call opens a topic when it starts and finds it absent. -/
theorem System.CallStep.opening {τ : Type} {s s' : System τ} {old : Option Call} {call : Call}
    {cmds : List Command} (h : CallStep s s' old call cmds) {topic : Str}
    (hopens : call.opening = some topic) :
    old = none ∨ ∃ call', old = some call' ∧ call'.opening = some topic := by
  cases h with
  | build topic qos req actual kind made =>
    cases actual with
    | none => exact Or.inr ⟨_, rfl, hopens⟩
    | some actual => cases hopens
  | sent call cmd sends =>
    cases call with
    | sendingPublish cmd fut => cases fut <;> cases hopens
    | sendingSubscribe cmd actual => cases actual <;> cases hopens
    | _ => cases hopens
  | pollTopic call fut fut' waits same =>
    cases call with
    | awaitingBefore | awaitingAfter => cases hopens
    | _ => cases waits
  | ready call fut result waits entry =>
    cases call with
    | awaitingBefore | awaitingAfter => cases result <;> cases hopens
    | _ => cases waits
  | register | pollAck => cases hopens
  | ended old outcome left ends live => cases hopens
  | _ => exact Or.inl rfl

namespace System

variable {τ : Type}

/-- The call that makes a topic pending in this step, and the topic. -/
def starts (s : System τ) : Event → Option (Nat × Str)
  | .client (.subscribe c topic _ _) =>
    if s.tx.shared.subs.lookup topic = none then some (c, topic) else none
  | _ => none

/-- The call whose topic was absent and whose command is not queued yet, and the topic. -/
def unqueued (s : System τ) (c : Nat) : Option (Nat × Str) :=
  match s.calls.lookup c with
  | some (.sendingSubscribe cmd none) => some (c, cmd.topic)
  | _ => none

/-- The call whose topic was absent and which panics when it creates its channel, and the
topic. -/
def unbuildable (s : System τ) (c : Nat) : Option (Nat × Str) :=
  match s.calls.lookup c with
  | some (.building topic _ req none) => if req.buildable then none else some (c, topic)
  | _ => none

/-- The call has opened no topic but this one. -/
def Opens (s : System τ) (c : Nat) (topic : Str) : Prop :=
  ∃ call, s.calls.lookup c = some call ∧ ∀ t, call.opening = some t → t = topic

theorem Opens.step [Transport τ] {s s' : System τ} {e : Event} {c : Nat} {topic : Str}
    (h : s.Opens c topic) (hstep : s.step e = some s') : s'.Opens c topic := by
  obtain ⟨call, hcall, hopens⟩ := h
  cases e with
  | task e =>
    refine ⟨call, ?_, hopens⟩
    rw [calls_taskStep hstep]
    exact hcall
  | client e =>
    cases (clientMove_of_clientStep hstep).callMove with
    | none calls queue => exact ⟨call, calls ▸ hcall, hopens⟩
    | step c' call' cmds calls queue goes =>
      unfold Opens
      rw [calls, Table.lookup_insert]
      split
      · subst c'
        refine ⟨call', rfl, fun t ht => ?_⟩
        rw [hcall] at goes
        rcases goes.opening ht with hnone | ⟨_, ⟨⟩, hold⟩
        · cases hnone
        · exact hopens t hold
      · exact ⟨call, hcall, hopens⟩

/-- The call that ends in this step before its command is queued: it panics, it is dropped,
or the task is gone. -/
def givesUp (s : System τ) : Event → Option (Nat × Str)
  | .client (.build c) => s.unbuildable c
  | .client (.cancel c) => s.unqueued c
  | .client (.send c) => if s.receiverAlive then none else s.unqueued c
  | _ => none

end System

structure Watched (τ : Type) where
  system : System τ
  /-- The call that has made the topic pending last. -/
  starter : Str → Option Nat
  gaveUp : List Nat

namespace Watched

open Runs Lmc.System

variable {τ : Type}

def setStarter (started : Option (Nat × Str)) (starter : Str → Option Nat) (t : Str) :
    Option Nat :=
  match started with
  | some (c, topic) => if t = topic then some c else starter t
  | none => starter t

def start (setup : Setup τ) : Watched τ := ⟨spawn setup, fun _ => none, []⟩

/-- The call gives up while the entry it has made is pending. -/
def abandons (w : Watched τ) (e : Event) : Bool :=
  (w.system.givesUp e).any fun (c, topic) =>
    w.system.isPending topic && w.starter topic == some c

variable [Transport τ]

def step (w : Watched τ) (e : Event) : Option (Watched τ) :=
  (w.system.step e).map fun s =>
    { system := s
      starter := setStarter (w.system.starts e) w.starter
      gaveUp := w.gaveUp ++ (w.system.givesUp e).toList.map Prod.fst }

variable {w w' : Watched τ} {e : Event}

/-- A call that gave up has ended, and a pending topic was made pending by a call that did
not give up. -/
structure Awaited (w : Watched τ) : Prop where
  ended : ∀ c ∈ w.gaveUp, ∃ outcome, w.system.calls.lookup c = some (.done outcome)
  opens : ∀ topic c, w.starter topic = some c → w.system.Opens c topic
  pending : ∀ topic, w.system.isPending topic = true →
    ∃ c, w.starter topic = some c ∧ c ∉ w.gaveUp

omit [Transport τ] in
theorem unqueued_eq_some {s : System τ} {c c' : Nat} {topic : Str}
    (h : s.unqueued c = some (c', topic)) :
    c' = c ∧ ∃ cmd, s.calls.lookup c = some (.sendingSubscribe cmd none) ∧ cmd.topic = topic := by
  unfold unqueued at h
  split at h
  · cases h
    exact ⟨rfl, _, ‹_›, rfl⟩
  · cases h

omit [Transport τ] in
theorem unbuildable_eq_some {s : System τ} {c c' : Nat} {topic : Str}
    (h : s.unbuildable c = some (c', topic)) :
    c' = c ∧ ∃ qos req, s.calls.lookup c = some (.building topic qos req none) ∧
      req.buildable = false := by
  unfold unbuildable at h
  split at h
  · split at h
    · cases h
    · cases h
      exact ⟨rfl, _, _, ‹_›, (Bool.not_eq_true _).mp ‹_›⟩
  · cases h

omit [Transport τ] in
/-- A call that gives up has opened its topic. -/
theorem opening_of_givesUp {s : System τ} {c : Nat} {topic : Str}
    (h : s.givesUp e = some (c, topic)) :
    ∃ call, s.calls.lookup c = some call ∧ call.opening = some topic := by
  unfold givesUp at h
  split at h
  · obtain ⟨rfl, qos, req, hcall, -⟩ := unbuildable_eq_some h
    exact ⟨_, hcall, rfl⟩
  · obtain ⟨rfl, cmd, hcall, rfl⟩ := unqueued_eq_some h
    exact ⟨_, hcall, rfl⟩
  · split at h
    · cases h
    · obtain ⟨rfl, cmd, hcall, rfl⟩ := unqueued_eq_some h
      exact ⟨_, hcall, rfl⟩
  · cases h

omit [Transport τ] in
/-- What `func` does to a call: it goes on with its command or it panics. -/
theorem step_build {s : System τ} {c : Nat} {topic : Str} {qos : QoS}
    {req : SubscriptionRequest} {actual : Option QoS}
    (hcall : s.calls.lookup c = some (.building topic qos req actual)) :
    (req.buildable = false ∧ s.clientStep (.build c) =
      some (s.setCall c (.done (.panicked .channelCapacity)))) ∨
    req.buildable = true ∧ ∃ kind, ∃ built : System τ, s.clientStep (.build c) =
      some (built.setCall c (.sendingSubscribe ⟨topic, qos, kind⟩ actual)) := by
  rcases buildKind_eq req s with ⟨hpanics, heq⟩ | ⟨hbuilds, kind, built, heq⟩
  · exact Or.inl ⟨hpanics, by simp only [clientStep, hcall, heq]⟩
  · exact Or.inr ⟨hbuilds, kind, built, by simp only [clientStep, hcall, heq]⟩

/-- A call that gives up ends. -/
theorem ended_of_givesUp {s s' : System τ} {c : Nat} {topic : Str}
    (hgives : s.givesUp e = some (c, topic)) (hstep : s.step e = some s') :
    ∃ outcome, s'.calls.lookup c = some (.done outcome) := by
  unfold givesUp at hgives
  split at hgives
  · obtain ⟨rfl, qos, req, hcall, hpanics⟩ := unbuildable_eq_some hgives
    rcases step_build hcall with ⟨-, heq⟩ | ⟨hbuilds, -⟩
    · cases heq.symm.trans hstep
      exact ⟨_, AList.lookup_insert _⟩
    · cases hpanics.symm.trans hbuilds
  · obtain ⟨rfl, cmd, hcall, -⟩ := unqueued_eq_some hgives
    simp only [System.step, clientStep, stepCancel, hcall, Option.bind_eq_bind,
      Option.bind_some] at hstep
    cases hstep
    exact ⟨_, AList.lookup_insert _⟩
  · split at hgives
    · cases hgives
    · rename_i hdead
      obtain ⟨rfl, cmd, hcall, -⟩ := unqueued_eq_some hgives
      simp only [System.step, clientStep, stepSend, hcall, Option.bind_eq_bind, Option.bind_some,
        Call.command, hdead, Bool.not_false, if_true] at hstep
      cases hstep
      exact ⟨_, AList.lookup_insert _⟩
  · cases hgives

/-- The call that makes a topic pending is new and opens the topic. -/
theorem opens_of_starts {s s' : System τ} {c : Nat} {topic : Str}
    (hstarts : s.starts e = some (c, topic)) (hstep : s.step e = some s') :
    s.calls.lookup c = none ∧ s.tx.shared.subs.lookup topic = none ∧ s.givesUp e = none ∧
      s'.Opens c topic := by
  unfold starts at hstarts
  split at hstarts
  · split at hstarts
    · rename_i habsent
      cases hstarts
      obtain ⟨hfresh, rfl⟩ := start_eq_some hstep
      refine ⟨hfresh, habsent, rfl, ?_⟩
      unfold startSubscribe Opens
      rw [habsent]
      refine ⟨_, AList.lookup_insert _, ?_⟩
      rintro _ ⟨⟩
      rfl
    · cases hstarts
  · cases hstarts

omit [Transport τ] in
theorem starts_of_label {s : System τ} {topic : Str} (h : s.subscribeLabel e = .start topic) :
    ∃ c, s.starts e = some (c, topic) := by
  unfold subscribeLabel at h
  split at h
  · split at h
    · cases h
      exact ⟨_, if_pos ‹_›⟩
    · cases h
    · cases h
  · split at h
    · split at h <;> cases h
    · cases h
  · split at h
    · cases h
    · split at h
      · split at h <;> cases h
      · cases h
  · cases h

omit [Transport τ] in
theorem awaited_start (setup : Setup τ) : Awaited (start setup) := ⟨nofun, nofun, nofun⟩

theorem setStarter_cases {started : Option (Nat × Str)} {starter : Str → Option Nat} {t : Str}
    {c : Nat} (h : setStarter started starter t = some c) :
    started = some (c, t) ∨ starter t = some c := by
  unfold setStarter at h
  split at h
  · split at h
    · rename_i ht
      cases h
      exact Or.inl (ht ▸ rfl)
    · exact Or.inr h
  · exact Or.inr h

theorem Awaited.step (h : Awaited w) (hok : w.abandons e = false) (hstep : w.step e = some w') :
    Awaited w' := by
  obtain ⟨s, hmove, rfl⟩ := Option.map_eq_some_iff.mp hstep
  have hmem : ∀ {c}, c ∈ w.gaveUp ++ (w.system.givesUp e).toList.map Prod.fst →
      c ∈ w.gaveUp ∨ ∃ topic, w.system.givesUp e = some (c, topic) := by
    intro c hc
    rcases List.mem_append.mp hc with hold | hnew
    · exact Or.inl hold
    · obtain ⟨⟨c', topic⟩, hgives, rfl⟩ := List.mem_map.mp hnew
      exact Or.inr ⟨topic, Option.mem_toList.mp hgives⟩
  refine ⟨fun c hc => ?_, fun topic c hstarter => ?_, fun topic hpending => ?_⟩
  · rcases hmem hc with hold | ⟨topic, hgives⟩
    · obtain ⟨outcome, hdone⟩ := h.ended c hold
      exact ⟨outcome, done_step hmove hdone⟩
    · exact ended_of_givesUp hgives hmove
  · rcases setStarter_cases hstarter with hstarts | hbefore
    · exact (opens_of_starts hstarts hmove).2.2.2
    · exact (h.opens topic c hbefore).step hmove
  · obtain ⟨l, hl, hview⟩ := subscribeStep hmove
    have hbusy : ¬ s.subscribers.Idle topic := by
      intro hidle
      rw [isPending_eq_false.mpr hidle] at hpending
      cases hpending
    rcases hview.pending hbusy with hbefore | ⟨hlabel, habsent⟩
    · -- the entry was there before, so no call has made it in this step
      have hpending' : w.system.isPending topic = true := by
        rw [← Bool.not_eq_false, isPending_eq_false]
        exact hbefore
      obtain ⟨c, hstarter, hlive⟩ := h.pending topic hpending'
      refine ⟨c, ?_, fun hc => ?_⟩
      · show setStarter (w.system.starts e) w.starter topic = _
        cases hstarts : w.system.starts e with
        | none => exact hstarter
        | some started =>
          obtain ⟨c', other⟩ := started
          have hne : topic ≠ other := by
            rintro rfl
            have hnone := (opens_of_starts hstarts hmove).2.1
            simp [isPending, hnone] at hpending'
          exact (if_neg hne).trans hstarter
      · rcases hmem hc with hold | ⟨other, hgives⟩
        · exact hlive hold
        · have hother : other = topic := by
            obtain ⟨call, hcall, hopens⟩ := h.opens topic c hstarter
            obtain ⟨call', hcall', hopening⟩ := opening_of_givesUp hgives
            cases hcall'.symm.trans hcall
            exact hopens _ hopening
          subst hother
          simp [abandons, hgives, hpending', hstarter] at hok
    · obtain ⟨c, hstarts⟩ := starts_of_label (subscribeLabel_of hl hlabel nofun)
      obtain ⟨hfresh, -, hgives, -⟩ := opens_of_starts hstarts hmove
      refine ⟨c, ?_, fun hc => ?_⟩
      · show setStarter (w.system.starts e) w.starter topic = _
        rw [hstarts]
        exact if_pos rfl
      · rcases hmem hc with hold | ⟨other, hother⟩
        · obtain ⟨outcome, hdone⟩ := h.ended c hold
          cases hfresh.symm.trans hdone
        · cases hgives.symm.trans hother

omit [Transport τ] in
/-- A send queues the command, or the task is gone. -/
theorem queued_or_terminated {s s' : System τ} {c : Nat} {cmd : SubscribeCommand}
    {actual : Option QoS} (hcall : s.calls.lookup c = some (.sendingSubscribe cmd actual))
    (hsend : s.stepSend c = some s') :
    s'.calls.lookup c = some (.done .terminated) ∨
      s'.tx.cmdQueue = s.tx.cmdQueue ++ [.subscribe cmd] := by
  simp only [stepSend, hcall, Option.bind_eq_bind, Option.bind_some, Call.command] at hsend
  split at hsend
  · cases hsend
    exact Or.inl (AList.lookup_insert _)
  · split at hsend
    · cases hsend
      exact Or.inr rfl
    · cases hsend

/-- In every run in which no call gives up while the entry it has made is pending: a pending
topic was made pending by a call that did not give up. So a later call waits for such a
call only, or else it queues its own command or learns that the task is gone, unless it
panics itself at a capacity that `mpsc::channel` does not accept. -/
theorem pending_topics_awaited {setup : Setup τ}
    (hw : Reaches Watched.step (fun w e => w.abandons e = false) (start setup) w) :
    (∀ topic, w.system.isPending topic = true →
        ∃ c, w.starter topic = some c ∧ c ∉ w.gaveUp) ∧
      ∀ c topic qos req s, w.system.step (.client (.subscribe c topic qos req)) = some s →
        (s.calls.lookup c = some (.awaitingBefore (.new topic) qos req) ∧
          ∃ c', w.starter topic = some c' ∧ c' ∉ w.gaveUp) ∨
        (req.buildable = false ∧ s.step (.client (.build c)) =
          some (s.setCall c (.done (.panicked .channelCapacity)))) ∨
        ∃ actual kind s₁, s.step (.client (.build c)) = some s₁ ∧
          s₁.calls.lookup c = some (.sendingSubscribe ⟨topic, qos, kind⟩ actual) ∧
          ∀ s₂, s₁.step (.client (.send c)) = some s₂ →
            s₂.calls.lookup c = some (.done .terminated) ∨
              s₂.tx.cmdQueue = s₁.tx.cmdQueue ++ [.subscribe ⟨topic, qos, kind⟩] := by
  have hinv : Awaited w := hw.invariant (I := Awaited) (awaited_start setup)
    fun _ _ _ h hok hstep => h.step hok hstep
  refine ⟨hinv.pending, fun c topic qos req s hstep => ?_⟩
  obtain ⟨-, rfl⟩ := start_eq_some hstep
  have hbuilds : ∀ {t : System τ} {actual : Option QoS},
      t.calls.lookup c = some (.building topic qos req actual) →
      (req.buildable = false ∧ t.step (.client (.build c)) =
        some (t.setCall c (.done (.panicked .channelCapacity)))) ∨
      ∃ actual kind s₁, t.step (.client (.build c)) = some s₁ ∧
        s₁.calls.lookup c = some (.sendingSubscribe ⟨topic, qos, kind⟩ actual) ∧
        ∀ s₂, s₁.step (.client (.send c)) = some s₂ →
          s₂.calls.lookup c = some (.done .terminated) ∨
            s₂.tx.cmdQueue = s₁.tx.cmdQueue ++ [.subscribe ⟨topic, qos, kind⟩] := by
    intro t actual hcall
    rcases step_build hcall with hpanics | ⟨-, kind, built, hbuild⟩
    · exact Or.inl hpanics
    · refine Or.inr ⟨actual, kind, _, hbuild, AList.lookup_insert _, fun s₂ hsend => ?_⟩
      exact queued_or_terminated (AList.lookup_insert _) hsend
  unfold startSubscribe
  cases hentry : w.system.tx.shared.subs.lookup topic with
  | none => exact Or.inr (hbuilds (AList.lookup_insert _))
  | some entry =>
    cases entry with
    | existing actual => exact Or.inr (hbuilds (AList.lookup_insert _))
    | pending slots =>
      refine Or.inl ⟨AList.lookup_insert _, hinv.pending topic ?_⟩
      rw [isPending, hentry]
      rfl

/-- The task drains the map before the call 0 has queued its command. The call gives up,
and the call 2 does not wait for anybody. -/
theorem pending_topics_awaited_drained : ∃ w s, Reaches Watched.step
    (fun w e => w.abandons e = false) (start (silentSetup false)) w ∧ w.gaveUp = [0] ∧
      w.system.step (.client (.subscribe 2 ['t'] .atMostOnce .void)) = some s ∧
      ∃ actual kind s₁, s.step (.client (.build 2)) = some s₁ ∧
        s₁.calls.lookup 2 = some (.sendingSubscribe ⟨['t'], .atMostOnce, kind⟩ actual) := by
  have hrun : (runUnder Watched.step (fun w e => w.abandons e = false) (start (silentSetup false))
      (connecting ++ [.client (.subscribe 0 ['t'] .atMostOnce .void), .client (.build 0),
        .client (.disconnect 1), .client (.send 1), .task .command] ++
        List.replicate 11 (.task .proceed) ++ [.client (.send 0)])).any
      (fun w => w.gaveUp == [0] && !w.system.isPending ['t'] &&
        (w.system.step (.client (.subscribe 2 ['t'] .atMostOnce .void))).any fun s =>
          s.calls.lookup 2 == some (.building ['t'] .atMostOnce .void none)) = true := by
    decide +kernel
  obtain ⟨w, hw, hp⟩ := exists_reaches _ hrun
  simp only [Bool.and_eq_true, beq_iff_eq, Option.any_eq_true] at hp
  obtain ⟨⟨hgave, -⟩, s, hstep, hcall⟩ := hp
  rcases (pending_topics_awaited hw).2 2 _ _ _ s hstep with
    ⟨hwaits, -⟩ | ⟨hpanics, -⟩ | ⟨actual, kind, s₁, hs₁, h, -⟩
  · cases hcall.symm.trans hwaits
  · cases hpanics
  · exact ⟨w, s, hw, hgave, hstep, actual, kind, s₁, hs₁, h⟩

/-- A call that gave up has left its topic behind, and the next call waits. -/
def leavesTrace (outcome : Outcome) (w : Watched τ) : Bool :=
  w.gaveUp == [0] && w.starter ['t'] == some 0 && w.system.isPending ['t'] &&
    w.system.tx.cmdQueue == [] && w.system.calls.lookup 0 == some (.done outcome) &&
    w.system.calls.lookup 1 ==
      some (.awaitingBefore ⟨['t'], some 0, none, some 0⟩ .atMostOnce .void)

/-- A call is dropped before its command is queued, or it panics at its capacity, or it finds
the task gone: in each case the topic stays pending, and the next call waits although nobody
has asked for it. -/
theorem abandoned_topic_pending :
    (∃ w, Reaches Watched.step always (start (silentSetup false)) w ∧
      leavesTrace .cancelled w = true) ∧
      (∃ w, Reaches Watched.step always (start (silentSetup false)) w ∧
        leavesTrace (.panicked .channelCapacity) w = true) ∧
      ∃ w, Reaches Watched.step always (start (silentSetup true)) w ∧
        w.system.receiverAlive = false ∧ leavesTrace .terminated w = true := by
  refine ⟨exists_reaches (connecting ++ [.client (.subscribe 0 ['t'] .atMostOnce .void),
    .client (.build 0), .client (.cancel 0), .client (.subscribe 1 ['t'] .atMostOnce .void),
    .client (.poll 1)]) (by decide +kernel),
    exists_reaches (connecting ++ [.client (.subscribe 0 ['t'] .atMostOnce (.lossy 0)),
      .client (.build 0), .client (.subscribe 1 ['t'] .atMostOnce .void),
      .client (.poll 1)]) (by decide +kernel), ?_⟩
  have hrun : (runUnder Watched.step always (start (silentSetup true))
      (connecting ++ [.task (.readable (.ok ())), .task .proceed, .task .proceed, .task .proceed,
        .client (.subscribe 0 ['t'] .atMostOnce .void), .client (.build 0), .client (.send 0),
        .client (.subscribe 1 ['t'] .atMostOnce .void), .client (.poll 1)])).any
      (fun w => !w.system.receiverAlive && leavesTrace .terminated w) = true := by
    decide +kernel
  obtain ⟨w, hw, hp⟩ := exists_reaches _ hrun
  simp only [Bool.and_eq_true, Bool.not_eq_true'] at hp
  exact ⟨w, hw, hp.1, hp.2⟩

end Watched

end Lmc
