import Lmc.System.Slots
import Lmc.System.Topics

/-!
# Requested topics

What the life of a topic means for runs of the whole client. Under the condition that no
subscribed topic is unsubscribed while a `Subscribe` for it is on its way, each topic is
requested at most once at a time (`topics_requested_once`). Under the conditions that
exclude the ways to lose track of a pending topic, each of them is requested unless it is
still to be asked for (`pending_topics_requested`). Neither holds without its condition.
-/

namespace Lmc

open Runs

namespace System

variable {τ : Type} {s s' : System τ} {e : Event} {topic : Str}

/-! ## One request at a time -/

theorem standing_eq_pending {s : System τ} {topic : Str} :
    (s.topic topic).standing = .pending ↔ s.isPending topic = true := by
  unfold isPending
  show SubscriptionState.standing (s.tx.shared.subs.lookup topic) = .pending ↔ _
  match s.tx.shared.subs.lookup topic with
  | none | some (.existing _) | some (.pending _) =>
    simp [SubscriptionState.standing, SubscriptionState.isPending]

theorem standing_ne_pending (h : s.isPending topic = false) :
    (s.topic topic).standing ≠ .pending := by
  rw [ne_eq, standing_eq_pending, h]
  exact Bool.noConfusion

theorem requested_pos {s : System τ} {id : UInt16} {sub : PendingSub}
    (found : s.tx.pendingSubs.lookup id = some sub) : 0 < (s.topic sub.topic).requested := by
  have hle := Table.hit_le_count (PendingSub.asks sub.topic) id s.tx.pendingSubs
  rwa [found, Table.hit_pos (p := PendingSub.asks sub.topic) (beq_self_eq_true _)] at hle

/-- No subscribed topic is unsubscribed while a `Subscribe` for it is on its way. -/
def unsubscribesAlone (s : System τ) : Event → Bool
  | .task e =>
    match s.consumed e with
    | some (.unsub ⟨topic, .immediate⟩) =>
      !s.tx.subscriptions.isSubscribed topic || (s.topic topic).asked == 0
    | _ => true
  | .client _ => true

/-- Each topic is requested at most once, and nothing unexpected was answered. -/
structure Once (s : System τ) : Prop where
  live : s.subscribers.Live
  single : s.phase.drained = false → ∀ topic, (s.topic topic).Single
  requested : ∀ topic, (s.topic topic).requested ≤ 1
  expected : s.tx.history.unexpectedSubAcks = []

theorem once_spawn (setup : Setup τ) : Once (spawn setup) where
  live c fut hfut := by cases hfut
  single _ topic := .of_absent rfl rfl (SubscriptionSet.isSubscribed_default topic)
  requested _ := Nat.zero_le 1
  expected := rfl

/-- A `SUBACK` is unexpected only if its topic is not pending. -/
theorem unexpected_of_packetEffect {pkt : IncomingPacket} {b b' : Book}
    (h : PacketEffect pkt b b') :
    b'.history.unexpectedSubAcks = b.history.unexpectedSubAcks ∨
      ∃ id sub, b.pendingSubs.lookup id = some sub ∧
        (b.shared.subs.lookup sub.topic).any SubscriptionState.isPending = false := by
  cases h with
  | subAck ack =>
    rcases b.processSubAck_cases ack with
      ⟨-, heq⟩ | ⟨sub, found, hcases⟩
    · exact Or.inl (by rw [heq])
    · cases hpending : (b.shared.subs.lookup sub.topic).any SubscriptionState.isPending with
      | false => exact Or.inr ⟨_, sub, found, hpending⟩
      | true =>
        have hsettle : ∀ c : Book, c.history.unexpectedSubAcks = b.history.unexpectedSubAcks →
            (c.settle sub.topic (b.shared.subs.lookup sub.topic)).history.unexpectedSubAcks =
              b.history.unexpectedSubAcks := by
          intro c hc
          show c.history.unexpectedSubAcks ++ (if _ then [] else [sub.topic]) = _
          rw [if_pos hpending, List.append_nil, hc]
        refine Or.inl ?_
        rcases hcases with ⟨-, heq⟩ | ⟨qos, heq⟩ | ⟨-, heq⟩
        · rw [heq]
          rfl
        · rw [heq]
          exact hsettle _ rfl
        · rw [heq]
          exact hsettle _ rfl
  | pubAck ack | pubRecAgain rec | pubComp comp =>
    refine Or.inl ?_
    rcases b.acknowledge_cases _ _ with ⟨-, heq⟩ | ⟨-, heq⟩ <;> rw [heq] <;> rfl
  | pubRec rec pkt =>
    refine Or.inl ?_
    rcases Book.acknowledge_cases _ _ _ with ⟨-, heq⟩ | ⟨-, heq⟩ <;> rw [heq] <;> rfl
  | _ => exact Or.inl rfl

theorem unexpected_of_commandEffect {q : Option Panic} {cmd : Command} {b b' : Book}
    (h : CommandEffect q cmd b b') :
    b'.history.unexpectedSubAcks = b.history.unexpectedSubAcks := by
  cases h <;> rfl

section Once

variable [Transport τ]

theorem drained_of_step (h : s.step e = some s') (hopen : s'.phase.drained = false) :
    s.phase.drained = false := by
  obtain ⟨l, -, hmove⟩ := subscribeStep h
  rw [← Bool.not_eq_true]
  intro hdrained
  have htrue : s'.phase.drained = true := hmove.drained_mono hdrained
  rw [hopen] at htrue
  cases htrue

/-- Behind the drain nothing is requested or answered any more. -/
theorem books_of_drained (h : s.step e = some s') (hdrained : s'.phase.drained = true) :
    s'.tx.pendingSubs = s.tx.pendingSubs ∧
      s'.tx.history.unexpectedSubAcks = s.tx.history.unexpectedSubAcks := by
  cases e with
  | client e =>
    have hsame := (clientMove_of_clientStep h).sameTask
    exact ⟨hsame.pendingSubs, hsame.unexpectedSubAcks⟩
  | task e =>
    cases taskMove_of_taskStep h with
    | quiet tx p clean running next | connAck tx p clean running next
    | packet tx p clean running next | command tx p clean running next =>
      have hsame : p.drained = s.phase.drained := Phase.drained_next running next
      have hbefore : s.phase.drained = false := by
        cases hp : s.phase <;> rw [hp] at running <;> first | rfl | cases running
      cases hdrained.symm.trans (hsame.trans hbefore)
    | finish | fail | drain | wake | drop => exact ⟨rfl, rfl⟩

theorem unexpected_step (h : s.step e = some s') (hsingle : ∀ topic, (s.topic topic).Single) :
    s'.tx.history.unexpectedSubAcks = s.tx.history.unexpectedSubAcks := by
  cases e with
  | client e => exact (clientMove_of_clientStep h).sameTask.unexpectedSubAcks
  | task e =>
    cases taskMove_of_taskStep h with
    | quiet tx p clean running next book =>
      exact congrArg (fun b : Book => b.history.unexpectedSubAcks) book
    | connAck tx p clean running next pkt arrived waiting book =>
      show tx.history.unexpectedSubAcks = _
      rw [book]
    | packet tx p clean running next pkt arrived connected effect =>
      rcases unexpected_of_packetEffect effect with hsame | ⟨id, sub, found, hidle⟩
      · exact hsame
      · have hpending := (hsingle sub.topic).pending_of_requested (requested_pos found)
        cases hidle.symm.trans (standing_eq_pending.mp hpending)
    | command tx p clean running next cmd rest queue taken connected effect =>
      have hsame := unexpected_of_commandEffect effect
      exact hsame
    | finish | fail | drain | wake | drop => rfl

theorem Cause.forget_alone {l : Topic.Label} (h : Cause s e s' topic l)
    (halone : s.unsubscribesAlone e = true) (hl : l = .forget) : (s.topic topic).asked = 0 := by
  subst hl
  cases h with
  | packet te pkt _ event arrived cause => cases cause
  | command te cmd _ event taken cause =>
    cases cause with
    | forget command subscribed =>
      subst event command
      have hasked : (s.topic topic).asked = 0 := by
        simpa [unsubscribesAlone, taken, subscribed] using halone
      exact hasked

theorem Once.step (h : Once s) (halone : s.unsubscribesAlone e = true)
    (hstep : s.step e = some s') : Once s' := by
  have hlive : s'.subscribers.Live := by
    obtain ⟨l, -, hmove⟩ := subscribeStep hstep
    exact h.live.step hmove
  cases hdrained : s'.phase.drained with
  | false =>
    have hbefore := h.single (drained_of_step hstep hdrained)
    have hsingle : ∀ topic, (s'.topic topic).Single := by
      intro topic
      obtain ⟨l, hmove, hcause⟩ : TopicStep s e s' topic := topicStep h.live hstep hdrained
      exact (hbefore topic).step hmove (hcause.forget_alone halone)
    exact ⟨hlive, fun _ => hsingle, fun topic => (hsingle topic).requested_le_one,
      (unexpected_step hstep hbefore).trans h.expected⟩
  | true =>
    obtain ⟨hpending, hsame⟩ := books_of_drained hstep hdrained
    have hclosed : s'.phase.drained ≠ false := by
      rw [hdrained]
      exact Bool.noConfusion
    refine ⟨hlive, fun hopen => absurd hopen hclosed, fun topic => ?_, hsame.trans h.expected⟩
    show Table.count (PendingSub.asks topic) s'.tx.pendingSubs ≤ 1
    rw [hpending]
    exact h.requested topic

/-- In every run in which no subscribed topic is unsubscribed while a `Subscribe` for it is
on its way: until the map of subscriptions is drained, every requested topic is pending;
no topic is requested twice at once; and no `SUBACK` was ever unexpected. -/
theorem topics_requested_once (setup : Setup τ)
    (h : Reaches System.step (fun s e => unsubscribesAlone s e = true) (spawn setup) s) :
    (s.phase.drained = false → ∀ id sub, s.tx.pendingSubs.lookup id = some sub →
      s.isPending sub.topic = true) ∧
    (∀ id id' sub sub', s.tx.pendingSubs.lookup id = some sub →
      s.tx.pendingSubs.lookup id' = some sub' → sub.topic = sub'.topic → id = id') ∧
    s.tx.history.unexpectedSubAcks = [] := by
  have honce : Once s := by
    refine h.invariant (I := Once) (once_spawn setup) ?_
    exact fun s e s' hs halone hstep => hs.step halone hstep
  refine ⟨fun hopen id sub found => ?_, fun id id' sub sub' found found' htopic => ?_,
    honce.expected⟩
  · have hsingle := honce.single hopen sub.topic
    exact standing_eq_pending.mp (hsingle.pending_of_requested (requested_pos found))
  · refine Table.eq_of_count_le_one (p := PendingSub.asks sub.topic)
      (honce.requested sub.topic) found found' (beq_self_eq_true _) ?_
    exact beq_iff_eq.mpr htopic.symm

end Once

/-- A broker that accepts three subscriptions, the last two of them at once. -/
def acceptingSetup : Setup TcpTransport :=
  scripted ⟨[acceptance, .wouldBlock, .data 0x90 [3, 0, 1, 0], .wouldBlock,
    .data 0x90 [3, 0, 3, 0], .data 0x90 [3, 0, 4, 0], .wouldBlock], false, []⟩

/-- A call subscribes to a topic up to the moment at which its command is queued. -/
def asking (c : Nat) : List Event :=
  [.client (.subscribe c ['t'] .atMostOnce .void), .client (.build c), .client (.send c)]

/-- A topic is subscribed, and then unsubscribed between the moment at which the call 1
finds it existing and the moment at which this call asks for it. -/
def overtakenRun : List Event :=
  connecting ++ asking 0 ++ [.task .command] ++ reading 1 ++
    [.client (.subscribe 1 ['t'] .atMostOnce .void), .client (.unsubscribe 2 ['t']),
      .client (.send 2), .task .command] ++ asking 3 ++
    [.client (.build 1), .client (.send 1), .task .command, .task .command]

theorem topics_requested_once_asked :
    ∃ s, Reaches System.step (fun s e => unsubscribesAlone s e = true) (spawn acceptingSetup) s ∧
      s.phase.drained = false ∧ (∃ sub, s.tx.pendingSubs.lookup 1 = some sub ∧
        sub.topic = ['t'] ∧ s.isPending sub.topic = true) ∧
      s.tx.history.unexpectedSubAcks = [] := by
  have hrun : (runUnder System.step (fun s e => unsubscribesAlone s e = true)
      (spawn acceptingSetup) (connecting ++ asking 0 ++ [.task .command])).any (fun s =>
        !s.phase.drained &&
          (s.tx.pendingSubs.lookup 1).any (fun sub => sub.topic == ['t'])) = true := by
    decide +kernel
  obtain ⟨s, hs, hp⟩ := exists_reaches _ hrun
  simp only [Bool.and_eq_true, Bool.not_eq_true', Option.any_eq_true, beq_iff_eq] at hp
  obtain ⟨hopen, sub, found, htopic⟩ := hp
  obtain ⟨hpending, -, hexpected⟩ := topics_requested_once acceptingSetup hs
  exact ⟨s, hs, hopen, ⟨sub, found, htopic, hpending hopen 1 sub found⟩, hexpected⟩

/-- A topic that is unsubscribed between the look at the map and the command of a call is
requested twice at once, and the second answer finds it existing. -/
theorem topic_requested_twice :
    (∃ s sub sub', Reaches System.step always (spawn acceptingSetup) s ∧
      s.phase.drained = false ∧ s.tx.pendingSubs.lookup 3 = some sub ∧
      s.tx.pendingSubs.lookup 4 = some sub' ∧ sub.topic = sub'.topic) ∧
    ∃ s, Reaches System.step always (spawn acceptingSetup) s ∧
      s.tx.history.unexpectedSubAcks = [['t']] := by
  have hrun : (runUnder System.step always (spawn acceptingSetup) overtakenRun).any (fun s =>
      !s.phase.drained && (s.tx.pendingSubs.lookup 3).any (fun sub => sub.topic == ['t']) &&
        (s.tx.pendingSubs.lookup 4).any (fun sub => sub.topic == ['t'])) = true := by
    decide +kernel
  have hanswered : (runUnder System.step always (spawn acceptingSetup)
      (overtakenRun ++ reading 2)).any (fun s =>
        s.tx.history.unexpectedSubAcks == [['t']]) = true := by
    decide +kernel
  obtain ⟨s, hs, hp⟩ := exists_reaches _ hrun
  obtain ⟨s', hs', hp'⟩ := exists_reaches _ hanswered
  simp only [Bool.and_eq_true, Bool.not_eq_true', Option.any_eq_true, beq_iff_eq] at hp
  obtain ⟨⟨hopen, sub, found, htopic⟩, sub', found', htopic'⟩ := hp
  exact ⟨⟨s, sub, sub', hs, hopen, found, found', htopic.trans htopic'.symm⟩, s', hs',
    beq_iff_eq.mp hp'⟩

/-! ## Something on its way for every pending topic -/

/-- An answer of the broker resolves a pending topic, and it does not refuse a topic that
is subscribed. -/
def resolvesPacket (s : System τ) : IncomingPacket → Bool
  | .subAck ack =>
    match s.tx.pendingSubs.lookup ack.packetId, ack.subResults with
    | some sub, [] => !s.isPending sub.topic
    | some sub, .error () :: _ => !s.tx.subscriptions.isSubscribed sub.topic
    | _, _ => true
  | _ => true

/-- A `Subscribe` for a pending topic is accepted by the tree, and a request takes an
identifier under which no other request waits. -/
def resolvesCommand (s : System τ) : Command → Bool
  | .subscribe cmd =>
    if s.tx.subscriptions.rejects cmd.topic then !s.isPending cmd.topic
    else s.tx.subscriptions.isSubscribed cmd.topic ||
      (s.tx.pendingSubs.lookup s.tx.shared.nextPacketId).isNone
  | _ => true

/-- No call that is about to queue a `Subscribe` for a pending topic is dropped. -/
def keepsCommand (s : System τ) (c : Nat) : Bool :=
  match (s.calls.lookup c).bind Call.command with
  | some (.subscribe cmd) => !s.isPending cmd.topic
  | _ => true

/-- No call that is about to build a `Subscribe` for a pending topic has a capacity at which
`mpsc::channel` panics. -/
def keepsBuilding (s : System τ) (c : Nat) : Bool :=
  match s.calls.lookup c with
  | some (.building topic _ req _) => req.buildable || !s.isPending topic
  | _ => true

def resolvesTopics [Transport τ] (s : System τ) : Event → Bool
  | .task e => (s.arriving e).all s.resolvesPacket && (s.consumed e).all s.resolvesCommand
  | .client (.cancel c) => s.keepsCommand c
  | .client (.build c) => s.keepsBuilding c
  | .client _ => true

section Resolving

variable [Transport τ]

/-- The task is running and has not drained the map of subscriptions. -/
def serving (s : System τ) : Bool := s.receiverAlive && !s.phase.drained

theorem Cause.lose_idle (h : Cause s e s' topic .lose) (hresolves : s.resolvesTopics e = true)
    (halive : s'.receiverAlive = true) : (s.topic topic).standing ≠ .pending := by
  cases h with
  | cancel c cmd event sends asks =>
    subst event
    refine standing_ne_pending ?_
    cases cmd with
    | subscribe sub =>
      have htopic : sub.topic = topic := beq_iff_eq.mp asks
      simpa [resolvesTopics, keepsCommand, sends, htopic] using hresolves
    | _ => cases asks
  | panic c qos req actual event found panics =>
    subst event
    refine standing_ne_pending ?_
    simpa [resolvesTopics, keepsBuilding, found, panics] using hresolves
  | dead gone => cases gone.symm.trans halive
  | packet te pkt _ event arrived cause => cases cause
  | command te cmd _ event taken cause =>
    cases cause with
    | lose p panics =>
      unfold receiverAlive at halive
      cases hp : s'.phase <;> rw [hp] at panics halive <;> cases panics
      cases halive

/-- What the conditions say about a command. -/
theorem resolvesCommand_of {te : TaskEvent} {cmd : Command} (taken : s.consumed te = some cmd)
    (hresolves : s.resolvesTopics (.task te) = true) : s.resolvesCommand cmd = true := by
  simp only [resolvesTopics, taken, Option.all_some, Bool.and_eq_true] at hresolves
  exact hresolves.2

theorem resolvesPacket_of {te : TaskEvent} {pkt : IncomingPacket}
    (arrived : s.arriving te = some pkt) (hresolves : s.resolvesTopics (.task te) = true) :
    s.resolvesPacket pkt = true := by
  simp only [resolvesTopics, arrived, Option.all_some, Bool.and_eq_true] at hresolves
  exact hresolves.1

theorem Cause.reject_idle (h : Cause s e s' topic .reject)
    (hresolves : s.resolvesTopics e = true) : (s.topic topic).standing ≠ .pending := by
  cases h with
  | packet te pkt _ event arrived cause => cases cause
  | command te cmd _ event taken cause =>
    cases cause with
    | reject sub command here rejects =>
      subst event command here
      have hcommand := resolvesCommand_of taken hresolves
      refine standing_ne_pending ?_
      simpa [resolvesCommand, rejects] using hcommand

theorem Cause.ne_replace {l : Topic.Label} (h : Cause s e s' topic l)
    (hresolves : s.resolvesTopics e = true) : l ≠ .replace := by
  rintro rfl
  cases h with
  | packet te pkt _ event arrived cause => cases cause
  | command te cmd _ event taken cause =>
    cases cause with
    | replace sub old command accepted unsubscribed used =>
      subst event command
      have hcommand := resolvesCommand_of taken hresolves
      simp [resolvesCommand, accepted, unsubscribed, used] at hcommand

theorem Cause.void_idle (h : Cause s e s' topic .void) (hresolves : s.resolvesTopics e = true) :
    (s.topic topic).standing ≠ .pending := by
  cases h with
  | packet te pkt _ event arrived cause =>
    cases cause with
    | void ack sub packet found here results =>
      subst event packet here
      have hpacket := resolvesPacket_of arrived hresolves
      refine standing_ne_pending ?_
      simpa [resolvesPacket, found, results] using hpacket
  | command te cmd _ event taken cause => cases cause

theorem Cause.refuse_unsubscribed (h : Cause s e s' topic .refuse)
    (hresolves : s.resolvesTopics e = true) : (s.topic topic).subscribed = false := by
  cases h with
  | packet te pkt _ event arrived cause =>
    cases cause with
    | refuse ack sub packet found here results =>
      subst event packet here
      obtain ⟨rest, hrest⟩ := results
      have hpacket := resolvesPacket_of arrived hresolves
      have hleaf : s.tx.subscriptions.isSubscribed sub.topic = false := by
        simpa [resolvesPacket, found, hrest] using hpacket
      exact hleaf
  | command te cmd _ event taken cause => cases cause

/-- Every pending topic can be resolved, while the task is serving. -/
def Tracked (s : System τ) : Prop :=
  s.subscribers.Live ∧ (s.serving = true → ∀ topic, (s.topic topic).Resolvable)

theorem Tracked.step (h : Tracked s) (hresolves : s.resolvesTopics e = true)
    (hstep : s.step e = some s') : Tracked s' := by
  obtain ⟨l, -, hmove⟩ := subscribeStep hstep
  refine ⟨h.1.step hmove, fun hserving topic => ?_⟩
  simp only [serving, Bool.and_eq_true, Bool.not_eq_true'] at hserving
  obtain ⟨halive, hopen⟩ := hserving
  have hbefore : s.serving = true := by
    simp [serving, receiverAlive_of_step hstep halive, drained_of_step hstep hopen]
  obtain ⟨l, hmove, hcause⟩ : TopicStep s e s' topic := topicStep h.1 hstep hopen
  refine (h.2 hbefore topic).step hmove ?_ ?_ (hcause.ne_replace hresolves) ?_ ?_
  · rintro rfl
    exact hcause.lose_idle hresolves halive
  · rintro rfl
    exact hcause.reject_idle hresolves
  · rintro rfl
    exact hcause.void_idle hresolves
  · rintro rfl
    exact hcause.refuse_unsubscribed hresolves

/-- In every run whose steps all resolve the topics they should: while the task is serving,
a pending topic for which no `Subscribe` is queued or about to be queued is requested. -/
theorem pending_topics_requested (setup : Setup τ)
    (h : Reaches System.step (fun s e => resolvesTopics s e = true) (spawn setup) s)
    (hserving : s.serving = true) (topic : Str) (hpending : s.isPending topic = true)
    (hqueue : ∀ cmd ∈ s.tx.cmdQueue, cmd.asks topic = false)
    (hcalls : ∀ c call, s.calls.lookup c = some call → call.asks topic = false) :
    ∃ id sub, s.tx.pendingSubs.lookup id = some sub ∧ sub.topic = topic := by
  have htracked : Tracked s := by
    refine h.invariant (I := Tracked) ⟨fun c fut hfut => (by cases hfut), fun _ topic => ?_⟩ ?_
    · refine ⟨fun hp => (by cases hp), fun hleaf => ?_⟩
      cases (SubscriptionSet.isSubscribed_default topic).symm.trans hleaf
    · exact fun s e s' hs hresolves hstep => hs.step hresolves hstep
  have hpos := (htracked.2 hserving topic).pending (standing_eq_pending.mpr hpending)
  have hidle : (s.topic topic).asked = 0 := by
    show Table.count _ s.calls + s.tx.cmdQueue.countP _ = 0
    rw [Table.count_eq_zero.mpr hcalls, List.countP_eq_zero.mpr]
    intro cmd hmem
    rw [hqueue cmd hmem]
    exact Bool.noConfusion
  by_contra hnone
  have hzero : (s.topic topic).requested = 0 := by
    refine Table.count_eq_zero.mpr fun id sub found => ?_
    rw [← Bool.not_eq_true]
    exact fun hasks => hnone ⟨id, sub, found, beq_iff_eq.mp hasks⟩
  omega

end Resolving

theorem pending_topics_requested_asked :
    ∃ s, Reaches System.step (fun s e => resolvesTopics s e = true) (spawn acceptingSetup) s ∧
      s.serving = true ∧ s.isPending ['t'] = true ∧
      ∃ id sub, s.tx.pendingSubs.lookup id = some sub ∧ sub.topic = ['t'] := by
  have hrun : (runUnder System.step (fun s e => resolvesTopics s e = true)
      (spawn acceptingSetup) (connecting ++ asking 0 ++ [.task .command])).any (fun s =>
        s.serving && s.isPending ['t'] && s.tx.cmdQueue == [] &&
          Table.count (Call.asks ['t']) s.calls == 0) = true := by
    decide +kernel
  obtain ⟨s, hs, hp⟩ := exists_reaches _ hrun
  simp only [Bool.and_eq_true, beq_iff_eq] at hp
  obtain ⟨⟨⟨hserving, hpending⟩, hqueue⟩, hcalls⟩ := hp
  refine ⟨s, hs, hserving, hpending, ?_⟩
  refine pending_topics_requested acceptingSetup hs hserving ['t'] hpending ?_
    (Table.count_eq_zero.mp hcalls)
  rw [hqueue]
  exact fun cmd hmem => absurd hmem List.not_mem_nil

/-- A broker that answers the first subscription without a result. -/
def voidSetup : Setup TcpTransport :=
  scripted ⟨[acceptance, .wouldBlock, .data 0x90 [2, 0, 1], .wouldBlock], false, []⟩

/-- An answer without a result leaves the topic pending for ever. -/
theorem pending_topic_forgotten :
    ∃ s, Reaches System.step always (spawn voidSetup) s ∧ s.serving = true ∧
      s.isPending ['t'] = true ∧ s.tx.cmdQueue = [] ∧
      (∀ c call, s.calls.lookup c = some call → call.asks ['t'] = false) ∧
      ∀ id sub, s.tx.pendingSubs.lookup id = some sub → sub.topic ≠ ['t'] := by
  have hrun : (runUnder System.step always (spawn voidSetup)
      (connecting ++ asking 0 ++ [.task .command] ++ reading 1)).any (fun s =>
        s.serving && s.isPending ['t'] && s.tx.cmdQueue == [] &&
          Table.count (Call.asks ['t']) s.calls == 0 &&
          Table.count (PendingSub.asks ['t']) s.tx.pendingSubs == 0) = true := by
    decide +kernel
  obtain ⟨s, hs, hp⟩ := exists_reaches _ hrun
  simp only [Bool.and_eq_true, beq_iff_eq] at hp
  obtain ⟨⟨⟨⟨hserving, hpending⟩, hqueue⟩, hcalls⟩, hsubs⟩ := hp
  refine ⟨s, hs, hserving, hpending, hqueue, Table.count_eq_zero.mp hcalls, ?_⟩
  intro id sub found htopic
  have hasks := Table.count_eq_zero.mp hsubs id sub found
  rw [PendingSub.asks, htopic] at hasks
  cases hasks

end System

end Lmc
