import Lmc.System.Requests

/-!
# The map of subscriptions and the tree

The task keeps what it is subscribed to in two places: in the map that it shares with the
clients, and in the flags of its tree. They agree in every run in which the broker accepts
only filters that the tree can hold, and refuses no filter that is subscribed already
(`subscriptions_agree`). The second kind of answer comes when a topic is requested twice
at once. A filter with a `#` in front of its last level can be requested, because `get`
finds no node on the way to the `#` and so does not see it.
-/

namespace Lmc

open Runs

/-! ## How a topic comes to exist -/

/-- A command removes topics from the map at most. -/
theorem CommandEffect.subs {q : Option Panic} {cmd : Command} {b b' : Book}
    (h : CommandEffect q cmd b b') :
    b'.shared.subs = b.shared.subs ∨ ∃ topic, b'.shared.subs = b.shared.subs.erase topic := by
  cases h with
  | unsubscribePanic p topic => exact Or.inr ⟨topic, rfl⟩
  | unsubscribe q topic => exact Or.inr ⟨topic, rfl⟩
  | _ => exact Or.inl rfl

theorem Book.subs_acknowledge (key : IdType) (n : Notifier) (b : Book) :
    (b.acknowledge key n).shared.subs = b.shared.subs := by
  rcases b.acknowledge_cases key n with ⟨-, heq⟩ | ⟨-, heq⟩
  · rw [heq]
    rfl
  · rw [heq]
    exact b.shared.subs_setNotifierMap n _

/-- Only a `SUBACK` changes the map. -/
theorem PacketEffect.subs {pkt : IncomingPacket} {b b' : Book} (h : PacketEffect pkt b b') :
    b'.shared.subs = b.shared.subs ∨ ∃ ack, pkt = .subAck ack ∧ b' = b.processSubAck ack := by
  cases h with
  | subAck ack => exact Or.inr ⟨ack, rfl, rfl⟩
  | pubAck ack => exact Or.inl (b.subs_acknowledge _ _)
  | pubRecAgain rec => exact Or.inl (b.subs_acknowledge _ _)
  | pubRec rec pkt => exact Or.inl ((b.insertPending _ pkt).subs_acknowledge _ _)
  | pubComp comp => exact Or.inl (b.subs_acknowledge _ _)
  | _ => exact Or.inl rfl

/-- The topic is in the map as an existing one. -/
def Book.hasTopic (b : Book) (topic : Str) : Bool :=
  SubscriptionState.standing (b.shared.subs.lookup topic) == .existing

theorem Book.hasTopic_iff {b : Book} {topic : Str} :
    b.hasTopic topic = true ↔ ∃ qos, b.shared.subs.lookup topic = some (.existing qos) := by
  unfold Book.hasTopic
  match b.shared.subs.lookup topic with
  | none | some (.existing _) | some (.pending _) => simp [SubscriptionState.standing]

theorem Book.hasTopic_congr {b b' : Book} {topic : Str} (h : b'.shared.subs = b.shared.subs) :
    b'.hasTopic topic = b.hasTopic topic := by
  rw [Book.hasTopic, Book.hasTopic, h]

theorem Book.hasTopic_of_erase {b b' : Book} {topic topic' : Str}
    (h : b'.shared.subs = b.shared.subs.erase topic') (hhas : b'.hasTopic topic = true) :
    b.hasTopic topic = true := by
  by_cases here : topic = topic'
  · rw [Book.hasTopic, h, here, AList.lookup_erase] at hhas
    cases hhas
  · rwa [Book.hasTopic, h, AList.lookup_erase_ne here] at hhas

/-- A topic that exists behind a `SUBACK` has existed before or is accepted by it. -/
theorem Book.hasTopic_of_processSubAck {ack : SubAckPacket} {b : Book} {topic : Str}
    (h : (b.processSubAck ack).hasTopic topic = true) :
    b.hasTopic topic = true ∨ ∃ sub qos rest, b.pendingSubs.lookup ack.packetId = some sub ∧
      sub.topic = topic ∧ ack.subResults = .ok qos :: rest := by
  rw [Book.processSubAck] at h
  cases hfound : b.pendingSubs.lookup ack.packetId with
  | none =>
    rw [hfound] at h
    exact Or.inl h
  | some sub =>
    simp only [hfound] at h
    match hresults : ack.subResults with
    | [] =>
      rw [hresults] at h
      exact Or.inl h
    | .error () :: rest =>
      rw [hresults] at h
      have herase : (b.eraseSub sub.topic).shared.subs = b.shared.subs.erase sub.topic := rfl
      exact Or.inl (Book.hasTopic_of_erase herase h)
    | .ok qos :: rest =>
      rw [hresults] at h
      by_cases here : sub.topic = topic
      · exact Or.inr ⟨sub, qos, rest, rfl, here, rfl⟩
      · refine Or.inl ?_
        have hsame : (b.shared.subs.insert sub.topic (.existing qos)).lookup topic =
            b.shared.subs.lookup topic := AList.lookup_insert_ne (Ne.symm here)
        rw [Book.hasTopic, ← hsame]
        exact h

/-! ## Runs -/

namespace System

variable {τ : Type} {s s' : System τ} {e : Event} {topic : Str}

/-- A `SUBACK` accepts only a filter that the tree can hold, and it does not refuse one
that is subscribed. -/
def settlesPacket (s : System τ) : IncomingPacket → Bool
  | .subAck ack =>
    match s.tx.pendingSubs.lookup ack.packetId, ack.subResults with
    | some sub, .ok _ :: _ => validFilter sub.topic
    | some sub, .error () :: _ => !s.tx.subscriptions.isSubscribed sub.topic
    | _, _ => true
  | _ => true

section Agreement

variable [Transport τ]

def settlesTopics (s : System τ) : Event → Bool
  | .task e => (s.arriving e).all s.settlesPacket
  | .client _ => true

omit [Transport τ] in
theorem standing_eq_existing :
    (s.topic topic).standing = .existing ↔ s.tx.hasTopic topic = true :=
  beq_iff_eq.symm

/-- No topic comes to exist that the tree cannot hold. -/
theorem hasTopic_of_step (hlive : s.subscribers.Live) (h : s.step e = some s')
    (hopen : s'.phase.drained = false) (hsettles : s.settlesTopics e = true)
    (hinvalid : validFilter topic = false) (hhas : s'.tx.hasTopic topic = true) :
    s.tx.hasTopic topic = true := by
  cases e with
  | client e =>
    have hmove := clientMove_of_clientStep h
    have hrequested : (s'.topic topic).requested = (s.topic topic).requested :=
      congrArg (Table.count (PendingSub.asks topic)) hmove.sameTask.pendingSubs
    have hexist := standing_eq_existing.mpr hhas
    obtain ⟨l, hstep, -⟩ : TopicStep s (.client e) s' topic := topicStep_of_clientMove hlive hmove
    refine standing_eq_existing.mp ?_
    cases hstep with
    | silent frame | ask frame | lose frame | reject frame | add frame | request frame
    | replace frame | void frame => exact frame.standing.symm.trans hexist
    | start absent pending => cases pending.symm.trans hexist
    | accept exist leaf asked requested => omega
    | refuse absent => cases absent.symm.trans hexist
    | forget subscribed absent => cases absent.symm.trans hexist
  | task e =>
    cases taskMove_of_taskStep h with
    | quiet tx p clean running next book =>
      rwa [Book.hasTopic_congr (congrArg (fun b : Book => b.shared.subs) book)] at hhas
    | connAck tx p clean running next pkt arrived waiting book =>
      rwa [Book.hasTopic_congr (congrArg (fun b : Book => b.shared.subs) book)] at hhas
    | packet tx p clean running next pkt arrived connected effect =>
      rcases effect.subs with hsame | ⟨ack, rfl, hack⟩
      · rwa [Book.hasTopic_congr hsame] at hhas
      · have hbehind : tx.hasTopic topic = true := hhas
        rw [hack] at hbehind
        rcases Book.hasTopic_of_processSubAck hbehind with hbefore | ⟨sub, qos, rest, hsub⟩
        · exact hbefore
        · obtain ⟨hfound, rfl, hresults⟩ := hsub
          have hlookup : s.tx.pendingSubs.lookup ack.packetId = some sub := hfound
          simp [settlesTopics, arrived, settlesPacket, hlookup, hresults, hinvalid] at hsettles
    | command tx p clean running next cmd rest queue taken connected effect =>
      rcases effect.subs with hsame | ⟨topic', herase⟩
      · rwa [Book.hasTopic_congr hsame] at hhas
      · exact Book.hasTopic_of_erase herase hhas
    | finish status ended => exact hhas
    | fail n next stage =>
      have hsame : (s.failMap n next).tx.shared.subs = s.tx.shared.subs :=
        s.tx.shared.subs_setNotifierMap n _
      rwa [Book.hasTopic_congr hsame] at hhas
    | drain stage => cases hopen
    | wake stage => cases hopen
    | drop status ended => cases hopen

theorem Cause.refuse_settled (h : Cause s e s' topic .refuse)
    (hsettles : s.settlesTopics e = true) : (s.topic topic).subscribed = false := by
  cases h with
  | packet te pkt _ event arrived cause =>
    cases cause with
    | refuse ack sub packet found here results =>
      subst event packet here
      obtain ⟨rest, hrest⟩ := results
      have hleaf : s.tx.subscriptions.isSubscribed sub.topic = false := by
        simpa [settlesTopics, arrived, settlesPacket, found, hrest] using hsettles
      exact hleaf
  | command te cmd _ event taken cause => cases cause

/-- The map and the tree agree until the map is drained. -/
def Agreeing (s : System τ) : Prop :=
  s.subscribers.Live ∧ (s.phase.drained = false → ∀ topic, (s.topic topic).Agrees)

theorem Agreeing.step (h : Agreeing s) (hsettles : s.settlesTopics e = true)
    (hstep : s.step e = some s') : Agreeing s' := by
  obtain ⟨l, -, hmove⟩ := subscribeStep hstep
  refine ⟨h.1.step hmove, fun hopen topic => ?_⟩
  have hbefore := h.2 (drained_of_step hstep hopen) topic
  cases hvalid : validFilter topic with
  | false =>
    have hleaf : ∀ set : SubscriptionSet, set.isSubscribed topic = false :=
      fun _ => SubscriptionSet.isSubscribed_of_invalid hvalid
    refine .of_absent (fun hexist => ?_) (hleaf s'.tx.subscriptions)
    have hhas := hasTopic_of_step h.1 hstep hopen hsettles hvalid
      (standing_eq_existing.mp hexist)
    have htrue := hbefore.mp (standing_eq_existing.mpr hhas)
    cases (hleaf s.tx.subscriptions).symm.trans htrue
  | true =>
    obtain ⟨l, hmove, hcause⟩ : TopicStep s e s' topic := topicStep h.1 hstep hopen
    refine hbefore.step hmove (SubscriptionSet.rejects_of_valid hvalid) ?_
    rintro rfl
    exact hcause.refuse_settled hsettles

/-- In every run in which each `SUBACK` accepts only a filter that the tree can hold and
refuses none that is subscribed: until the map is drained, a topic exists in the map if
and only if the leaf of the topic is subscribed. -/
theorem subscriptions_agree (setup : Setup τ)
    (h : Reaches System.step (fun s e => settlesTopics s e = true) (spawn setup) s)
    (hopen : s.phase.drained = false) (topic : Str) :
    (∃ qos, s.tx.shared.subs.lookup topic = some (.existing qos)) ↔
      ∃ leaf, s.tx.subscriptions.get topic = .ok (some leaf) ∧ leaf.subscribed = true := by
  have hagree : Agreeing s := by
    refine h.invariant (I := Agreeing) ⟨fun c fut hfut => (by cases hfut), fun _ topic => ?_⟩ ?_
    · exact .of_absent (fun hexist => by cases hexist) (SubscriptionSet.isSubscribed_default topic)
    · exact fun s e s' hs hsettles hstep => hs.step hsettles hstep
  rw [← Book.hasTopic_iff, ← SubscriptionSet.isSubscribed_iff_get, ← standing_eq_existing]
  exact hagree.2 hopen topic

end Agreement

theorem subscriptions_agree_accepted :
    ∃ s, Reaches System.step (fun s e => settlesTopics s e = true) (spawn acceptingSetup) s ∧
      s.phase.drained = false ∧
      (∃ qos, s.tx.shared.subs.lookup ['t'] = some (.existing qos)) ∧
      ∃ leaf, s.tx.subscriptions.get ['t'] = .ok (some leaf) ∧ leaf.subscribed = true := by
  have hrun : (runUnder System.step (fun s e => settlesTopics s e = true)
      (spawn acceptingSetup) (connecting ++ asking 0 ++ [.task .command] ++ reading 1)).any
      (fun s => !s.phase.drained && s.tx.hasTopic ['t']) = true := by
    decide +kernel
  obtain ⟨s, hs, hp⟩ := exists_reaches _ hrun
  simp only [Bool.and_eq_true, Bool.not_eq_true', Book.hasTopic_iff] at hp
  exact ⟨s, hs, hp.1, hp.2, (subscriptions_agree acceptingSetup hs hp.1 ['t']).mp hp.2⟩

/-- A filter with a `#` in the middle. -/
def misplaced : Str := ['a', '/', '#', '/', 'b']

/-- A broker that accepts the second of two requests for a topic and refuses the third. -/
def doubtfulSetup : Setup TcpTransport :=
  scripted ⟨[acceptance, .wouldBlock, .data 0x90 [3, 0, 1, 0], .wouldBlock,
    .data 0x90 [3, 0, 3, 0], .data 0x90 [3, 0, 4, 128], .wouldBlock], false, []⟩

/-- A filter with a misplaced `#` comes to exist without a leaf. A topic that is requested
twice at once and refused the second time disappears while its leaf stays subscribed. -/
theorem subscriptions_disagree :
    (∃ s, Reaches System.step always (spawn acceptingSetup) s ∧ s.phase = .select ∧
      (∃ qos, s.tx.shared.subs.lookup misplaced = some (.existing qos)) ∧
      s.tx.subscriptions.get misplaced = .error ()) ∧
    ∃ s leaf, Reaches System.step always (spawn doubtfulSetup) s ∧ s.phase = .select ∧
      s.tx.shared.subs.lookup ['t'] = none ∧
      s.tx.subscriptions.get ['t'] = .ok (some leaf) ∧ leaf.subscribed = true := by
  have hmisplaced : (runUnder System.step always (spawn acceptingSetup) (connecting ++
      [.client (.subscribe 0 misplaced .atMostOnce .void), .client (.build 0),
        .client (.send 0), .task .command] ++ reading 1)).any (fun s =>
        s.phase == .select && s.tx.hasTopic misplaced &&
          s.tx.subscriptions.rejects misplaced) = true := by
    decide +kernel
  have hrefused : (runUnder System.step always (spawn doubtfulSetup)
      (overtakenRun ++ reading 2 ++ [.task .proceed])).any (fun s =>
        s.phase == .select && (s.tx.shared.subs.lookup ['t']).isNone &&
          s.tx.subscriptions.isSubscribed ['t']) = true := by
    decide +kernel
  obtain ⟨s, hs, hp⟩ := exists_reaches _ hmisplaced
  obtain ⟨s', hs', hp'⟩ := exists_reaches _ hrefused
  simp only [Bool.and_eq_true, beq_iff_eq, Book.hasTopic_iff,
    SubscriptionSet.rejects_iff_get] at hp
  simp only [Bool.and_eq_true, beq_iff_eq, Option.isNone_iff_eq_none,
    SubscriptionSet.isSubscribed_iff_get] at hp'
  obtain ⟨⟨hphase, habsent⟩, leaf, hget, hleaf⟩ := hp'
  exact ⟨⟨s, hs, hp.1.1, hp.1.2, hp.2⟩, s', leaf, hs', hphase, habsent, hget, hleaf⟩

end System

end Lmc
