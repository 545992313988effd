import Lmc.System.Arrivals
import Lmc.System.Callbacks
import Lmc.Tree.Mqtt

/-!
# Established subscriptions

A receiver gets into the tree when a `SUBACK` accepts its subscription, or later when its
filter is subscribed already. So whatever is registered is registered under a subscribed
filter, and nothing is subscribed before the connection is accepted (`Established`). A leaf
that is not subscribed has no receivers, and gets none until a `SUBACK` accepts it.

A message that arrives is handed to the established subscriptions whose filter matches. A
level `+` of a filter matches itself only, so a subscription whose filter has one misses what
a broker sends for it.
-/

namespace Lmc

open Runs

/-! ## Registries of subscribed filters -/

/-- Whatever is registered is registered under a subscribed filter, if that holds for what is
added. -/
theorem Registry.subscribed_apply {r : Registry} {found : Str → Bool} {op : TreeOp}
    (h : ∀ e ∈ r.entries, r.subscribed e.1 = true)
    (hadd : ∀ filter kind, op = .add filter kind → r.subscribed filter = true) :
    ∀ e ∈ (r.apply found op).entries, (r.apply found op).subscribed e.1 = true := by
  intro e he
  cases op with
  | accept filter kind =>
    rw [apply] at he ⊢
    split at he
    · rename_i hvalid
      rw [if_pos hvalid, subscribed_register]
      show (if e.1 = filter then true else r.subscribed e.1) = true
      split
      · rfl
      · rename_i hne
        rcases mem_register he with hold | rfl
        · exact h e hold
        · exact absurd rfl hne
    · rename_i hinvalid
      rw [if_neg hinvalid]
      exact h e he
  | add filter kind =>
    rw [apply] at he ⊢
    split at he
    · rename_i hfound
      rw [if_pos hfound, subscribed_register]
      rcases mem_register he with hold | rfl
      · exact h e hold
      · exact hadd filter kind rfl
    · rename_i hmissing
      rw [if_neg hmissing]
      exact h e he
  | removeCallback filter id => exact h e (List.mem_of_mem_filter he)
  | clear filter =>
    rw [apply] at he ⊢
    split at he
    · rename_i hsub
      rw [if_pos hsub]
      obtain ⟨hold, hne⟩ := List.mem_filter.mp he
      show (if e.1 = filter then false else r.subscribed e.1) = true
      rw [if_neg (bne_iff_ne.mp hne)]
      exact h e hold
    · rename_i hno
      rw [if_neg hno]
      exact h e he
  | dispatch msg mail => exact h e (List.mem_of_mem_filter he)

/-- Only an acceptance subscribes a filter. -/
theorem Registry.subscribed_of_apply {r : Registry} {found : Str → Bool} {op : TreeOp}
    {filter : Str} (h : (r.apply found op).subscribed filter = true) :
    r.subscribed filter = true ∨ ∃ kind, op = .accept filter kind := by
  cases op with
  | accept filter' kind =>
    rw [apply] at h
    split at h
    · rw [subscribed_register] at h
      by_cases hsame : filter = filter'
      · exact Or.inr ⟨kind, by rw [hsame]⟩
      · exact Or.inl ((if_neg hsame).symm.trans h)
    · exact Or.inl h
  | add filter' kind =>
    rw [apply] at h
    split at h
    · rw [subscribed_register] at h
      exact Or.inl h
    · exact Or.inl h
  | removeCallback filter' id => exact Or.inl h
  | clear filter' =>
    rw [apply] at h
    split at h
    · by_cases hsame : filter = filter'
      · cases (if_pos hsame).symm.trans h
      · exact Or.inl ((if_neg hsame).symm.trans h)
    · exact Or.inl h
  | dispatch msg mail => exact Or.inl h

namespace Subscription

/-- A leaf in which no receiver counts is empty. -/
theorem empty_of_count {sub : Subscription} (h : ∀ kind, sub.count kind = 0) :
    sub.lossyQueue = [] ∧ sub.unboundedQueue = [] ∧ sub.fastCallbacks = [] :=
  ⟨List.eq_nil_iff_forall_not_mem.mpr fun queue => List.count_eq_zero.mp (h (.lossy queue)),
    List.eq_nil_iff_forall_not_mem.mpr fun queue => List.count_eq_zero.mp (h (.unbounded queue)),
    List.eq_nil_iff_forall_not_mem.mpr fun cb => List.count_eq_zero.mp (h (.fastCallback cb))⟩

end Subscription

namespace System

variable {τ : Type} {s s' : System τ} {r : Registry}

/-- What is registered in a state. -/
structure Established (s : System τ) (r : Registry) : Prop where
  tree : Represents r s.tx.subscriptions
  subscribed : ∀ e ∈ r.entries, r.subscribed e.1 = true
  connected : ∀ filter, r.subscribed filter = true → s.tx.connectSig = false

namespace Established

theorem empty [Transport τ] (setup : Setup τ) : (spawn setup).Established .empty :=
  ⟨.empty, fun _ h => (by cases h), fun _ h => (by cases h)⟩

/-- The flags of the leaves are those of the registry. -/
theorem isSubscribed (h : s.Established r) (topic : Str) :
    r.subscribed topic = s.tx.subscriptions.isSubscribed topic := by
  rw [h.tree.subscribed, SubscriptionSet.isSubscribed, SubscriptionSetNode.isSubscribed_eq_leaf]

section Steps

variable [Transport τ]

/-- There is no operation before the connection is accepted. -/
theorem connected_of_treeOp {e : TaskEvent} {op : TreeOp} (hstep : s.taskStep e = some s')
    (hop : s.treeOp e = some op) : s.tx.connectSig = false := by
  cases harrived : s.arriving e with
  | some pkt =>
    rw [treeOp, harrived] at hop
    cases hconn : s.tx.connectSig with
    | false => rfl
    | true =>
      rw [hconn] at hop
      cases hop
  | none =>
    rw [treeOp, harrived] at hop
    obtain ⟨cmd, htaken, -⟩ := Option.bind_eq_some_iff.mp hop
    exact (commandWork_of_consumed hstep htaken).1

theorem step (h : s.Established r) {e : Event} (hstep : s.step e = some s') :
    s'.Established (s.enrol e r) := by
  have htree := represents_step h.tree hstep
  cases e with
  | client e => exact ⟨htree, h.subscribed, fun f hf => connected_step hstep (h.connected f hf)⟩
  | task e =>
    rw [enrol] at htree ⊢
    cases hop : s.treeOp e with
    | none =>
      rw [hop] at htree
      exact ⟨htree, h.subscribed, fun f hf => connected_step hstep (h.connected f hf)⟩
    | some op =>
      rw [hop] at htree
      refine ⟨htree, Registry.subscribed_apply h.subscribed ?_, fun f _ =>
        connected_step hstep (connected_of_treeOp hstep hop)⟩
      rintro filter kind rfl
      cases causes_of_treeOp hop with
      | add cmd taken subscribed => exact (h.isSubscribed cmd.topic).trans subscribed

theorem exists_of_reaches {setup : Setup τ} {cond : System τ → Event → Prop}
    (hs : Reaches System.step cond (spawn setup) s) : ∃ r, s.Established r := by
  refine hs.invariant (I := fun s => ∃ r, s.Established r) ⟨_, empty setup⟩ ?_
  rintro s e s' ⟨r, hr⟩ - hstep
  exact ⟨_, hr.step hstep⟩

end Steps

/-- A leaf that is not subscribed has no receivers. -/
theorem leaf_empty (h : s.Established r) {ls : List Str}
    (hleaf : (s.tx.subscriptions.root.leaf ls).subscribed = false) :
    (s.tx.subscriptions.root.leaf ls).lossyQueue = [] ∧
      (s.tx.subscriptions.root.leaf ls).unboundedQueue = [] ∧
      (s.tx.subscriptions.root.leaf ls).fastCallbacks = [] := by
  refine Subscription.empty_of_count fun kind => ?_
  rw [← h.tree.entries, Registry.countAt, List.countP_eq_zero]
  rintro ⟨filter, kind'⟩ hmem hentry
  rw [Bool.and_eq_true, beq_iff_eq] at hentry
  have hsub := h.subscribed _ hmem
  rw [h.tree.subscribed, hentry.1, hleaf] at hsub
  cases hsub

end Established

/-! ## Leaves that are not subscribed -/

section Silence

variable [Transport τ]

/-- A `SUBACK` accepts a subscription to this filter. -/
def acceptsFilter (filter : Str) (s : System τ) : Event → Bool
  | .client _ => false
  | .task e => match s.arriving e with
    | some (.subAck ack) => (s.tx.accepts ack).any fun sub => sub.topic == filter
    | _ => false

/-- A filter that is not subscribed stays so until it is accepted. -/
theorem unsubscribed_step {filter : Str} (hfilter : r.subscribed filter = false) {e : Event}
    (hno : s.acceptsFilter filter e = false) : (s.enrol e r).subscribed filter = false := by
  cases e with
  | client e => exact hfilter
  | task e =>
    rw [enrol]
    cases hop : s.treeOp e with
    | none => exact hfilter
    | some op =>
      rw [Bool.eq_false_iff]
      intro hnow
      rcases Registry.subscribed_of_apply hnow with hold | ⟨kind, rfl⟩
      · cases hfilter.symm.trans hold
      · cases causes_of_treeOp hop with
        | accept ack sub arrived found =>
          simp [acceptsFilter, arrived, found] at hno

/-- An unsubscribe command leaves its filter unsubscribed. -/
theorem unsubscribed_of_consumed (h : s.Established r) {filter : Str} {e : TaskEvent}
    (htaken : s.consumed e = some (.unsub ⟨filter, .immediate⟩)) :
    (s.enrol (.task e) r).subscribed filter = false := by
  rw [enrol, treeOp_of_consumed htaken, Book.commandOp, ← h.isSubscribed]
  cases hsub : r.subscribed filter with
  | false => exact hsub
  | true =>
    show (r.apply s.tx.subscriptions.finds (.clear filter)).subscribed filter = false
    rw [Registry.apply, if_pos hsub]
    exact if_pos rfl

/-- In every state that is reached, a leaf without the flag has no queues and no callbacks.
So once an unsubscribe command is processed, dispatching in the leaf of its filter reaches
nobody, until a `SUBACK` accepts a new subscription to the filter. -/
theorem unsubscribed_leaf_empty (setup : Setup τ) :
    (∀ s, Reaches System.step always (spawn setup) s → ∀ ls : List Str,
      (s.tx.subscriptions.root.leaf ls).subscribed = false →
        (s.tx.subscriptions.root.leaf ls).lossyQueue = [] ∧
        (s.tx.subscriptions.root.leaf ls).unboundedQueue = [] ∧
        (s.tx.subscriptions.root.leaf ls).fastCallbacks = []) ∧
    ∀ s₀ s₁ s e filter, Reaches System.step always (spawn setup) s₀ →
      s₀.consumed e = some (.unsub ⟨filter, .immediate⟩) → s₀.step (.task e) = some s₁ →
      Reaches System.step (fun s e => s.acceptsFilter filter e = false) s₁ s →
      ∀ msg mail,
        (((s.tx.subscriptions.root.leaf (levels filter)).dispatch msg).run mail).2 = mail := by
  refine ⟨fun s hs ls hleaf => ?_, fun s₀ s₁ s e filter h₀ htaken hstep hrun msg mail => ?_⟩
  · obtain ⟨r, hr⟩ := Established.exists_of_reaches hs
    exact hr.leaf_empty hleaf
  · obtain ⟨r₀, hr₀⟩ := Established.exists_of_reaches h₀
    obtain ⟨r, hr, hsub⟩ := hrun.invariant
      (I := fun s => ∃ r, s.Established r ∧ r.subscribed filter = false)
      ⟨_, hr₀.step hstep, unsubscribed_of_consumed hr₀ htaken⟩ (by
        rintro s e s' ⟨r, hr, hsub⟩ hno hstep
        exact ⟨_, hr.step hstep, unsubscribed_step hsub hno⟩)
    rw [hr.tree.subscribed] at hsub
    obtain ⟨hlossy, hunbounded, hcallbacks⟩ := hr.leaf_empty hsub
    rw [Subscription.dispatch, hlossy, hunbounded, hcallbacks]
    rfl

end Silence

/-- A broker that accepts a subscription and then sends a message for it. -/
def silenceSetup : Setup TcpTransport :=
  scripted ⟨[acceptance, .wouldBlock, .data 0x90 [3, 0, 1, 0], .wouldBlock,
    .data 0x30 [3, 0, 1, 0x74], .wouldBlock], false, []⟩

/-- A client subscribes with a callback and unsubscribes. -/
def silenceRun : List Event :=
  connecting ++ subscribing 0 (.fastCallback 0) ++ [.task .command] ++ reading 1 ++
    [.client (.unsubscribe 1 ['t']), .client (.send 1)]

theorem unsubscribed_leaf_empty_cleared :
    ∃ s₀ s₁ s, Reaches System.step always (spawn silenceSetup) s₀ ∧
      s₀.tx.subscriptions.root.leaf [['t']] ≠ default ∧ s₀.step (.task .command) = some s₁ ∧
      Reaches System.step (fun s e => s.acceptsFilter ['t'] e = false) s₁ s ∧
      s.tx.history.dispatched ≠ [] ∧
      (s.tx.subscriptions.root.leaf [['t']]).fastCallbacks = [] ∧
      ∀ msg mail, (((s.tx.subscriptions.root.leaf [['t']]).dispatch msg).run mail).2 = mail := by
  have hrun : (runUnder System.step always (spawn silenceSetup) silenceRun).any (fun s₀ =>
      s₀.tx.subscriptions.root.leaf [['t']] != default &&
      s₀.consumed .command == some (.unsub ⟨['t'], .immediate⟩) &&
      (s₀.step (.task .command)).any fun s₁ =>
        (runUnder System.step (fun s e => s.acceptsFilter ['t'] e = false) s₁ (reading 1)).any
          fun s => s.tx.history.dispatched != [] &&
            !(s.tx.subscriptions.root.leaf [['t']]).subscribed) = true := by
    decide +kernel
  obtain ⟨s₀, h₀, hp⟩ := exists_reaches _ hrun
  simp only [Bool.and_eq_true, bne_iff_ne, beq_iff_eq] at hp
  obtain ⟨⟨hleaf, htaken⟩, hnext⟩ := hp
  obtain ⟨s₁, hstep, hrest⟩ := (Option.any_eq_true _ _).mp hnext
  obtain ⟨s, hs, hp⟩ := exists_reaches _ hrest
  simp only [Bool.and_eq_true, bne_iff_ne, Bool.not_eq_true'] at hp
  obtain ⟨hall, hsilent⟩ := unsubscribed_leaf_empty silenceSetup
  have hreached := h₀.trans (.trans (.tail .refl trivial hstep) (hs.mono fun _ _ _ => trivial))
  exact ⟨s₀, s₁, s, h₀, hleaf, hstep, hs, hp.1, (hall s hreached [['t']] hp.2).2.2,
    hsilent s₀ s₁ s .command ['t'] h₀ htaken hstep hs⟩

/-! ## Levels that are `+` -/

/-- The topic has as many levels as the filter and equals it on all levels but `+`. -/
def plusAgrees : List Str → List Str → Bool
  | [], [] => true
  | f :: fs, t :: ts => (f == plusWildcard || f == t) && plusAgrees fs ts
  | _, _ => false

/-- The topic has the level `+` wherever the filter has it. -/
def repeatsPlus : List Str → List Str → Bool
  | f :: fs, t :: ts => (f != plusWildcard || t == plusWildcard) && repeatsPlus fs ts
  | _, _ => true

theorem eq_of_plusAgrees : ∀ {ls ts : List Str}, plusAgrees ls ts = true →
    repeatsPlus ls ts = true → ts = ls
  | [], [], _, _ => rfl
  | f :: fs, t :: ts, hagrees, hrepeats => by
    rw [plusAgrees, Bool.and_eq_true, Bool.or_eq_true, beq_iff_eq, beq_iff_eq] at hagrees
    rw [repeatsPlus, Bool.and_eq_true, Bool.or_eq_true, bne_iff_ne, beq_iff_eq] at hrepeats
    rw [eq_of_plusAgrees hagrees.2 hrepeats.2]
    rcases hagrees.1 with hplus | hsame
    · rw [hplus, hrepeats.1.resolve_left fun hne => hne hplus]
    · rw [hsame]
  | [], _ :: _, h, _ => by cases h
  | _ :: _, [], h, _ => by cases h

/-- A filter that a broker accepts: its length is in the limits, and the wildcards are levels
of their own, `#` the last one. -/
def brokerAccepts (filter : Str) : Bool :=
  !filter.isEmpty && !filter.contains (Char.ofNat 0) && decide (filter.asBytes.length ≤ 65535) &&
  ((levels filter).all fun l => l == plusWildcard || !l.contains '+') &&
  ((levels filter).all fun l => l == recursiveWildcard || !l.contains '#') &&
  validFilter filter

theorem levelsMatch_self : ∀ {ls : List Str}, recursiveWildcard ∉ ls.dropLast →
    levelsMatch ls ls = true
  | [], _ => rfl
  | [l], _ => by
    rw [levelsMatch]
    split
    · rfl
    · simp [levelsMatch]
  | l :: next :: rest, h => by
    rw [List.dropLast_cons_of_ne_nil (List.cons_ne_nil _ _), List.mem_cons, not_or] at h
    rw [levelsMatch, if_neg (Ne.symm h.1), levelsMatch_self h.2]
    simp

theorem filterMatches_self {filter : Str} (h : validFilter filter = true) :
    filterMatches filter filter = true := levelsMatch_self (not_mem_of_valid h)

/-- A subscription is established under a filter that may have levels `+`. A message arrives whose
topic equals the filter on all other levels, and is `+` where the filter is. If the message is
not a repetition and its answer can be written, it is pushed to the receiver of the
subscription. -/
theorem plus_filter_delivered [Transport τ] {setup : Setup τ} {e : TaskEvent} {filter : Str}
    {kind : SubscriptionKind} {msg : IncomingPublishPacket}
    (hs : Reaches System.step always (spawn setup) s)
    (haccepted : brokerAccepts filter = true)
    (hsub : s.tx.subscriptions.isSubscribed filter = true)
    (hreceiver : 0 < (s.tx.subscriptions.root.leaf (levels filter)).count kind)
    (hagrees : plusAgrees (levels filter) (levels msg.topic) = true)
    (hrepeats : repeatsPlus (levels filter) (levels msg.topic) = true)
    (harrived : s.arriving e = some (.publish msg)) (hnew : s.tx.repeats msg = false)
    (hstep : s.step (.task e) = some s') (hanswers : s.answerFails msg = false) :
    Pushed msg s.tx.mail s'.tx.mail kind := by
  have hmatches : filterMatches filter msg.topic = true := by
    rw [levels_injective (eq_of_plusAgrees hagrees hrepeats)]
    exact filterMatches_self (Bool.and_eq_true_iff.mp haccepted).2
  obtain ⟨r, hr, hnumbered⟩ := hs.invariant
    (I := fun s => ∃ r, s.Established r ∧
      Numbered SubscriptionKind.channelNumber System.channels s r)
    ⟨_, .empty setup, .initial setup _ _⟩ (by
      rintro s e s' ⟨r, hr, hnumbered⟩ - hstep
      exact ⟨_, hr.step hstep, hnumbered.channel_step hstep⟩)
  rw [← hr.tree.entries, Registry.countAt, List.countP_pos_iff] at hreceiver
  obtain ⟨⟨filter', kind'⟩, hlisted, hentry⟩ := hreceiver
  rw [Bool.and_eq_true, beq_iff_eq, beq_iff_eq] at hentry
  obtain ⟨hlevels, rfl⟩ := hentry
  obtain rfl : filter' = filter := levels_injective hlevels
  have hconn := hr.connected filter' ((hr.isSubscribed filter').trans hsub)
  have hop : s.treeOp e = some (.dispatch msg s.tx.mail) := by
    rw [treeOp_of_arriving harrived hconn, Book.packetOp,
      (outcome_eq_none_iff harrived hconn hnew).mpr hanswers, hnew]
    rfl
  have hmail : s'.tx.mail = s.tx.mail.after s.tx.subscriptions (s.treeOp e) :=
    (performs_taskStep hstep).mail
  rw [hop] at hmail
  exact pushed_of_listed hr.tree hnumbered hlisted hmatches hmail

/-- A client subscribes to `+` with an unbounded queue. -/
def plusRun : List Event :=
  connecting ++ [.client (.subscribe 0 ['+'] .atMostOnce .unbounded), .client (.build 0),
    .client (.send 0), .task .command] ++ beginsReading ++ [.task .proceed, .task .proceed]

/-- The subscription to `+` is established for queue 0, and a new message arrives. -/
def plusEstablished (msg : IncomingPublishPacket) (s : System TcpTransport) : Bool :=
  s.tx.subscriptions.isSubscribed ['+'] &&
    (s.tx.subscriptions.root.leaf [['+']]).count (.unbounded 0) == 1 &&
    s.arriving .proceed == some (.publish msg) && !s.tx.repeats msg && !s.answerFails msg

theorem plus_filter_delivered_literal : ∃ s s',
    Reaches System.step always
      (spawn (sendingSetup [.data 0x90 [3, 0, 1, 0], .data 0x30 [3, 0, 1, 0x2b]])) s ∧
    s.step (.task .proceed) = some s' ∧
    Pushed (topicMessage [0x2b]) s.tx.mail s'.tx.mail (.unbounded 0) := by
  have hrun : (runUnder System.step always
      (spawn (sendingSetup [.data 0x90 [3, 0, 1, 0], .data 0x30 [3, 0, 1, 0x2b]])) plusRun).any
        (fun s => s.plusEstablished (topicMessage [0x2b]) &&
          (s.step (.task .proceed)).isSome) = true := by
    decide +kernel
  obtain ⟨s, hs, hp⟩ := exists_reaches _ hrun
  simp only [plusEstablished, Bool.and_eq_true, beq_iff_eq, Bool.not_eq_true',
    Option.isSome_iff_exists] at hp
  obtain ⟨⟨⟨⟨⟨hsub, hcount⟩, harrived⟩, hnew⟩, hanswers⟩, s', hstep⟩ := hp
  have hreceiver : 0 < (s.tx.subscriptions.root.leaf (levels ['+'])).count (.unbounded 0) := by
    show 0 < (s.tx.subscriptions.root.leaf [['+']]).count (.unbounded 0)
    rw [hcount]
    exact Nat.one_pos
  exact ⟨s, s', hs, hstep, plus_filter_delivered hs (by decide +kernel) hsub hreceiver
    (by decide +kernel) (by decide +kernel) harrived hnew hstep hanswers⟩

/-- The subscription to `+` is established and a message with the topic `t` arrives, which a
broker sends for it. Nothing is pushed to the queue. -/
theorem plus_filter_missed : ∃ s s',
    Reaches System.step always
      (spawn (sendingSetup [.data 0x90 [3, 0, 1, 0], .data 0x30 [3, 0, 1, 0x74]])) s ∧
    brokerAccepts ['+'] = true ∧ mqttMatches ['+'] firstMessage.topic = true ∧
    plusAgrees (levels ['+']) (levels firstMessage.topic) = true ∧
    (s.tx.link.handed.any fun pkt => pkt.asks == .subscribe 1 ['+']) = true ∧
    s.plusEstablished firstMessage = true ∧ s.step (.task .proceed) = some s' ∧
    s'.tx.history.dispatched = [firstMessage] ∧ (s'.tx.mail.channels 0).queue = [] := by
  have hrun : (runUnder System.step always
      (spawn (sendingSetup [.data 0x90 [3, 0, 1, 0], .data 0x30 [3, 0, 1, 0x74]])) plusRun).any
        (fun s => (s.tx.link.handed.any fun pkt => pkt.asks == .subscribe 1 ['+']) &&
          s.plusEstablished firstMessage && (s.step (.task .proceed)).any fun s' =>
            s'.tx.history.dispatched == [firstMessage] &&
              (s'.tx.mail.channels 0).queue == []) = true := by
    decide +kernel
  obtain ⟨s, hs, hp⟩ := exists_reaches _ hrun
  obtain ⟨⟨hsent, hestablished⟩, hnext⟩ := by
    simpa only [Bool.and_eq_true] using hp
  obtain ⟨s', hstep, hp⟩ := (Option.any_eq_true _ _).mp hnext
  rw [Bool.and_eq_true, beq_iff_eq, beq_iff_eq] at hp
  exact ⟨s, s', hs, by decide +kernel, by decide +kernel, by decide +kernel, hsent, hestablished,
    hstep, hp.1, hp.2⟩

end System

end Lmc
