import Mathlib.Logic.Function.Iterate
import Mathlib.Data.List.Perm.Basic
import Lmc.Tree.Subscription

/-!
# What a leaf does with a message

`prune` visits every element of its list once, in an order that the elements it removes
decide, and keeps those for which the predicate says so (`prune_spec`). From this follows
what a leaf does with a message: each of its channels is offered the message as often as
it is registered, each of its callbacks is called, and the channels that are closed are
forgotten. `Delivered` says this of a list of leaves, so that the deliveries of several
leaves compose.

The callbacks of a leaf are sorted by their identifiers. This is what makes the binary
search find the callback to remove, and it is kept by every operation.
-/

namespace Lmc

/-! ## `prune` -/

section Prune

variable {α β σ : Type}

theorem swapRemoveHead_perm (x : α) (rest : List α) : (swapRemoveHead (x :: rest)).Perm rest := by
  cases rest with
  | nil => exact .refl _
  | cons y rest =>
    have hsplit := List.dropLast_append_getLast (List.cons_ne_nil y rest)
    have hperm : (swapRemoveHead (x :: y :: rest)).Perm
        ((y :: rest).dropLast ++ [(y :: rest).getLast (List.cons_ne_nil _ _)]) :=
      (List.perm_append_singleton _ _).symm
    rwa [hsplit] at hperm

/-- The program `act` runs on one element after the other, and these are its results. -/
inductive Visits (act : α → StateM σ β) : σ → List (α × β) → σ → Prop
  | nil (s : σ) : Visits act s [] s
  | cons {s s₁ s' : σ} {x : α} {b : β} {visited : List (α × β)} (head : (act x).run s = (b, s₁))
      (tail : Visits act s₁ visited s') : Visits act s ((x, b) :: visited) s'

theorem pruneLoop_visits (act : α → StateM σ β) (test : β → Bool) :
    ∀ (n : Nat) (kept rest : List α) (s : σ), rest.length = n →
      ∃ (visited : List (α × β)) (result : List α) (s' : σ),
        (visited.map Prod.fst).Perm rest ∧ Visits act s visited s' ∧
        (pruneLoop (fun x => do return test (← act x)) n kept rest).run s = (result, s') ∧
        result.Perm (kept ++ (visited.filter fun v => !test v.2).map Prod.fst) := by
  intro n
  induction n with
  | zero =>
    intro kept rest s hlen
    rw [List.length_eq_zero_iff] at hlen
    subst hlen
    exact ⟨[], kept ++ [], s, .refl _, .nil s, rfl, .refl _⟩
  | succ n ih =>
    intro kept rest s hlen
    cases rest with
    | nil => cases hlen
    | cons x rest =>
      rcases hact : (act x).run s with ⟨b, s₁⟩
      have hstep : (pruneLoop (fun x => do return test (← act x)) (n + 1) kept (x :: rest)).run s =
          (if test b then pruneLoop (fun x => do return test (← act x)) n kept
              (swapRemoveHead (x :: rest))
            else pruneLoop (fun x => do return test (← act x)) n (kept ++ [x]) rest).run s₁ := by
        have hb : b = ((act x).run s).1 := by rw [hact]
        have hs₁ : s₁ = ((act x).run s).2 := by rw [hact]
        rw [hb, hs₁]
        rfl
      rw [hstep]
      have hrest : rest.length = n := Nat.succ.inj hlen
      cases htest : test b with
      | true =>
        have hperm := swapRemoveHead_perm x rest
        obtain ⟨visited, result, s', horder, hvisits, hrun, hkept⟩ :=
          ih kept (swapRemoveHead (x :: rest)) s₁ (hperm.length_eq.trans hrest)
        refine ⟨(x, b) :: visited, result, s', (horder.trans hperm).cons x, .cons hact hvisits,
          hrun, hkept.trans ?_⟩
        rw [List.filter_cons_of_neg (by simp [htest])]
      | false =>
        obtain ⟨visited, result, s', horder, hvisits, hrun, hkept⟩ := ih (kept ++ [x]) rest s₁ hrest
        refine ⟨(x, b) :: visited, result, s', horder.cons x, .cons hact hvisits, hrun, ?_⟩
        rw [List.filter_cons_of_pos (by simp [htest]), List.map_cons]
        rwa [List.append_assoc, List.singleton_append] at hkept

/-- The predicate answers `closed` in every good state, and leaves it good. -/
structure Answers (good : σ → Prop) (closed : α → Bool) (predicate : α → StateM σ Bool) :
    Prop where
  value : ∀ x s, good s → ((predicate x).run s).1 = closed x
  good : ∀ x s, good s → good ((predicate x).run s).2

variable {good : σ → Prop} {closed : α → Bool} {predicate : α → StateM σ Bool}

theorem Answers.visits (h : Answers good closed predicate) {s s' : σ} {visited : List (α × Bool)}
    (hvisits : Visits predicate s visited s') :
    good s → s' = (visited.map Prod.fst).foldl (fun s x => ((predicate x).run s).2) s ∧
      ∀ v ∈ visited, v.2 = closed v.1 := by
  induction hvisits with
  | nil s => exact fun _ => ⟨rfl, fun v hv => by cases hv⟩
  | @cons s s₁ s' x b visited head tail ih =>
    intro hs
    have hvalue := h.value x s hs
    have hgood := h.good x s hs
    rw [head] at hvalue hgood
    obtain ⟨hstate, hvalues⟩ := ih hgood
    refine ⟨?_, fun v hv => ?_⟩
    · rw [List.map_cons, List.foldl_cons, head]
      exact hstate
    · rcases List.mem_cons.mp hv with rfl | hmem
      · exact hvalue
      · exact hvalues v hmem

theorem Answers.foldl (h : Answers good closed predicate) (order : List α) :
    ∀ {s : σ}, good s → good (order.foldl (fun s x => ((predicate x).run s).2) s) := by
  induction order with
  | nil => exact fun hs => hs
  | cons x order ih => exact fun hs => ih (h.good x _ hs)

/-- Every element is visited once, and those for which the predicate is false are kept. -/
theorem prune_spec (h : Answers good closed predicate) (vec : List α) {s : σ} (hs : good s) :
    ∃ order : List α, order.Perm vec ∧
      ((prune vec predicate).run s).2 = order.foldl (fun s x => ((predicate x).run s).2) s ∧
      ((prune vec predicate).run s).1.Perm (vec.filter fun x => !closed x) := by
  obtain ⟨visited, result, s', horder, hvisits, hrun, hkept⟩ :=
    pruneLoop_visits predicate id vec.length [] vec s rfl
  obtain ⟨hstate, hvalues⟩ := h.visits hvisits hs
  have hprune : (prune vec predicate).run s = (result, s') := hrun
  have hfilter : (visited.filter fun v => !id v.2).map Prod.fst =
      (visited.map Prod.fst).filter fun x => !closed x := by
    rw [List.filter_map]
    refine congrArg _ (List.filter_congr fun v hv => ?_)
    rw [Function.comp_apply, id, hvalues v hv]
  rw [List.nil_append, hfilter] at hkept
  refine ⟨visited.map Prod.fst, horder, ?_, ?_⟩
  · rw [hprune]
    exact hstate
  · rw [hprune]
    exact hkept.trans (horder.filter _)

/-- What `prune` keeps, if the predicate looks at nothing else. -/
def kept (closed : α → Bool) (vec : List α) : List α :=
  ((prune vec fun x => (pure (closed x) : StateM Unit Bool)).run ()).1

theorem kept_perm (closed : α → Bool) (vec : List α) :
    (kept closed vec).Perm (vec.filter fun x => !closed x) := by
  have hanswers : Answers (fun _ : Unit => True) closed
      (fun x => (pure (closed x) : StateM Unit Bool)) := ⟨fun _ _ _ => rfl, fun _ _ _ => trivial⟩
  obtain ⟨-, -, -, hperm⟩ := prune_spec hanswers vec (s := ()) trivial
  exact hperm

/-- The elements that are kept, and their order, depend on the answers only. -/
theorem prune_eq_kept (h : Answers good closed predicate) (vec : List α) {s : σ} (hs : good s) :
    ((prune vec predicate).run s).1 = kept closed vec := by
  have hloop : ∀ (n : Nat) (before rest : List α) (s : σ), good s →
      ((pruneLoop predicate n before rest).run s).1 =
        ((pruneLoop (fun x => (pure (closed x) : StateM Unit Bool)) n before rest).run ()).1 := by
    intro n
    induction n with
    | zero => exact fun _ _ _ _ => rfl
    | succ n ih =>
      intro before rest s hs
      cases rest with
      | nil => rfl
      | cons x rest =>
        have hstep : (pruneLoop predicate (n + 1) before (x :: rest)).run s =
            (if closed x then pruneLoop predicate n before (swapRemoveHead (x :: rest))
              else pruneLoop predicate n (before ++ [x]) rest).run ((predicate x).run s).2 := by
          rw [← h.value x s hs]
          rfl
        have hpure : (pruneLoop (fun x => (pure (closed x) : StateM Unit Bool)) (n + 1) before
            (x :: rest)).run () =
            (if closed x then pruneLoop (fun x => (pure (closed x) : StateM Unit Bool)) n before
                (swapRemoveHead (x :: rest))
              else pruneLoop (fun x => (pure (closed x) : StateM Unit Bool)) n (before ++ [x])
                rest).run () := rfl
        rw [hstep, hpure]
        split <;> exact ih _ _ _ (h.good x s hs)
  exact hloop vec.length [] vec s hs

end Prune

/-! ## Deliveries -/

/-- An unbounded channel that is offered a message a number of times. -/
def Channel.offer (n : Nat) (msg : IncomingPublishPacket) (c : Channel) : Channel :=
  if c.closed then c else { c with queue := c.queue ++ List.replicate n msg }

@[simp] theorem Channel.offer_zero (msg : IncomingPublishPacket) (c : Channel) :
    c.offer 0 msg = c := by
  unfold Channel.offer
  split
  · rfl
  · simp

theorem Channel.offer_closed {c : Channel} (h : c.closed = true) (n : Nat)
    (msg : IncomingPublishPacket) : c.offer n msg = c := if_pos h

theorem Channel.offer_offer (m n : Nat) (msg : IncomingPublishPacket) (c : Channel) :
    (c.offer m msg).offer n msg = c.offer (m + n) msg := by
  unfold Channel.offer
  cases hc : c.closed <;> simp [hc]

@[simp] theorem Channel.closed_offer (n : Nat) (msg : IncomingPublishPacket) (c : Channel) :
    (c.offer n msg).closed = c.closed := by
  unfold Channel.offer
  split <;> rfl

/-- A channel behind a `try_send`: the message is dropped if the channel is full. -/
def Channel.tryPush (msg : IncomingPublishPacket) (c : Channel) : Channel :=
  if c.closed then c
  else if c.capacity.any (fun cap => cap ≤ c.queue.length) then c
  else { c with queue := c.queue ++ [msg] }

/-- A channel that is tried a number of times. -/
def Channel.tryOffer (n : Nat) (msg : IncomingPublishPacket) (c : Channel) : Channel :=
  (Channel.tryPush msg)^[n] c

theorem Channel.tryOffer_tryOffer (m n : Nat) (msg : IncomingPublishPacket) (c : Channel) :
    (c.tryOffer m msg).tryOffer n msg = c.tryOffer (m + n) msg := by
  rw [tryOffer, tryOffer, tryOffer, ← Function.iterate_add_apply, Nat.add_comm]

namespace Mail

/-- Which channels are closed. -/
def closed (mail : Mail) (ch : Nat) : Bool := (mail.channels ch).closed

/-- The two states agree in the calls made and in which channels are closed. -/
structure SameEnds (mail mail' : Mail) : Prop where
  calls : mail'.calls = mail.calls
  closed : mail'.closed = mail.closed

theorem SameEnds.refl (mail : Mail) : SameEnds mail mail := ⟨rfl, rfl⟩

theorem SameEnds.trans {m₁ m₂ m₃ : Mail} (h₁ : SameEnds m₁ m₂) (h₂ : SameEnds m₂ m₃) :
    SameEnds m₁ m₃ := ⟨h₂.calls.trans h₁.calls, h₂.closed.trans h₁.closed⟩

theorem sameEnds_push (ch : Nat) (msg : IncomingPublishPacket) (mail : Mail) :
    SameEnds mail (mail.push ch msg) := by
  refine ⟨rfl, funext fun n => ?_⟩
  show (if n = ch then _ else _ : Channel).closed = _
  split
  · subst n
    rfl
  · rfl

theorem run_send (ch : Nat) (msg : IncomingPublishPacket) (mail : Mail) :
    (send ch msg).run mail =
      if mail.closed ch then (.closed, mail) else (.sent, mail.push ch msg) := by
  show (if (mail.channels ch).closed then _ else _ : StateM Mail SendResult).run mail = _
  unfold closed
  split <;> rfl

theorem channels_push (ch n : Nat) (msg : IncomingPublishPacket) (mail : Mail)
    (hopen : mail.closed ch = false) :
    (mail.push ch msg).channels n = (mail.channels n).offer (if n = ch then 1 else 0) msg := by
  show (if n = ch then _ else _ : Channel) = _
  split
  · subst n
    unfold Channel.offer
    rw [if_neg (by rw [← closed, hopen]; exact Bool.noConfusion)]
    rfl
  · rw [Channel.offer_zero]

/-- What happens to a channel in `dispatch`: it is offered the message, and the answer is
whether it is closed. -/
theorem run_send_closed (ch : Nat) (msg : IncomingPublishPacket) (mail : Mail) :
    (do return (← send ch msg) == .closed : StateM Mail Bool).run mail =
      if mail.closed ch then (true, mail) else (false, mail.push ch msg) := by
  show ((((send ch msg).run mail).1 == .closed, ((send ch msg).run mail).2) : Bool × Mail) = _
  rw [run_send]
  split <;> rfl

theorem run_trySend (ch : Nat) (msg : IncomingPublishPacket) (mail : Mail) :
    (do return (← trySend ch msg) == .closed : StateM Mail Bool).run mail =
      if mail.closed ch then (true, mail)
      else if (mail.channels ch).capacity.any (fun cap => cap ≤ (mail.channels ch).queue.length)
        then (false, mail) else (false, mail.push ch msg) := by
  have hrun : (trySend ch msg).run mail =
      if mail.closed ch then (.closed, mail)
      else if (mail.channels ch).capacity.any (fun cap => cap ≤ (mail.channels ch).queue.length)
        then (.full, mail) else (.sent, mail.push ch msg) := by
    show (if (mail.channels ch).closed then _ else if _ then _ else _ :
      StateM Mail SendResult).run mail = _
    unfold closed
    split
    · rfl
    · split <;> rfl
  show ((((trySend ch msg).run mail).1 == .closed, ((trySend ch msg).run mail).2) :
    Bool × Mail) = _
  rw [hrun]
  split
  · rfl
  · split <;> rfl

theorem run_trySend_closed (ch : Nat) (msg : IncomingPublishPacket) (mail : Mail) :
    (do return (← trySend ch msg) == .closed : StateM Mail Bool).run mail =
        (mail.closed ch, mail) ∨
      (do return (← trySend ch msg) == .closed : StateM Mail Bool).run mail =
        (mail.closed ch, mail.push ch msg) := by
  rw [run_trySend]
  cases mail.closed ch with
  | true => exact Or.inl rfl
  | false =>
    simp only [Bool.false_eq_true, if_false]
    split
    · exact Or.inl rfl
    · exact Or.inr rfl

/-- Only the channel itself changes. -/
theorem channels_trySend (ch n : Nat) (msg : IncomingPublishPacket) (mail : Mail) :
    ((do return (← trySend ch msg) == .closed : StateM Mail Bool).run mail).2.channels n =
      if n = ch then (mail.channels n).tryPush msg else mail.channels n := by
  by_cases hn : n = ch
  · subst hn
    rw [run_trySend, if_pos rfl, Channel.tryPush, closed]
    split
    · rfl
    · split
      · rfl
      · exact if_pos rfl
  · rw [if_neg hn]
    rcases run_trySend_closed ch msg mail with hrun | hrun
    · rw [hrun]
    · rw [hrun]
      exact if_neg hn

section Offers

variable (msg : IncomingPublishPacket) (mail : Mail)

theorem answers_send : Answers (SameEnds mail) mail.closed
    (fun ch => do return (← send ch msg) == .closed) := by
  refine ⟨fun ch m hm => ?_, fun ch m hm => ?_⟩
  · rw [run_send_closed, hm.closed]
    split
    · rename_i hclosed
      exact hclosed.symm
    · rename_i hopen
      simpa using hopen
  · rw [run_send_closed]
    split
    · exact hm
    · exact hm.trans (sameEnds_push ch msg m)

theorem answers_trySend : Answers (SameEnds mail) mail.closed
    (fun ch => do return (← trySend ch msg) == .closed) := by
  refine ⟨fun ch m hm => ?_, fun ch m hm => ?_⟩
  · rcases run_trySend_closed ch msg m with hrun | hrun <;> rw [hrun, ← hm.closed]
  · rcases run_trySend_closed ch msg m with hrun | hrun <;> rw [hrun]
    · exact hm
    · exact hm.trans (sameEnds_push ch msg m)

/-- Each channel gets the message as often as it occurs. -/
theorem channels_foldl_send (n : Nat) : ∀ (order : List Nat) (mail : Mail),
    (order.foldl (fun m ch => ((do return (← send ch msg) == .closed :
      StateM Mail Bool).run m).2) mail).channels n =
        (mail.channels n).offer (order.count n) msg := by
  intro order
  induction order with
  | nil =>
    intro mail
    rw [List.count_nil, Channel.offer_zero]
    rfl
  | cons ch order ih =>
    intro mail
    rw [List.foldl_cons, ih, run_send_closed, List.count_cons]
    split
    · rename_i hclosed
      by_cases hn : ch = n
      · subst hn
        rw [Channel.offer_closed hclosed, Channel.offer_closed hclosed]
      · simp [hn]
    · rename_i hopen
      have hfalse : mail.closed ch = false := by simpa using hopen
      rw [channels_push ch n msg mail hfalse, Channel.offer_offer, Nat.add_comm]
      by_cases hn : ch = n
      · simp [hn]
      · simp [hn, Ne.symm hn]

/-- Each channel is tried as often as it occurs. -/
theorem channels_foldl_trySend (n : Nat) : ∀ (order : List Nat) (mail : Mail),
    (order.foldl (fun m ch => ((do return (← trySend ch msg) == .closed :
      StateM Mail Bool).run m).2) mail).channels n =
        (mail.channels n).tryOffer (order.count n) msg := by
  intro order
  induction order with
  | nil => exact fun _ => rfl
  | cons ch order ih =>
    intro mail
    rw [List.foldl_cons, ih, channels_trySend, List.count_cons]
    by_cases hn : n = ch
    · rw [if_pos hn, if_pos (beq_iff_eq.mpr hn.symm), Nat.add_comm,
        ← Channel.tryOffer_tryOffer]
      rfl
    · rw [if_neg hn, if_neg fun h => hn (beq_iff_eq.mp h).symm, Nat.add_zero]

end Offers

end Mail

/-- A list of leaves has handed out a message: the callbacks were called, and each channel
was offered the message as often as it is registered. -/
structure Delivered (msg : IncomingPublishPacket) (leaves : List Subscription)
    (mail mail' : Mail) : Prop where
  calls : mail'.calls = mail.calls ++ (leaves.flatMap Subscription.fastCallbacks).map (·, msg)
  queue : ∀ ch, (∀ sub ∈ leaves, ch ∉ sub.lossyQueue) → mail'.channels ch =
    (mail.channels ch).offer ((leaves.flatMap Subscription.unboundedQueue).count ch) msg
  lossy : ∀ ch, (∀ sub ∈ leaves, ch ∉ sub.unboundedQueue) → mail'.channels ch =
    (mail.channels ch).tryOffer ((leaves.flatMap Subscription.lossyQueue).count ch) msg
  closed : mail'.closed = mail.closed

/-- What is left of a leaf when the closed channels are forgotten. -/
structure Subscription.Pruned (closed : Nat → Bool) (sub sub' : Subscription) : Prop where
  lossyQueue : sub'.lossyQueue.Perm (sub.lossyQueue.filter fun ch => !closed ch)
  unboundedQueue : sub'.unboundedQueue.Perm (sub.unboundedQueue.filter fun ch => !closed ch)
  fastCallbacks : sub'.fastCallbacks = sub.fastCallbacks
  subscribed : sub'.subscribed = sub.subscribed

/-- Forget the closed channels, as `dispatch` does. -/
def Subscription.forget (closed : Nat → Bool) (sub : Subscription) : Subscription :=
  { sub with
    lossyQueue := kept closed sub.lossyQueue
    unboundedQueue := kept closed sub.unboundedQueue }

theorem Subscription.pruned_forget (closed : Nat → Bool) (sub : Subscription) :
    sub.Pruned closed (sub.forget closed) := ⟨kept_perm _ _, kept_perm _ _, rfl, rfl⟩

section Delivered

variable {msg : IncomingPublishPacket} {leaves leaves' : List Subscription} {m₁ m₂ m₃ : Mail}

theorem Delivered.nil (msg : IncomingPublishPacket) (mail : Mail) : Delivered msg [] mail mail :=
  ⟨(List.append_nil _).symm, fun _ _ => (Channel.offer_zero _ _).symm, fun _ _ => rfl, rfl⟩

theorem Delivered.append (h₁ : Delivered msg leaves m₁ m₂) (h₂ : Delivered msg leaves' m₂ m₃) :
    Delivered msg (leaves ++ leaves') m₁ m₃ := by
  refine ⟨?_, fun ch hch => ?_, fun ch hch => ?_, h₂.closed.trans h₁.closed⟩
  · rw [h₂.calls, h₁.calls, List.flatMap_append, List.map_append, List.append_assoc]
  · rw [h₂.queue ch fun sub hsub => hch sub (List.mem_append_right _ hsub),
      h₁.queue ch fun sub hsub => hch sub (List.mem_append_left _ hsub), Channel.offer_offer,
      List.flatMap_append, List.count_append]
  · rw [h₂.lossy ch fun sub hsub => hch sub (List.mem_append_right _ hsub),
      h₁.lossy ch fun sub hsub => hch sub (List.mem_append_left _ hsub),
      Channel.tryOffer_tryOffer, List.flatMap_append, List.count_append]

/-- Leaves without receivers hand out nothing. -/
theorem Delivered.of_default (h : ∀ sub ∈ leaves, sub = default) (msg : IncomingPublishPacket)
    (mail : Mail) : Delivered msg leaves mail mail := by
  have hnone : ∀ {α : Type} (f : Subscription → List α), f default = [] →
      leaves.flatMap f = [] := by
    intro α f hf
    rw [List.flatMap_eq_nil_iff]
    intro sub hsub
    rw [h sub hsub, hf]
  refine ⟨?_, fun ch _ => ?_, fun ch _ => ?_, rfl⟩
  · rw [hnone Subscription.fastCallbacks rfl, List.map_nil, List.append_nil]
  · rw [hnone Subscription.unboundedQueue rfl, List.count_nil, Channel.offer_zero]
  · rw [hnone Subscription.lossyQueue rfl]
    rfl

end Delivered

/-! ## Leaves -/

namespace Subscription

theorem run_forM_call (msg : IncomingPublishPacket) : ∀ (cbs : List FastCallback) (mail : Mail),
    ((cbs.forM fun cb => Mail.call cb msg).run mail).2 =
      { mail with calls := mail.calls ++ cbs.map (·, msg) } := by
  intro cbs
  induction cbs with
  | nil =>
    intro mail
    rw [List.map_nil, List.append_nil]
    rfl
  | cons cb cbs ih =>
    intro mail
    have hstep : (((cb :: cbs).forM fun cb => Mail.call cb msg).run mail).2 =
        ((cbs.forM fun cb => Mail.call cb msg).run
          { mail with calls := mail.calls ++ [(cb, msg)] }).2 := rfl
    rw [hstep, ih, List.map_cons, List.append_assoc, List.singleton_append]

theorem run_dispatch {sub : Subscription} {msg : IncomingPublishPacket} {mail : Mail}
    {lossy unbounded : List Nat × Mail}
    (hlossy : (prune sub.lossyQueue
      fun ch => do return (← Mail.trySend ch msg) == .closed).run mail = lossy)
    (hunbounded : (prune sub.unboundedQueue
      fun ch => do return (← Mail.send ch msg) == .closed).run lossy.2 = unbounded) :
    (sub.dispatch msg).run mail =
      ({ sub with lossyQueue := lossy.1, unboundedQueue := unbounded.1 },
        ((sub.fastCallbacks.forM fun cb => Mail.call cb msg).run unbounded.2).2) := by
  rw [← hunbounded, ← hlossy]
  rfl

/-- Dispatching a message in a leaf. -/
theorem dispatch_spec (sub : Subscription) (msg : IncomingPublishPacket) (mail : Mail) :
    Delivered msg [sub] mail ((sub.dispatch msg).run mail).2 ∧
      ((sub.dispatch msg).run mail).1 = sub.forget mail.closed := by
  have hans₁ := Mail.answers_trySend msg mail
  obtain ⟨order₁, hperm₁, hstate₁, -⟩ :=
    prune_spec hans₁ sub.lossyQueue (Mail.SameEnds.refl mail)
  have hkept₁ := prune_eq_kept hans₁ sub.lossyQueue (Mail.SameEnds.refl mail)
  generalize hm₁ : (prune sub.lossyQueue
    fun ch => do return (← Mail.trySend ch msg) == .closed).run mail = lossy at hstate₁ hkept₁
  have hends₁ : Mail.SameEnds mail lossy.2 := by
    rw [hstate₁]
    exact hans₁.foldl order₁ (.refl mail)
  have hans₂ := Mail.answers_send msg lossy.2
  obtain ⟨order₂, hperm₂, hstate₂, -⟩ :=
    prune_spec hans₂ sub.unboundedQueue (Mail.SameEnds.refl lossy.2)
  have hkept₂ := prune_eq_kept hans₂ sub.unboundedQueue (Mail.SameEnds.refl lossy.2)
  generalize hm₂ : (prune sub.unboundedQueue
    fun ch => do return (← Mail.send ch msg) == .closed).run lossy.2 = unbounded at hstate₂ hkept₂
  have hends₂ : Mail.SameEnds lossy.2 unbounded.2 := by
    rw [hstate₂]
    exact hans₂.foldl order₂ (.refl _)
  have hends := hends₁.trans hends₂
  rw [run_dispatch hm₁ hm₂]
  refine ⟨⟨?_, fun ch hch => ?_, fun ch hch => ?_, ?_⟩, ?_⟩
  · rw [run_forM_call, ← hends.calls, List.flatMap_singleton]
  · have hne : ch ∉ order₁ := fun hmem => hch sub (List.mem_singleton.mpr rfl) (hperm₁.subset hmem)
    rw [run_forM_call, List.flatMap_singleton, ← hperm₂.count_eq]
    show unbounded.2.channels ch = _
    rw [hstate₂, Mail.channels_foldl_send, hstate₁, Mail.channels_foldl_trySend,
      List.count_eq_zero.mpr hne]
    rfl
  · have hne : ch ∉ order₂ := fun hmem => hch sub (List.mem_singleton.mpr rfl) (hperm₂.subset hmem)
    rw [run_forM_call, List.flatMap_singleton, ← hperm₁.count_eq]
    show unbounded.2.channels ch = _
    rw [hstate₂, Mail.channels_foldl_send, List.count_eq_zero.mpr hne, Channel.offer_zero, hstate₁,
      Mail.channels_foldl_trySend]
  · rw [run_forM_call]
    exact hends.closed
  · rw [hkept₁, hkept₂, hends₁.closed]
    rfl

/-! ### Callbacks -/

/-- The callbacks are sorted by their identifiers. -/
def Ordered (cbs : List FastCallback) : Prop := cbs.Pairwise fun a b => a.id < b.id

variable {cbs : List FastCallback}

/-- What `binary_search_by_key` promises for sorted callbacks: the position of a callback with
the identifier or, if there is none, the position at which one belongs. -/
def Finds (id : UInt32) (cbs : List FastCallback) : Except Nat Nat → Prop
  | .ok i => ∃ c, cbs[i]? = some c ∧ c.id = id
  | .error i => i ≤ cbs.length ∧ (∀ c ∈ cbs.take i, c.id < id) ∧ ∀ c ∈ cbs.drop i, id < c.id

theorem Finds.ne_of_error {id : UInt32} {i : Nat} (h : Finds id cbs (.error i)) :
    ∀ c ∈ cbs, c.id ≠ id := by
  obtain ⟨-, hbefore, hbehind⟩ := h
  rintro c hc rfl
  rw [← List.take_append_drop i cbs] at hc
  rcases List.mem_append.mp hc with hmem | hmem
  · exact UInt32.lt_irrefl _ (hbefore c hmem)
  · exact UInt32.lt_irrefl _ (hbehind c hmem)

theorem Finds.ordered_insertIdx {cb : FastCallback} {i : Nat}
    (h : Finds cb.id cbs (.error i)) (hord : Ordered cbs) : Ordered (cbs.insertIdx i cb) := by
  obtain ⟨hlen, hbefore, hbehind⟩ := h
  obtain ⟨front, back, rfl, rfl, hinsert⟩ := List.exists_of_modifyTailIdx (List.cons cb) hlen
  rw [List.take_left] at hbefore
  rw [List.drop_left] at hbehind
  obtain ⟨hfront, hback, hcross⟩ := List.pairwise_append.mp hord
  show Ordered ((front ++ back).modifyTailIdx front.length (List.cons cb))
  rw [hinsert]
  refine List.pairwise_append.mpr ⟨hfront, List.pairwise_cons.mpr ⟨hbehind, hback⟩, ?_⟩
  intro a ha b hb
  rcases List.mem_cons.mp hb with rfl | hmem
  · exact hbefore a ha
  · exact hcross a ha b hmem

/-- The callback that is found is the only one with its identifier. -/
theorem Finds.eraseIdx_eq_filter {id : UInt32} {i : Nat} (h : Finds id cbs (.ok i))
    (hord : Ordered cbs) : cbs.eraseIdx i = cbs.filter fun c => c.id != id := by
  obtain ⟨c, hget, rfl⟩ := h
  obtain ⟨hi, hc⟩ := List.getElem?_eq_some_iff.mp hget
  have hsplit : cbs = cbs.take i ++ c :: cbs.drop (i + 1) := by
    rw [← hc, ← List.drop_eq_getElem_cons hi, List.take_append_drop]
  obtain ⟨-, hback, hcross⟩ := List.pairwise_append.mp (hsplit ▸ hord : Ordered _)
  have hfront : (cbs.take i).filter (fun c' => c'.id != c.id) = cbs.take i := by
    rw [List.filter_eq_self]
    intro c' hc'
    exact bne_iff_ne.mpr (UInt32.ne_of_lt (hcross c' hc' c List.mem_cons_self))
  have hrest : (cbs.drop (i + 1)).filter (fun c' => c'.id != c.id) = cbs.drop (i + 1) := by
    rw [List.filter_eq_self]
    intro c' hc'
    exact bne_iff_ne.mpr (UInt32.ne_of_lt ((List.pairwise_cons.mp hback).1 c' hc')).symm
  rw [List.eraseIdx_eq_take_drop_succ]
  conv_rhs => rw [hsplit]
  rw [List.filter_append, List.filter_cons_of_neg (by simp), hfront, hrest]

theorem finds_binarySearchByKey (id : UInt32) :
    ∀ {cbs : List FastCallback}, Ordered cbs → Finds id cbs (binarySearchByKey id cbs) := by
  intro cbs
  induction cbs with
  | nil =>
    intro _
    refine ⟨Nat.le_refl 0, ?_, ?_⟩ <;> exact fun c hc => by cases hc
  | cons c rest ih =>
    intro hord
    obtain ⟨hlt, hrest⟩ := List.pairwise_cons.mp hord
    rw [binarySearchByKey]
    by_cases heq : c.id = id
    · rw [if_pos heq]
      exact ⟨c, rfl, heq⟩
    · rw [if_neg heq]
      by_cases hbefore : id < c.id
      · rw [if_pos hbefore]
        refine ⟨Nat.zero_le _, fun c' hc' => (by cases hc'), fun c' hc' => ?_⟩
        rcases List.mem_cons.mp hc' with rfl | hmem
        · exact hbefore
        · exact UInt32.lt_trans hbefore (hlt c' hmem)
      · rw [if_neg hbefore]
        have hspec := ih hrest
        cases hs : binarySearchByKey id rest with
        | ok i =>
          rw [hs] at hspec
          exact hspec
        | error i =>
          rw [hs] at hspec
          obtain ⟨hlen, htake, hdrop⟩ := hspec
          refine ⟨Nat.succ_le_succ hlen, fun c' hc' => ?_, hdrop⟩
          rcases List.mem_cons.mp hc' with rfl | hmem
          · exact UInt32.lt_of_le_of_ne (UInt32.not_lt.mp hbefore) heq
          · exact htake c' hmem

/-- A callback behind the last one is behind all. -/
theorem lt_of_last (hord : Ordered cbs) {id : UInt32}
    (hlast : (cbs.getLast?.all fun last => decide (last.id < id)) = true) :
    ∀ c ∈ cbs, c.id < id := by
  rcases List.eq_nil_or_concat cbs with rfl | ⟨front, last, rfl⟩
  · exact fun c hc => by cases hc
  · have hlt : last.id < id := by simpa using hlast
    have hfront := (List.pairwise_append.mp (List.concat_eq_append ▸ hord)).2.2
    intro c hc
    rw [List.concat_eq_append] at hc
    rcases List.mem_append.mp hc with hmem | hmem
    · exact UInt32.lt_trans (hfront c hmem last (List.mem_singleton.mpr rfl)) hlt
    · rw [List.mem_singleton.mp hmem]
      exact hlt

/-- Adding a callback does nothing if its identifier is there, and keeps the order. -/
theorem addFastCallback_spec (sub : Subscription) (cb : FastCallback)
    (hord : Ordered sub.fastCallbacks) :
    Ordered (sub.addFastCallback cb).fastCallbacks ∧
      if ∃ c ∈ sub.fastCallbacks, c.id = cb.id then sub.addFastCallback cb = sub
      else (sub.addFastCallback cb).fastCallbacks.Perm (cb :: sub.fastCallbacks) := by
  unfold addFastCallback
  split
  · rename_i hlast
    have hall := lt_of_last hord hlast
    have hnone : ¬ ∃ c ∈ sub.fastCallbacks, c.id = cb.id := by
      rintro ⟨c, hc, hid⟩
      have hself := hall c hc
      rw [hid] at hself
      exact UInt32.lt_irrefl _ hself
    rw [if_neg hnone]
    refine ⟨List.pairwise_append.mpr ⟨hord, List.pairwise_singleton _ _, ?_⟩,
      List.perm_append_singleton _ _⟩
    intro c hc c' hc'
    rw [List.mem_singleton.mp hc']
    exact hall c hc
  · have hfinds := finds_binarySearchByKey cb.id hord
    cases hs : binarySearchByKey cb.id sub.fastCallbacks with
    | ok i =>
      rw [hs] at hfinds
      obtain ⟨c, hget, hid⟩ := hfinds
      simp only
      rw [if_pos ⟨c, List.mem_of_getElem? hget, hid⟩]
      exact ⟨hord, trivial⟩
    | error i =>
      rw [hs] at hfinds
      have hnot : ¬ ∃ c ∈ sub.fastCallbacks, c.id = cb.id :=
        fun ⟨c, hc, hid⟩ => hfinds.ne_of_error c hc hid
      simp only
      rw [if_neg hnot]
      exact ⟨hfinds.ordered_insertIdx hord, List.perm_insertIdx _ _ hfinds.1⟩

/-- Removing a callback removes the one with the identifier. -/
theorem removeFastCallback_spec (id : UInt32) (sub : Subscription)
    (hord : Ordered sub.fastCallbacks) :
    sub.removeFastCallback id =
      { sub with fastCallbacks := sub.fastCallbacks.filter fun c => c.id != id } := by
  have hfinds := finds_binarySearchByKey id hord
  unfold removeFastCallback
  cases hs : binarySearchByKey id sub.fastCallbacks with
  | ok i =>
    rw [hs] at hfinds
    rw [← hfinds.eraseIdx_eq_filter hord]
  | error i =>
    rw [hs] at hfinds
    have hkeep : sub.fastCallbacks.filter (fun c => c.id != id) = sub.fastCallbacks := by
      rw [List.filter_eq_self]
      exact fun c hc => bne_iff_ne.mpr (hfinds.ne_of_error c hc)
    rw [hkeep]

end Subscription

end Lmc
