import Lmc.Client.Shared

/-!
# Subscribers and their slots

`Subscribers` is what matters about calls that wait for a subscription: the entries of
the map of subscription states, the future each call holds, whether the map will not be
drained any more, and the wakers that were called or are collected to be called. A future
that was polled while its topic was pending owns a slot in the list of wakers of the
entry and remembers its index.

`Slots` is the invariant of sound slots: the index of a future leads to the slot it has
pushed, with its latest waker, as long as its topic is pending, and when the topic is no
longer pending this waker was called. It needs two things. A topic must not become
pending again while a future still remembers an index, and a pending topic must not be
forgotten without a call. Both can happen, so the steps that may do them carry a label.
-/

namespace Lmc

@[ext] structure Subscribers where
  entry : Str → Option SubscriptionState
  future : Nat → Option SubscribeFuture
  drained : Bool
  called : Waker → Prop

namespace Subscribers

/-! ## Steps -/

def setEntry (topic : Str) (state : Option SubscriptionState) (v : Subscribers) : Subscribers :=
  { v with entry := fun t => if t = topic then state else v.entry t }

def setFuture (c : Nat) (fut : Option SubscribeFuture) (v : Subscribers) : Subscribers :=
  { v with future := fun c' => if c' = c then fut else v.future c' }

def call (p : Waker → Prop) (v : Subscribers) : Subscribers :=
  { v with called := fun w => v.called w ∨ p w }

/-- The wakers stored for a topic. -/
def wakersOf (v : Subscribers) (topic : Str) : List Waker :=
  (v.entry topic).elim [] SubscriptionState.wakers

/-- The map is emptied and its wakers are collected. -/
def drain (v : Subscribers) : Subscribers where
  entry _ := none
  future := v.future
  drained := true
  called w := v.called w ∨ ∃ topic, w ∈ v.wakersOf topic

/-- Nobody waits for the topic, in the map. -/
def Idle (v : Subscribers) (topic : Str) : Prop :=
  ∀ slots, v.entry topic ≠ some (.pending slots)

inductive Label where
  | silent
  /-- A topic becomes pending. -/
  | start (topic : Str)
  /-- A call begins to wait for a topic. -/
  | join (topic : Str)
  /-- A topic is unsubscribed. -/
  | forget (topic : Str)
  /-- The task ends without draining the map. -/
  | abandon

inductive Step (v : Subscribers) : Label → Subscribers → Prop
  | call (p : Waker → Prop) : Step v .silent (v.call p)
  | start (topic : Str) (absent : v.entry topic = none) :
      Step v (.start topic) (v.setEntry topic (some (.pending [])))
  | join (c : Nat) (topic : Str) : Step v (.join topic) (v.setFuture c (some (.new topic)))
  | push (c : Nat) (fut : SubscribeFuture) (w : Waker) (slots : List Slot)
      (found : v.future c = some fut) (here : v.entry fut.topic = some (.pending slots))
      (index : fut.wakerIndex = none) :
      Step v .silent
        ((v.setEntry fut.topic (some (.pending (slots ++ [⟨c, some w⟩])))).setFuture c
          (some { fut with wakerIndex := some slots.length, latest := some w }))
  | store (c : Nat) (fut : SubscribeFuture) (w : Waker) (slots : List Slot) (i : Nat)
      (slot : Slot) (found : v.future c = some fut)
      (here : v.entry fut.topic = some (.pending slots)) (index : fut.wakerIndex = some i)
      (range : slots[i]? = some slot) :
      Step v .silent
        ((v.setEntry fut.topic (some (.pending (slots.set i { slot with waker := some w }))))
          |>.setFuture c (some { fut with latest := some w }))
  | leave (c : Nat) : Step v .silent (v.setFuture c none)
  | cancel (c : Nat) (fut : SubscribeFuture) (slots : List Slot) (i : Nat) (slot : Slot)
      (found : v.future c = some fut) (here : v.entry fut.topic = some (.pending slots))
      (index : fut.wakerIndex = some i) (range : slots[i]? = some slot) :
      Step v .silent
        ((v.setEntry fut.topic (some (.pending (slots.set i { slot with waker := none }))))
          |>.setFuture c none)
  | settle (topic : Str) (state : Option SubscriptionState)
      (closed : ∀ slots, state ≠ some (.pending slots)) :
      Step v .silent ((v.setEntry topic state).call fun w => w ∈ v.wakersOf topic)
  | forget (topic : Str) : Step v (.forget topic) (v.setEntry topic none)
  | drain : Step v .silent v.drain
  | abandon : Step v .abandon { v with drained := true }

theorem Step.refl (v : Subscribers) : Step v .silent v := by
  have hcall : v.call (fun _ => False) = v := by
    ext <;> simp [Subscribers.call]
  have h : Step v .silent (v.call fun _ => False) := .call _
  rwa [hcall] at h

/-! ## Slots -/

/-- A future has not been polled yet, or it remembers the slot it has pushed. Its latest
waker is in this slot while the topic is pending, and was called otherwise. -/
def Placed (v : Subscribers) (c : Nat) (fut : SubscribeFuture) : Prop :=
  fut.result = none ∧
    (fut.wakerIndex = none ∧ fut.latest = none ∨
      ∃ i w, fut.wakerIndex = some i ∧ fut.latest = some w ∧
        ((∃ slots, v.entry fut.topic = some (.pending slots) ∧
            slots[i]? = some ⟨c, some w⟩) ∨
          v.Idle fut.topic ∧ v.called w))

def Slots (v : Subscribers) : Prop := ∀ c fut, v.future c = some fut → v.Placed c fut

variable {v v' : Subscribers} {l : Label}

theorem entry_setEntry_self (topic : Str) (state : Option SubscriptionState) :
    (v.setEntry topic state).entry topic = state := if_pos rfl

theorem entry_setEntry_ne {topic topic' : Str} (h : topic' ≠ topic)
    (state : Option SubscriptionState) :
    (v.setEntry topic state).entry topic' = v.entry topic' := if_neg h

theorem setFuture_cases {c c' : Nat} {f : Option SubscribeFuture} {fut : SubscribeFuture}
    (h : (v.setFuture c' f).future c = some fut) :
    c = c' ∧ f = some fut ∨ c ≠ c' ∧ v.future c = some fut := by
  by_cases hc : c = c'
  · exact Or.inl ⟨hc, (if_pos hc).symm.trans h⟩
  · exact Or.inr ⟨hc, (if_neg hc).symm.trans h⟩

theorem setFuture_none {c : Nat} (h : v.future c = none) : v.setFuture c none = v := by
  refine Subscribers.ext rfl (funext fun c' => ?_) rfl rfl
  show (if c' = c then none else v.future c') = v.future c'
  split
  · subst c'
    exact h.symm
  · rfl

theorem Placed.frame {c : Nat} {fut : SubscribeFuture} (h : v.Placed c fut)
    (hentry : v'.entry fut.topic = v.entry fut.topic)
    (hcalled : ∀ w, v.called w → v'.called w) : v'.Placed c fut := by
  obtain ⟨hlive, hfresh | ⟨i, w, hi, hw, hslot | ⟨hidle, hcall⟩⟩⟩ := h
  · exact ⟨hlive, Or.inl hfresh⟩
  · refine ⟨hlive, Or.inr ⟨i, w, hi, hw, Or.inl ?_⟩⟩
    rw [hentry]
    exact hslot
  · refine ⟨hlive, Or.inr ⟨i, w, hi, hw, Or.inr ⟨?_, hcalled w hcall⟩⟩⟩
    rw [Idle, hentry]
    exact hidle

/-- The slot of a future in a list, when its topic is pending. -/
theorem Placed.slot {c i : Nat} {fut : SubscribeFuture} {slots : List Slot}
    (h : v.Placed c fut) (here : v.entry fut.topic = some (.pending slots))
    (hi : fut.wakerIndex = some i) :
    ∃ w, fut.latest = some w ∧ slots[i]? = some ⟨c, some w⟩ := by
  obtain ⟨-, ⟨hnone, -⟩ | ⟨i', w, hi', hw, ⟨slots', hslots', hslot⟩ | ⟨hidle, -⟩⟩⟩ := h
  · rw [hnone] at hi
    cases hi
  · rw [hi] at hi'
    rw [here] at hslots'
    cases hi'
    cases hslots'
    exact ⟨w, hw, hslot⟩
  · exact absurd here (hidle slots)

/-- Another list for the same topic that keeps the slots of the future. -/
theorem Placed.keep {c : Nat} {fut : SubscribeFuture} {slots slots' : List Slot}
    (h : v.Placed c fut) (here : v.entry fut.topic = some (.pending slots))
    (here' : v'.entry fut.topic = some (.pending slots'))
    (hkeep : ∀ (i : Nat) (w : Waker),
      slots[i]? = some (Slot.mk c (some w)) → slots'[i]? = some (Slot.mk c (some w))) :
    v'.Placed c fut := by
  refine ⟨h.1, ?_⟩
  cases hi : fut.wakerIndex with
  | none =>
    obtain ⟨-, ⟨-, hlatest⟩ | ⟨i, w, hi', -⟩⟩ := h
    · exact Or.inl ⟨rfl, hlatest⟩
    · rw [hi] at hi'
      cases hi'
  | some i =>
    obtain ⟨w, hw, hslot⟩ := h.slot here hi
    exact Or.inr ⟨i, w, rfl, hw, Or.inl ⟨slots', here', hkeep i w hslot⟩⟩

/-- The waker of a future is among those of its topic, or was called. -/
theorem Placed.mem_wakersOf {c : Nat} {fut : SubscribeFuture} {w : Waker} (h : v.Placed c fut)
    (hw : fut.latest = some w) : w ∈ v.wakersOf fut.topic ∨ v.called w := by
  obtain ⟨-, ⟨-, hnone⟩ | ⟨i, w', -, hw', ⟨slots, hslots, hslot⟩ | ⟨-, hcall⟩⟩⟩ := h
  · rw [hnone] at hw
    cases hw
  · rw [hw] at hw'
    cases hw'
    refine Or.inl ?_
    rw [wakersOf, hslots]
    exact List.mem_filterMap.mpr ⟨_, List.mem_of_getElem? hslot, rfl⟩
  · rw [hw] at hw'
    cases hw'
    exact Or.inr hcall

/-- A topic that is no longer pending, with its wakers called. -/
theorem Placed.close {c : Nat} {fut : SubscribeFuture} (h : v.Placed c fut)
    (hidle : v'.Idle fut.topic)
    (hcalled : ∀ w, w ∈ v.wakersOf fut.topic ∨ v.called w → v'.called w) : v'.Placed c fut := by
  have hmem := fun w => h.mem_wakersOf (w := w)
  obtain ⟨hlive, hfresh | ⟨i, w, hi, hw, -⟩⟩ := h
  · exact ⟨hlive, Or.inl hfresh⟩
  · exact ⟨hlive, Or.inr ⟨i, w, hi, hw, Or.inr ⟨hidle, hcalled w (hmem w hw)⟩⟩⟩

theorem wakersOf_of_idle {topic : Str} (h : v.Idle topic) : v.wakersOf topic = [] := by
  unfold wakersOf
  match hentry : v.entry topic with
  | none => rfl
  | some (.existing qos) => rfl
  | some (.pending slots) => exact absurd hentry (h slots)

/-- Writing to the slot of one future keeps the slots of the others. -/
theorem getElem?_set_other {slots : List Slot} {c c' i j : Nat} {slot slot' new : Slot}
    (hi : slots[i]? = some slot) (hc : slot.owner = c) (hj : slots[j]? = some slot')
    (hc' : slot'.owner = c') (hne : c' ≠ c) : (slots.set i new)[j]? = some slot' := by
  have hij : i ≠ j := by
    rintro rfl
    rw [hi] at hj
    cases hj
    exact hne (hc'.symm.trans hc)
  rw [List.getElem?_set_ne hij, hj]

/-- Slots stay sound if no topic becomes pending while a future remembers an index for
it, and no pending topic is forgotten. -/
theorem Slots.step (h : Slots v) (hstep : Step v l v')
    (hstart : ∀ topic, l = .start topic → ∀ c fut, v.future c = some fut → fut.topic = topic →
      fut.wakerIndex = none)
    (hforget : ∀ topic, l = .forget topic → v.Idle topic) : Slots v' := by
  intro c fut hfut
  cases hstep with
  | call p => exact (h c fut hfut).frame rfl fun _ => Or.inl
  | start topic absent =>
    have hplaced := h c fut hfut
    by_cases ht : fut.topic = topic
    · obtain ⟨hlive, hfresh | ⟨i, w, hi, -⟩⟩ := hplaced
      · exact ⟨hlive, Or.inl hfresh⟩
      · rw [hstart topic rfl c fut hfut ht] at hi
        cases hi
    · exact hplaced.frame (entry_setEntry_ne ht _) fun _ hw => hw
  | join c' topic =>
    rcases setFuture_cases hfut with ⟨-, ⟨⟩⟩ | ⟨-, hold⟩
    · exact ⟨rfl, Or.inl ⟨rfl, rfl⟩⟩
    · exact (h c fut hold).frame rfl fun _ hw => hw
  | push c' fut' w slots found here index =>
    rcases setFuture_cases hfut with ⟨rfl, ⟨⟩⟩ | ⟨-, hold⟩
    · refine ⟨(h c fut' found).1, Or.inr ⟨slots.length, w, rfl, rfl, Or.inl ⟨_, if_pos rfl, ?_⟩⟩⟩
      exact List.getElem?_concat_length
    · by_cases ht : fut.topic = fut'.topic
      · refine (h c fut hold).keep (ht ▸ here) (if_pos ht) fun i w' hi => ?_
        rw [List.getElem?_append_left (List.getElem?_eq_some_iff.mp hi).1]
        exact hi
      · exact (h c fut hold).frame (entry_setEntry_ne ht _) fun _ hw => hw
  | store c' fut' w slots i slot found here index range =>
    obtain ⟨w₀, -, hslot⟩ := (h c' fut' found).slot here index
    have howner : slot.owner = c' := by
      rw [range] at hslot
      cases hslot
      rfl
    rcases setFuture_cases hfut with ⟨rfl, ⟨⟩⟩ | ⟨hne, hold⟩
    · refine ⟨(h c fut' found).1, Or.inr ⟨i, w, index, rfl, Or.inl ⟨_, if_pos rfl, ?_⟩⟩⟩
      rw [List.getElem?_set_self (List.getElem?_eq_some_iff.mp range).1, howner]
    · by_cases ht : fut.topic = fut'.topic
      · exact (h c fut hold).keep (ht ▸ here) (if_pos ht) fun j w' hj =>
          getElem?_set_other range howner hj rfl hne
      · exact (h c fut hold).frame (entry_setEntry_ne ht _) fun _ hw => hw
  | leave c' =>
    rcases setFuture_cases hfut with ⟨-, ⟨⟩⟩ | ⟨-, hold⟩
    exact (h c fut hold).frame rfl fun _ hw => hw
  | cancel c' fut' slots i slot found here index range =>
    obtain ⟨w₀, -, hslot⟩ := (h c' fut' found).slot here index
    have howner : slot.owner = c' := by
      rw [range] at hslot
      cases hslot
      rfl
    rcases setFuture_cases hfut with ⟨-, ⟨⟩⟩ | ⟨hne, hold⟩
    by_cases ht : fut.topic = fut'.topic
    · exact (h c fut hold).keep (ht ▸ here) (if_pos ht) fun j w' hj =>
        getElem?_set_other range howner hj rfl hne
    · exact (h c fut hold).frame (entry_setEntry_ne ht _) fun _ hw => hw
  | settle topic state closed =>
    by_cases ht : fut.topic = topic
    · subst ht
      refine (h c fut hfut).close (fun slots hs => closed slots ?_) fun w hw => hw.symm
      exact (if_pos rfl).symm.trans hs
    · exact (h c fut hfut).frame (entry_setEntry_ne ht _) fun _ => Or.inl
  | forget topic =>
    by_cases ht : fut.topic = topic
    · subst ht
      have hidle := hforget _ rfl
      refine (h c fut hfut).close (fun slots hs => ?_) fun w hw => ?_
      · cases (if_pos rfl).symm.trans hs
      · rw [wakersOf_of_idle hidle] at hw
        exact hw.resolve_left List.not_mem_nil
    · exact (h c fut hfut).frame (entry_setEntry_ne ht _) fun _ hw => hw
  | drain =>
    refine (h c fut hfut).close (fun slots hs => ?_) fun w hw => ?_
    · cases hs
    · exact hw.symm.imp id fun hw => ⟨fut.topic, hw⟩
  | abandon => exact (h c fut hfut).frame rfl fun _ hw => hw

/-! ## Draining -/

/-- No topic is pending in a drained map. -/
def Drained (v : Subscribers) : Prop := v.drained = true → ∀ topic, v.Idle topic

/-- No call waits for a pending topic in a drained map. -/
def Settled (v : Subscribers) : Prop :=
  v.drained = true → ∀ c fut, v.future c = some fut → v.Idle fut.topic

/-- A topic is pending behind a step if it was before or has just become so. -/
theorem Step.idle (hstep : Step v l v') {topic : Str} (hidle : v.Idle topic)
    (hstart : l ≠ .start topic) : v'.Idle topic := by
  intro slots hs
  cases hstep with
  | call p => exact hidle slots hs
  | start topic' absent =>
    by_cases ht : topic = topic'
    · exact hstart (ht ▸ rfl)
    · exact hidle slots ((if_neg ht).symm.trans hs)
  | join c topic' => exact hidle slots hs
  | push c fut w slots' found here index =>
    by_cases ht : topic = fut.topic
    · exact hidle slots' (ht ▸ here)
    · exact hidle slots ((if_neg ht).symm.trans hs)
  | store c fut w slots' i slot found here index range =>
    by_cases ht : topic = fut.topic
    · exact hidle slots' (ht ▸ here)
    · exact hidle slots ((if_neg ht).symm.trans hs)
  | leave c => exact hidle slots hs
  | cancel c fut slots' i slot found here index range =>
    by_cases ht : topic = fut.topic
    · exact hidle slots' (ht ▸ here)
    · exact hidle slots ((if_neg ht).symm.trans hs)
  | settle topic' state closed =>
    by_cases ht : topic = topic'
    · exact closed slots ((if_pos ht).symm.trans hs)
    · exact hidle slots ((if_neg ht).symm.trans hs)
  | forget topic' =>
    by_cases ht : topic = topic'
    · cases (if_pos ht).symm.trans hs
    · exact hidle slots ((if_neg ht).symm.trans hs)
  | drain => cases hs
  | abandon => exact hidle slots hs

/-- A step drains the map, or the map was drained before. -/
theorem Step.drained_cases (hstep : Step v l v') (hl : l ≠ .abandon)
    (h : v'.drained = true) : (∀ topic, v'.entry topic = none) ∨ v.drained = true := by
  cases hstep with
  | drain => exact Or.inl fun _ => rfl
  | abandon => exact absurd rfl hl
  | _ => exact Or.inr h

theorem Step.drained_mono (hstep : Step v l v') (h : v.drained = true) : v'.drained = true := by
  cases hstep <;> first | exact h | rfl

/-- A future behind a step waited for its topic before or has just begun to. -/
theorem Step.future_cases (hstep : Step v l v') {c : Nat} {fut : SubscribeFuture}
    (hfut : v'.future c = some fut) :
    (∃ old, v.future c = some old ∧ old.topic = fut.topic ∧ old.result = fut.result) ∨
      l = .join fut.topic ∧ fut.result = none := by
  cases hstep with
  | join c' topic =>
    rcases setFuture_cases hfut with ⟨-, ⟨⟩⟩ | ⟨-, hold⟩
    · exact Or.inr ⟨rfl, rfl⟩
    · exact Or.inl ⟨fut, hold, rfl, rfl⟩
  | push c' fut' w slots found here index =>
    rcases setFuture_cases hfut with ⟨rfl, ⟨⟩⟩ | ⟨-, hold⟩
    · exact Or.inl ⟨fut', found, rfl, rfl⟩
    · exact Or.inl ⟨fut, hold, rfl, rfl⟩
  | store c' fut' w slots i slot found here index range =>
    rcases setFuture_cases hfut with ⟨rfl, ⟨⟩⟩ | ⟨-, hold⟩
    · exact Or.inl ⟨fut', found, rfl, rfl⟩
    · exact Or.inl ⟨fut, hold, rfl, rfl⟩
  | leave c' =>
    rcases setFuture_cases hfut with ⟨-, ⟨⟩⟩ | ⟨-, hold⟩
    exact Or.inl ⟨fut, hold, rfl, rfl⟩
  | cancel c' fut' slots i slot found here index range =>
    rcases setFuture_cases hfut with ⟨-, ⟨⟩⟩ | ⟨-, hold⟩
    exact Or.inl ⟨fut, hold, rfl, rfl⟩
  | _ => exact Or.inl ⟨fut, hfut, rfl, rfl⟩

/-- A future that was ready is gone. -/
def Live (v : Subscribers) : Prop := ∀ c fut, v.future c = some fut → fut.result = none

theorem Live.step (h : Live v) (hstep : Step v l v') : Live v' := by
  intro c fut hfut
  rcases hstep.future_cases hfut with ⟨old, hold, -, hresult⟩ | ⟨-, hnone⟩
  · exact hresult ▸ h c old hold
  · exact hnone

theorem Drained.step (h : Drained v) (hstep : Step v l v')
    (hl : l = .abandon → ∀ topic, v.Idle topic)
    (hstart : ∀ topic, l = .start topic → v.drained = false) : Drained v' := by
  intro hdrained topic
  by_cases habandon : l = .abandon
  · exact hstep.idle (hl habandon topic) (by rw [habandon]; exact Label.noConfusion)
  rcases hstep.drained_cases habandon hdrained with hempty | hwas
  · intro slots hs
    rw [hempty] at hs
    cases hs
  · refine hstep.idle (h hwas topic) fun hs => ?_
    rw [hstart topic hs] at hwas
    cases hwas

theorem Settled.step (h : Settled v) (hstep : Step v l v') (hl : l ≠ .abandon)
    (hstart : ∀ topic, l = .start topic → v.drained = true → ∀ c fut, v.future c = some fut →
      fut.topic ≠ topic)
    (hjoin : ∀ topic, l = .join topic → v.drained = true → v.Idle topic) : Settled v' := by
  intro hdrained c fut hfut
  rcases hstep.drained_cases hl hdrained with hempty | hwas
  · intro slots hs
    rw [hempty] at hs
    cases hs
  · rcases hstep.future_cases hfut with ⟨old, hold, htopic, -⟩ | ⟨hjoined, -⟩
    · rw [← htopic]
      exact hstep.idle (h hwas c old hold) fun hs => hstart _ hs hwas c old hold rfl
    · exact hstep.idle (hjoin _ hjoined hwas) (by rw [hjoined]; exact Label.noConfusion)

end Subscribers

end Lmc
