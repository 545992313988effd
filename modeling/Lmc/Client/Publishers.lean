import Lmc.Client.Shared

/-!
# Publishers and their acknowledgements

`Publishers` is what matters about calls that wait for an acknowledgement: the entries of
the three notifier maps, the future each call holds and whether its command was sent, the
maps that no sweep will visit any more, and the wakers that were called or are collected
to be called. Its steps are those of the clients and of the task. A registration and a
send carry a label, since the results need conditions on them, and so does the end of a
task that sweeps nothing.

`Tracked` is the invariant of undisturbed waiting: no two futures share an entry, and the
latest waker of a future is in its entry or was called. `Swept` and `Resolved` say what a
sweep leaves behind, for all entries and for those of calls whose command was sent.
-/

namespace Lmc

@[ext] structure Publishers where
  entry : Notifier → UInt16 → Option NotifyResult
  future : Nat → Option PublishFuture
  sent : Nat → Bool
  swept : Notifier → Bool
  called : Waker → Prop

namespace Publishers

/-! ## Steps -/

def setEntry (n : Notifier) (id : UInt16) (r : Option NotifyResult) (v : Publishers) :
    Publishers :=
  { v with entry := fun n' id' => if n' = n ∧ id' = id then r else v.entry n' id' }

def setFuture (c : Nat) (fut : Option PublishFuture) (sent : Bool) (v : Publishers) :
    Publishers :=
  { v with
    future := fun c' => if c' = c then fut else v.future c'
    sent := fun c' => if c' = c then sent else v.sent c' }

def call (p : Waker → Prop) (v : Publishers) : Publishers :=
  { v with called := fun w => v.called w ∨ p w }

/-- Every entry of a map fails and its wakers are collected. -/
def sweep (n : Notifier) (v : Publishers) : Publishers where
  entry n' id := if n' = n then (v.entry n' id).map fun _ => .failed else v.entry n' id
  future := v.future
  sent := v.sent
  swept n' := n' = n || v.swept n'
  called w := v.called w ∨ ∃ id, v.entry n id = some (.withWaker w)

inductive Label where
  | silent
  | register (n : Notifier) (id : UInt16)
  | send (c : Nat)
  /-- The task ends without a sweep. -/
  | abandon

inductive Step (v : Publishers) : Label → Publishers → Prop
  | call (p : Waker → Prop) : Step v .silent (v.call p)
  | register (c : Nat) (n : Notifier) (id : UInt16) : Step v (.register n id)
      ((v.setEntry n id (some .withoutWaker)).setFuture c (some ⟨id, n, none, none⟩) false)
  | send (c : Nat) (fut : PublishFuture) (found : v.future c = some fut) :
      Step v (.send c) (v.setFuture c (some fut) true)
  | store (c : Nat) (fut : PublishFuture) (w : Waker) (r : NotifyResult)
      (found : v.future c = some fut) (sent : v.sent c = true)
      (here : v.entry fut.notifier fut.packetId = some r) (waiting : r.isWaiting = true) :
      Step v .silent ((v.setEntry fut.notifier fut.packetId (some (.withWaker w))).setFuture c
        (some { fut with latest := some w }) true)
  | leave (c : Nat) : Step v .silent (v.setFuture c none false)
  | cancel (c : Nat) (fut : PublishFuture) (found : v.future c = some fut) : Step v .silent
      ((v.setEntry fut.notifier fut.packetId none).setFuture c none false)
  | notify (n : Notifier) (id : UInt16) : Step v .silent
      ((v.setEntry n id none).call fun w => v.entry n id = some (.withWaker w))
  | sweep (n : Notifier) : Step v .silent (v.sweep n)
  | abandon : Step v .abandon { v with swept := fun _ => true }

theorem Step.refl (v : Publishers) : Step v .silent v := by
  have hcall : v.call (fun _ => False) = v := by
    ext <;> simp [Publishers.call]
  have h : Step v .silent (v.call fun _ => False) := .call _
  rwa [hcall] at h

/-! ## Wakers -/

/-- No future waits under this identifier. -/
def Free (v : Publishers) (n : Notifier) (id : UInt16) : Prop :=
  ∀ c fut, v.future c = some fut → ¬ (fut.notifier = n ∧ fut.packetId = id)

structure Tracked (v : Publishers) : Prop where
  live : ∀ c fut, v.future c = some fut → fut.result = none
  own : ∀ c c' fut fut', v.future c = some fut → v.future c' = some fut' →
    fut.notifier = fut'.notifier → fut.packetId = fut'.packetId → c = c'
  waker : ∀ c fut w, v.future c = some fut → fut.latest = some w →
    v.entry fut.notifier fut.packetId = some (.withWaker w) ∨ v.called w

variable {v v' : Publishers} {l : Label}

/-- Steps that change no future and call the wakers of the entries they change. -/
theorem Tracked.entries (h : Tracked v) (hfuture : v'.future = v.future)
    (hcalled : ∀ w, v.called w → v'.called w)
    (hentry : ∀ n id w, v.entry n id = some (.withWaker w) →
      v'.entry n id = some (.withWaker w) ∨ v'.called w) : Tracked v' where
  live := by rw [hfuture]; exact h.live
  own := by rw [hfuture]; exact h.own
  waker c fut w hfut hw := by
    rw [hfuture] at hfut
    rcases h.waker c fut w hfut hw with hentry' | hcalled'
    · exact hentry _ _ _ hentry'
    · exact Or.inr (hcalled w hcalled')

/-- Steps of one call that touch no entry but its own. -/
theorem Tracked.update (h : Tracked v) {c : Nat} {fut : Option PublishFuture}
    (hother : ∀ c', c' ≠ c → v'.future c' = v.future c') (hself : v'.future c = fut)
    (hcalled : v'.called = v.called)
    (hlive : ∀ f, fut = some f → f.result = none)
    (hfree : ∀ f, fut = some f → ∀ c' f', c' ≠ c → v.future c' = some f' →
      ¬ (f'.notifier = f.notifier ∧ f'.packetId = f.packetId))
    (hentry : ∀ c' f', c' ≠ c → v.future c' = some f' →
      v'.entry f'.notifier f'.packetId = v.entry f'.notifier f'.packetId)
    (hwaker : ∀ f w, fut = some f → f.latest = some w →
      v'.entry f.notifier f.packetId = some (.withWaker w) ∨ v'.called w) : Tracked v' where
  live c' f hf := by
    by_cases hc : c' = c
    · subst hc
      exact hlive f (hself.symm.trans hf)
    · exact h.live c' f ((hother c' hc).symm.trans hf)
  own c₁ c₂ f₁ f₂ hf₁ hf₂ hn hid := by
    by_cases h₁ : c₁ = c
    · by_cases h₂ : c₂ = c
      · rw [h₁, h₂]
      · subst h₁
        rw [hother c₂ h₂] at hf₂
        exact absurd ⟨hn.symm, hid.symm⟩ (hfree f₁ (hself.symm.trans hf₁) c₂ f₂ h₂ hf₂)
    · rw [hother c₁ h₁] at hf₁
      by_cases h₂ : c₂ = c
      · subst h₂
        exact absurd ⟨hn, hid⟩ (hfree f₂ (hself.symm.trans hf₂) c₁ f₁ h₁ hf₁)
      · rw [hother c₂ h₂] at hf₂
        exact h.own c₁ c₂ f₁ f₂ hf₁ hf₂ hn hid
  waker c' f w hf hw := by
    by_cases hc : c' = c
    · subst hc
      exact hwaker f w (hself.symm.trans hf) hw
    · rw [hother c' hc] at hf
      rw [hentry c' f hc hf, hcalled]
      exact h.waker c' f w hf hw

theorem future_setFuture_self (c : Nat) (fut : Option PublishFuture) (sent : Bool) :
    (v.setFuture c fut sent).future c = fut := if_pos rfl

theorem future_setFuture_ne {c c' : Nat} (h : c' ≠ c) (fut : Option PublishFuture)
    (sent : Bool) : (v.setFuture c fut sent).future c' = v.future c' := if_neg h

theorem entry_setEntry_self (n : Notifier) (id : UInt16) (r : Option NotifyResult) :
    (v.setEntry n id r).entry n id = r := if_pos ⟨rfl, rfl⟩

theorem entry_setEntry_ne {n n' : Notifier} {id id' : UInt16} (h : ¬ (n' = n ∧ id' = id))
    (r : Option NotifyResult) : (v.setEntry n id r).entry n' id' = v.entry n' id' := if_neg h

/-- Undisturbed waiting goes on if registrations are under free identifiers. -/
theorem Tracked.step (h : Tracked v) (hstep : Step v l v')
    (hfree : ∀ n id, l = .register n id → v.Free n id) : Tracked v' := by
  cases hstep with
  | call p => exact h.entries rfl (fun _ => Or.inl) fun _ _ _ => Or.inl
  | register c n id =>
    have hn : v.Free n id := hfree n id rfl
    refine h.update (fun c' hc => future_setFuture_ne hc _ _) (future_setFuture_self c _ _) rfl
      ?_ ?_ ?_ ?_
    · rintro f ⟨⟩
      rfl
    · rintro f ⟨⟩ c' f' - hf'
      exact hn c' f' hf'
    · intro c' f' _ hf'
      exact entry_setEntry_ne (hn c' f' hf') _
    · rintro f w ⟨⟩ hw
      cases hw
  | send c fut found =>
    refine h.update (fun c' hc => future_setFuture_ne hc _ _) (future_setFuture_self c _ _) rfl
      ?_ ?_ ?_ ?_
    · rintro f ⟨⟩
      exact h.live c fut found
    · rintro f ⟨⟩ c' f' hc hf' ⟨hn, hid⟩
      exact hc (h.own c' c f' fut hf' found hn hid)
    · exact fun _ _ _ _ => rfl
    · rintro f w ⟨⟩ hw
      exact h.waker c fut w found hw
  | store c fut w r found sent here waiting =>
    refine h.update (fun c' hc => future_setFuture_ne hc _ _) (future_setFuture_self c _ _) rfl
      ?_ ?_ ?_ ?_
    · rintro f ⟨⟩
      exact h.live c fut found
    · rintro f ⟨⟩ c' f' hc hf' ⟨hn, hid⟩
      exact hc (h.own c' c f' fut hf' found hn hid)
    · intro c' f' hc hf'
      refine entry_setEntry_ne (fun hkey => hc ?_) _
      exact h.own c' c f' fut hf' found hkey.1 hkey.2
    · rintro f w' ⟨⟩ hw'
      cases hw'
      exact Or.inl (entry_setEntry_self _ _ _)
  | leave c =>
    refine h.update (fun c' hc => future_setFuture_ne hc _ _) (future_setFuture_self c _ _) rfl
      ?_ ?_ (fun _ _ _ _ => rfl) ?_
    all_goals rintro f
    all_goals simp
  | cancel c fut found =>
    refine h.update (fun c' hc => future_setFuture_ne hc _ _) (future_setFuture_self c _ _) rfl
      ?_ ?_ ?_ ?_
    · simp
    · simp
    · intro c' f' hc hf'
      refine entry_setEntry_ne (fun hkey => hc ?_) _
      exact h.own c' c f' fut hf' found hkey.1 hkey.2
    · simp
  | notify n id =>
    refine h.entries rfl (fun _ => Or.inl) fun n' id' w hw => ?_
    by_cases hkey : n' = n ∧ id' = id
    · obtain ⟨rfl, rfl⟩ := hkey
      exact Or.inr (Or.inr hw)
    · exact Or.inl ((entry_setEntry_ne hkey _).trans hw)
  | sweep n =>
    refine h.entries rfl (fun _ => Or.inl) fun n' id' w hw => ?_
    by_cases hn : n' = n
    · subst hn
      exact Or.inr (Or.inr ⟨id', hw⟩)
    · exact Or.inl ((if_neg hn).trans hw)
  | abandon => exact h.entries rfl (fun _ hw => hw) fun _ _ _ => Or.inl

/-! ## Sweeps -/

/-- Nothing waits in a swept map. -/
def Swept (v : Publishers) : Prop :=
  ∀ n id r, v.swept n = true → v.entry n id = some r → r.isWaiting = false

/-- No call whose command was sent waits in a swept map. -/
def Resolved (v : Publishers) : Prop :=
  ∀ c fut r, v.future c = some fut → v.sent c = true → v.swept fut.notifier = true →
    v.entry fut.notifier fut.packetId = some r → r.isWaiting = false

/-- An entry behind a step was there before, or is new and waits, or has failed. -/
theorem Step.entry_cases (hstep : Step v l v') (hl : l ≠ .abandon) {n : Notifier} {id : UInt16}
    {r : NotifyResult} (h : v'.entry n id = some r) :
    (r = .failed ∧ ∃ r', v.entry n id = some r') ∨
      v.entry n id = some r ∧ v'.swept n = v.swept n ∨
      l = .register n id ∧ v'.swept = v.swept ∨
      v'.swept = v.swept ∧ ∃ c fut r', v.future c = some fut ∧ v.sent c = true ∧
        fut.notifier = n ∧ fut.packetId = id ∧ v.entry n id = some r' ∧ r'.isWaiting = true := by
  cases hstep with
  | call p => exact Or.inr (Or.inl ⟨h, rfl⟩)
  | register c n' id' =>
    by_cases hkey : n = n' ∧ id = id'
    · obtain ⟨rfl, rfl⟩ := hkey
      exact Or.inr (Or.inr (Or.inl ⟨rfl, rfl⟩))
    · exact Or.inr (Or.inl ⟨(entry_setEntry_ne hkey _).symm.trans h, rfl⟩)
  | send c fut found => exact Or.inr (Or.inl ⟨h, rfl⟩)
  | store c fut w r' found sent here waiting =>
    by_cases hkey : n = fut.notifier ∧ id = fut.packetId
    · obtain ⟨rfl, rfl⟩ := hkey
      exact Or.inr (Or.inr (Or.inr ⟨rfl, c, fut, r', found, sent, rfl, rfl, here, waiting⟩))
    · exact Or.inr (Or.inl ⟨(entry_setEntry_ne hkey _).symm.trans h, rfl⟩)
  | leave c => exact Or.inr (Or.inl ⟨h, rfl⟩)
  | cancel c fut found =>
    by_cases hkey : n = fut.notifier ∧ id = fut.packetId
    · obtain ⟨rfl, rfl⟩ := hkey
      cases (entry_setEntry_self _ _ _).symm.trans h
    · exact Or.inr (Or.inl ⟨(entry_setEntry_ne hkey _).symm.trans h, rfl⟩)
  | notify n' id' =>
    by_cases hkey : n = n' ∧ id = id'
    · obtain ⟨rfl, rfl⟩ := hkey
      cases (entry_setEntry_self _ _ _).symm.trans h
    · exact Or.inr (Or.inl ⟨(entry_setEntry_ne hkey _).symm.trans h, rfl⟩)
  | sweep n' =>
    by_cases hn : n = n'
    · subst hn
      have hfailed : (v.entry n id).map (fun _ => NotifyResult.failed) = some r :=
        (if_pos rfl).symm.trans h
      obtain ⟨r', hr', hr⟩ := Option.map_eq_some_iff.mp hfailed
      exact Or.inl ⟨hr.symm, r', hr'⟩
    · refine Or.inr (Or.inl ⟨(if_neg hn).symm.trans h, ?_⟩)
      simp [Publishers.sweep, hn]
  | abandon => exact absurd rfl hl

/-- An entry behind a step was there before, or somebody has just registered. -/
theorem Step.entry_origin (hstep : Step v l v') {n : Notifier} {id : UInt16} {r : NotifyResult}
    (h : v'.entry n id = some r) : (∃ r', v.entry n id = some r') ∨ l = .register n id := by
  by_cases hl : l = .abandon
  · subst hl
    cases hstep with
    | abandon => exact Or.inl ⟨r, h⟩
  · rcases hstep.entry_cases hl h with
      ⟨-, hold⟩ | ⟨hold, -⟩ | ⟨hreg, -⟩ | ⟨-, c, fut, r', -, -, -, -, hold, -⟩
    · exact Or.inl hold
    · exact Or.inl ⟨r, hold⟩
    · exact Or.inr hreg
    · exact Or.inl ⟨r', hold⟩

/-- An entry that waits behind a step waited before, or somebody has just registered. -/
theorem Step.waiting_cases (hstep : Step v l v') {n : Notifier} {id : UInt16}
    {r : NotifyResult} (h : v'.entry n id = some r) (hwait : r.isWaiting = true) :
    (∃ r', v.entry n id = some r' ∧ r'.isWaiting = true) ∨ l = .register n id := by
  by_cases hl : l = .abandon
  · subst hl
    cases hstep with
    | abandon => exact Or.inl ⟨r, h, hwait⟩
  · rcases hstep.entry_cases hl h with
      ⟨rfl, -⟩ | ⟨hold, -⟩ | ⟨hreg, -⟩ | ⟨-, c, fut, r', -, -, -, -, hold, hwait'⟩
    · cases hwait
    · exact Or.inl ⟨r, hold, hwait⟩
    · exact Or.inr hreg
    · exact Or.inl ⟨r', hold, hwait'⟩

theorem setFuture_cases {c c' : Nat} {f : Option PublishFuture} {sent : Bool}
    {fut : PublishFuture} (hfut : (v.setFuture c' f sent).future c = some fut)
    (hsent : (v.setFuture c' f sent).sent c = true) :
    c = c' ∧ f = some fut ∧ sent = true ∨ v.future c = some fut ∧ v.sent c = true := by
  by_cases hc : c = c'
  · exact Or.inl ⟨hc, (if_pos hc).symm.trans hfut, (if_pos hc).symm.trans hsent⟩
  · exact Or.inr ⟨(if_neg hc).symm.trans hfut, (if_neg hc).symm.trans hsent⟩

/-- A call whose command is sent behind a step held its future before. -/
theorem Step.future_cases (hstep : Step v l v') {c : Nat} {fut : PublishFuture}
    (hfut : v'.future c = some fut) (hsent : v'.sent c = true) :
    ∃ old, v.future c = some old ∧ old.notifier = fut.notifier ∧ old.packetId = fut.packetId ∧
      (v.sent c = true ∨ l = .send c) := by
  cases hstep with
  | call p => exact ⟨fut, hfut, rfl, rfl, Or.inl hsent⟩
  | notify n id => exact ⟨fut, hfut, rfl, rfl, Or.inl hsent⟩
  | sweep n => exact ⟨fut, hfut, rfl, rfl, Or.inl hsent⟩
  | abandon => exact ⟨fut, hfut, rfl, rfl, Or.inl hsent⟩
  | send c' fut' found =>
    rcases setFuture_cases hfut hsent with ⟨rfl, ⟨⟩, -⟩ | ⟨hfut, hsent⟩
    · exact ⟨_, found, rfl, rfl, Or.inr rfl⟩
    · exact ⟨fut, hfut, rfl, rfl, Or.inl hsent⟩
  | store c' fut' w r found sent here waiting =>
    rcases setFuture_cases hfut hsent with ⟨rfl, ⟨⟩, -⟩ | ⟨hfut, hsent⟩
    · exact ⟨_, found, rfl, rfl, Or.inl sent⟩
    · exact ⟨fut, hfut, rfl, rfl, Or.inl hsent⟩
  | register c' n id =>
    rcases setFuture_cases hfut hsent with ⟨-, -, ⟨⟩⟩ | ⟨hfut, hsent⟩
    exact ⟨fut, hfut, rfl, rfl, Or.inl hsent⟩
  | leave c' =>
    rcases setFuture_cases hfut hsent with ⟨-, -, ⟨⟩⟩ | ⟨hfut, hsent⟩
    exact ⟨fut, hfut, rfl, rfl, Or.inl hsent⟩
  | cancel c' fut' found =>
    rcases setFuture_cases hfut hsent with ⟨-, -, ⟨⟩⟩ | ⟨hfut, hsent⟩
    exact ⟨fut, hfut, rfl, rfl, Or.inl hsent⟩

/-- Nothing waits in a swept map if nobody registers there, and nobody waits when the task ends
without a sweep. -/
theorem Swept.step (h : Swept v) (hstep : Step v l v')
    (hl : l = .abandon → ∀ n id r, v.entry n id = some r → r.isWaiting = false)
    (hlate : ∀ n id, l = .register n id → v.swept n = false) : Swept v' := by
  intro n id r hswept hr
  by_cases habandon : l = .abandon
  · subst habandon
    cases hstep
    exact hl rfl n id r hr
  rcases hstep.entry_cases habandon hr with
    ⟨rfl, -⟩ | ⟨hold, hsame⟩ | ⟨hreg, hsame⟩ | ⟨hsame, c, fut, r', -, -, -, -, hr', hwait⟩
  · rfl
  · exact h n id r (hsame ▸ hswept) hold
  · have := hlate n id hreg
    rw [hsame, this] at hswept
    cases hswept
  · have := h n id r' (hsame ▸ hswept) hr'
    rw [hwait] at this
    cases this

/-- Nothing has failed in a map that is still to be swept. -/
def Unfailed (v : Publishers) : Prop :=
  ∀ n id, v.swept n = false → v.entry n id ≠ some .failed

theorem Unfailed.step (h : Unfailed v) (hstep : Step v l v') : Unfailed v' := by
  intro n id hswept
  have hset : ∀ n' id' r, r ≠ some .failed → v.swept n = false →
      (v.setEntry n' id' r).entry n id ≠ some .failed := by
    intro n' id' r hr hs
    by_cases hkey : n = n' ∧ id = id'
    · obtain ⟨rfl, rfl⟩ := hkey
      rwa [entry_setEntry_self]
    · rw [entry_setEntry_ne hkey]
      exact h n id hs
  cases hstep with
  | call p => exact h n id hswept
  | register c n' id' => exact hset n' id' _ (by simp) hswept
  | send c fut found => exact h n id hswept
  | store c fut w r found sent here waiting => exact hset _ _ _ (by simp) hswept
  | leave c => exact h n id hswept
  | cancel c fut found => exact hset _ _ none (by simp) hswept
  | notify n' id' => exact hset n' id' none (by simp) hswept
  | sweep n' =>
    obtain ⟨hn, hs⟩ : n ≠ n' ∧ v.swept n = false := by
      simpa [Publishers.sweep] using hswept
    show (if n = n' then _ else v.entry n id) ≠ _
    rw [if_neg hn]
    exact h n id hs
  | abandon => cases hswept

/-- No call waits in a swept map if no call sends while its entry there waits. -/
theorem Resolved.step (h : Resolved v) (hstep : Step v l v') (hl : l ≠ .abandon)
    (hfree : ∀ n id, l = .register n id → v.Free n id)
    (hsend : ∀ c fut r, l = .send c → v.future c = some fut → v.swept fut.notifier = true →
      v.entry fut.notifier fut.packetId = some r → r.isWaiting = false) : Resolved v' := by
  intro c fut r hfut hsent hswept hr
  obtain ⟨old, hold, hn, hid, hlabel⟩ := hstep.future_cases hfut hsent
  rcases hstep.entry_cases hl hr with
    ⟨rfl, -⟩ | ⟨hentry, hsame⟩ | ⟨hreg, -⟩ |
      ⟨hsame, c', fut', r', hfut', hsent', hn', hid', hr', hwait⟩
  · rfl
  · rw [hsame] at hswept
    rw [← hn] at hswept hentry
    rw [← hid] at hentry
    rcases hlabel with hwas | hsending
    · exact h c old r hold hwas hswept hentry
    · exact hsend c old r hsending hold hswept hentry
  · exact absurd ⟨hn, hid⟩ (hfree _ _ hreg c old hold)
  · rw [hsame, ← hn'] at hswept
    rw [← hn', ← hid'] at hr'
    have := h c' fut' r' hfut' hsent' hswept hr'
    rw [hwait] at this
    cases this

end Publishers

end Lmc
