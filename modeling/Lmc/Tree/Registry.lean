import Lmc.Tree.Routing

/-!
# Who is registered

`Registry` is what the subscription tree is for: a list of the receivers registered under
each filter, and which filters are subscribed. `Registry.apply` says what each operation
of the task means for it, without a tree. The tree represents the registry through every
sequence of operations (`Represents.run`), so a message goes to the receivers that are
registered under a filter that matches its topic, once for each registration, and to no
others (`routing_exact`).
-/

namespace Lmc

/-! ## Registries -/

structure Registry where
  subscribed : Str → Bool
  entries : List (Str × SubscriptionKind)

/-- The operations of the task on its tree. The receiving ends may have changed in any way
between two dispatches. -/
inductive TreeOp where
  /-- `get_or_create`, then `set_subscribed` and `add` -/
  | accept (filter : Str) (kind : SubscriptionKind)
  /-- `get`, then `add` to the leaf that was found -/
  | add (filter : Str) (kind : SubscriptionKind)
  /-- `get`, then `remove_fast_callback` -/
  | removeCallback (filter : Str) (id : UInt32)
  | clear (filter : Str)
  | dispatch (msg : IncomingPublishPacket) (mail : Mail)

/-- A callback with this identifier. -/
def SubscriptionKind.hasId (id : UInt32) : SubscriptionKind → Bool
  | .fastCallback cb => cb.id == id
  | _ => false

/-- The receiver of a closed channel. -/
def SubscriptionKind.isGone (closed : Nat → Bool) : SubscriptionKind → Bool
  | .lossy queue | .unbounded queue => closed queue
  | _ => false

/-- Counting the elements with a key in a list is counting them key by key. -/
theorem countP_mem_eq_sum {α κ : Type} [BEq κ] [LawfulBEq κ] (key : α → κ) (q : α → Bool)
    (l : List α) : ∀ {keys : List κ}, keys.Nodup →
      l.countP (fun e => keys.contains (key e) && q e) =
        (keys.map fun k => l.countP fun e => key e == k && q e).sum := by
  intro keys
  induction keys with
  | nil => simp
  | cons k keys ih =>
    intro hnodup
    obtain ⟨hk, hkeys⟩ := List.nodup_cons.mp hnodup
    rw [List.map_cons, List.sum_cons, ← ih hkeys]
    clear ih
    induction l with
    | nil => rfl
    | cons e l ihl =>
      simp only [List.countP_cons, ihl]
      by_cases he : key e = k
      · have hnot : keys.contains (key e) = false := by simpa [he] using hk
        simp [he, hk]
        omega
      · simp [he]
        omega

/-- The operation does not remove the entry. -/
def TreeOp.keeps (e : Str × SubscriptionKind) : TreeOp → Bool
  | .removeCallback filter id => !(e.1 == filter && e.2.hasId id)
  | .clear filter => e.1 != filter
  | .dispatch msg mail => !(filterMatches e.1 msg.topic && e.2.isGone mail.closed)
  | _ => true

namespace Registry

def empty : Registry := ⟨fun _ => false, []⟩

/-- A receiver can be registered, unless it is none or its identifier is taken. -/
def admits (filter : Str) (kind : SubscriptionKind) (r : Registry) : Bool :=
  match kind with
  | .void => false
  | .fastCallback cb => !r.entries.any fun e => e.1 == filter && e.2.hasId cb.id
  | _ => true

def register (filter : Str) (kind : SubscriptionKind) (r : Registry) : Registry :=
  if r.admits filter kind then { r with entries := r.entries ++ [(filter, kind)] } else r

def setSubscribed (filter : Str) (value : Bool) (r : Registry) : Registry :=
  { r with subscribed := fun f => if f = filter then value else r.subscribed f }

def keep (p : Str × SubscriptionKind → Bool) (r : Registry) : Registry :=
  { r with entries := r.entries.filter p }

/-- What an operation means. `found` says for which filters `get` finds a leaf. -/
def apply (found : Str → Bool) (op : TreeOp) (r : Registry) : Registry :=
  match op with
  | .accept filter kind =>
    if validFilter filter then (r.setSubscribed filter true).register filter kind else r
  | .add filter kind => if found filter then r.register filter kind else r
  | .removeCallback filter id => r.keep fun e => !(e.1 == filter && e.2.hasId id)
  | .clear filter =>
    if r.subscribed filter then (r.setSubscribed filter false).keep fun e => e.1 != filter else r
  | .dispatch msg mail =>
    r.keep fun e => !(filterMatches e.1 msg.topic && e.2.isGone mail.closed)

/-- How often a receiver is registered under filters that match a topic. -/
def registrations (r : Registry) (kind : SubscriptionKind) (topic : Str) : Nat :=
  r.entries.countP fun e => filterMatches e.1 topic && e.2 == kind

/-- How often a receiver is registered under the filter with these levels. -/
def countAt (r : Registry) (ls : List Str) (kind : SubscriptionKind) : Nat :=
  r.entries.countP fun e => levels e.1 == ls && e.2 == kind

variable {r : Registry} {filter : Str} {ls : List Str} {kind kind' : SubscriptionKind}

theorem mem_register {e : Str × SubscriptionKind} (h : e ∈ (r.register filter kind).entries) :
    e ∈ r.entries ∨ e = (filter, kind) := by
  unfold register at h
  split at h
  · exact (List.mem_append.mp h).imp_right List.mem_singleton.mp
  · exact Or.inl h

theorem mem_register_self (h : r.admits filter kind = true) :
    (filter, kind) ∈ (r.register filter kind).entries := by
  rw [register, if_pos h]
  exact List.mem_append_right _ List.mem_cons_self

theorem subset_register : r.entries ⊆ (r.register filter kind).entries := by
  unfold register
  split
  · exact List.subset_append_left _ _
  · exact List.Subset.refl _

/-- A receiver that is registered behind an operation was so before, or was just added. -/
theorem mem_apply {found : Str → Bool} {op : TreeOp} {e : Str × SubscriptionKind}
    (h : e ∈ (r.apply found op).entries) :
    e ∈ r.entries ∨ op = .accept e.1 e.2 ∨ op = .add e.1 e.2 := by
  cases op with
  | accept filter kind =>
    rw [apply] at h
    split at h
    · rcases mem_register h with hold | rfl
      · exact Or.inl hold
      · exact Or.inr (Or.inl rfl)
    · exact Or.inl h
  | add filter kind =>
    rw [apply] at h
    split at h
    · rcases mem_register h with hold | rfl
      · exact Or.inl hold
      · exact Or.inr (Or.inr rfl)
    · exact Or.inl h
  | removeCallback filter id => exact Or.inl (List.mem_of_mem_filter h)
  | clear filter =>
    rw [apply] at h
    split at h
    · exact Or.inl (List.mem_of_mem_filter h)
    · exact Or.inl h
  | dispatch msg mail => exact Or.inl (List.mem_of_mem_filter h)

/-- A receiver stays registered unless the operation is about it. -/
theorem mem_apply_of_mem {found : Str → Bool} {op : TreeOp} {e : Str × SubscriptionKind}
    (h : e ∈ r.entries) (hkeeps : op.keeps e = true) : e ∈ (r.apply found op).entries := by
  cases op with
  | accept filter kind =>
    rw [apply]
    split
    · exact subset_register h
    · exact h
  | add filter kind =>
    rw [apply]
    split
    · exact subset_register h
    · exact h
  | removeCallback filter id => exact List.mem_filter.mpr ⟨h, hkeeps⟩
  | clear filter =>
    rw [apply]
    split
    · exact List.mem_filter.mpr ⟨h, hkeeps⟩
    · exact h
  | dispatch msg mail => exact List.mem_filter.mpr ⟨h, hkeeps⟩

theorem levels_beq (f f' : Str) : (levels f == levels f') = (f == f') := by
  by_cases h : f = f'
  · simp [h]
  · have hne : levels f ≠ levels f' := fun hl => h (levels_injective hl)
    simp [h, hne]

theorem countAt_register : (r.register filter kind).countAt ls kind' =
    r.countAt ls kind' +
      if r.admits filter kind = true ∧ ls = levels filter ∧ kind' = kind then 1 else 0 := by
  unfold register
  split
  · rename_i hadmits
    rw [countAt, List.countP_append, List.countP_singleton, countAt]
    congr 1
    refine if_congr ?_ rfl rfl
    rw [Bool.and_eq_true, beq_iff_eq, beq_iff_eq, eq_comm, eq_comm (a := kind)]
    simp [hadmits]
  · rename_i hnot
    simp [hnot]

@[simp] theorem subscribed_register : (r.register filter kind).subscribed = r.subscribed := by
  unfold register
  split <;> rfl

theorem register_setSubscribed (value : Bool) :
    (r.setSubscribed filter value).register filter kind =
      (r.register filter kind).setSubscribed filter value := by
  have hsame : (r.setSubscribed filter value).admits filter kind = r.admits filter kind := rfl
  unfold register
  rw [hsame]
  split <;> rfl

theorem countAt_keep {p : Str × SubscriptionKind → Bool} {g : List Str → SubscriptionKind → Bool}
    (hp : ∀ e, p e = g (levels e.1) e.2) :
    (r.keep p).countAt ls kind = if g ls kind then r.countAt ls kind else 0 := by
  rw [countAt, keep, List.countP_filter]
  split
  · rename_i hg
    refine List.countP_congr fun e _ => ?_
    rw [hp, Bool.and_eq_true, Bool.and_eq_true, beq_iff_eq, beq_iff_eq]
    refine ⟨fun h => h.1, fun h => ⟨h, ?_⟩⟩
    rw [h.1, h.2]
    exact hg
  · rename_i hg
    rw [List.countP_eq_zero]
    intro e _
    rw [hp, Bool.and_eq_true, Bool.and_eq_true, beq_iff_eq, beq_iff_eq]
    rintro ⟨⟨hls, hkind⟩, htrue⟩
    rw [hls, hkind] at htrue
    exact hg htrue

/-- An identifier is taken if a callback with it is registered. -/
theorem any_hasId_iff {id : UInt32} : (r.entries.any fun e => e.1 == filter && e.2.hasId id) =
    true ↔ ∃ cb : FastCallback, cb.id = id ∧ 0 < r.countAt (levels filter) (.fastCallback cb) := by
  simp only [List.any_eq_true, Bool.and_eq_true, beq_iff_eq, countAt, List.countP_pos_iff,
    levels_beq]
  refine ⟨?_, ?_⟩
  · rintro ⟨⟨f, kind⟩, hmem, rfl, hid⟩
    cases kind with
    | fastCallback cb => exact ⟨cb, beq_iff_eq.mp hid, _, hmem, rfl, rfl⟩
    | _ => cases hid
  · rintro ⟨cb, hid, ⟨f, kind⟩, hmem, rfl, rfl⟩
    exact ⟨_, hmem, rfl, beq_iff_eq.mpr hid⟩

/-- The registrations under the filters that match are those under each of them. -/
theorem registrations_eq_sum (r : Registry) (kind : SubscriptionKind) (topic : Str) :
    r.registrations kind topic =
      ((matchingFilters (levels topic)).map fun ls => r.countAt ls kind).sum := by
  have hsum := countP_mem_eq_sum (fun e : Str × SubscriptionKind => levels e.1)
    (fun e => e.2 == kind) r.entries (nodup_matchingFilters (levels topic))
  refine Eq.trans (List.countP_congr fun e _ => ?_) hsum
  rw [Bool.and_eq_true, Bool.and_eq_true, List.contains_iff_mem, mem_matchingFilters]
  rfl

end Registry

/-! ## Leaves and their receivers -/

namespace Subscription

/-- How often a receiver is registered in a leaf. -/
def count (sub : Subscription) : SubscriptionKind → Nat
  | .void => 0
  | .lossy queue => sub.lossyQueue.count queue
  | .unbounded queue => sub.unboundedQueue.count queue
  | .fastCallback cb => sub.fastCallbacks.count cb

variable {sub sub' : Subscription} {kind kind' : SubscriptionKind}

/-- A leaf in which the receiver can be registered. -/
def Admits (sub : Subscription) : SubscriptionKind → Prop
  | .void => False
  | .fastCallback cb => ¬ ∃ c ∈ sub.fastCallbacks, c.id = cb.id
  | _ => True

theorem ordered_add (hord : Ordered sub.fastCallbacks) (kind : SubscriptionKind) :
    Ordered (sub.add kind).fastCallbacks := by
  cases kind with
  | fastCallback cb => exact (addFastCallback_spec sub cb hord).1
  | _ => exact hord

theorem count_filter_closed (closed : Nat → Bool) (queue : Nat) (l : List Nat) :
    (l.filter fun ch => !closed ch).count queue = if closed queue then 0 else l.count queue := by
  split
  · rename_i hclosed
    rw [List.count_eq_zero]
    simp [hclosed]
  · rename_i hopen
    exact List.count_filter (by simpa using hopen)

theorem count_of_pruned {closed : Nat → Bool} (h : sub.Pruned closed sub') :
    sub'.count kind = if kind.isGone closed then 0 else sub.count kind := by
  cases kind with
  | void => rfl
  | lossy queue => exact (h.lossyQueue.count_eq queue).trans (count_filter_closed closed queue _)
  | unbounded queue =>
    exact (h.unboundedQueue.count_eq queue).trans (count_filter_closed closed queue _)
  | fastCallback cb => exact congrArg (List.count cb) h.fastCallbacks

theorem count_removeFastCallback (hord : Ordered sub.fastCallbacks) (id : UInt32) :
    (sub.removeFastCallback id).count kind = if kind.hasId id then 0 else sub.count kind := by
  rw [removeFastCallback_spec id sub hord]
  cases kind with
  | fastCallback cb =>
    show (sub.fastCallbacks.filter fun c => c.id != id).count cb = if cb.id == id then 0 else _
    split
    · rename_i hid
      rw [List.count_eq_zero]
      simp [beq_iff_eq.mp hid]
    · rename_i hid
      exact List.count_filter (by simpa using hid)
  | _ => rfl

theorem queues_addFastCallback (sub : Subscription) (cb : FastCallback) :
    (sub.addFastCallback cb).lossyQueue = sub.lossyQueue ∧
      (sub.addFastCallback cb).unboundedQueue = sub.unboundedQueue := by
  unfold addFastCallback
  split
  · exact ⟨rfl, rfl⟩
  · split <;> exact ⟨rfl, rfl⟩

/-- The flag and the receivers of a leaf do not depend on each other. -/
theorem add_setSubscribed (sub : Subscription) (kind : SubscriptionKind) :
    sub.setSubscribed.add kind = (sub.add kind).setSubscribed := by
  cases kind with
  | fastCallback cb =>
    have hsame : sub.setSubscribed.fastCallbacks = sub.fastCallbacks := rfl
    show addFastCallback _ cb = (addFastCallback sub cb).setSubscribed
    unfold addFastCallback
    rw [hsame]
    split
    · rfl
    · cases binarySearchByKey cb.id sub.fastCallbacks <;> rfl
  | _ => rfl

/-- A receiver that is added counts once, if the leaf admits it. -/
theorem count_add (hord : Ordered sub.fastCallbacks) {admitted : Bool}
    (hadmitted : admitted = true ↔ sub.Admits kind) :
    (sub.add kind).count kind' =
      sub.count kind' + if admitted = true ∧ kind' = kind then 1 else 0 := by
  have hadded : ∀ l : List Nat, ∀ queue queue' : Nat, (l ++ [queue]).count queue' =
      l.count queue' + if queue' = queue then 1 else 0 := by
    intro l queue queue'
    rw [List.count_append]
    by_cases h : queue' = queue
    · simp [h]
    · simp [h, List.count_eq_zero]
  cases kind with
  | void =>
    have hnot : admitted ≠ true := fun h => hadmitted.mp h
    simp [add, hnot]
  | lossy queue =>
    rw [hadmitted.mpr trivial]
    cases kind' with
    | lossy queue' =>
      simp only [true_and, SubscriptionKind.lossy.injEq]
      exact hadded sub.lossyQueue queue queue'
    | _ => simp [add, count]
  | unbounded queue =>
    rw [hadmitted.mpr trivial]
    cases kind' with
    | unbounded queue' =>
      simp only [true_and, SubscriptionKind.unbounded.injEq]
      exact hadded sub.unboundedQueue queue queue'
    | _ => simp [add, count]
  | fastCallback cb =>
    have hspec := (addFastCallback_spec sub cb hord).2
    cases kind' with
    | fastCallback cb' =>
      split at hspec
      · rename_i htaken
        have hnot : admitted ≠ true := fun h => hadmitted.mp h htaken
        simp [add, hspec, hnot]
      · rename_i hfree
        rw [hadmitted.mpr hfree]
        show (sub.addFastCallback cb).fastCallbacks.count cb' = _
        rw [hspec.count_eq, List.count_cons]
        by_cases h : cb' = cb
        · simp [h, count]
        · simp [h, Ne.symm h, count]
    | _ =>
      obtain ⟨hlossy, hunbounded⟩ := sub.queues_addFastCallback cb
      simp [add, count, hlossy, hunbounded]

end Subscription

/-! ## The tree represents the registry -/

namespace SubscriptionSet

/-- `get` finds a leaf. -/
def finds (set : SubscriptionSet) (filter : Str) : Bool :=
  match set.get filter with
  | .ok (some _) => true
  | _ => false

def apply (op : TreeOp) (set : SubscriptionSet) : SubscriptionSet :=
  match op with
  | .accept filter kind => (set.getOrCreate (fun leaf => leaf.setSubscribed.add kind) filter).2
  | .add filter kind => set.update (Subscription.add kind) filter
  | .removeCallback filter id => set.update (Subscription.removeFastCallback id) filter
  | .clear filter => (set.clear filter).2
  | .dispatch msg mail => ((set.dispatch msg).run mail).1

end SubscriptionSet

/-- The tree and the registry behind a sequence of operations. -/
def TreeOp.run (ops : List TreeOp) : SubscriptionSet × Registry :=
  ops.foldl (fun s op => (s.1.apply op, s.2.apply s.1.finds op)) (default, .empty)

open SubscriptionSetNode Subscription

structure Represents (r : Registry) (set : SubscriptionSet) : Prop where
  clean : set.root.Clean
  ordered : ∀ ls, Ordered (set.root.leaf ls).fastCallbacks
  subscribed : ∀ filter, r.subscribed filter = (set.root.leaf (levels filter)).subscribed
  entries : ∀ ls kind, r.countAt ls kind = (set.root.leaf ls).count kind

namespace Represents

variable {r r' : Registry} {set set' : SubscriptionSet} {filter : Str}

theorem empty : Represents .empty default where
  clean := clean_default
  ordered ls := by
    show Ordered ((default : SubscriptionSetNode).leaf ls).fastCallbacks
    rw [leaf_default]
    exact List.Pairwise.nil
  subscribed filter := by
    show false = ((default : SubscriptionSetNode).leaf _).subscribed
    rw [leaf_default, subscribed_default]
  entries ls kind := by
    show 0 = ((default : SubscriptionSetNode).leaf ls).count kind
    rw [leaf_default]
    cases kind <;> rfl

/-- No leaf has changed. -/
theorem of_leaf (h : Represents r set) (hclean : set'.root.Clean)
    (hleaf : ∀ ls, set'.root.leaf ls = set.root.leaf ls) : Represents r set' where
  clean := hclean
  ordered ls := by
    rw [hleaf]
    exact h.ordered ls
  subscribed filter := by
    rw [hleaf]
    exact h.subscribed filter
  entries ls kind := by
    rw [hleaf]
    exact h.entries ls kind

/-- One leaf has changed. -/
theorem of_change (h : Represents r set) (hclean : set'.root.Clean) {sub : Subscription}
    (hself : set'.root.leaf (levels filter) = sub)
    (hother : ∀ ls, ls ≠ levels filter → set'.root.leaf ls = set.root.leaf ls)
    (hord : Ordered sub.fastCallbacks)
    (hsub : ∀ f, r'.subscribed f = if f = filter then sub.subscribed else r.subscribed f)
    (hcount : ∀ ls kind, r'.countAt ls kind =
      if ls = levels filter then sub.count kind else r.countAt ls kind) : Represents r' set' where
  clean := hclean
  ordered ls := by
    by_cases hls : ls = levels filter
    · rw [hls, hself]
      exact hord
    · rw [hother ls hls]
      exact h.ordered ls
  subscribed f := by
    rw [hsub]
    split
    · rename_i heq
      rw [heq, hself]
    · rename_i hne
      rw [hother _ fun hl => hne (levels_injective hl)]
      exact h.subscribed f
  entries ls kind := by
    rw [hcount]
    split
    · rename_i heq
      rw [heq, hself]
    · rename_i hne
      rw [hother ls hne]
      exact h.entries ls kind

/-- The leaf admits a receiver if the registry does. -/
theorem admits (h : Represents r set) (filter : Str) (kind : SubscriptionKind) :
    r.admits filter kind = true ↔ (set.root.leaf (levels filter)).Admits kind := by
  cases kind with
  | void => simp [Registry.admits, Admits]
  | lossy queue => simp [Registry.admits, Admits]
  | unbounded queue => simp [Registry.admits, Admits]
  | fastCallback cb =>
    show (!r.entries.any _) = true ↔ ¬ ∃ c ∈ (set.root.leaf _).fastCallbacks, c.id = cb.id
    rw [Bool.not_eq_true', ← Bool.not_eq_true, Registry.any_hasId_iff, not_iff_not]
    refine exists_congr fun c => ?_
    rw [h.entries, and_comm]
    exact and_congr_left fun _ => List.count_pos_iff

/-- A receiver is registered in the leaf of its filter. -/
theorem countAt_register (h : Represents r set) (filter : Str) (kind : SubscriptionKind)
    (ls : List Str) (kind' : SubscriptionKind) :
    (r.register filter kind).countAt ls kind' =
      if ls = levels filter then ((set.root.leaf (levels filter)).add kind).count kind'
      else r.countAt ls kind' := by
  rw [Registry.countAt_register]
  by_cases hls : ls = levels filter
  · rw [if_pos hls, count_add (h.ordered _) (h.admits filter kind), hls, h.entries]
    simp
  · simp [hls]

theorem accept (h : Represents r set) (filter : Str) (kind : SubscriptionKind) :
    Represents (r.apply set.finds (.accept filter kind)) (set.apply (.accept filter kind)) := by
  have hclean : (set.apply (.accept filter kind)).root.Clean :=
    clean_getOrCreate _ (levels filter) set.root h.clean
  have hother : ∀ ls, ls ≠ levels filter →
      (set.apply (.accept filter kind)).root.leaf ls = set.root.leaf ls :=
    fun ls hls => leaf_getOrCreate_ne _ (levels filter) ls set.root hls
  cases hvalid : validFilter filter with
  | true =>
    have hmem : recursiveWildcard ∉ (levels filter).dropLast := by
      simpa [validFilter] using hvalid
    have hself := leaf_getOrCreate_self (fun leaf => leaf.setSubscribed.add kind)
      (levels filter) set.root (levels_ne_nil filter) hmem
    rw [add_setSubscribed] at hself
    rw [Registry.apply, if_pos hvalid, Registry.register_setSubscribed]
    refine h.of_change hclean hself hother ?_ (fun f => ?_) fun ls kind' => ?_
    · exact ordered_add (h.ordered _) kind
    · show (if f = filter then true else (r.register filter kind).subscribed f) = _
      rw [Registry.subscribed_register]
      rfl
    · refine (h.countAt_register filter kind ls kind').trans (if_congr Iff.rfl ?_ rfl)
      cases kind' <;> rfl
  | false =>
    have hmem : recursiveWildcard ∈ (levels filter).dropLast := by
      simpa [validFilter] using hvalid
    rw [Registry.apply, if_neg (by simp [hvalid])]
    refine h.of_leaf hclean fun ls => ?_
    by_cases hls : ls = levels filter
    · rw [hls, leaf_of_mem _ _ hmem, leaf_of_mem _ _ hmem]
    · exact hother ls hls

theorem add (h : Represents r set) (filter : Str) (kind : SubscriptionKind) :
    Represents (r.apply set.finds (.add filter kind)) (set.apply (.add filter kind)) := by
  have hclean : (set.apply (.add filter kind)).root.Clean :=
    clean_update _ (levels filter) set.root h.clean
  have hother : ∀ ls, ls ≠ levels filter →
      (set.apply (.add filter kind)).root.leaf ls = set.root.leaf ls :=
    fun ls hls => leaf_update_ne _ (levels filter) ls set.root hls
  have hget : (set.apply (.add filter kind)).root.get (levels filter) = _ :=
    get_update_self (Subscription.add kind) (levels filter) set.root
  match hfound : set.root.get (levels filter) with
  | .ok (some sub) =>
    have hself : (set.apply (.add filter kind)).root.leaf (levels filter) =
        (set.root.leaf (levels filter)).add kind := by
      rw [leaf, hget, leaf, hfound]
      rfl
    have hfinds : set.finds filter = true := by
      rw [SubscriptionSet.finds, SubscriptionSet.get, hfound]
    rw [Registry.apply, if_pos hfinds]
    refine h.of_change hclean hself hother ?_ (fun f => ?_) (h.countAt_register filter kind)
    · exact ordered_add (h.ordered _) kind
    · rw [Registry.subscribed_register, subscribed_add, ← h.subscribed]
      split
      · rename_i heq
        rw [heq]
      · rfl
  | .ok none | .error _ =>
    have hfinds : set.finds filter = false := by
      rw [SubscriptionSet.finds, SubscriptionSet.get, hfound]
    rw [Registry.apply, if_neg (by simp [hfinds])]
    refine h.of_leaf hclean fun ls => ?_
    by_cases hls : ls = levels filter
    · rw [hls, leaf, hget, leaf, hfound]
      rfl
    · exact hother ls hls

theorem removeCallback (h : Represents r set) (filter : Str) (id : UInt32) :
    Represents (r.apply set.finds (.removeCallback filter id))
      (set.apply (.removeCallback filter id)) := by
  have hclean : (set.apply (.removeCallback filter id)).root.Clean :=
    clean_update _ (levels filter) set.root h.clean
  have hself := leaf_update_self (f := removeFastCallback id) rfl (levels filter) set.root
  have hord := h.ordered (levels filter)
  refine h.of_change hclean hself (fun ls hls => leaf_update_ne _ _ ls _ hls) ?_ (fun f => ?_) ?_
  · rw [removeFastCallback_spec id _ hord]
    exact hord.filter _
  · rw [subscribed_removeFastCallback, ← h.subscribed]
    show r.subscribed f = _
    split
    · rename_i heq
      rw [heq]
    · rfl
  · intro ls kind
    rw [Registry.apply, Registry.countAt_keep
      (g := fun ls kind => !(ls == levels filter && kind.hasId id))
      fun e => by rw [Registry.levels_beq], count_removeFastCallback hord]
    by_cases hls : ls = levels filter
    · rw [if_pos hls, ← h.entries, hls]
      cases kind.hasId id <;> simp
    · simp [hls]

theorem clear (h : Represents r set) (filter : Str) :
    Represents (r.apply set.finds (.clear filter)) (set.apply (.clear filter)) := by
  cases hsub : r.subscribed filter with
  | true =>
    have hleaf : set.isSubscribed filter = true := by
      rw [SubscriptionSet.isSubscribed, isSubscribed_eq_leaf, ← h.subscribed, hsub]
    have hset : set.apply (.clear filter) = set.update Subscription.clear filter :=
      SubscriptionSet.clear_of_subscribed hleaf
    have hclean : (set.update Subscription.clear filter).root.Clean :=
      clean_update _ (levels filter) set.root h.clean
    have hself := leaf_update_self (f := Subscription.clear) rfl (levels filter) set.root
    rw [hset, Registry.apply, if_pos hsub]
    refine h.of_change hclean hself (fun ls hls => leaf_update_ne _ _ ls _ hls) ?_ (fun f => rfl) ?_
    · exact List.Pairwise.nil
    · intro ls kind
      rw [Registry.countAt_keep (g := fun ls _ => ls != levels filter)
        fun e => by rw [bne, bne, Registry.levels_beq]]
      by_cases hls : ls = levels filter
      · rw [if_pos hls, if_neg (by simp [hls])]
        cases kind <;> rfl
      · rw [if_neg hls, if_pos (by simpa using hls)]
        rfl
  | false =>
    have hset : set.apply (.clear filter) = set := by
      refine SubscriptionSet.clear_of_ne_true ?_
      rw [ne_eq, SubscriptionSet.clear_true_iff, SubscriptionSet.isSubscribed,
        isSubscribed_eq_leaf, ← h.subscribed, hsub]
      exact Bool.noConfusion
    rw [hset, Registry.apply, if_neg (by simp [hsub])]
    exact h

theorem dispatch (h : Represents r set) (msg : IncomingPublishPacket) (mail : Mail) :
    Represents (r.apply set.finds (.dispatch msg mail)) (set.apply (.dispatch msg mail)) := by
  have hleaves : Dispatched mail.closed (levels msg.topic) set.root.leaf
      (set.apply (.dispatch msg mail)).root.leaf :=
    dispatched_dispatch msg _ _ _ (levels_ne_nil msg.topic)
  refine ⟨clean_dispatch msg _ _ _ h.clean, fun ls => ?_, fun f => ?_, fun ls kind => ?_⟩
  · rw [hleaves ls]
    split <;> exact h.ordered ls
  · show r.subscribed f = _
    rw [h.subscribed, hleaves (levels f)]
    split <;> rfl
  · rw [Registry.apply, Registry.countAt_keep
      (p := fun e => !(filterMatches e.1 msg.topic && e.2.isGone mail.closed))
      (g := fun ls kind => !(levelsMatch ls (levels msg.topic) && kind.isGone mail.closed))
      fun e => rfl, h.entries, hleaves ls]
    cases hmatch : levelsMatch ls (levels msg.topic) with
    | true =>
      rw [if_pos rfl, count_of_pruned (Subscription.pruned_forget _ _)]
      cases kind.isGone mail.closed <;> rfl
    | false => rfl

theorem apply (h : Represents r set) (op : TreeOp) :
    Represents (r.apply set.finds op) (set.apply op) := by
  cases op with
  | accept filter kind => exact h.accept filter kind
  | add filter kind => exact h.add filter kind
  | removeCallback filter id => exact h.removeCallback filter id
  | clear filter => exact h.clear filter
  | dispatch msg mail => exact h.dispatch msg mail

/-- The tree represents the registry behind every sequence of operations. -/
theorem run (ops : List TreeOp) : Represents (TreeOp.run ops).2 (TreeOp.run ops).1 := by
  have hfold : ∀ (ops : List TreeOp) (s : SubscriptionSet × Registry), Represents s.2 s.1 →
      Represents (ops.foldl (fun s op => (s.1.apply op, s.2.apply s.1.finds op)) s).2
        (ops.foldl (fun s op => (s.1.apply op, s.2.apply s.1.finds op)) s).1 := by
    intro ops
    induction ops with
    | nil => exact fun s hs => hs
    | cons op ops ih => exact fun s hs => ih _ (hs.apply op)
  exact hfold ops _ empty

end Represents

/-! ## Routing -/

/-- Counting in the concatenation of the leaves that match. -/
theorem Represents.count_flatMap {r : Registry} {set : SubscriptionSet} (h : Represents r set)
    {α : Type} [BEq α] (receivers : Subscription → List α) (kind : α → SubscriptionKind)
    (hkind : ∀ sub a, sub.count (kind a) = (receivers sub).count a) (topic : Str) (a : α) :
    (((matchingFilters (levels topic)).map set.root.leaf).flatMap receivers).count a =
      r.registrations (kind a) topic := by
  rw [Registry.registrations_eq_sum, List.flatMap_map, List.count_flatMap]
  refine congrArg List.sum (List.map_congr_left fun ls _ => ?_)
  rw [h.entries, hkind]
  rfl

/-- A message is handed to the receivers that are registered under the chosen filters, once
for each registration. A channel is either bounded or not. -/
structure Routed (chosen : Str → Bool) (r : Registry) (msg : IncomingPublishPacket)
    (mail mail' : Mail) : Prop where
  calls : ∃ called : List FastCallback, mail'.calls = mail.calls ++ called.map (·, msg) ∧
    ∀ cb, called.count cb = r.entries.countP fun e => chosen e.1 && e.2 == .fastCallback cb
  unbounded : ∀ queue, (∀ filter, (filter, .lossy queue) ∉ r.entries) →
    mail'.channels queue = (mail.channels queue).offer
      (r.entries.countP fun e => chosen e.1 && e.2 == .unbounded queue) msg
  lossy : ∀ queue, (∀ filter, (filter, .unbounded queue) ∉ r.entries) →
    mail'.channels queue = (mail.channels queue).tryOffer
      (r.entries.countP fun e => chosen e.1 && e.2 == .lossy queue) msg

/-- Only the choice among the filters of the registry matters. -/
theorem Routed.congr {chosen chosen' : Str → Bool} {r : Registry} {msg : IncomingPublishPacket}
    {mail mail' : Mail} (h : Routed chosen r msg mail mail')
    (hsame : ∀ e ∈ r.entries, chosen e.1 = chosen' e.1) : Routed chosen' r msg mail mail' := by
  have hcount : ∀ kind : SubscriptionKind, (r.entries.countP fun e => chosen' e.1 && e.2 == kind) =
      r.entries.countP fun e => chosen e.1 && e.2 == kind := by
    intro kind
    refine List.countP_congr fun e he => ?_
    rw [hsame e he]
  obtain ⟨called, hcalls, hcounts⟩ := h.calls
  refine ⟨⟨called, hcalls, fun cb => ?_⟩, fun queue hqueue => ?_, fun queue hqueue => ?_⟩
  · rw [hcount, hcounts]
  · rw [hcount, h.unbounded queue hqueue]
  · rw [hcount, h.lossy queue hqueue]

/-- A receiver that is registered nowhere is in no leaf. -/
theorem Represents.count_eq_zero {r : Registry} {set : SubscriptionSet} (h : Represents r set)
    {kind : SubscriptionKind} (hnone : ∀ filter, (filter, kind) ∉ r.entries) (ls : List Str) :
    (set.root.leaf ls).count kind = 0 := by
  rw [← h.entries, Registry.countAt, List.countP_eq_zero]
  rintro ⟨filter, kind'⟩ hmem hentry
  rw [Bool.and_eq_true, beq_iff_eq, beq_iff_eq] at hentry
  exact hnone filter (hentry.2 ▸ hmem)

/-- A tree that represents a registry hands a message out to those who are registered. -/
theorem Represents.routed {r : Registry} {set : SubscriptionSet} (h : Represents r set)
    (msg : IncomingPublishPacket) (mail : Mail) :
    Routed (filterMatches · msg.topic) r msg mail ((set.dispatch msg).run mail).2 := by
  have hdelivered := delivered_dispatch msg (levels msg.topic) set.root mail
    (levels_ne_nil msg.topic) h.clean
  refine ⟨⟨_, hdelivered.calls, fun cb => ?_⟩, fun queue hqueue => ?_, fun queue hqueue => ?_⟩
  · exact h.count_flatMap Subscription.fastCallbacks .fastCallback (fun _ _ => rfl) _ cb
  · have hcount := h.count_flatMap Subscription.unboundedQueue .unbounded (fun _ _ => rfl)
      msg.topic queue
    rw [← Registry.registrations, ← hcount]
    refine hdelivered.queue queue fun sub hsub => ?_
    obtain ⟨ls, -, rfl⟩ := List.mem_map.mp hsub
    exact List.count_eq_zero.mp (h.count_eq_zero hqueue ls)
  · have hcount := h.count_flatMap Subscription.lossyQueue .lossy (fun _ _ => rfl)
      msg.topic queue
    rw [← Registry.registrations, ← hcount]
    refine hdelivered.lossy queue fun sub hsub => ?_
    obtain ⟨ls, -, rfl⟩ := List.mem_map.mp hsub
    exact List.count_eq_zero.mp (h.count_eq_zero hqueue ls)

theorem Represents.routes {r : Registry} {set : SubscriptionSet} (h : Represents r set)
    (msg : IncomingPublishPacket) (mail : Mail) :
    (∃ called : List FastCallback,
      ((set.dispatch msg).run mail).2.calls = mail.calls ++ called.map (·, msg) ∧
      ∀ cb, called.count cb = r.registrations (.fastCallback cb) msg.topic) ∧
    ∀ queue, (∀ filter, (filter, .lossy queue) ∉ r.entries) →
      ((set.dispatch msg).run mail).2.channels queue =
        (mail.channels queue).offer (r.registrations (.unbounded queue) msg.topic) msg :=
  ⟨(h.routed msg mail).calls, (h.routed msg mail).unbounded⟩

/-- Behind every sequence of operations on the tree, for every message: each callback is
called once for each of its registrations under a filter that matches the topic, and no
other callback is called; each unbounded queue that is open gets the message once for each
of its registrations under such a filter, and no other one does. -/
theorem routing_exact (ops : List TreeOp) (msg : IncomingPublishPacket) (mail : Mail) :
    (∃ called : List FastCallback,
      (((TreeOp.run ops).1.dispatch msg).run mail).2.calls = mail.calls ++ called.map (·, msg) ∧
      ∀ cb, called.count cb = (TreeOp.run ops).2.registrations (.fastCallback cb) msg.topic) ∧
    ∀ queue, (∀ filter, (filter, .lossy queue) ∉ (TreeOp.run ops).2.entries) →
      (((TreeOp.run ops).1.dispatch msg).run mail).2.channels queue =
        (mail.channels queue).offer
          ((TreeOp.run ops).2.registrations (.unbounded queue) msg.topic) msg :=
  (Represents.run ops).routes msg mail

/-- A message with the topic `a/b`. -/
def sampleMessage : IncomingPublishPacket :=
  ⟨⟨3, ⟨.new false .atMostOnce false, 0⟩⟩, [97, 47, 98]⟩

/-- Queue 0 is registered under `a/*` and callback 7 under `a/#`. Queue 1 was registered
under `*/b`, which was cleared since. -/
def sampleOps : List TreeOp :=
  [.accept ['a', '/', '*'] (.unbounded 0), .accept ['*', '/', 'b'] (.unbounded 1),
    .accept ['a', '/', '#'] (.fastCallback ⟨7, 0⟩), .clear ['*', '/', 'b']]

/-- Open queues that are empty, and no calls yet. -/
def sampleMail : Mail := ⟨fun _ => ⟨none, [], false⟩, []⟩

theorem routing_exact_wildcards :
    (∃ called : List FastCallback, (((TreeOp.run sampleOps).1.dispatch sampleMessage).run
      sampleMail).2.calls = called.map (·, sampleMessage) ∧ called.count ⟨7, 0⟩ = 1) ∧
    ((((TreeOp.run sampleOps).1.dispatch sampleMessage).run sampleMail).2.channels 0).queue =
      [sampleMessage] ∧
    ((((TreeOp.run sampleOps).1.dispatch sampleMessage).run sampleMail).2.channels 1).queue =
      [] := by
  obtain ⟨⟨called, hcalls, hcount⟩, hqueues⟩ := routing_exact sampleOps sampleMessage sampleMail
  have hentries : (TreeOp.run sampleOps).2.entries =
      [(['a', '/', '*'], .unbounded 0), (['a', '/', '#'], .fastCallback ⟨7, 0⟩)] := by
    decide +kernel
  have hregistered : (TreeOp.run sampleOps).2.registrations (.fastCallback ⟨7, 0⟩)
      sampleMessage.topic = 1 ∧
      (TreeOp.run sampleOps).2.registrations (.unbounded 0) sampleMessage.topic = 1 ∧
      (TreeOp.run sampleOps).2.registrations (.unbounded 1) sampleMessage.topic = 0 := by
    decide +kernel
  refine ⟨⟨called, hcalls, (hcount _).trans hregistered.1⟩, ?_, ?_⟩
  · rw [hqueues 0 (by simp [hentries]), hregistered.2.1]
    rfl
  · rw [hqueues 1 (by simp [hentries]), hregistered.2.2]
    rfl

end Lmc
