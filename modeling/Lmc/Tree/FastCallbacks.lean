import Mathlib.Data.Set.Insert
import Lmc.Tree.Leaves

/-!
# The order of the callbacks

The callbacks of a leaf are in a vector. Most of them are appended, since their identifiers
come from a counter; one that comes late is inserted where a binary search says. The search
needs the order, and an identifier that it misses is never removed. So the order has to hold
whatever is done to the leaf (`fast_callbacks_sorted`).

What the vector stands for is a map from identifiers to callbacks, in which the first callback
of an identifier stays (`LeafOp.onMap`), and the set of its identifiers (`LeafOp.onIds`).
-/

namespace Lmc

namespace Subscription

/-! ## The search -/

/-- A search that keeps the promise of `binary_search_by_key`. -/
def SearchesSorted (search : UInt32 → List FastCallback → Except Nat Nat) : Prop :=
  ∀ id cbs, Ordered cbs → Finds id cbs (search id cbs)

variable {id : UInt32} {cbs : List FastCallback}

theorem Ordered.getElem_lt (hord : Ordered cbs) {i j : Nat} {a b : FastCallback} (hij : i < j)
    (ha : cbs[i]? = some a) (hb : cbs[j]? = some b) : a.id < b.id := by
  obtain ⟨hi, rfl⟩ := List.getElem?_eq_some_iff.mp ha
  obtain ⟨hj, rfl⟩ := List.getElem?_eq_some_iff.mp hb
  exact List.pairwise_iff_getElem.mp hord i j hi hj hij

/-- Between two positions at which the identifier belongs there is no callback. -/
theorem Finds.not_error_lt {i j : Nat} (hi : Finds id cbs (.error i))
    (hj : Finds id cbs (.error j)) : ¬ i < j := by
  intro hij
  obtain ⟨-, -, hbehind⟩ := hi
  obtain ⟨hlen, hbefore, -⟩ := hj
  have hlt : i < cbs.length := Nat.lt_of_lt_of_le hij hlen
  have hdrop : cbs[i] ∈ cbs.drop i := by
    rw [List.drop_eq_getElem_cons hlt]
    exact List.mem_cons_self
  have htake : cbs[i] ∈ cbs.take j :=
    List.mem_take_iff_getElem.mpr ⟨i, Nat.lt_min.mpr ⟨hij, hlt⟩, rfl⟩
  exact UInt32.lt_irrefl _ (UInt32.lt_trans (hbefore _ htake) (hbehind _ hdrop))

/-- The promise leaves one result. -/
theorem Finds.unique (hord : Ordered cbs) {r r' : Except Nat Nat} (h : Finds id cbs r)
    (h' : Finds id cbs r') : r = r' := by
  cases r with
  | ok i =>
    cases r' with
    | error j =>
      obtain ⟨c, hget, hid⟩ := h
      exact (h'.ne_of_error c (List.mem_of_getElem? hget) hid).elim
    | ok j =>
      obtain ⟨a, ha, hida⟩ := h
      obtain ⟨b, hb, hidb⟩ := h'
      rcases Nat.lt_trichotomy i j with hlt | rfl | hlt
      · have hself := hord.getElem_lt hlt ha hb
        rw [hida, hidb] at hself
        exact (UInt32.lt_irrefl _ hself).elim
      · rfl
      · have hself := hord.getElem_lt hlt hb ha
        rw [hida, hidb] at hself
        exact (UInt32.lt_irrefl _ hself).elim
  | error i =>
    cases r' with
    | ok j =>
      obtain ⟨c, hget, hid⟩ := h'
      exact (h.ne_of_error c (List.mem_of_getElem? hget) hid).elim
    | error j =>
      rcases Nat.lt_trichotomy i j with hlt | rfl | hlt
      · exact (h.not_error_lt h' hlt).elim
      · rfl
      · exact (h'.not_error_lt h hlt).elim

/-- On sorted callbacks every search that keeps the promise is the one of the model. -/
theorem SearchesSorted.eq {search : UInt32 → List FastCallback → Except Nat Nat}
    (h : SearchesSorted search) (hord : Ordered cbs) (id : UInt32) :
    search id cbs = binarySearchByKey id cbs :=
  (h id cbs hord).unique hord (finds_binarySearchByKey id hord)

end Subscription

/-! ## Runs of a leaf -/

/-- What is done to a leaf. -/
inductive LeafOp where
  | add (kind : SubscriptionKind)
  | removeFastCallback (id : UInt32)
  | setSubscribed
  | dispatch (msg : IncomingPublishPacket)
  | clear

namespace LeafOp

def run : LeafOp → Subscription × Mail → Subscription × Mail
  | add kind, (sub, mail) => (sub.add kind, mail)
  | removeFastCallback id, (sub, mail) => (sub.removeFastCallback id, mail)
  | setSubscribed, (sub, mail) => (sub.setSubscribed, mail)
  | dispatch msg, (sub, mail) => (sub.dispatch msg).run mail
  | clear, (sub, mail) => (sub.clear, mail)

/-- A leaf after the operations `ops`, with the receiving ends behind them. -/
def runAll (ops : List LeafOp) (mail : Mail) : Subscription × Mail :=
  ops.foldl (fun s op => op.run s) (default, mail)

/-- The operation on a map from identifiers to callbacks. -/
def onMap (op : LeafOp) (map : UInt32 → Option FastCallback) : UInt32 → Option FastCallback :=
  match op with
  | add (.fastCallback cb) => fun id => if id = cb.id then (map id).or (some cb) else map id
  | removeFastCallback removed => fun id => if id = removed then none else map id
  | clear => fun _ => none
  | add .void | add (.lossy _) | add (.unbounded _) | setSubscribed | dispatch _ => map

/-- The operation on a set of identifiers. -/
def onIds (op : LeafOp) (ids : Set UInt32) : Set UInt32 :=
  match op with
  | add (.fastCallback cb) => insert cb.id ids
  | removeFastCallback id => ids \ {id}
  | clear => ∅
  | add .void | add (.lossy _) | add (.unbounded _) | setSubscribed | dispatch _ => ids

end LeafOp

/-- The callbacks are ordered, and they are those of the map and the set. -/
structure Holds (cbs : List FastCallback) (map : UInt32 → Option FastCallback)
    (ids : Set UInt32) : Prop where
  ordered : Subscription.Ordered cbs
  callbacks : ∀ id c, map id = some c ↔ c ∈ cbs ∧ c.id = id
  ids : ∀ id, id ∈ ids ↔ ∃ c ∈ cbs, c.id = id

namespace Holds

theorem empty : Holds [] (fun _ => none) ∅ := by
  refine ⟨.nil, fun id c => ?_, fun id => ?_⟩
  · simp
  · simp

variable {sub : Subscription} {map : UInt32 → Option FastCallback} {ids : Set UInt32}

theorem addFastCallback (h : Holds sub.fastCallbacks map ids) (cb : FastCallback) :
    Holds (sub.addFastCallback cb).fastCallbacks ((LeafOp.add (.fastCallback cb)).onMap map)
      ((LeafOp.add (.fastCallback cb)).onIds ids) := by
  obtain ⟨hord, hspec⟩ := sub.addFastCallback_spec cb h.ordered
  by_cases hthere : ∃ c ∈ sub.fastCallbacks, c.id = cb.id
  · -- the callback that is there stays
    rw [if_pos hthere] at hspec
    rw [hspec]
    obtain ⟨c₀, hmem₀, hid₀⟩ := hthere
    have hmap₀ : map cb.id = some c₀ := (h.callbacks _ _).mpr ⟨hmem₀, hid₀⟩
    refine ⟨h.ordered, fun id c => ?_, fun id => ?_⟩
    · rw [← h.callbacks]
      simp only [LeafOp.onMap]
      split
      · rename_i hid
        rw [hid, hmap₀]
        rfl
      · rfl
    · rw [← h.ids]
      refine ⟨fun hid => ?_, Set.mem_insert_of_mem _⟩
      rcases Set.mem_insert_iff.mp hid with rfl | hmem
      · exact (h.ids _).mpr ⟨c₀, hmem₀, hid₀⟩
      · exact hmem
  · rw [if_neg hthere] at hspec
    have hmap : map cb.id = none := by
      rw [Option.eq_none_iff_forall_ne_some]
      intro c hc
      exact hthere ⟨c, (h.callbacks _ _).mp hc⟩
    refine ⟨hord, fun id c => ?_, fun id => ?_⟩
    · rw [hspec.mem_iff, List.mem_cons]
      simp only [LeafOp.onMap]
      split
      · rename_i hid
        subst hid
        rw [hmap, Option.none_or, Option.some_inj]
        refine ⟨fun hc => ⟨Or.inl hc.symm, hc ▸ rfl⟩, ?_⟩
        rintro ⟨rfl | hmem, hid⟩
        · rfl
        · exact (hthere ⟨c, hmem, hid⟩).elim
      · rename_i hid
        rw [h.callbacks]
        refine ⟨fun hc => ⟨Or.inr hc.1, hc.2⟩, ?_⟩
        rintro ⟨rfl | hmem, hid'⟩
        · exact (hid hid'.symm).elim
        · exact ⟨hmem, hid'⟩
    · show id ∈ insert cb.id ids ↔ _
      rw [Set.mem_insert_iff, h.ids]
      constructor
      · rintro (rfl | ⟨c, hmem, hid⟩)
        · exact ⟨cb, hspec.mem_iff.mpr List.mem_cons_self, rfl⟩
        · exact ⟨c, hspec.mem_iff.mpr (List.mem_cons_of_mem _ hmem), hid⟩
      · rintro ⟨c, hmem, hid⟩
        rcases List.mem_cons.mp (hspec.mem_iff.mp hmem) with rfl | hmem
        · exact Or.inl hid.symm
        · exact Or.inr ⟨c, hmem, hid⟩

theorem removeFastCallback (h : Holds sub.fastCallbacks map ids) (removed : UInt32) :
    Holds (sub.removeFastCallback removed).fastCallbacks
      ((LeafOp.removeFastCallback removed).onMap map)
      ((LeafOp.removeFastCallback removed).onIds ids) := by
  have hmem : ∀ c, c ∈ sub.fastCallbacks.filter (fun c => c.id != removed) ↔
      c ∈ sub.fastCallbacks ∧ c.id ≠ removed := by
    intro c
    rw [List.mem_filter, bne_iff_ne]
  rw [sub.removeFastCallback_spec removed h.ordered]
  refine ⟨h.ordered.filter _, fun id c => ?_, fun id => ?_⟩
  · rw [hmem]
    simp only [LeafOp.onMap]
    split
    · rename_i hid
      exact ⟨fun hc => (by cases hc), fun hc => (hc.1.2 (hc.2.trans hid)).elim⟩
    · rename_i hid
      rw [h.callbacks]
      exact ⟨fun hc => ⟨⟨hc.1, fun hr => hid (hc.2.symm.trans hr)⟩, hc.2⟩,
        fun hc => ⟨hc.1.1, hc.2⟩⟩
  · show id ∈ ids ∧ id ∉ ({removed} : Set UInt32) ↔ _
    rw [h.ids]
    constructor
    · rintro ⟨⟨c, hc, rfl⟩, hne⟩
      exact ⟨c, (hmem c).mpr ⟨hc, hne⟩, rfl⟩
    · rintro ⟨c, hc, rfl⟩
      obtain ⟨hc, hne⟩ := (hmem c).mp hc
      exact ⟨⟨c, hc, rfl⟩, hne⟩

/-- One operation. -/
theorem step (h : Holds sub.fastCallbacks map ids) (mail : Mail) (op : LeafOp) :
    Holds (op.run (sub, mail)).1.fastCallbacks (op.onMap map) (op.onIds ids) := by
  cases op with
  | add kind =>
    cases kind with
    | void => exact h
    | lossy queue => exact h
    | unbounded queue => exact h
    | fastCallback cb => exact h.addFastCallback cb
  | removeFastCallback id => exact h.removeFastCallback id
  | setSubscribed => exact h
  | dispatch msg => exact h
  | clear => exact .empty

/-- All operations. -/
theorem foldl (ops : List LeafOp) : ∀ {map : UInt32 → Option FastCallback} {ids : Set UInt32}
    (s : Subscription × Mail), Holds s.1.fastCallbacks map ids →
      Holds (ops.foldl (fun s op => op.run s) s).1.fastCallbacks
        (ops.foldl (fun map op => op.onMap map) map)
        (ops.foldl (fun ids op => op.onIds ids) ids) := by
  induction ops with
  | nil => exact fun _ h => h
  | cons op ops ih => exact fun s h => ih (op.run s) (h.step s.2 op)

end Holds

/-- Whatever is done to a leaf, its callbacks are strictly sorted by their identifiers. They are
the callbacks of the map and the identifiers of the set to which the same is done, so every
correct binary search finds in them what the model's does. A message is handed to each of them
once, and they stay. -/
theorem fast_callbacks_sorted (ops : List LeafOp) (mail : Mail) :
    (LeafOp.runAll ops mail).1.fastCallbacks.Pairwise (fun a b => a.id < b.id) ∧
      (∀ id, (∃ c ∈ (LeafOp.runAll ops mail).1.fastCallbacks, c.id = id) ↔
        id ∈ ops.foldl (fun ids op => op.onIds ids) ∅) ∧
      (∀ c, c ∈ (LeafOp.runAll ops mail).1.fastCallbacks ↔
        ops.foldl (fun map op => op.onMap map) (fun _ => none) c.id = some c) ∧
      (∀ search, Subscription.SearchesSorted search →
        ∀ id, search id (LeafOp.runAll ops mail).1.fastCallbacks =
          binarySearchByKey id (LeafOp.runAll ops mail).1.fastCallbacks) ∧
      ∀ msg, ∃ called : List FastCallback,
        (LeafOp.runAll (ops ++ [.dispatch msg]) mail).2.calls =
          (LeafOp.runAll ops mail).2.calls ++ called.map (·, msg) ∧
        called.Nodup ∧ (∀ c, c ∈ called ↔ c ∈ (LeafOp.runAll ops mail).1.fastCallbacks) ∧
        (LeafOp.runAll (ops ++ [.dispatch msg]) mail).1.fastCallbacks =
          (LeafOp.runAll ops mail).1.fastCallbacks := by
  have hholds : Holds (LeafOp.runAll ops mail).1.fastCallbacks _ _ :=
    Holds.foldl ops (default, mail) .empty
  refine ⟨hholds.ordered, fun id => (hholds.ids id).symm, fun c => ?_,
    fun search hsearch => hsearch.eq hholds.ordered, fun msg => ?_⟩
  · rw [hholds.callbacks]
    exact ⟨fun hc => ⟨hc, rfl⟩, fun hc => hc.1⟩
  · have hrun : LeafOp.runAll (ops ++ [.dispatch msg]) mail =
        ((LeafOp.runAll ops mail).1.dispatch msg).run (LeafOp.runAll ops mail).2 := by
      rw [LeafOp.runAll, List.foldl_append]
      rfl
    obtain ⟨hdelivered, -⟩ :=
      (LeafOp.runAll ops mail).1.dispatch_spec msg (LeafOp.runAll ops mail).2
    have hnodup : (LeafOp.runAll ops mail).1.fastCallbacks.Nodup := by
      refine List.Pairwise.imp (fun {a b} hlt heq => ?_) hholds.ordered
      subst heq
      exact UInt32.lt_irrefl _ hlt
    refine ⟨(LeafOp.runAll ops mail).1.fastCallbacks, ?_, hnodup, fun _ => Iff.rfl, ?_⟩
    · rw [hrun, hdelivered.calls, List.flatMap_singleton]
    · rw [hrun]
      rfl

end Lmc
