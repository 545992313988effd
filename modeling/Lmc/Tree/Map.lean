import Lmc.Tree.Registry

/-!
# The tree as a map

For its users the subscription tree is a map from filters to leaves. `LeafMap.perform` says
what each operation means for such a map, without nodes and levels: it finds, changes or
clears the leaf of one filter, or forgets the closed channels of the leaves that a message
goes to. `tree_refines_map` says that the tree behaves like the map through every sequence of
operations.

The one thing that a map does not say is whether `get` finds a leaf that nobody has created.
It may stand on the way to a longer filter, and is empty then.
-/

namespace Lmc

/-! ## Operations -/

/-- A change made through a reference to a leaf. -/
inductive LeafChange where
  | add (kind : SubscriptionKind)
  | setSubscribed
  | removeFastCallback (id : UInt32)

def LeafChange.apply (sub : Subscription) : LeafChange → Subscription
  | .add kind => sub.add kind
  | .setSubscribed => sub.setSubscribed
  | .removeFastCallback id => sub.removeFastCallback id

/-- All changes made through one reference. -/
def LeafChange.applyAll (changes : List LeafChange) (sub : Subscription) : Subscription :=
  changes.foldl LeafChange.apply sub

/-- The operations on the tree. A reference that is returned is used for some changes. -/
inductive SetOp where
  | getOrCreate (filter : Str) (changes : List LeafChange)
  | get (filter : Str) (changes : List LeafChange)
  | clear (filter : Str)
  | dispatch (msg : IncomingPublishPacket) (mail : Mail)

/-- The filter an operation is about. -/
def SetOp.filter : SetOp → Option Str
  | .getOrCreate filter _ | .get filter _ | .clear filter => some filter
  | .dispatch _ _ => none

def SubscriptionSet.perform (set : SubscriptionSet) : SetOp → SubscriptionSet
  | .getOrCreate filter changes => (set.getOrCreate (LeafChange.applyAll changes) filter).2
  | .get filter changes => set.update (LeafChange.applyAll changes) filter
  | .clear filter => (set.clear filter).2
  | .dispatch msg mail => ((set.dispatch msg).run mail).1

/-- The leaves by their filters. -/
abbrev LeafMap := Str → Option Subscription

namespace LeafMap

def put (m : LeafMap) (filter : Str) (sub : Subscription) : LeafMap :=
  fun f => if f = filter then some sub else m f

/-- What an operation means. `found` says for which filters `get` finds a leaf. -/
def perform (found : Str → Bool) (m : LeafMap) : SetOp → LeafMap
  | .getOrCreate filter changes =>
    m.put filter (LeafChange.applyAll changes ((m filter).getD default))
  | .get filter changes =>
    if found filter then m.put filter (LeafChange.applyAll changes ((m filter).getD default))
    else m
  | .clear filter =>
    match m filter with
    | some sub => if sub.subscribed then m.put filter sub.clear else m
    | none => m
  | .dispatch msg mail => fun f => (m f).map fun sub =>
    if filterMatches f msg.topic then sub.forget mail.closed else sub

end LeafMap

/-! ## Nodes on the way -/

namespace SubscriptionSetNode

variable {node : SubscriptionSetNode}

/-- The entries of these levels exist, one below the other. -/
def has (node : SubscriptionSetNode) : List Str → Bool
  | [] => true
  | l :: ls => match node.child l with
    | some e => e.children.has ls
    | none => false

theorem has_cons {l : Str} {ls : List Str} : node.has (l :: ls) = true ↔
    ∃ e, node.child l = some e ∧ e.children.has ls = true := by
  rw [has]
  cases node.child l with
  | none => simp
  | some e => simp

/-- A node whose entries are all kept, together with the entries below them. -/
theorem has_mono {node' : SubscriptionSetNode} {path : List Str}
    (h : ∀ l ls e, path = l :: ls → node.child l = some e → e.children.has ls = true →
      ∃ e', node'.child l = some e' ∧ e'.children.has ls = true)
    (hpath : node.has path = true) : node'.has path = true := by
  cases path with
  | nil => rfl
  | cons l ls =>
    obtain ⟨e, he, hls⟩ := has_cons.mp hpath
    exact has_cons.mpr (h l ls e rfl he hls)

theorem has_setChild {level : Str} {e : SubscriptionSetEntry} {path : List Str}
    (h : ∀ ls e₀, path = level :: ls → node.child level = some e₀ → e₀.children.has ls = true →
      e.children.has ls = true)
    (hpath : node.has path = true) : (node.setChild level e).has path = true := by
  refine has_mono ?_ hpath
  intro l ls e₀ hp he₀ hls
  rw [child_setChild]
  by_cases hl : l = level
  · subst hl
    exact ⟨e, if_pos rfl, h ls e₀ hp he₀ hls⟩
  · exact ⟨e₀, by rw [if_neg hl, he₀], hls⟩

theorem has_setRecursive {path : List Str} (h : node.has path = true) (sub : Subscription) :
    has { node with anyRecursive := sub } path = true := by
  refine has_mono ?_ h
  intro l ls e _ he hls
  exact ⟨e, he, hls⟩

theorem has_getOrCreate (f : Subscription → Subscription) :
    ∀ (ls path : List Str) (node : SubscriptionSetNode), node.has path = true →
      (getOrCreate f ls node).2.has path = true
  | [], _, _, h => h
  | [last], path, node, h => by
    rw [getOrCreate]
    split
    · exact has_setRecursive h _
    · refine has_setChild (fun ls e₀ _ he₀ hls => ?_) h
      rw [he₀]
      exact hls
  | head :: next :: rest, path, node, h => by
    rw [getOrCreate]
    split
    · exact h
    · refine has_setChild (fun ls e₀ _ he₀ hls => ?_) h
      rw [he₀]
      exact has_getOrCreate f (next :: rest) ls e₀.children hls

theorem has_update (f : Subscription → Subscription) :
    ∀ (ls path : List Str) (node : SubscriptionSetNode), node.has path = true →
      (update f ls node).has path = true
  | [], _, _, h => h
  | [last], path, node, h => by
    rw [update]
    split
    · exact has_setRecursive h _
    · split
      · rename_i e he
        refine has_setChild (fun ls e₀ _ he₀ hls => ?_) h
        cases he.symm.trans he₀
        exact hls
      · exact h
  | head :: next :: rest, path, node, h => by
    rw [update]
    split
    · exact h
    · split
      · rename_i e he
        refine has_setChild (fun ls e₀ _ he₀ hls => ?_) h
        cases he.symm.trans he₀
        exact has_update f (next :: rest) ls e.children hls
      · exact h

theorem has_dispatchWith {visit : SubscriptionSetEntry → StateM Mail SubscriptionSetEntry}
    {msg : IncomingPublishPacket} {t : Str} {path : List Str} (mail : Mail)
    (hvisit : ∀ e m ls, e.children.has ls = true → ((visit e).run m).1.children.has ls = true)
    (h : node.has path = true) : ((dispatchWith visit msg t node).run mail).1.has path = true := by
  refine has_mono ?_ h
  intro l ls e _ he hls
  obtain ⟨m, -, hchild⟩ : ∃ m, True ∧
      ((dispatchWith visit msg t node).run mail).1.child l = _ :=
    child_dispatchWith (fun _ _ _ => trivial) (fun _ _ _ => trivial) node t l trivial
  rw [hchild, he]
  split
  · exact ⟨_, rfl, hvisit e m ls hls⟩
  · exact ⟨e, rfl, hls⟩

theorem has_dispatch (msg : IncomingPublishPacket) :
    ∀ (ts path : List Str) (node : SubscriptionSetNode) (mail : Mail), node.has path = true →
      ((dispatch msg ts node).run mail).1.has path = true
  | [], _, _, _, h => h
  | [_], _, _, mail, h => has_dispatchWith mail (fun _ _ _ hls => hls) h
  | _ :: next :: rest, _, _, mail, h =>
    has_dispatchWith mail (fun e m ls hls => has_dispatch msg (next :: rest) ls e.children m hls) h

/-- The entries that have to exist for the leaf of a filter to be found. -/
def pathOf (ls : List Str) : List Str :=
  if ls.getLast? = some recursiveWildcard then ls.dropLast else ls

theorem pathOf_cons (head next : Str) (rest : List Str) :
    pathOf (head :: next :: rest) = head :: pathOf (next :: rest) := by
  rw [pathOf, pathOf, List.getLast?_cons_cons, List.dropLast_cons_of_ne_nil (List.cons_ne_nil _ _)]
  split <;> rfl

theorem pathOf_last {last : Str} (h : last ≠ recursiveWildcard) : pathOf [last] = [last] := by
  rw [pathOf, if_neg]
  simpa using h

/-- `get` finds the leaf of a filter if the entries on the way exist. -/
theorem get_of_valid : ∀ (ls : List Str) (node : SubscriptionSetNode), ls ≠ [] →
    recursiveWildcard ∉ ls.dropLast →
    node.get ls = if node.has (pathOf ls) then .ok (some (node.leaf ls)) else .ok none
  | [], _, hne, _ => absurd rfl hne
  | [last], node, _, _ => by
    by_cases hlast : last = recursiveWildcard
    · subst hlast
      rfl
    · rw [pathOf_last hlast, get, if_neg hlast, leaf_last hlast, has, entry]
      cases node.child last <;> rfl
  | head :: next :: rest, node, _, hvalid => by
    rw [List.dropLast_cons_of_ne_nil (List.cons_ne_nil _ _), List.mem_cons, not_or] at hvalid
    have hhead : head ≠ recursiveWildcard := Ne.symm hvalid.1
    rw [pathOf_cons, get, if_neg hhead, leaf_cons hhead, has, entry]
    cases node.child head with
    | none => rfl
    | some e => exact get_of_valid (next :: rest) e.children (List.cons_ne_nil _ _) hvalid.2

theorem has_getOrCreate_self (f : Subscription → Subscription) :
    ∀ (ls : List Str) (node : SubscriptionSetNode), recursiveWildcard ∉ ls.dropLast →
      (getOrCreate f ls node).2.has (pathOf ls) = true
  | [], _, _ => rfl
  | [last], node, _ => by
    by_cases hlast : last = recursiveWildcard
    · subst hlast
      rfl
    · rw [pathOf_last hlast, getOrCreate, if_neg hlast, has, child_setChild, if_pos rfl]
      rfl
  | head :: next :: rest, node, hvalid => by
    rw [List.dropLast_cons_of_ne_nil (List.cons_ne_nil _ _), List.mem_cons, not_or] at hvalid
    rw [pathOf_cons, getOrCreate, if_neg (Ne.symm hvalid.1), has, child_setChild, if_pos rfl]
    exact has_getOrCreate_self f (next :: rest) _ hvalid.2

end SubscriptionSetNode

/-! ## The tree and the map -/

namespace SubscriptionSet

variable {set : SubscriptionSet} {filter : Str}

theorem get_eq (h : validFilter filter = true) :
    set.get filter = if set.root.has (SubscriptionSetNode.pathOf (levels filter))
      then .ok (some (set.root.leaf (levels filter))) else .ok none :=
  SubscriptionSetNode.get_of_valid _ _ (levels_ne_nil filter) (not_mem_of_valid h)

theorem finds_eq (h : validFilter filter = true) :
    set.finds filter = set.root.has (SubscriptionSetNode.pathOf (levels filter)) := by
  rw [finds, get_eq h]
  split
  · rename_i hget
    split at hget
    · rename_i hhas
      exact hhas.symm
    · cases hget
  · rename_i hget
    split at hget
    · exact absurd rfl (hget _)
    · rename_i hno
      exact (Bool.eq_false_iff.mpr hno).symm

theorem get_of_finds (h : validFilter filter = true) (hfound : set.finds filter = true) :
    set.get filter = .ok (some (set.root.leaf (levels filter))) := by
  rw [get_eq h, ← finds_eq h, if_pos hfound]

theorem get_of_not_finds (h : validFilter filter = true) (hfound : set.finds filter = false) :
    set.get filter = .ok none := by
  rw [get_eq h, ← finds_eq h, hfound]
  rfl

theorem leaf_of_get {sub : Subscription} (h : set.get filter = .ok (some sub)) :
    set.root.leaf (levels filter) = sub := by
  rw [SubscriptionSetNode.leaf, ← get, h]

theorem leaf_of_get_none (h : set.get filter = .ok none) :
    set.root.leaf (levels filter) = default := by
  rw [SubscriptionSetNode.leaf, ← get, h]

/-- No operation loses a leaf. -/
theorem finds_perform (h : validFilter filter = true) (hfound : set.finds filter = true)
    (op : SetOp) : (set.perform op).finds filter = true := by
  rw [finds_eq h] at hfound ⊢
  cases op with
  | getOrCreate filter' changes => exact SubscriptionSetNode.has_getOrCreate _ _ _ _ hfound
  | get filter' changes => exact SubscriptionSetNode.has_update _ _ _ _ hfound
  | clear filter' =>
    by_cases hclear : (set.clear filter').1 = .ok true
    · rw [perform, clear_of_subscribed (clear_true_iff.mp hclear)]
      exact SubscriptionSetNode.has_update _ _ _ _ hfound
    · rw [perform, clear_of_ne_true hclear]
      exact hfound
  | dispatch msg mail => exact SubscriptionSetNode.has_dispatch msg _ _ _ mail hfound

/-- An operation on another filter does not change a leaf. -/
theorem leaf_perform_ne {op : SetOp} {filter' : Str} (hop : op.filter = some filter')
    (hne : filter ≠ filter') :
    (set.perform op).root.leaf (levels filter) = set.root.leaf (levels filter) := by
  have hlevels : levels filter ≠ levels filter' := fun h => hne (levels_injective h)
  cases op with
  | getOrCreate filter₀ changes =>
    cases hop
    exact SubscriptionSetNode.leaf_getOrCreate_ne _ _ _ _ hlevels
  | get filter₀ changes =>
    cases hop
    exact SubscriptionSetNode.leaf_update_ne _ _ _ _ hlevels
  | clear filter₀ =>
    cases hop
    by_cases hclear : (set.clear filter').1 = .ok true
    · rw [perform, clear_of_subscribed (clear_true_iff.mp hclear)]
      exact SubscriptionSetNode.leaf_update_ne _ _ _ _ hlevels
    · rw [perform, clear_of_ne_true hclear]
  | dispatch msg mail => cases hop

/-- Dispatching forgets the closed channels of the leaves that match, and does nothing else. -/
theorem leaf_dispatch (set : SubscriptionSet) (msg : IncomingPublishPacket) (mail : Mail)
    (filter : Str) : (set.perform (.dispatch msg mail)).root.leaf (levels filter) =
      if filterMatches filter msg.topic then (set.root.leaf (levels filter)).forget mail.closed
      else set.root.leaf (levels filter) :=
  SubscriptionSetNode.dispatched_dispatch msg (levels msg.topic) set.root mail
    (levels_ne_nil msg.topic) (levels filter)

end SubscriptionSet

/-- The tree and the map behind a sequence of operations. -/
def SetOp.run (ops : List SetOp) : SubscriptionSet × LeafMap :=
  ops.foldl (fun s op => (s.1.perform op, s.2.perform s.1.finds op)) (default, fun _ => none)

/-- The leaf of each filter is the one in the map. -/
structure LeafMap.Agrees (m : LeafMap) (set : SubscriptionSet) : Prop where
  leaf : ∀ filter, validFilter filter = true →
    set.root.leaf (levels filter) = (m filter).getD default
  found : ∀ filter, validFilter filter = true → (m filter).isSome → set.finds filter = true

namespace LeafMap.Agrees

variable {m : LeafMap} {set : SubscriptionSet}

theorem empty : Agrees (fun _ => none) default :=
  ⟨fun _ _ => SubscriptionSetNode.leaf_default _, fun _ _ h => by cases h⟩

/-- The map has changed at the filter of the operation. -/
theorem put (h : m.Agrees set) {op : SetOp} {filter : Str} {sub : Subscription}
    (hop : op.filter = some filter)
    (hself : (set.perform op).root.leaf (levels filter) = sub)
    (hfound : (set.perform op).finds filter = true) :
    (m.put filter sub).Agrees (set.perform op) := by
  refine ⟨fun f hf => ?_, fun f hf hsome => ?_⟩
  · by_cases hsame : f = filter
    · subst hsame
      rw [hself, LeafMap.put, if_pos rfl]
      rfl
    · rw [SubscriptionSet.leaf_perform_ne hop hsame, LeafMap.put, if_neg hsame]
      exact h.leaf f hf
  · by_cases hsame : f = filter
    · rw [hsame]
      exact hfound
    · rw [LeafMap.put, if_neg hsame] at hsome
      exact SubscriptionSet.finds_perform hf (h.found f hf hsome) op

/-- Neither the map nor a leaf has changed. -/
theorem keep (h : m.Agrees set) {op : SetOp}
    (hleaf : ∀ f, validFilter f = true →
      (set.perform op).root.leaf (levels f) = set.root.leaf (levels f)) :
    m.Agrees (set.perform op) :=
  ⟨fun f hf => (hleaf f hf).trans (h.leaf f hf),
    fun f hf hsome => SubscriptionSet.finds_perform hf (h.found f hf hsome) op⟩

theorem perform (h : m.Agrees set) {op : SetOp}
    (hvalid : ∀ filter, op.filter = some filter → validFilter filter = true) :
    (m.perform set.finds op).Agrees (set.perform op) := by
  cases op with
  | getOrCreate filter changes =>
    have hf := hvalid filter rfl
    refine h.put rfl ?_ ?_
    · rw [← h.leaf filter hf]
      exact SubscriptionSetNode.leaf_getOrCreate_self _ _ _ (levels_ne_nil filter)
        (not_mem_of_valid hf)
    · rw [SubscriptionSet.finds_eq hf]
      exact SubscriptionSetNode.has_getOrCreate_self _ _ _ (not_mem_of_valid hf)
  | get filter changes =>
    have hf := hvalid filter rfl
    have hget : (set.perform (.get filter changes)).get filter =
        (set.get filter).map (Option.map (LeafChange.applyAll changes)) :=
      SubscriptionSetNode.get_update_self _ _ _
    rw [LeafMap.perform]
    cases hfound : set.finds filter with
    | true =>
      rw [SubscriptionSet.get_of_finds hf hfound, h.leaf filter hf] at hget
      exact h.put rfl (SubscriptionSet.leaf_of_get hget)
        (SubscriptionSet.finds_perform hf hfound _)
    | false =>
      have hnone := SubscriptionSet.get_of_not_finds hf hfound
      rw [hnone] at hget
      refine h.keep fun f _ => ?_
      by_cases hsame : f = filter
      · rw [hsame, SubscriptionSet.leaf_of_get_none hget, SubscriptionSet.leaf_of_get_none hnone]
      · exact SubscriptionSet.leaf_perform_ne rfl hsame
  | clear filter =>
    have hf := hvalid filter rfl
    have hleaf := h.leaf filter hf
    have hflag : set.isSubscribed filter = ((m filter).getD default).subscribed := by
      rw [SubscriptionSet.isSubscribed, SubscriptionSetNode.isSubscribed_eq_leaf, hleaf]
    -- Without the flag `clear` does nothing.
    have hkeep : set.isSubscribed filter = false → m.Agrees (set.perform (.clear filter)) := by
      intro hsub
      refine h.keep fun f _ => ?_
      rw [SubscriptionSet.perform, SubscriptionSet.clear_of_ne_true]
      intro htrue
      cases hsub.symm.trans (SubscriptionSet.clear_true_iff.mp htrue)
    rw [LeafMap.perform]
    cases hm : m filter with
    | none =>
      rw [hm] at hflag
      exact hkeep hflag
    | some sub =>
      rw [hm] at hflag hleaf
      have hfound := h.found filter hf (by rw [hm]; rfl)
      cases hsub : sub.subscribed with
      | false =>
        show (if sub.subscribed = true then m.put filter sub.clear else m).Agrees _
        rw [hsub]
        exact hkeep (hflag.trans hsub)
      | true =>
        show (if sub.subscribed = true then m.put filter sub.clear else m).Agrees _
        rw [if_pos hsub]
        refine h.put rfl ?_ (SubscriptionSet.finds_perform hf hfound _)
        rw [SubscriptionSet.perform, SubscriptionSet.clear_of_subscribed (hflag.trans hsub)]
        exact (SubscriptionSetNode.leaf_update_self rfl _ _).trans (congrArg _ hleaf)
  | dispatch msg mail =>
    refine ⟨fun f hf => ?_, fun f hf hsome => ?_⟩
    · rw [SubscriptionSet.leaf_dispatch, h.leaf f hf]
      show _ = ((m f).map _).getD default
      cases m f with
      | none => split <;> rfl
      | some sub => rfl
    · rw [LeafMap.perform, Option.isSome_map] at hsome
      exact SubscriptionSet.finds_perform hf (h.found f hf hsome) _

theorem run {ops : List SetOp}
    (hops : ∀ op ∈ ops, ∀ filter, op.filter = some filter → validFilter filter = true) :
    (SetOp.run ops).2.Agrees (SetOp.run ops).1 := by
  have hfold : ∀ (ops : List SetOp) (s : SubscriptionSet × LeafMap), s.2.Agrees s.1 →
      (∀ op ∈ ops, ∀ filter, op.filter = some filter → validFilter filter = true) →
      (ops.foldl (fun s op => (s.1.perform op, s.2.perform s.1.finds op)) s).2.Agrees
        (ops.foldl (fun s op => (s.1.perform op, s.2.perform s.1.finds op)) s).1 := by
    intro ops
    induction ops with
    | nil => exact fun s hs _ => hs
    | cons op ops ih =>
      intro s hs hops
      exact ih _ (hs.perform (hops op List.mem_cons_self))
        fun op' hop' => hops op' (List.mem_cons_of_mem _ hop')
  exact hfold ops _ empty hops

end LeafMap.Agrees

theorem LeafMap.named_of_put {m : LeafMap} {f filter : Str} {sub : Subscription}
    (h : (m.put filter sub f).isSome) : (m f).isSome ∨ some filter = some f := by
  rw [put] at h
  split at h
  · rename_i hsame
    exact Or.inr (by rw [hsame])
  · exact Or.inl h

theorem LeafMap.named_of_perform {m : LeafMap} {found : Str → Bool} {op : SetOp} {f : Str}
    (h : (m.perform found op f).isSome) : (m f).isSome ∨ op.filter = some f := by
  cases op with
  | getOrCreate filter changes => exact named_of_put h
  | get filter changes =>
    rw [perform] at h
    split at h
    · exact named_of_put h
    · exact Or.inl h
  | clear filter =>
    cases hm : m filter with
    | none =>
      rw [perform, hm] at h
      exact Or.inl h
    | some sub =>
      rw [perform, hm] at h
      change ((if sub.subscribed = true then m.put filter sub.clear else m : LeafMap) f).isSome at h
      split at h
      · exact named_of_put h
      · exact Or.inl h
  | dispatch msg mail =>
    rw [perform, Option.isSome_map] at h
    exact Or.inl h

/-- Only a filter that an operation has named is in the map. -/
theorem SetOp.named_of_run {ops : List SetOp} {filter : Str}
    (h : ((SetOp.run ops).2 filter).isSome) : ∃ op ∈ ops, op.filter = some filter := by
  have hfold : ∀ (ops : List SetOp) (s : SubscriptionSet × LeafMap),
      ((ops.foldl (fun s op => (s.1.perform op, s.2.perform s.1.finds op)) s).2 filter).isSome →
      (s.2 filter).isSome ∨ ∃ op ∈ ops, op.filter = some filter := by
    intro ops
    induction ops with
    | nil => exact fun s hs => Or.inl hs
    | cons op ops ih =>
      intro s hs
      rcases ih _ hs with hbefore | ⟨op', hop', hname⟩
      · exact (LeafMap.named_of_perform hbefore).imp_right fun hname =>
          ⟨op, List.mem_cons_self, hname⟩
      · exact Or.inr ⟨op', List.mem_cons_of_mem _ hop', hname⟩
  exact (hfold ops _ h).resolve_left (by simp)

/-- The tree is a map from filters to leaves. Behind every sequence of operations on filters
in which `#` is the last level if at all, `get` finds the leaf that the map has for a filter;
where it has none, `get` finds nothing or an empty leaf. The map has a leaf only for filters
that were named. One more operation on a filter changes no leaf of another one, and
dispatching a message forgets closed channels in the leaves that match and changes nothing
else. -/
theorem tree_refines_map (ops : List SetOp)
    (hops : ∀ op ∈ ops, ∀ filter, op.filter = some filter → validFilter filter = true) :
    (∀ filter, validFilter filter = true →
      match (SetOp.run ops).2 filter with
      | some sub => (SetOp.run ops).1.get filter = .ok (some sub)
      | none => (SetOp.run ops).1.get filter = .ok none ∨
          (SetOp.run ops).1.get filter = .ok (some default)) ∧
    (∀ filter, ((SetOp.run ops).2 filter).isSome → ∃ op ∈ ops, op.filter = some filter) ∧
    (∀ op filter filter', op.filter = some filter' → filter ≠ filter' →
      ((SetOp.run ops).1.perform op).root.leaf (levels filter) =
        (SetOp.run ops).1.root.leaf (levels filter)) ∧
    ∀ msg mail filter, ((SetOp.run ops).1.perform (.dispatch msg mail)).root.leaf (levels filter) =
      if filterMatches filter msg.topic
      then ((SetOp.run ops).1.root.leaf (levels filter)).forget mail.closed
      else (SetOp.run ops).1.root.leaf (levels filter) := by
  have hagrees := LeafMap.Agrees.run hops
  refine ⟨fun filter hf => ?_, fun filter h => SetOp.named_of_run h,
    fun op filter filter' hop hne => SubscriptionSet.leaf_perform_ne hop hne,
    fun msg mail filter => SubscriptionSet.leaf_dispatch _ msg mail filter⟩
  have hleaf := hagrees.leaf filter hf
  cases hm : (SetOp.run ops).2 filter with
  | some sub =>
    rw [hm] at hleaf
    have hfound := hagrees.found filter hf (by rw [hm]; rfl)
    exact (SubscriptionSet.get_of_finds hf hfound).trans (by rw [hleaf]; rfl)
  | none =>
    rw [hm] at hleaf
    cases hfound : (SetOp.run ops).1.finds filter with
    | false => exact Or.inl (SubscriptionSet.get_of_not_finds hf hfound)
    | true => exact Or.inr ((SubscriptionSet.get_of_finds hf hfound).trans (by rw [hleaf]; rfl))

/-- `a/b` is created and subscribed, then somebody asks for `a`, which stands on the way. -/
def mapOps : List SetOp :=
  [.getOrCreate ['a', '/', 'b'] [.setSubscribed, .add (.unbounded 0)], .get ['a'] [],
    .getOrCreate ['#'] [.add (.unbounded 1)]]

theorem tree_refines_map_nested :
    (SetOp.run mapOps).1.get ['a', '/', 'b'] = .ok (some ⟨[], [0], [], true⟩) ∧
    ((SetOp.run mapOps).1.perform (.clear ['a', '/', 'b'])).root.leaf [['#']] =
      (SetOp.run mapOps).1.root.leaf [['#']] := by
  obtain ⟨hget, -, hframe, -⟩ := tree_refines_map mapOps (by
    intro op hop filter hfilter
    simp only [mapOps, List.mem_cons, List.not_mem_nil, or_false] at hop
    rcases hop with rfl | rfl | rfl <;> cases hfilter <;> decide +kernel)
  have hleaf : (SetOp.run mapOps).2 ['a', '/', 'b'] = some ⟨[], [0], [], true⟩ := by
    decide +kernel
  have hfound := hget ['a', '/', 'b'] (by decide +kernel)
  rw [hleaf] at hfound
  exact ⟨hfound, hframe (.clear ['a', '/', 'b']) ['#'] ['a', '/', 'b'] rfl (by decide)⟩

end Lmc
