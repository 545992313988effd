import Mathlib.Tactic.Common
import Lmc.Tree.Subscription

/-!
# The subscription tree

A filter is followed level by level. A level other than `#` names a child of the node,
`*` among them; `#` names the leaf `anyRecursive` of the node and has to be the last
level. Both `get` and `getOrCreate` reject a filter only when they come to a `#` before
the end, so `get` on a tree that lacks the nodes in front of it answers `Ok(None)`
instead.

What the client is subscribed to is the flag of the leaves, `isSubscribed`. The lemmas at the
end say what each operation does to it: creating a leaf changes the flag of no other
filter, and no operation removes a node.
-/

namespace Lmc

/-! ## Levels of a topic -/

structure TopicSlicer where
  head : Str
  tail : Option Str
deriving DecidableEq, Repr

/-- `TopicSlicer::new`: cut at the first slash. -/
def TopicSlicer.new : Str → TopicSlicer
  | [] => ⟨[], none⟩
  | c :: s => if c = '/' then ⟨[], some s⟩ else ⟨c :: (new s).head, (new s).tail⟩

/-- The heads met by following the tails of a `TopicSlicer` to the end. -/
def levels (topic : Str) : List Str := topic.splitOn '/'

theorem levels_cons (c : Char) (s : Str) : levels (c :: s) =
    if c = '/' then [] :: levels s else (levels s).modifyHead (c :: ·) := by
  simp [levels, List.splitOn, List.splitOnP_cons_eq_if_modifyHead]

theorem levels_eq_new (topic : Str) :
    levels topic = (TopicSlicer.new topic).head ::
      ((TopicSlicer.new topic).tail.map levels).getD [] := by
  induction topic with
  | nil => rfl
  | cons c s ih =>
    rw [levels_cons, TopicSlicer.new]
    split
    · rfl
    · rw [ih]
      rfl

theorem levels_injective : Function.Injective levels := by
  intro s t h
  have hs : ['/'].intercalate (levels s) = s := List.intercalate_splitOn '/'
  have ht : ['/'].intercalate (levels t) = t := List.intercalate_splitOn '/'
  rw [← hs, ← ht, h]

theorem levels_ne_nil (topic : Str) : levels topic ≠ [] := by
  rw [levels_eq_new]
  exact List.cons_ne_nil _ _

/-- The levels in front of a slash, then those behind it. -/
theorem levels_append (s t : Str) : levels (s ++ '/' :: t) = levels s ++ levels t := by
  induction s with
  | nil =>
    rw [List.nil_append, levels_cons, if_pos rfl]
    rfl
  | cons c s ih =>
    rw [List.cons_append, levels_cons, levels_cons, ih]
    split
    · rfl
    · cases hs : levels s with
      | nil => exact absurd hs (levels_ne_nil s)
      | cons l ls => rfl

def recursiveWildcard : Str := ['#']

def anyWildcard : Str := ['*']

/-- A filter in which no level but the last one is `#`. -/
def validFilter (topic : Str) : Bool := !(levels topic).dropLast.contains recursiveWildcard

theorem not_mem_of_valid {filter : Str} (h : validFilter filter = true) :
    recursiveWildcard ∉ (levels filter).dropLast := by
  intro hmem
  rw [validFilter, List.contains_iff_mem.mpr hmem] at h
  cases h

/-! ## Nodes -/

mutual

structure SubscriptionSetNode where
  exact : List (Str × SubscriptionSetEntry)
  any : Option SubscriptionSetEntry
  anyRecursive : Subscription

structure SubscriptionSetEntry where
  sub : Subscription
  children : SubscriptionSetNode

end

instance : Inhabited SubscriptionSetNode := ⟨⟨[], none, default⟩⟩

instance : Inhabited SubscriptionSetEntry := ⟨⟨default, default⟩⟩

/-- Store a value under a key. -/
def putExact {β : Type} (k : Str) (v : β) : List (Str × β) → List (Str × β)
  | [] => [(k, v)]
  | (k', v') :: rest => if k = k' then (k, v) :: rest else (k', v') :: putExact k v rest

theorem lookup_putExact {β : Type} (k k' : Str) (v : β) (l : List (Str × β)) :
    (putExact k v l).lookup k' = if k' = k then some v else l.lookup k' := by
  induction l with
  | nil =>
    by_cases h : k' = k
    · simp [putExact, h]
    · have hb : (k' == k) = false := by simpa using h
      simp [putExact, List.lookup_cons, h, hb]
  | cons e rest ih =>
    obtain ⟨k₀, v₀⟩ := e
    by_cases hk : k = k₀
    · subst hk
      by_cases h : k' = k
      · simp [putExact, h]
      · have hb : (k' == k) = false := by simpa using h
        simp [putExact, List.lookup_cons, h, hb]
    · rw [putExact, if_neg hk, List.lookup_cons, List.lookup_cons, ih]
      by_cases h₀ : k' = k₀
      · subst h₀
        simp [Ne.symm hk]
      · have hb : (k' == k₀) = false := by simpa using h₀
        simp [hb]

namespace SubscriptionSetNode

/-- The entry of a level other than `#`. -/
def child (level : Str) (node : SubscriptionSetNode) : Option SubscriptionSetEntry :=
  if level = anyWildcard then node.any else node.exact.lookup level

def setChild (level : Str) (e : SubscriptionSetEntry) (node : SubscriptionSetNode) :
    SubscriptionSetNode :=
  if level = anyWildcard then { node with any := some e }
  else { node with exact := putExact level e node.exact }

theorem child_setChild (level level' : Str) (e : SubscriptionSetEntry)
    (node : SubscriptionSetNode) :
    (node.setChild level e).child level' =
      if level' = level then some e else node.child level' := by
  unfold setChild child
  by_cases h : level = anyWildcard
  · by_cases h' : level' = level
    · simp [h, h']
    · have hne : level' ≠ anyWildcard := fun hw => h' (hw.trans h.symm)
      simp [h, hne]
  · by_cases h' : level' = anyWildcard
    · have hne : ¬ level' = level := fun hw => h (hw ▸ h')
      simp [h, h', Ne.symm h]
    · simp [h, h', lookup_putExact]

@[simp] theorem anyRecursive_setChild (level : Str) (e : SubscriptionSetEntry)
    (node : SubscriptionSetNode) : (node.setChild level e).anyRecursive = node.anyRecursive := by
  unfold setChild
  split <;> rfl

/-- The leaf of a filter, given by its levels. -/
def get (node : SubscriptionSetNode) : List Str → Except Unit (Option Subscription)
  | [] => .ok none
  | [last] =>
    if last = recursiveWildcard then .ok (some node.anyRecursive)
    else .ok ((node.child last).map SubscriptionSetEntry.sub)
  | head :: next :: rest =>
    if head = recursiveWildcard then .error ()
    else match node.child head with
      | some entry => entry.children.get (next :: rest)
      | none => .ok none

/-- Change the leaf of a filter through the reference that `get` returns. -/
def update (f : Subscription → Subscription) : List Str → SubscriptionSetNode → SubscriptionSetNode
  | [], node => node
  | [last], node =>
    if last = recursiveWildcard then { node with anyRecursive := f node.anyRecursive }
    else match node.child last with
      | some entry => node.setChild last { entry with sub := f entry.sub }
      | none => node
  | head :: next :: rest, node =>
    if head = recursiveWildcard then node
    else match node.child head with
      | some entry =>
        node.setChild head { entry with children := entry.children.update f (next :: rest) }
      | none => node

/-- Find or create the leaf of a filter and change it through the returned reference.
The nodes in front of a misplaced `#` are created before it is met. -/
def getOrCreate (f : Subscription → Subscription) :
    List Str → SubscriptionSetNode → Except Unit Unit × SubscriptionSetNode
  | [], node => (.ok (), node)
  | [last], node =>
    if last = recursiveWildcard then (.ok (), { node with anyRecursive := f node.anyRecursive })
    else
      let entry := (node.child last).getD default
      (.ok (), node.setChild last { entry with sub := f entry.sub })
  | head :: next :: rest, node =>
    if head = recursiveWildcard then (.error (), node)
    else
      let entry := (node.child head).getD default
      let below := entry.children.getOrCreate f (next :: rest)
      (below.1, node.setChild head { entry with children := below.2 })

def visitAny (visit : SubscriptionSetEntry → StateM Mail SubscriptionSetEntry) :
    Option SubscriptionSetEntry → StateM Mail (Option SubscriptionSetEntry)
  | some entry => some <$> visit entry
  | none => pure none

def visitExact (visit : SubscriptionSetEntry → StateM Mail SubscriptionSetEntry) (level : Str)
    (exact : List (Str × SubscriptionSetEntry)) :
    StateM Mail (List (Str × SubscriptionSetEntry)) :=
  match exact.lookup level with
  | some entry => (putExact level · exact) <$> visit entry
  | none => pure exact

/-- `SubscriptionSetNode::dispatch`: the leaf of `#`, then the entries that match the
level. `visit` is what happens to an entry. -/
def dispatchWith (visit : SubscriptionSetEntry → StateM Mail SubscriptionSetEntry)
    (msg : IncomingPublishPacket) (level : Str) (node : SubscriptionSetNode) :
    StateM Mail SubscriptionSetNode := do
  let anyRecursive ← node.anyRecursive.dispatch msg
  let any ← visitAny visit node.any
  let exact ← visitExact visit level node.exact
  return { exact, any, anyRecursive }

/-- Hand a message to every leaf that matches its topic, given by its levels. -/
def dispatch (msg : IncomingPublishPacket) :
    List Str → SubscriptionSetNode → StateM Mail SubscriptionSetNode
  | [], node => return node
  | [last], node =>
    dispatchWith (fun entry => return { entry with sub := ← entry.sub.dispatch msg })
      msg last node
  | head :: next :: rest, node =>
    dispatchWith
      (fun entry => return { entry with children := ← entry.children.dispatch msg (next :: rest) })
      msg head node

/-! ### Flags of the leaves -/

/-- Whether the client is subscribed to a filter. -/
def isSubscribed (node : SubscriptionSetNode) (ls : List Str) : Bool :=
  match node.get ls with
  | .ok (some sub) => sub.subscribed
  | _ => false

/-- Whether `get` rejects a filter. -/
def rejects (node : SubscriptionSetNode) (ls : List Str) : Bool :=
  match node.get ls with
  | .error _ => true
  | .ok _ => false

/-- The entry of a level, or the one that would be created for it. -/
def entry (level : Str) (node : SubscriptionSetNode) : SubscriptionSetEntry :=
  (node.child level).getD default

theorem entry_setChild (level level' : Str) (e : SubscriptionSetEntry)
    (node : SubscriptionSetNode) :
    (node.setChild level e).entry level' = if level' = level then e else node.entry level' := by
  unfold entry
  rw [child_setChild]
  split <;> rfl

theorem child_default (level : Str) : (default : SubscriptionSetNode).child level = none := by
  unfold child
  split <;> rfl

/-- The leaf of a filter, or an empty one if there is none. -/
def leaf (node : SubscriptionSetNode) (ls : List Str) : Subscription :=
  match node.get ls with
  | .ok (some sub) => sub
  | _ => default

theorem isSubscribed_eq_leaf (node : SubscriptionSetNode) (ls : List Str) :
    node.isSubscribed ls = (node.leaf ls).subscribed := by
  unfold isSubscribed leaf
  match node.get ls with
  | .ok (some _) | .ok none | .error _ => rfl

@[simp] theorem leaf_default (ls : List Str) :
    (default : SubscriptionSetNode).leaf ls = default := by
  unfold leaf
  match ls with
  | [] => rfl
  | [last] =>
    rw [get, child_default]
    split <;> rename_i h
    · split at h <;> cases h
      rfl
    · rfl
  | head :: next :: rest =>
    rw [get, child_default]
    split <;> rename_i h
    · split at h <;> cases h
    · rfl

@[simp] theorem isSubscribed_default (ls : List Str) :
    (default : SubscriptionSetNode).isSubscribed ls = false := by
  rw [isSubscribed_eq_leaf, leaf_default, Subscription.subscribed_default]

@[simp] theorem leaf_recursive (node : SubscriptionSetNode) :
    node.leaf [recursiveWildcard] = node.anyRecursive := rfl

@[simp] theorem leaf_recursive_cons (node : SubscriptionSetNode) (next : Str)
    (rest : List Str) : node.leaf (recursiveWildcard :: next :: rest) = default := rfl

theorem leaf_last {node : SubscriptionSetNode} {last : Str} (h : last ≠ recursiveWildcard) :
    node.leaf [last] = (node.entry last).sub := by
  rw [leaf, get, if_neg h, entry]
  cases node.child last <;> rfl

theorem leaf_cons {node : SubscriptionSetNode} {head next : Str} {rest : List Str}
    (h : head ≠ recursiveWildcard) :
    node.leaf (head :: next :: rest) = (node.entry head).children.leaf (next :: rest) := by
  rw [leaf, get, if_neg h, entry]
  cases node.child head with
  | none => exact (leaf_default _).symm
  | some e => rfl

/-- Two nodes agree on a filter if the parts of them that it visits agree. -/
theorem leaf_congr {node node' : SubscriptionSetNode} {ls : List Str}
    (hrec : ls = [recursiveWildcard] → node'.anyRecursive = node.anyRecursive)
    (hlast : ∀ last, last ≠ recursiveWildcard → ls = [last] →
      (node'.entry last).sub = (node.entry last).sub)
    (hcons : ∀ head next rest, head ≠ recursiveWildcard → ls = head :: next :: rest →
      (node'.entry head).children.leaf (next :: rest) =
        (node.entry head).children.leaf (next :: rest)) :
    node'.leaf ls = node.leaf ls := by
  match ls with
  | [] => rfl
  | [last] =>
    by_cases h : last = recursiveWildcard
    · subst h
      exact hrec rfl
    · rw [leaf_last h, leaf_last h, hlast last h rfl]
  | head :: next :: rest =>
    by_cases h : head = recursiveWildcard
    · subst h
      rfl
    · rw [leaf_cons h, leaf_cons h, hcons head next rest h rfl]

theorem leaf_setChild {node : SubscriptionSetNode} {level : Str} {e : SubscriptionSetEntry}
    {ls : List Str} (hsub : ls = [level] → e.sub = (node.entry level).sub)
    (hchildren : ∀ next rest, ls = level :: next :: rest →
      e.children.leaf (next :: rest) = (node.entry level).children.leaf (next :: rest)) :
    (node.setChild level e).leaf ls = node.leaf ls := by
  apply leaf_congr
  · intro _
    rw [anyRecursive_setChild]
  · intro last _ hls
    rw [entry_setChild]
    split
    · rename_i heq
      subst heq
      exact hsub hls
    · rfl
  · intro head next rest _ hls
    rw [entry_setChild]
    split
    · rename_i heq
      subst heq
      exact hchildren next rest hls
    · rfl

/-- Creating a leaf changes no other one. -/
theorem leaf_getOrCreate_ne (f : Subscription → Subscription) :
    ∀ (ls ls' : List Str) (node : SubscriptionSetNode), ls' ≠ ls →
      (getOrCreate f ls node).2.leaf ls' = node.leaf ls'
  | [], _, _, _ => rfl
  | [last], ls', node, hne => by
    rw [getOrCreate]
    split
    · rename_i heq
      subst heq
      exact leaf_congr (fun h => absurd h hne) (fun _ _ _ => rfl) (fun _ _ _ _ _ => rfl)
    · exact leaf_setChild (fun h => absurd h hne) (fun _ _ _ => rfl)
  | head :: next :: rest, ls', node, hne => by
    rw [getOrCreate]
    split
    · rfl
    · refine leaf_setChild (fun _ => rfl) ?_
      intro next' rest' hls
      exact leaf_getOrCreate_ne f (next :: rest) (next' :: rest') _
        (fun h => hne (hls.trans (congrArg _ h)))

theorem isSubscribed_getOrCreate_ne (f : Subscription → Subscription) (ls ls' : List Str)
    (node : SubscriptionSetNode) (hne : ls' ≠ ls) :
    (getOrCreate f ls node).2.isSubscribed ls' = node.isSubscribed ls' := by
  rw [isSubscribed_eq_leaf, leaf_getOrCreate_ne f ls ls' node hne, isSubscribed_eq_leaf]

/-- The leaf of a filter is created and changed, unless `#` is misplaced in the filter. -/
theorem leaf_getOrCreate_self (f : Subscription → Subscription) :
    ∀ (ls : List Str) (node : SubscriptionSetNode), ls ≠ [] → recursiveWildcard ∉ ls.dropLast →
      (getOrCreate f ls node).2.leaf ls = f (node.leaf ls)
  | [], _, hne, _ => absurd rfl hne
  | [last], node, _, _ => by
    rw [getOrCreate]
    split
    · rename_i heq
      subst heq
      rfl
    · rename_i hlast
      rw [leaf_last hlast, entry_setChild, if_pos rfl, leaf_last hlast]
      rfl
  | head :: next :: rest, node, _, hvalid => by
    rw [List.dropLast_cons_of_ne_nil (List.cons_ne_nil _ _), List.mem_cons, not_or] at hvalid
    have hhead : head ≠ recursiveWildcard := Ne.symm hvalid.1
    rw [getOrCreate, if_neg hhead, leaf_cons hhead, entry_setChild, if_pos rfl, leaf_cons hhead]
    exact leaf_getOrCreate_self f (next :: rest) _ (List.cons_ne_nil _ _) hvalid.2

/-- The new leaf is subscribed, or else the filter is one that `get` rejects. -/
theorem getOrCreate_self (f : Subscription → Subscription)
    (hf : ∀ sub, (f sub).subscribed = true) :
    ∀ (ls : List Str) (node : SubscriptionSetNode), ls ≠ [] →
      (getOrCreate f ls node).2.isSubscribed ls = true ∨
        (getOrCreate f ls node).2.rejects ls = true
  | [], _, hne => absurd rfl hne
  | [last], node, _ => by
    refine Or.inl ?_
    rw [getOrCreate]
    split
    · rename_i heq
      subst heq
      exact hf _
    · rename_i hlast
      rw [isSubscribed_eq_leaf, leaf_last hlast, entry_setChild, if_pos rfl]
      exact hf _
  | head :: next :: rest, node, _ => by
    rw [getOrCreate]
    split
    · rename_i heq
      subst heq
      exact Or.inr rfl
    · rename_i hhead
      refine (getOrCreate_self f hf (next :: rest) (node.entry head).children
        (List.cons_ne_nil _ _)).imp ?_ ?_
      · intro h
        rw [isSubscribed_eq_leaf, leaf_cons hhead, entry_setChild, if_pos rfl,
          ← isSubscribed_eq_leaf]
        exact h
      · intro h
        rw [rejects, get, if_neg hhead, child_setChild, if_pos rfl]
        exact h

/-! A filter is rejected only for a `#` in front of its last level, and such a filter has
no leaf. -/

theorem rejects_of_mem : ∀ (ls : List Str) (node : SubscriptionSetNode),
    node.rejects ls = true → recursiveWildcard ∈ ls.dropLast
  | [], _, hr => by cases hr
  | [last], node, hr => by
    rw [rejects, get] at hr
    by_cases hlast : last = recursiveWildcard <;> simp [hlast] at hr
  | head :: next :: rest, node, hr => by
    rw [List.dropLast_cons_of_ne_nil (List.cons_ne_nil _ _)]
    by_cases hhead : head = recursiveWildcard
    · rw [hhead]
      exact List.mem_cons_self
    · refine List.mem_cons_of_mem _ ?_
      rw [rejects, get, if_neg hhead] at hr
      cases hc : node.child head with
      | none =>
        rw [hc] at hr
        cases hr
      | some e =>
        rw [hc] at hr
        exact rejects_of_mem (next :: rest) e.children hr

theorem leaf_of_mem : ∀ (ls : List Str) (node : SubscriptionSetNode),
    recursiveWildcard ∈ ls.dropLast → node.leaf ls = default
  | [], _, h => by cases h
  | [_], _, h => by cases h
  | head :: next :: rest, node, h => by
    by_cases hhead : head = recursiveWildcard
    · subst hhead
      rfl
    · rw [List.dropLast_cons_of_ne_nil (List.cons_ne_nil _ _)] at h
      rw [leaf_cons hhead]
      refine leaf_of_mem (next :: rest) _ ?_
      rcases List.mem_cons.mp h with heq | hmem
      · exact absurd heq.symm hhead
      · exact hmem

/-! Nodes are never removed, so a filter that was rejected once stays rejected. -/

theorem rejects_mono {node node' : SubscriptionSetNode} {ls : List Str}
    (h : ∀ head next rest e, ls = head :: next :: rest → node.child head = some e →
      e.children.rejects (next :: rest) = true →
        ∃ e', node'.child head = some e' ∧ e'.children.rejects (next :: rest) = true)
    (hr : node.rejects ls = true) : node'.rejects ls = true := by
  match ls with
  | [] => cases hr
  | [last] =>
    rw [rejects, get] at hr
    by_cases hlast : last = recursiveWildcard <;> simp [hlast] at hr
  | head :: next :: rest =>
    by_cases hhead : head = recursiveWildcard
    · subst hhead
      rfl
    · rw [rejects, get, if_neg hhead] at hr ⊢
      cases hc : node.child head with
      | none =>
        rw [hc] at hr
        cases hr
      | some e =>
        rw [hc] at hr
        obtain ⟨e', hc', hr'⟩ := h head next rest e rfl hc hr
        rw [hc']
        exact hr'

theorem rejects_setChild {node : SubscriptionSetNode} {level : Str} {e : SubscriptionSetEntry}
    {ls : List Str}
    (h : ∀ next rest e₀, ls = level :: next :: rest → node.child level = some e₀ →
      e₀.children.rejects (next :: rest) = true → e.children.rejects (next :: rest) = true)
    (hr : node.rejects ls = true) : (node.setChild level e).rejects ls = true := by
  refine rejects_mono ?_ hr
  intro head next rest e₀ hls hc hr₀
  rw [child_setChild]
  by_cases heq : head = level
  · subst heq
    exact ⟨e, if_pos rfl, h next rest e₀ hls hc hr₀⟩
  · exact ⟨e₀, by rw [if_neg heq, hc], hr₀⟩

theorem rejects_getOrCreate (f : Subscription → Subscription) :
    ∀ (ls ls' : List Str) (node : SubscriptionSetNode), node.rejects ls' = true →
      (getOrCreate f ls node).2.rejects ls' = true
  | [], _, _, hr => hr
  | [last], ls', node, hr => by
    rw [getOrCreate]
    split
    · refine rejects_mono ?_ hr
      exact fun _ _ _ e _ hc hr₀ => ⟨e, hc, hr₀⟩
    · refine rejects_setChild ?_ hr
      intro next rest e₀ _ hc hr₀
      rw [hc]
      exact hr₀
  | head :: next :: rest, ls', node, hr => by
    rw [getOrCreate]
    split
    · exact hr
    · refine rejects_setChild ?_ hr
      intro next' rest' e₀ _ hc hr₀
      refine rejects_getOrCreate f (next :: rest) (next' :: rest') _ ?_
      rw [hc]
      exact hr₀

/-! Changing a leaf through a reference. -/

theorem rejects_update (f : Subscription → Subscription) :
    ∀ (ls ls' : List Str) (node : SubscriptionSetNode), node.rejects ls' = true →
      (update f ls node).rejects ls' = true
  | [], _, _, hr => hr
  | [last], ls', node, hr => by
    rw [update]
    split
    · refine rejects_mono ?_ hr
      exact fun _ _ _ e _ hc hr₀ => ⟨e, hc, hr₀⟩
    · split
      · rename_i e he
        refine rejects_setChild ?_ hr
        intro next rest e₀ _ hc hr₀
        rw [he] at hc
        cases hc
        exact hr₀
      · exact hr
  | head :: next :: rest, ls', node, hr => by
    rw [update]
    split
    · exact hr
    · split
      · rename_i e he
        refine rejects_setChild ?_ hr
        intro next' rest' e₀ _ hc hr₀
        rw [he] at hc
        cases hc
        exact rejects_update f (next :: rest) (next' :: rest') _ hr₀
      · exact hr

theorem leaf_update_ne (f : Subscription → Subscription) :
    ∀ (ls ls' : List Str) (node : SubscriptionSetNode), ls' ≠ ls →
      (update f ls node).leaf ls' = node.leaf ls'
  | [], _, _, _ => rfl
  | [last], ls', node, hne => by
    rw [update]
    split
    · rename_i heq
      subst heq
      exact leaf_congr (fun h => absurd h hne) (fun _ _ _ => rfl) (fun _ _ _ _ _ => rfl)
    · split
      · rename_i e he
        refine leaf_setChild (fun h => absurd h hne) (fun _ _ _ => ?_)
        rw [entry, he]
        rfl
      · rfl
  | head :: next :: rest, ls', node, hne => by
    rw [update]
    split
    · rfl
    · split
      · rename_i e he
        have hentry : node.entry head = e := by
          rw [entry, he]
          rfl
        refine leaf_setChild (fun _ => ?_) ?_
        · rw [hentry]
        · intro next' rest' hls
          rw [hentry]
          exact leaf_update_ne f (next :: rest) (next' :: rest') _
            (fun h => hne (hls.trans (congrArg _ h)))
      · rfl

/-- `get` finds the changed leaf, and it finds one where it has found one before. -/
theorem get_update_self (f : Subscription → Subscription) :
    ∀ (ls : List Str) (node : SubscriptionSetNode),
      (update f ls node).get ls = (node.get ls).map (Option.map f)
  | [], _ => rfl
  | [last], node => by
    by_cases hlast : last = recursiveWildcard
    · rw [update, if_pos hlast, get, if_pos hlast, get, if_pos hlast]
      rfl
    · rw [update, if_neg hlast, get, if_neg hlast, get, if_neg hlast]
      cases hc : node.child last with
      | none =>
        simp only [hc]
        rfl
      | some e =>
        simp only [child_setChild]
        rfl
  | head :: next :: rest, node => by
    by_cases hhead : head = recursiveWildcard
    · rw [update, if_pos hhead, get, if_pos hhead]
      rfl
    · rw [update, if_neg hhead, get, if_neg hhead, get, if_neg hhead]
      cases hc : node.child head with
      | none =>
        simp only [hc]
        rfl
      | some e =>
        simp only [child_setChild]
        exact get_update_self f (next :: rest) e.children

/-- What a change does to the leaf it is made to, if it changes nothing in an empty one. -/
theorem leaf_update_self {f : Subscription → Subscription} (hf : f default = default)
    (ls : List Str) (node : SubscriptionSetNode) :
    (update f ls node).leaf ls = f (node.leaf ls) := by
  rw [leaf, get_update_self, leaf]
  match node.get ls with
  | .ok (some _) => rfl
  | .ok none | .error _ => exact hf.symm

theorem isSubscribed_update_ne (f : Subscription → Subscription) (ls ls' : List Str)
    (node : SubscriptionSetNode) (hne : ls' ≠ ls) :
    (update f ls node).isSubscribed ls' = node.isSubscribed ls' := by
  rw [isSubscribed_eq_leaf, leaf_update_ne f ls ls' node hne, isSubscribed_eq_leaf]

/-- What a change does to the flag of the leaf it is made to. -/
theorem isSubscribed_update_self {f : Subscription → Subscription} (g : Bool → Bool)
    (hf : ∀ sub, (f sub).subscribed = g sub.subscribed) (hg : g false = false)
    (ls : List Str) (node : SubscriptionSetNode) :
    (update f ls node).isSubscribed ls = g (node.isSubscribed ls) := by
  rw [isSubscribed, get_update_self, isSubscribed]
  match node.get ls with
  | .ok (some sub) => exact hf sub
  | .ok none | .error _ => exact hg.symm

/-! Dispatching a message changes no flag. -/

/-- Two nodes are subscribed alike if the parts of them that a filter visits are. -/
theorem isSubscribed_congr {node node' : SubscriptionSetNode} {ls : List Str}
    (hrec : node'.anyRecursive.subscribed = node.anyRecursive.subscribed)
    (hlast : ∀ last, (node'.entry last).sub.subscribed = (node.entry last).sub.subscribed)
    (hcons : ∀ head rest, (node'.entry head).children.isSubscribed rest =
      (node.entry head).children.isSubscribed rest) :
    node'.isSubscribed ls = node.isSubscribed ls := by
  match ls with
  | [] => rfl
  | [last] =>
    by_cases h : last = recursiveWildcard
    · subst h
      exact hrec
    · rw [isSubscribed_eq_leaf, isSubscribed_eq_leaf, leaf_last h, leaf_last h, hlast]
  | head :: next :: rest =>
    by_cases h : head = recursiveWildcard
    · subst h
      rfl
    · rw [isSubscribed_eq_leaf, isSubscribed_eq_leaf, leaf_cons h, leaf_cons h,
        ← isSubscribed_eq_leaf, ← isSubscribed_eq_leaf, hcons]

/-- The second node is subscribed to the same filters and rejects no fewer. -/
structure SameFlags (node node' : SubscriptionSetNode) : Prop where
  isSubscribed : ∀ ls, node'.isSubscribed ls = node.isSubscribed ls
  rejects : ∀ ls, node.rejects ls = true → node'.rejects ls = true

/-- The same for the two parts of an entry. -/
structure SameEntry (e e' : SubscriptionSetEntry) : Prop where
  sub : e'.sub.subscribed = e.sub.subscribed
  children : SameFlags e.children e'.children

theorem SameFlags.refl (node : SubscriptionSetNode) : SameFlags node node :=
  ⟨fun _ => rfl, fun _ h => h⟩

theorem SameFlags.of_child {node node' : SubscriptionSetNode}
    (hrec : node'.anyRecursive.subscribed = node.anyRecursive.subscribed)
    (hsome : ∀ level e, node.child level = some e →
      ∃ e', node'.child level = some e' ∧ SameEntry e e')
    (hnone : ∀ level, node.child level = none → node'.child level = none) :
    SameFlags node node' := by
  have hentry : ∀ level, SameEntry (node.entry level) (node'.entry level) := by
    intro level
    unfold entry
    cases hc : node.child level with
    | none =>
      rw [hnone level hc]
      exact ⟨rfl, .refl _⟩
    | some e =>
      obtain ⟨e', hc', hsame⟩ := hsome level e hc
      rw [hc']
      exact hsame
  constructor
  · intro ls
    exact isSubscribed_congr hrec (fun last => (hentry last).sub)
      (fun head _ => (hentry head).children.isSubscribed _)
  · intro ls
    refine rejects_mono ?_
    intro head next rest e _ hc hr
    obtain ⟨e', hc', hsame⟩ := hsome head e hc
    exact ⟨e', hc', hsame.children.rejects _ hr⟩

section Visit

variable {visit : SubscriptionSetEntry → StateM Mail SubscriptionSetEntry}
  (hvisit : ∀ e mail, SameEntry e ((visit e).run mail).1)

include hvisit

theorem sameEntry_visitAny {any : Option SubscriptionSetEntry} {e : SubscriptionSetEntry}
    (h : any = some e) (mail : Mail) :
    ∃ e', ((visitAny visit any).run mail).1 = some e' ∧ SameEntry e e' := by
  subst h
  exact ⟨_, rfl, hvisit e mail⟩

theorem sameEntry_visitExact (level : Str) {exact : List (Str × SubscriptionSetEntry)} {k : Str}
    {e : SubscriptionSetEntry} (h : exact.lookup k = some e) (mail : Mail) :
    ∃ e', ((visitExact visit level exact).run mail).1.lookup k = some e' ∧ SameEntry e e' := by
  unfold visitExact
  cases hl : exact.lookup level with
  | none => exact ⟨e, h, rfl, .refl _⟩
  | some e₀ =>
    by_cases hk : k = level
    · subst hk
      rw [hl] at h
      cases h
      exact ⟨_, (lookup_putExact _ _ _ _).trans (if_pos rfl), hvisit e mail⟩
    · exact ⟨e, (lookup_putExact _ _ _ _).trans (by rw [if_neg hk, h]), rfl, .refl _⟩

omit hvisit in
theorem visitExact_none (level : Str) {exact : List (Str × SubscriptionSetEntry)} {k : Str}
    (h : exact.lookup k = none) (mail : Mail) :
    ((visitExact visit level exact).run mail).1.lookup k = none := by
  unfold visitExact
  cases hl : exact.lookup level with
  | none => exact h
  | some e₀ =>
    have hne : k ≠ level := by
      rintro rfl
      rw [hl] at h
      cases h
    exact (lookup_putExact _ _ _ _).trans (by rw [if_neg hne, h])

theorem sameFlags_dispatchWith (msg : IncomingPublishPacket) (level : Str)
    (node : SubscriptionSetNode) (mail : Mail) :
    SameFlags node ((dispatchWith visit msg level node).run mail).1 := by
  refine .of_child rfl ?_ ?_
  · intro k e h
    unfold child at h ⊢
    split at h
    · rename_i hk
      rw [if_pos hk]
      exact sameEntry_visitAny hvisit h _
    · rename_i hk
      rw [if_neg hk]
      exact sameEntry_visitExact hvisit level h _
  · intro k h
    unfold child at h ⊢
    split at h
    · rename_i hk
      rw [if_pos hk]
      show ((visitAny visit node.any).run _).1 = none
      rw [h]
      rfl
    · rename_i hk
      rw [if_neg hk]
      exact visitExact_none level h _

end Visit

theorem sameFlags_dispatch (msg : IncomingPublishPacket) :
    ∀ (ls : List Str) (node : SubscriptionSetNode) (mail : Mail),
      SameFlags node ((dispatch msg ls node).run mail).1
  | [], node, _ => .refl node
  | [last], node, mail => by
    refine sameFlags_dispatchWith ?_ msg last node mail
    exact fun e mail => ⟨rfl, .refl _⟩
  | head :: next :: rest, node, mail => by
    refine sameFlags_dispatchWith ?_ msg head node mail
    exact fun e mail => ⟨rfl, sameFlags_dispatch msg (next :: rest) e.children mail⟩

end SubscriptionSetNode

/-! ## The root -/

structure SubscriptionSet where
  root : SubscriptionSetNode

instance : Inhabited SubscriptionSet := ⟨⟨default⟩⟩

namespace SubscriptionSet

def get (set : SubscriptionSet) (topic : Str) : Except Unit (Option Subscription) :=
  set.root.get (levels topic)

def update (f : Subscription → Subscription) (topic : Str) (set : SubscriptionSet) :
    SubscriptionSet := ⟨set.root.update f (levels topic)⟩

def getOrCreate (f : Subscription → Subscription) (topic : Str) (set : SubscriptionSet) :
    Except Unit Unit × SubscriptionSet :=
  let below := set.root.getOrCreate f (levels topic)
  (below.1, ⟨below.2⟩)

/-- Clear the leaf of a filter. `Ok(true)` means that it was subscribed. -/
def clear (topic : Str) (set : SubscriptionSet) : Except Unit Bool × SubscriptionSet :=
  match set.get topic with
  | .error () => (.error (), set)
  | .ok (some sub) =>
    if sub.subscribed then (.ok true, set.update Subscription.clear topic) else (.ok false, set)
  | .ok none => (.ok false, set)

def dispatch (msg : IncomingPublishPacket) (set : SubscriptionSet) :
    StateM Mail SubscriptionSet := do
  return ⟨← set.root.dispatch msg (levels msg.topic)⟩

/-! ### Flags of the leaves -/

/-- Whether the client is subscribed to a filter. -/
def isSubscribed (set : SubscriptionSet) (topic : Str) : Bool :=
  set.root.isSubscribed (levels topic)

/-- Whether `get` rejects a filter. -/
def rejects (set : SubscriptionSet) (topic : Str) : Bool := set.root.rejects (levels topic)

@[simp] theorem isSubscribed_default (topic : Str) :
    (default : SubscriptionSet).isSubscribed topic = false :=
  SubscriptionSetNode.isSubscribed_default _

variable {set : SubscriptionSet} {topic : Str}

theorem isSubscribed_of_get {sub : Subscription} (h : set.get topic = .ok (some sub)) :
    set.isSubscribed topic = sub.subscribed := by
  rw [isSubscribed, SubscriptionSetNode.isSubscribed, ← get, h]

theorem isSubscribed_of_get_none (h : set.get topic = .ok none) :
    set.isSubscribed topic = false := by
  rw [isSubscribed, SubscriptionSetNode.isSubscribed, ← get, h]

theorem rejects_iff_get : set.rejects topic = true ↔ set.get topic = .error () := by
  rw [rejects, SubscriptionSetNode.rejects, ← get]
  cases set.get topic <;> simp

theorem isSubscribed_iff_get : set.isSubscribed topic = true ↔
    ∃ leaf, set.get topic = .ok (some leaf) ∧ leaf.subscribed = true := by
  rw [isSubscribed, SubscriptionSetNode.isSubscribed, ← get]
  match set.get topic with
  | .error _ | .ok none | .ok (some _) => simp

theorem isSubscribed_of_rejects (h : set.rejects topic = true) :
    set.isSubscribed topic = false := by
  rw [isSubscribed, SubscriptionSetNode.isSubscribed, ← get, rejects_iff_get.mp h]

theorem rejects_of_valid (h : validFilter topic = true) : set.rejects topic = false := by
  rw [← Bool.not_eq_true]
  intro hr
  have hmem := SubscriptionSetNode.rejects_of_mem _ _ hr
  simp [validFilter, hmem] at h

theorem isSubscribed_of_invalid (h : validFilter topic = false) :
    set.isSubscribed topic = false := by
  have hmem : recursiveWildcard ∈ (levels topic).dropLast := by simpa [validFilter] using h
  rw [isSubscribed, SubscriptionSetNode.isSubscribed_eq_leaf,
    SubscriptionSetNode.leaf_of_mem _ _ hmem, Subscription.subscribed_default]

theorem isSubscribed_getOrCreate_ne (f : Subscription → Subscription) {topic' : Str}
    (h : topic' ≠ topic) :
    (set.getOrCreate f topic).2.isSubscribed topic' = set.isSubscribed topic' :=
  SubscriptionSetNode.isSubscribed_getOrCreate_ne f _ _ _ (fun hl => h (levels_injective hl))

theorem getOrCreate_self {f : Subscription → Subscription}
    (hf : ∀ sub, (f sub).subscribed = true) (set : SubscriptionSet) (topic : Str) :
    (set.getOrCreate f topic).2.isSubscribed topic = true ∨
      (set.getOrCreate f topic).2.rejects topic = true :=
  SubscriptionSetNode.getOrCreate_self f hf _ _ (levels_ne_nil topic)

theorem rejects_getOrCreate (f : Subscription → Subscription) (topic : Str) {topic' : Str}
    (h : set.rejects topic' = true) : (set.getOrCreate f topic).2.rejects topic' = true :=
  SubscriptionSetNode.rejects_getOrCreate f _ _ _ h

theorem rejects_update (f : Subscription → Subscription) (topic : Str) {topic' : Str}
    (h : set.rejects topic' = true) : (set.update f topic).rejects topic' = true :=
  SubscriptionSetNode.rejects_update f _ _ _ h

/-- A change that leaves the flag of a leaf alone leaves all of them alone. -/
theorem isSubscribed_update {f : Subscription → Subscription}
    (hf : ∀ sub, (f sub).subscribed = sub.subscribed) (set : SubscriptionSet)
    (topic topic' : Str) : (set.update f topic).isSubscribed topic' = set.isSubscribed topic' := by
  by_cases h : topic' = topic
  · subst h
    exact SubscriptionSetNode.isSubscribed_update_self id hf rfl _ _
  · exact SubscriptionSetNode.isSubscribed_update_ne f _ _ _ (fun hl => h (levels_injective hl))

theorem isSubscribed_clear (set : SubscriptionSet) (topic topic' : Str) :
    (set.clear topic).2.isSubscribed topic' =
      (set.isSubscribed topic' && !decide (topic' = topic)) := by
  have hself : ∀ b, set.isSubscribed topic = b → b = false →
      set.isSubscribed topic' = (set.isSubscribed topic' && !decide (topic' = topic)) := by
    intro b hb hfalse
    by_cases h : topic' = topic
    · subst h
      rw [hb, hfalse]
      rfl
    · simp [h]
  unfold clear
  split
  · rename_i hget
    refine hself _ rfl ?_
    rw [isSubscribed, SubscriptionSetNode.isSubscribed, ← get, hget]
  · rename_i sub hget
    split
    · by_cases h : topic' = topic
      · subst h
        have := SubscriptionSetNode.isSubscribed_update_self (f := Subscription.clear)
          (fun _ => false) (fun _ => rfl) rfl (levels topic') set.root
        simpa [isSubscribed, update] using this
      · have := SubscriptionSetNode.isSubscribed_update_ne Subscription.clear (levels topic)
          (levels topic') set.root (fun hl => h (levels_injective hl))
        simpa [isSubscribed, update, h] using this
    · rename_i hsub
      refine hself _ (isSubscribed_of_get hget) (by simpa using hsub)
  · rename_i hget
    exact hself _ (isSubscribed_of_get_none hget) rfl

/-- `clear` reports whether the leaf was subscribed. -/
theorem clear_true_iff : (set.clear topic).1 = .ok true ↔ set.isSubscribed topic = true := by
  unfold clear
  split
  · rename_i hget
    rw [isSubscribed, SubscriptionSetNode.isSubscribed, ← get, hget]
    simp
  · rename_i sub hget
    rw [isSubscribed_of_get hget]
    cases sub.subscribed <;> simp
  · rename_i hget
    rw [isSubscribed_of_get_none hget]
    simp

theorem clear_of_subscribed (h : set.isSubscribed topic = true) :
    (set.clear topic).2 = set.update Subscription.clear topic := by
  obtain ⟨leaf, hget, hleaf⟩ := isSubscribed_iff_get.mp h
  simp only [clear, hget]
  rw [if_pos hleaf]

theorem clear_of_ne_true (h : (set.clear topic).1 ≠ .ok true) : (set.clear topic).2 = set := by
  unfold clear at h ⊢
  split
  · rfl
  · rename_i sub hget
    by_cases hsub : sub.subscribed = true
    · simp [hget, hsub] at h
    · rw [if_neg hsub]
  · rfl

theorem rejects_clear (topic : Str) {topic' : Str} (h : set.rejects topic' = true) :
    (set.clear topic).2.rejects topic' = true := by
  unfold clear
  split
  · exact h
  · split
    · exact rejects_update _ _ h
    · exact h
  · exact h

theorem isSubscribed_dispatch (msg : IncomingPublishPacket) (set : SubscriptionSet) (mail : Mail)
    (topic : Str) : ((set.dispatch msg).run mail).1.isSubscribed topic = set.isSubscribed topic :=
  (SubscriptionSetNode.sameFlags_dispatch msg (levels msg.topic) set.root mail).isSubscribed _

theorem rejects_dispatch (msg : IncomingPublishPacket) (mail : Mail)
    (h : set.rejects topic = true) : ((set.dispatch msg).run mail).1.rejects topic = true :=
  (SubscriptionSetNode.sameFlags_dispatch msg (levels msg.topic) set.root mail).rejects _ h

end SubscriptionSet

end Lmc
