import Lmc.Tree.Leaves
import Lmc.Tree.Set

/-!
# Routing

A filter matches a topic level by level; `filterMatches` says so without a tree. The tree
does not search for the filters that match: it follows the topic and branches three ways
at every level. The leaves that it comes to are the leaves of `matchingFilters`, each of
them once (`delivered_dispatch`), and only these change (`dispatched_dispatch`). For the
first it is needed that no node keeps a wildcard among its exact levels (`Clean`), which
holds because `getOrCreate` never puts one there.
-/

namespace Lmc

/-! ## Filters that match a topic -/

/-- A filter matches a topic, both given by their levels. -/
def levelsMatch : List Str → List Str → Bool
  | [], [] => true
  | f :: fs, t :: ts =>
    if f = recursiveWildcard then fs.isEmpty
    else (f == anyWildcard || f == t) && levelsMatch fs ts
  | _, _ => false

def filterMatches (filter topic : Str) : Bool := levelsMatch (levels filter) (levels topic)

example : filterMatches ['a', '/', '*', '/', 'c'] ['a', '/', '/', 'c'] = true := by decide
example : filterMatches ['a', '/', '#'] ['a'] = false := by decide

def isWildcard (level : Str) : Bool := level == anyWildcard || level == recursiveWildcard

/-- All filters that match a topic. -/
def matchingFilters : List Str → List (List Str)
  | [] => [[]]
  | t :: ts => [recursiveWildcard] :: ((matchingFilters ts).map (anyWildcard :: ·) ++
      if isWildcard t then [] else (matchingFilters ts).map (t :: ·))

theorem mem_map_cons {l x : Str} {ls : List Str} {m : List (List Str)} :
    l :: ls ∈ m.map (x :: ·) ↔ l = x ∧ ls ∈ m := by
  rw [List.mem_map]
  refine ⟨?_, ?_⟩
  · rintro ⟨ls', hmem, heq⟩
    obtain ⟨rfl, rfl⟩ := List.cons.inj heq
    exact ⟨rfl, hmem⟩
  · rintro ⟨rfl, hmem⟩
    exact ⟨ls, hmem, rfl⟩

theorem mem_plain {l t : Str} {ls : List Str} {m : List (List Str)} :
    l :: ls ∈ (if isWildcard t then [] else m.map (t :: ·)) ↔
      l = t ∧ isWildcard l = false ∧ ls ∈ m := by
  split
  · rename_i hwild
    refine ⟨fun h => absurd h List.not_mem_nil, ?_⟩
    rintro ⟨rfl, hplain, -⟩
    cases hplain.symm.trans hwild
  · rename_i hplain
    rw [mem_map_cons]
    refine and_congr_right ?_
    rintro rfl
    simp [hplain]

theorem mem_matchingFilters {ls ts : List Str} :
    ls ∈ matchingFilters ts ↔ levelsMatch ls ts = true := by
  induction ts generalizing ls with
  | nil => cases ls <;> simp [matchingFilters, levelsMatch]
  | cons t ts ih =>
    cases ls with
    | nil =>
      simp only [matchingFilters, levelsMatch, List.mem_cons, List.mem_append]
      split <;> simp
    | cons l ls =>
      simp only [matchingFilters, levelsMatch, List.mem_cons, List.mem_append, mem_map_cons,
        mem_plain, List.cons.injEq, ih]
      by_cases hrec : l = recursiveWildcard
      · have hany : recursiveWildcard ≠ anyWildcard := by decide
        simp [hrec, hany, isWildcard]
      · by_cases hany : l = anyWildcard
        · have hne : anyWildcard ≠ recursiveWildcard := by decide
          simp [hany, hne, isWildcard]
        · simp [hrec, hany, isWildcard]

theorem nodup_matchingFilters (ts : List Str) : (matchingFilters ts).Nodup := by
  induction ts with
  | nil => exact List.nodup_singleton _
  | cons t ts ih =>
    have hcons : ∀ x : Str, ((matchingFilters ts).map (x :: ·)).Nodup :=
      fun x => ih.map fun a b h => (List.cons.inj h).2
    have hany : recursiveWildcard ≠ anyWildcard := by decide
    rw [matchingFilters, List.nodup_cons, List.nodup_append']
    refine ⟨?_, hcons _, ?_, ?_⟩
    · rw [List.mem_append, mem_map_cons, mem_plain]
      rintro (⟨heq, -⟩ | ⟨-, hplain, -⟩)
      · exact hany heq
      · cases hplain
    · split
      · exact List.nodup_nil
      · exact hcons t
    · intro ls h₁ h₂
      obtain ⟨ls', -, rfl⟩ := List.mem_map.mp h₁
      cases (mem_plain.mp h₂).2.1

/-! ## Leaves behind an entry -/

/-- The leaf of a filter that goes on behind an entry. -/
def SubscriptionSetEntry.leaf (e : SubscriptionSetEntry) : List Str → Subscription
  | [] => e.sub
  | l :: ls => e.children.leaf (l :: ls)

theorem SubscriptionSetEntry.leaf_default (ls : List Str) :
    (default : SubscriptionSetEntry).leaf ls = default := by
  cases ls with
  | nil => rfl
  | cons l ls => exact SubscriptionSetNode.leaf_default _

namespace SubscriptionSetNode

variable {node : SubscriptionSetNode} {msg : IncomingPublishPacket}
  {visit : SubscriptionSetEntry → StateM Mail SubscriptionSetEntry}

theorem leaf_eq_entry {l : Str} (h : l ≠ recursiveWildcard) (ls : List Str) :
    node.leaf (l :: ls) = (node.entry l).leaf ls := by
  cases ls with
  | nil => exact leaf_last h
  | cons next rest => exact leaf_cons h

theorem entry_any : node.entry anyWildcard = node.any.getD default := rfl

theorem entry_exact {l : Str} (h : l ≠ anyWildcard) :
    node.entry l = (node.exact.lookup l).getD default := by
  rw [entry, child, if_neg h]

/-! ## Clean trees -/

/-- No exact level is a wildcard, in this node and below it. -/
inductive Clean : SubscriptionSetNode → Prop
  | mk (node : SubscriptionSetNode)
      (wild : ∀ level, isWildcard level = true → node.exact.lookup level = none)
      (below : ∀ level e, node.child level = some e → Clean e.children) : Clean node

theorem Clean.wild (h : node.Clean) {level : Str} (hwild : isWildcard level = true) :
    node.exact.lookup level = none := by
  cases h with
  | mk _ wild below => exact wild level hwild

theorem Clean.child (h : node.Clean) {level : Str} {e : SubscriptionSetEntry}
    (he : SubscriptionSetNode.child level node = some e) : e.children.Clean := by
  cases h with
  | mk _ wild below => exact below level e he

theorem clean_default : (default : SubscriptionSetNode).Clean := by
  refine .mk _ (fun _ _ => rfl) fun level e he => ?_
  rw [child_default] at he
  cases he

theorem Clean.entry (h : node.Clean) (level : Str) : (node.entry level).children.Clean := by
  unfold SubscriptionSetNode.entry
  cases hc : node.child level with
  | none => exact clean_default
  | some e => exact h.child hc

theorem Clean.setRecursive (h : node.Clean) (sub : Subscription) :
    Clean { node with anyRecursive := sub } :=
  .mk _ (fun _ hwild => h.wild hwild) fun _ _ he => h.child he

theorem Clean.setChild (h : node.Clean) {level : Str} (hlevel : level ≠ recursiveWildcard)
    {e : SubscriptionSetEntry} (he : e.children.Clean) : (node.setChild level e).Clean := by
  refine .mk _ (fun level' hwild => ?_) fun level' e' he' => ?_
  · unfold SubscriptionSetNode.setChild
    split
    · exact h.wild hwild
    · rename_i hany
      have hne : level' ≠ level := by
        rintro rfl
        simp [isWildcard, hany, hlevel] at hwild
      rw [lookup_putExact, if_neg hne]
      exact h.wild hwild
  · rw [child_setChild] at he'
    split at he'
    · cases he'
      exact he
    · exact h.child he'

theorem clean_getOrCreate (f : Subscription → Subscription) :
    ∀ (ls : List Str) (node : SubscriptionSetNode), node.Clean → (getOrCreate f ls node).2.Clean
  | [], _, h => h
  | [last], node, h => by
    rw [getOrCreate]
    split
    · exact h.setRecursive _
    · rename_i hlast
      exact h.setChild hlast (h.entry last)
  | head :: next :: rest, node, h => by
    rw [getOrCreate]
    split
    · exact h
    · rename_i hhead
      exact h.setChild hhead (clean_getOrCreate f (next :: rest) _ (h.entry head))

theorem clean_update (f : Subscription → Subscription) :
    ∀ (ls : List Str) (node : SubscriptionSetNode), node.Clean → (update f ls node).Clean
  | [], _, h => h
  | [last], node, h => by
    rw [update]
    split
    · exact h.setRecursive _
    · rename_i hlast
      split
      · rename_i e he
        have hbelow : e.children.Clean := h.child he
        exact h.setChild hlast hbelow
      · exact h
  | head :: next :: rest, node, h => by
    rw [update]
    split
    · exact h
    · rename_i hhead
      split
      · rename_i e he
        exact h.setChild hhead (clean_update f (next :: rest) _ (h.child he))
      · exact h

/-! ## Dispatching -/

section Keeps

variable {I : Mail → Prop}
  (hleaf : ∀ sub mail, I mail → I ((Subscription.dispatch sub msg).run mail).2)
  (hvisit : ∀ e mail, I mail → I ((visit e).run mail).2)

include hvisit in
theorem keeps_visitAny (any : Option SubscriptionSetEntry) {mail : Mail} (hmail : I mail) :
    I ((visitAny visit any).run mail).2 := by
  cases any with
  | none => exact hmail
  | some e => exact hvisit e mail hmail

include hleaf hvisit

/-- What every leaf and every visit leaves true of the receiving ends stays true. -/
theorem keeps_dispatchWith (level : Str) (node : SubscriptionSetNode) {mail : Mail}
    (hmail : I mail) : I ((dispatchWith visit msg level node).run mail).2 := by
  have hmail₁ := keeps_visitAny hvisit node.any (hleaf node.anyRecursive mail hmail)
  show I ((visitExact visit level node.exact).run _).2
  unfold visitExact
  cases node.exact.lookup level with
  | none => exact hmail₁
  | some e => exact hvisit e _ hmail₁

omit hvisit in
theorem keeps_dispatch : ∀ (ts : List Str) (node : SubscriptionSetNode) {mail : Mail}, I mail →
    I ((dispatch msg ts node).run mail).2
  | [], _, _, hmail => hmail
  | [last], node, _, hmail => by
    refine keeps_dispatchWith hleaf ?_ last node hmail
    exact fun e mail hmail => hleaf e.sub mail hmail
  | head :: next :: rest, node, _, hmail => by
    refine keeps_dispatchWith hleaf ?_ head node hmail
    exact fun e mail hmail => keeps_dispatch (next :: rest) e.children hmail

/-- Dispatching visits the entries of the level and of `*`. -/
theorem child_dispatchWith (node : SubscriptionSetNode) (level l : Str) {mail : Mail}
    (hmail : I mail) :
    ∃ m, I m ∧ ((dispatchWith visit msg level node).run mail).1.child l =
      if l = anyWildcard ∨ l = level then (node.child l).map fun e => ((visit e).run m).1
      else node.child l := by
  have hmail₁ := hleaf node.anyRecursive mail hmail
  generalize hm₁ : ((node.anyRecursive.dispatch msg).run mail).2 = m₁ at hmail₁
  have hmail₂ := keeps_visitAny hvisit node.any hmail₁
  have hnode : ((dispatchWith visit msg level node).run mail).1 =
      ⟨((visitExact visit level node.exact).run ((visitAny visit node.any).run m₁).2).1,
        ((visitAny visit node.any).run m₁).1, ((node.anyRecursive.dispatch msg).run mail).1⟩ := by
    rw [← hm₁]
    rfl
  rw [hnode]
  unfold child
  by_cases hany : l = anyWildcard
  · refine ⟨m₁, hmail₁, ?_⟩
    rw [if_pos hany, if_pos (Or.inl hany), if_pos hany]
    cases node.any <;> rfl
  · refine ⟨_, hmail₂, ?_⟩
    rw [if_neg hany, if_neg hany]
    unfold visitExact
    by_cases hl : l = level
    · rw [if_pos (Or.inr hl), ← hl]
      cases hc : node.exact.lookup l with
      | none => exact hc
      | some e => exact (lookup_putExact _ _ _ _).trans (if_pos rfl)
    · rw [if_neg (by simp [hany, hl])]
      cases hc : node.exact.lookup level with
      | none => rfl
      | some e => exact (lookup_putExact _ _ _ _).trans (if_neg hl)

end Keeps

theorem clean_dispatchWith
    (hvisit : ∀ e mail, e.children.Clean → ((visit e).run mail).1.children.Clean)
    (h : node.Clean) (level : Str) (mail : Mail) :
    ((dispatchWith visit msg level node).run mail).1.Clean := by
  refine .mk _ (fun level' hwild => visitExact_none level (h.wild hwild) _) fun level' e he => ?_
  obtain ⟨m, -, hchild⟩ : ∃ m, True ∧
      ((dispatchWith visit msg level node).run mail).1.child level' = _ :=
    child_dispatchWith (fun _ _ _ => trivial) (fun _ _ _ => trivial) node level level' trivial
  rw [hchild] at he
  split at he
  · obtain ⟨e₀, hc, rfl⟩ := Option.map_eq_some_iff.mp he
    exact hvisit e₀ m (h.child hc)
  · exact h.child he

theorem clean_dispatch (msg : IncomingPublishPacket) :
    ∀ (ts : List Str) (node : SubscriptionSetNode) (mail : Mail), node.Clean →
      ((dispatch msg ts node).run mail).1.Clean
  | [], _, _, h => h
  | [last], node, mail, h => by
    refine clean_dispatchWith ?_ h last mail
    exact fun e mail he => he
  | head :: next :: rest, node, mail, h => by
    refine clean_dispatchWith ?_ h head mail
    exact fun e mail he => clean_dispatch msg (next :: rest) e.children mail he

/-- The leaves that match a topic, in the order in which they are visited. -/
theorem map_leaf_matchingFilters (node : SubscriptionSetNode) (t : Str) (ts : List Str) :
    (matchingFilters (t :: ts)).map node.leaf = node.anyRecursive ::
      ((matchingFilters ts).map (node.entry anyWildcard).leaf ++
        if isWildcard t then [] else (matchingFilters ts).map (node.entry t).leaf) := by
  have hany : anyWildcard ≠ recursiveWildcard := by decide
  rw [matchingFilters, List.map_cons, List.map_append, List.map_map]
  have hbelow : node.leaf ∘ (anyWildcard :: ·) = (node.entry anyWildcard).leaf :=
    funext fun ls => leaf_eq_entry hany ls
  rw [hbelow, leaf_recursive]
  congr 2
  split
  · rfl
  · rename_i hplain
    have hrec : t ≠ recursiveWildcard := by
      rintro rfl
      exact hplain rfl
    rw [List.map_map]
    exact congrArg (List.map · _) (funext fun ls => leaf_eq_entry hrec ls)

section Deliveries

variable {ts : List Str}
  (hvisit : ∀ e mail, e.children.Clean →
    Delivered msg ((matchingFilters ts).map e.leaf) mail ((visit e).run mail).2)

include hvisit

omit hvisit in
theorem delivered_absent (msg : IncomingPublishPacket) (ts : List Str) (mail : Mail) :
    Delivered msg ((matchingFilters ts).map (default : SubscriptionSetEntry).leaf) mail mail := by
  refine .of_default (fun sub hsub => ?_) msg mail
  obtain ⟨ls, -, rfl⟩ := List.mem_map.mp hsub
  exact SubscriptionSetEntry.leaf_default ls

theorem delivered_visitAny (hclean : node.Clean) (mail : Mail) :
    Delivered msg ((matchingFilters ts).map (node.entry anyWildcard).leaf) mail
      ((visitAny visit node.any).run mail).2 := by
  rw [entry_any]
  cases hc : node.any with
  | none => exact delivered_absent msg ts mail
  | some e =>
    have hchild : node.child anyWildcard = some e := hc
    exact hvisit e mail (hclean.child hchild)

theorem delivered_visitExact (hclean : node.Clean) (t : Str) (mail : Mail) :
    Delivered msg (if isWildcard t then [] else (matchingFilters ts).map (node.entry t).leaf) mail
      ((visitExact visit t node.exact).run mail).2 := by
  unfold visitExact
  split
  · rename_i hwild
    rw [hclean.wild hwild]
    exact .nil msg mail
  · rename_i hplain
    have hany : t ≠ anyWildcard := by
      rintro rfl
      exact hplain rfl
    rw [entry_exact hany]
    cases hc : node.exact.lookup t with
    | none => exact delivered_absent msg ts mail
    | some e =>
      have hchild : node.child t = some e := by rw [child, if_neg hany, hc]
      exact hvisit e mail (hclean.child hchild)

theorem delivered_dispatchWith (hclean : node.Clean) (t : Str) (mail : Mail) :
    Delivered msg ((matchingFilters (t :: ts)).map node.leaf) mail
      ((dispatchWith visit msg t node).run mail).2 := by
  rw [map_leaf_matchingFilters]
  have hrec := (Subscription.dispatch_spec node.anyRecursive msg mail).1
  have hany := delivered_visitAny hvisit hclean ((node.anyRecursive.dispatch msg).run mail).2
  exact (hrec.append hany).append (delivered_visitExact hvisit hclean t _)

end Deliveries

/-- A message is handed out by the leaves of all filters that match, each of them once. -/
theorem delivered_dispatch (msg : IncomingPublishPacket) :
    ∀ (ts : List Str) (node : SubscriptionSetNode) (mail : Mail), ts ≠ [] → node.Clean →
      Delivered msg ((matchingFilters ts).map node.leaf) mail
        ((dispatch msg ts node).run mail).2
  | [], _, _, hne, _ => absurd rfl hne
  | [last], node, mail, _, h => by
    refine delivered_dispatchWith ?_ h last mail
    exact fun e mail _ => (Subscription.dispatch_spec e.sub msg mail).1
  | head :: next :: rest, node, mail, _, h => by
    refine delivered_dispatchWith (fun e mail he => ?_) h head mail
    have hbelow : (matchingFilters (next :: rest)).map e.leaf =
        (matchingFilters (next :: rest)).map e.children.leaf := by
      refine List.map_congr_left fun ls hls => ?_
      cases ls with
      | nil => cases mem_matchingFilters.mp hls
      | cons l ls => rfl
    rw [hbelow]
    exact delivered_dispatch msg (next :: rest) e.children mail (List.cons_ne_nil _ _) he

/-- The leaves that match a topic have forgotten the closed channels, all others are as
before. -/
def Dispatched (closed : Nat → Bool) (ts : List Str) (leaf leaf' : List Str → Subscription) :
    Prop :=
  ∀ ls, leaf' ls = if levelsMatch ls ts then (leaf ls).forget closed else leaf ls

theorem Dispatched.default (closed : Nat → Bool) (ts : List Str) :
    Dispatched closed ts (default : SubscriptionSetEntry).leaf
      (default : SubscriptionSetEntry).leaf := by
  intro ls
  rw [SubscriptionSetEntry.leaf_default]
  split <;> rfl

theorem dispatched_dispatchWith {ts : List Str} {mail : Mail}
    (hvisit : ∀ e m, m.closed = mail.closed →
      Dispatched mail.closed ts e.leaf ((visit e).run m).1.leaf)
    (hclosed : ∀ e m, m.closed = mail.closed → ((visit e).run m).2.closed = mail.closed)
    (node : SubscriptionSetNode) (t : Str) :
    Dispatched mail.closed (t :: ts) node.leaf
      ((dispatchWith visit msg t node).run mail).1.leaf := by
  intro ls
  match ls with
  | [] => rfl
  | l :: ls =>
    rw [levelsMatch]
    by_cases hrec : l = recursiveWildcard
    · subst hrec
      rw [if_pos rfl]
      cases ls with
      | nil => exact (Subscription.dispatch_spec node.anyRecursive msg mail).2
      | cons next rest => rfl
    · have hleaf : ∀ sub m, m.closed = mail.closed →
          ((Subscription.dispatch sub msg).run m).2.closed = mail.closed :=
        fun sub m hm => (Subscription.dispatch_spec sub msg m).1.closed.trans hm
      obtain ⟨m, hm, hchild⟩ := child_dispatchWith (I := fun m => m.closed = mail.closed)
        hleaf hclosed node t l rfl
      rw [if_neg hrec, leaf_eq_entry hrec, leaf_eq_entry hrec, entry, entry, hchild]
      by_cases hl : l = anyWildcard ∨ l = t
      · have hmatch : (l == anyWildcard || l == t) = true := by simpa using hl
        rw [hmatch, Bool.true_and, if_pos hl]
        cases node.child l with
        | none => exact Dispatched.default mail.closed ts ls
        | some e => exact hvisit e m hm ls
      · have hmatch : (l == anyWildcard || l == t) = false := by simpa using hl
        rw [hmatch, Bool.false_and, if_neg hl]
        rfl

theorem closed_dispatch (msg : IncomingPublishPacket) (ts : List Str)
    (node : SubscriptionSetNode) (mail : Mail) :
    ((dispatch msg ts node).run mail).2.closed = mail.closed :=
  keeps_dispatch (I := fun m => m.closed = mail.closed)
    (fun sub m hm => (Subscription.dispatch_spec sub msg m).1.closed.trans hm) ts node rfl

theorem dispatched_dispatch (msg : IncomingPublishPacket) :
    ∀ (ts : List Str) (node : SubscriptionSetNode) (mail : Mail), ts ≠ [] →
      Dispatched mail.closed ts node.leaf ((dispatch msg ts node).run mail).1.leaf
  | [], _, _, hne => absurd rfl hne
  | [last], node, mail, _ => by
    refine dispatched_dispatchWith ?_ ?_ node last
    · intro e m hm ls
      have hspec := (Subscription.dispatch_spec e.sub msg m).2
      rw [hm] at hspec
      cases ls with
      | nil => exact hspec
      | cons l ls => rfl
    · exact fun e m hm => (Subscription.dispatch_spec e.sub msg m).1.closed.trans hm
  | head :: next :: rest, node, mail, _ => by
    refine dispatched_dispatchWith ?_ ?_ node head
    · intro e m hm ls
      have hbelow := dispatched_dispatch msg (next :: rest) e.children m (List.cons_ne_nil _ _)
      rw [hm] at hbelow
      cases ls with
      | nil => rfl
      | cons l ls => exact hbelow (l :: ls)
    · exact fun e m hm => (closed_dispatch msg (next :: rest) e.children m).trans hm

end SubscriptionSetNode

end Lmc
