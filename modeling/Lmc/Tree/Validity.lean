import Lmc.Tree.Map

/-!
# Filters that the tree accepts

A filter is valid if it has `#` as its last level only. `get_or_create` walks along the whole
filter and rejects exactly the others. `get` and `clear` stop at the first level for which
there is no node, so they reject a filter only if the tree has the nodes of all levels in
front of its `#` (`get_error_iff`). Under this condition, and only then, the three agree
(`filter_validity`).
-/

namespace Lmc

namespace SubscriptionSetNode

/-- The levels in front of the first `#`. -/
def beforeRecursive (ls : List Str) : List Str := ls.takeWhile (· ≠ recursiveWildcard)

theorem beforeRecursive_cons {head : Str} (h : head ≠ recursiveWildcard) (ls : List Str) :
    beforeRecursive (head :: ls) = head :: beforeRecursive ls :=
  List.takeWhile_cons_of_pos (decide_eq_true h)

theorem mem_dropLast_cons {head next : Str} {rest : List Str} (h : head ≠ recursiveWildcard) :
    recursiveWildcard ∈ (head :: next :: rest).dropLast ↔
      recursiveWildcard ∈ (next :: rest).dropLast := by
  rw [List.dropLast_cons_of_ne_nil (List.cons_ne_nil _ _), List.mem_cons]
  exact or_iff_right (Ne.symm h)

theorem get_error_iff : ∀ (ls : List Str) (node : SubscriptionSetNode),
    node.get ls = .error () ↔
      recursiveWildcard ∈ ls.dropLast ∧ node.has (beforeRecursive ls) = true
  | [], node => by simp [get]
  | [last], node => by
    rw [get]
    split <;> simp
  | head :: next :: rest, node => by
    rw [get]
    split
    · rename_i hhead
      subst hhead
      simp [beforeRecursive, has]
    · rename_i hhead
      rw [mem_dropLast_cons hhead, beforeRecursive_cons hhead, has]
      cases node.child head with
      | none => simp
      | some e => exact get_error_iff (next :: rest) e.children

theorem getOrCreate_error_iff (f : Subscription → Subscription) :
    ∀ (ls : List Str) (node : SubscriptionSetNode),
      (getOrCreate f ls node).1 = .error () ↔ recursiveWildcard ∈ ls.dropLast
  | [], node => by simp [getOrCreate]
  | [last], node => by
    rw [getOrCreate]
    split <;> simp
  | head :: next :: rest, node => by
    rw [getOrCreate]
    split
    · rename_i hhead
      subst hhead
      simp
    · rename_i hhead
      rw [mem_dropLast_cons hhead]
      exact getOrCreate_error_iff f (next :: rest) _

end SubscriptionSetNode

open SubscriptionSetNode

namespace SubscriptionSet

variable {set : SubscriptionSet} {filter : Str}

/-- `clear` rejects what `get` rejects. -/
theorem clear_error_iff : (set.clear filter).1 = .error () ↔ set.get filter = .error () := by
  unfold clear
  split
  · rename_i hget
    simp [hget]
  · rename_i sub hget
    split <;> simp [hget]
  · rename_i hget
    simp [hget]

/-- `get`, `getOrCreate` and `clear` reject a filter exactly if it has a misplaced `#`, and a
filter that `get` accepts is accepted by `getOrCreate` in every tree: this is so exactly if the
tree has the nodes of all levels in front of the misplaced `#`. -/
theorem filter_validity (set : SubscriptionSet) (filter : Str) :
    ((set.get filter = .error () ↔ recursiveWildcard ∈ (levels filter).dropLast) ∧
      (∀ f, (set.getOrCreate f filter).1 = .error () ↔
        recursiveWildcard ∈ (levels filter).dropLast) ∧
      ((set.clear filter).1 = .error () ↔ recursiveWildcard ∈ (levels filter).dropLast) ∧
      (set.get filter ≠ .error () →
        ∀ (later : SubscriptionSet) f, (later.getOrCreate f filter).1 ≠ .error ())) ↔
    (recursiveWildcard ∈ (levels filter).dropLast →
      set.root.has (beforeRecursive (levels filter)) = true) := by
  refine ⟨fun hall hmem => ((get_error_iff _ _).mp (hall.1.mpr hmem)).2, fun h => ?_⟩
  have hget : set.get filter = .error () ↔ recursiveWildcard ∈ (levels filter).dropLast := by
    refine (get_error_iff _ _).trans ⟨fun herr => herr.1, fun hmem => ⟨hmem, h hmem⟩⟩
  refine ⟨hget, fun f => getOrCreate_error_iff f _ _, clear_error_iff.trans hget, ?_⟩
  intro haccepted later f hrejected
  exact haccepted (hget.mpr ((getOrCreate_error_iff f _ later.root).mp hrejected))

/-- A filter with a `#` in front of its last level. -/
def inner : Str := ['a', '/', '#', '/', 'b']

/-- The node of the first level stands on the way to another filter. -/
theorem filter_validity_shared :
    (((default : SubscriptionSet).getOrCreate id ['a', '/', 'c']).2.get inner = .error ()) ∧
    (((default : SubscriptionSet).getOrCreate id ['a', '/', 'c']).2.clear inner).1 =
      .error () := by
  have hmem : recursiveWildcard ∈ (levels inner).dropLast := by decide
  have hvalid := (filter_validity ((default : SubscriptionSet).getOrCreate id ['a', '/', 'c']).2
    inner).mpr fun _ => by decide
  exact ⟨hvalid.1.mpr hmem, hvalid.2.2.1.mpr hmem⟩

/-- The empty tree has no node in front of the `#`. -/
theorem filter_validity_depends :
    recursiveWildcard ∈ (levels inner).dropLast ∧
    (default : SubscriptionSet).get inner = .ok none ∧
    ((default : SubscriptionSet).clear inner).1 = .ok false ∧
    ((default : SubscriptionSet).getOrCreate id inner).1 = .error () :=
  ⟨by decide, rfl, rfl, rfl⟩

end SubscriptionSet

end Lmc
