import Lmc.Tree.Leaves

/-!
# The loop of `prune`

In the source `prune` is a loop over an index. Where the predicate holds, the last element takes
the place of the one at the index, and the index stays; so the elements change their places
while the loop runs. `pruneAt` is this loop on the whole vector, with a bound on its rounds, and
`none` says that the bound is reached. It ends after as many rounds as there are elements, with
the result of `prune` (`pruneAt_eq_prune`). What holds of the loop is what `pruneLoop_visits`
says: the predicate runs once on every element, whatever it does besides
(`prune_visits_each_once`).
-/

namespace Lmc

section Loop

variable {α σ : Type}

/-- `Vec::swap_remove`. -/
def swapRemove (vec : List α) (i : Nat) : List α :=
  match vec.getLast? with
  | some last => (vec.set i last).dropLast
  | none => vec

/-- The loop of `prune` from the index `i` on. -/
def pruneAt (predicate : α → StateM σ Bool) : Nat → Nat → List α → StateM σ (Option (List α))
  | 0, _, _ => return none
  | fuel + 1, i, vec =>
    match vec[i]? with
    | none => return some vec
    | some x => do
      if ← predicate x then
        pruneAt predicate fuel i (swapRemove vec i)
      else
        pruneAt predicate fuel (i + 1) vec

theorem swapRemoveHead_concat (x last : α) (front : List α) :
    swapRemoveHead (x :: (front ++ [last])) = last :: front := by
  cases front with
  | nil => rfl
  | cons y front =>
    rw [List.cons_append, swapRemoveHead]
    simp only [← List.cons_append, List.getLast_concat, List.dropLast_concat]

/-- The elements before the index stay where they are. -/
theorem swapRemove_append (kept : List α) (x : α) (rest : List α) :
    swapRemove (kept ++ x :: rest) kept.length = kept ++ swapRemoveHead (x :: rest) := by
  rcases List.eq_nil_or_concat rest with rfl | ⟨front, last, rfl⟩
  · simp [swapRemove, swapRemoveHead]
  · have hsplit : kept ++ x :: (front ++ [last]) = (kept ++ x :: front) ++ [last] := by simp
    have hset : (kept ++ x :: (front ++ [last])).set kept.length last =
        (kept ++ last :: front) ++ [last] := by simp
    rw [List.concat_eq_append, swapRemoveHead_concat, swapRemove, hsplit, List.getLast?_concat,
      ← hsplit]
    simp only [hset]
    exact List.dropLast_concat

/-- The elements before the index are those that `pruneLoop` keeps. -/
theorem pruneAt_eq_pruneLoop (predicate : α → StateM σ Bool) :
    ∀ (fuel n : Nat) (kept rest : List α) (s : σ), rest.length = n → n < fuel →
      (pruneAt predicate fuel kept.length (kept ++ rest)).run s =
        (some ((pruneLoop predicate n kept rest).run s).1,
          ((pruneLoop predicate n kept rest).run s).2) := by
  intro fuel
  induction fuel with
  | zero => exact fun n kept rest s _ hfuel => (Nat.not_lt_zero n hfuel).elim
  | succ fuel ih =>
    intro n kept rest s hlen hfuel
    cases rest with
    | nil =>
      subst hlen
      rw [pruneAt, List.append_nil, List.getElem?_eq_none (Nat.le_refl _)]
      show _ = (some (kept ++ []), s)
      rw [List.append_nil]
      rfl
    | cons x rest =>
      obtain ⟨n, rfl⟩ : ∃ m, n = m + 1 := ⟨rest.length, hlen.symm⟩
      have hrest : rest.length = n := Nat.succ.inj hlen
      have hget : (kept ++ x :: rest)[kept.length]? = some x := by simp
      have hat : (pruneAt predicate (fuel + 1) kept.length (kept ++ x :: rest)).run s =
          (if ((predicate x).run s).1 then
              pruneAt predicate fuel kept.length (swapRemove (kept ++ x :: rest) kept.length)
            else pruneAt predicate fuel (kept.length + 1) (kept ++ x :: rest)).run
              ((predicate x).run s).2 := by
        rw [pruneAt, hget]
        rfl
      have hloop : (pruneLoop predicate (n + 1) kept (x :: rest)).run s =
          (if ((predicate x).run s).1 then pruneLoop predicate n kept (swapRemoveHead (x :: rest))
            else pruneLoop predicate n (kept ++ [x]) rest).run ((predicate x).run s).2 := rfl
      rw [hat, hloop]
      split
      · rw [swapRemove_append]
        exact ih n kept (swapRemoveHead (x :: rest)) _
          ((swapRemoveHead_perm x rest).length_eq.trans hrest) (by omega)
      · have hnext := ih n (kept ++ [x]) rest ((predicate x).run s).2 hrest (by omega)
        rwa [List.append_assoc, List.singleton_append, List.length_append] at hnext

theorem pruneAt_eq_prune (predicate : α → StateM σ Bool) {fuel : Nat} (vec : List α) (s : σ)
    (hfuel : vec.length < fuel) :
    (pruneAt predicate fuel 0 vec).run s =
      (some ((prune vec predicate).run s).1, ((prune vec predicate).run s).2) :=
  pruneAt_eq_pruneLoop predicate fuel vec.length [] vec s rfl hfuel

end Loop

/-- The loop of `prune` ends, and runs its predicate once on every element. The elements for
which the predicate is false are left, in some order. In `dispatch` one message is sent to every
channel that is registered. A channel whose result is `closed` is forgotten, and one whose
result is `full` is kept. -/
theorem prune_visits_each_once :
    (∀ {α σ : Type} (vec : List α) (predicate : α → StateM σ Bool) (s : σ),
      ∃ (visited : List (α × Bool)) (result : List α) (s' : σ),
        (visited.map Prod.fst).Perm vec ∧ Visits predicate s visited s' ∧
        (∀ fuel, vec.length < fuel →
          (pruneAt predicate fuel 0 vec).run s = (some result, s')) ∧
        (prune vec predicate).run s = (result, s') ∧
        result.Perm ((visited.filter fun v => !v.2).map Prod.fst)) ∧
    ∀ (sub : Subscription) (msg : IncomingPublishPacket) (mail : Mail),
      ∃ (lossy : List (Nat × SendResult)) (unbounded : List (Nat × SendResult))
        (mail₁ mail₂ : Mail),
        (lossy.map Prod.fst).Perm sub.lossyQueue ∧
        Visits (fun ch => Mail.trySend ch msg) mail lossy mail₁ ∧
        (unbounded.map Prod.fst).Perm sub.unboundedQueue ∧
        Visits (fun ch => Mail.send ch msg) mail₁ unbounded mail₂ ∧
        ((sub.dispatch msg).run mail).1.lossyQueue.Perm
          ((lossy.filter fun v => v.2 != .closed).map Prod.fst) ∧
        ((sub.dispatch msg).run mail).1.unboundedQueue.Perm
          ((unbounded.filter fun v => v.2 != .closed).map Prod.fst) ∧
        ((sub.dispatch msg).run mail).2.channels = mail₂.channels := by
  refine ⟨fun vec predicate s => ?_, fun sub msg mail => ?_⟩
  · obtain ⟨visited, result, s', horder, hvisits, hrun, hkept⟩ :=
      pruneLoop_visits predicate id vec.length [] vec s rfl
    have hprune : (prune vec predicate).run s = (result, s') := hrun
    refine ⟨visited, result, s', horder, hvisits, fun fuel hfuel => ?_, hprune, hkept⟩
    rw [pruneAt_eq_prune predicate vec s hfuel, hprune]
  · obtain ⟨lossy, lossyQueue, mail₁, horder₁, hvisits₁, hrun₁, hkept₁⟩ :=
      pruneLoop_visits (fun ch => Mail.trySend ch msg) (· == .closed) sub.lossyQueue.length []
        sub.lossyQueue mail rfl
    obtain ⟨unbounded, unboundedQueue, mail₂, horder₂, hvisits₂, hrun₂, hkept₂⟩ :=
      pruneLoop_visits (fun ch => Mail.send ch msg) (· == .closed) sub.unboundedQueue.length []
        sub.unboundedQueue mail₁ rfl
    have hdispatch := @Subscription.run_dispatch sub msg mail (lossyQueue, mail₁)
      (unboundedQueue, mail₂) hrun₁ hrun₂
    refine ⟨lossy, unbounded, mail₁, mail₂, horder₁, hvisits₁, horder₂, hvisits₂, ?_, ?_, ?_⟩
    · rw [hdispatch]
      exact hkept₁
    · rw [hdispatch]
      exact hkept₂
    · rw [hdispatch, Subscription.run_forM_call]

end Lmc
