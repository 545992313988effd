import Mathlib.Data.List.AList

/-!
# Finite maps

Additions to the finite maps of Mathlib: lookups behind an insertion or a removal of any
key, a function applied to every value (`mapVals`), and the number of entries whose value
satisfies a test (`count`). The laws of `count` say how one insertion or removal changes
the number, given what the key held before, so that an invariant about "at most one
entry" reduces to arithmetic.
-/

namespace Table

variable {α β γ : Type}

/-- Apply a function to every value. -/
def mapVals (f : β → γ) (m : AList fun _ : α => β) : AList fun _ : α => γ where
  entries := m.entries.map fun e => ⟨e.1, f e.2⟩
  nodupKeys := by
    have h := m.nodupKeys
    rw [List.NodupKeys, List.keys] at h ⊢
    rwa [List.map_map]

section Lookup

variable [DecidableEq α]

theorem dlookup_map (f : β → γ) (a : α) (l : List (Sigma fun _ : α => β)) :
    List.dlookup a (l.map fun e => (⟨e.1, f e.2⟩ : Sigma fun _ : α => γ)) =
      (List.dlookup a l).map f := by
  induction l with
  | nil => rfl
  | cons e l ih =>
    obtain ⟨k, v⟩ := e
    by_cases h : a = k
    · subst h
      simp
    · rw [List.map_cons, List.dlookup_cons_ne _ _ h, List.dlookup_cons_ne _ _ h, ih]

@[simp] theorem lookup_mapVals (f : β → γ) (a : α) (m : AList fun _ : α => β) :
    (mapVals f m).lookup a = (m.lookup a).map f := dlookup_map f a m.entries

theorem lookup_insert (a a' : α) (b : β) (m : AList fun _ : α => β) :
    (m.insert a b).lookup a' = if a' = a then some b else m.lookup a' := by
  split
  · subst a'
    exact AList.lookup_insert m
  · exact AList.lookup_insert_ne ‹_›

theorem lookup_erase (a a' : α) (m : AList fun _ : α => β) :
    (m.erase a).lookup a' = if a' = a then none else m.lookup a' := by
  split
  · subst a'
    exact AList.lookup_erase a m
  · exact AList.lookup_erase_ne ‹_›

theorem erase_of_lookup_eq_none {a : α} {m : AList fun _ : α => β} (h : m.lookup a = none) :
    m.erase a = m :=
  AList.ext (List.kerase_of_notMem_keys (AList.lookup_eq_none.mp h))

theorem isSome_insert {a' : α} {m : AList fun _ : α => β} (h : (m.lookup a').isSome = true)
    (a : α) (b : β) : ((m.insert a b).lookup a').isSome = true := by
  rw [lookup_insert]
  split
  · rfl
  · exact h

theorem isSome_erase {a a' : α} {m : AList fun _ : α => β} (hne : a' ≠ a)
    (h : (m.lookup a').isSome = true) : ((m.erase a).lookup a').isSome = true := by
  rw [lookup_erase, if_neg hne]
  exact h

end Lookup

/-! ## Counting entries -/

/-- The number of entries whose value passes the test. -/
def count (p : β → Bool) (m : AList fun _ : α => β) : Nat := m.entries.countP fun e => p e.2

/-- The contribution of one looked-up value. -/
def hit (p : β → Bool) : Option β → Nat
  | none => 0
  | some b => if p b then 1 else 0

variable {p : β → Bool} {m : AList fun _ : α => β}

@[simp] theorem count_empty : count p (∅ : AList fun _ : α => β) = 0 := rfl

@[simp] theorem hit_none : hit p none = 0 := rfl

theorem hit_some (b : β) : hit p (some b) = if p b then 1 else 0 := rfl

theorem hit_pos {b : β} (hp : p b = true) : hit p (some b) = 1 := if_pos hp

variable [DecidableEq α]

theorem count_erase_eq (p : β → Bool) (a : α) (m : AList fun _ : α => β) :
    count p (m.erase a) = (m.entries.kerase a).countP fun e => p e.2 := rfl

theorem count_erase (p : β → Bool) (a : α) (m : AList fun _ : α => β) :
    count p (m.erase a) + hit p (m.lookup a) = count p m := by
  by_cases h : a ∈ m.entries.keys
  · obtain ⟨b, l₁, l₂, hl₁, hl, her⟩ := List.exists_of_kerase h
    have hlook : m.lookup a = some b := by
      rw [AList.lookup, hl, List.dlookup_append, List.dlookup_eq_none.mpr hl₁]
      simp
    have hcount : count p m = l₁.countP (fun e => p e.2) + (l₂.countP (fun e => p e.2) +
        if p b then 1 else 0) := by
      rw [count, hl, List.countP_append, List.countP_cons]
    rw [hlook, hcount, count_erase_eq, her, List.countP_append, hit_some]
    omega
  · have hlook : m.lookup a = none := List.dlookup_eq_none.mpr h
    rw [hlook, hit_none, count_erase_eq, List.kerase_of_notMem_keys h, count, Nat.add_zero]

theorem count_insert (p : β → Bool) (a : α) (b : β) (m : AList fun _ : α => β) :
    count p (m.insert a b) + hit p (m.lookup a) = count p m + hit p (some b) := by
  have hinsert : count p (m.insert a b) = count p (m.erase a) + hit p (some b) := by
    rw [count, AList.entries_insert, List.countP_cons, hit_some]
    rfl
  have herase := count_erase p a m
  omega

theorem hit_le_count (p : β → Bool) (a : α) (m : AList fun _ : α => β) :
    hit p (m.lookup a) ≤ count p m := by
  have herase := count_erase p a m
  omega

/-- No entry passes the test. -/
theorem count_eq_zero : count p m = 0 ↔ ∀ a b, m.lookup a = some b → p b = false := by
  constructor
  · intro h a b hb
    have hle := hit_le_count p a m
    rw [hb, hit_some] at hle
    cases hp : p b with
    | false => rfl
    | true =>
      rw [hp, if_pos rfl] at hle
      omega
  · intro h
    rw [count, List.countP_eq_zero]
    rintro ⟨a, b⟩ hmem
    have hlook : m.lookup a = some b :=
      (List.mem_dlookup_iff m.nodupKeys).mpr hmem
    simp [h a b hlook]

/-- With at most one entry that passes the test, two such keys are the same. -/
theorem eq_of_count_le_one (h : count p m ≤ 1) {a a' : α} {b b' : β} (hb : m.lookup a = some b)
    (hb' : m.lookup a' = some b') (hp : p b = true) (hp' : p b' = true) : a = a' := by
  by_contra hne
  have herase := count_erase p a m
  have hle := hit_le_count p a' (m.erase a)
  rw [AList.lookup_erase_ne (Ne.symm hne), hb', hit_pos hp'] at hle
  rw [hb, hit_pos hp] at herase
  omega

end Table
