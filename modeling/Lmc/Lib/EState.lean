import Mathlib.Tactic.Common

/-!
# Programs with state and failure

`EStateM ε σ α` is a program that changes a state `σ` and ends with a value or with a
failure, and keeps the state it reached in both cases. This file has the rules for
reasoning about such programs without unfolding them:

* `after x s` is the state in which `x` ends when it starts in `s`, and `completes x s` says
  whether it ends with a value;
* `Keeps f x` says that `x` does not change the part `f` of the state;
* `Advances R x` says that `x` leads from a state to one related to it by `R`;
* `Triple P x Q E` says that `x`, started in a state with `P`, ends with `Q` if it
  succeeds and with `E` if it fails;
* `zoom` runs a program on a component of a larger state, and `recover` turns some of
  the failures of a program into values;
* `Mirrors f x y s` says that `x`, started in `s`, does what `y` does, where `f` translates
  the failures of `y`;
* `loop round` repeats a program until it returns a value, and ends if a measure says so
  (`loop_ends`).
-/

namespace EStateLogic

variable {ε ε' σ ρ α β γ : Type}

/-- The state in which a program ends, whether it succeeds or fails. -/
def after (x : EStateM ε σ α) (s : σ) : σ :=
  match x.run s with
  | .ok _ s' => s'
  | .error _ s' => s'

theorem after_of_ok {x : EStateM ε σ α} {s s' : σ} {a : α} (h : x.run s = .ok a s') :
    after x s = s' := by
  rw [after, h]

theorem after_of_error {x : EStateM ε σ α} {s s' : σ} {e : ε} (h : x.run s = .error e s') :
    after x s = s' := by
  rw [after, h]

@[simp] theorem run_throw_any (e : ε) (s : σ) :
    EStateM.run (throw e : EStateM ε σ α) s = .error e s := rfl

/-- What the two outcomes of a sequence of programs are. -/
theorem run_bind_cases (x : EStateM ε σ α) (f : α → EStateM ε σ β) (s : σ) :
    (∃ a s', x.run s = .ok a s' ∧ (x >>= f).run s = (f a).run s') ∨
      ∃ e s', x.run s = .error e s' ∧ (x >>= f).run s = .error e s' := by
  rw [EStateM.run_bind]
  cases h : x.run s with
  | ok a s' => exact Or.inl ⟨a, s', rfl, rfl⟩
  | error e s' => exact Or.inr ⟨e, s', rfl, rfl⟩

/-- A sequence of programs succeeds if both parts do. -/
theorem run_bind_eq_ok {x : EStateM ε σ α} {f : α → EStateM ε σ β} {s t : σ} {b : β} :
    (x >>= f).run s = .ok b t ↔ ∃ a s', x.run s = .ok a s' ∧ (f a).run s' = .ok b t := by
  rw [EStateM.run_bind]
  cases x.run s with
  | ok a s' =>
    refine ⟨fun h => ⟨a, s', rfl, h⟩, ?_⟩
    rintro ⟨a', t', heq, h⟩
    cases heq
    exact h
  | error e s' =>
    refine ⟨fun h => (by cases h), ?_⟩
    rintro ⟨a', t', heq, -⟩
    cases heq

/-- The program ends with a value. -/
def completes (x : EStateM ε σ α) (s : σ) : Bool :=
  match x.run s with
  | .ok _ _ => true
  | .error _ _ => false

theorem completes_iff {x : EStateM ε σ α} {s : σ} :
    completes x s = true ↔ ∃ a s', x.run s = .ok a s' := by
  rw [completes]
  cases x.run s with
  | ok a s' => exact ⟨fun _ => ⟨a, s', rfl⟩, fun _ => rfl⟩
  | error e s' =>
    refine ⟨fun h => (by cases h), ?_⟩
    rintro ⟨a, t, heq⟩
    cases heq

/-- From where the first program ends, the second one decides. -/
theorem completes_bind_of_ok {x : EStateM ε σ α} {f : α → EStateM ε σ β} {s s' : σ} {a : α}
    (h : x.run s = .ok a s') : completes (x >>= f) s = completes (f a) s' := by
  rw [completes, EStateM.run_bind, h]
  rfl

/-- If the second program cannot fail, the first one decides. -/
theorem completes_bind {x : EStateM ε σ α} {f : α → EStateM ε σ β}
    (hf : ∀ a s, completes (f a) s = true) (s : σ) : completes (x >>= f) s = completes x s := by
  rcases run_bind_cases x f s with ⟨a, s', hx, hb⟩ | ⟨e, s', hx, hb⟩
  · rw [completes_bind_of_ok hx, hf, completes, hx]
  · rw [completes, completes, hb, hx]

theorem run_map_eq_ok {x : EStateM ε σ α} {f : α → β} {s t : σ} {b : β} :
    (f <$> x).run s = .ok b t ↔ ∃ a, x.run s = .ok a t ∧ f a = b := by
  rw [map_eq_pure_bind, run_bind_eq_ok]
  constructor
  · rintro ⟨a, t', hx, hpure⟩
    cases hpure
    exact ⟨a, hx, rfl⟩
  · rintro ⟨a, hx, rfl⟩
    exact ⟨a, t, hx, rfl⟩

/-! ## Parts of the state that a program does not change -/

/-- `x` leaves the part `f` of the state as it is. -/
def Keeps (f : σ → γ) (x : EStateM ε σ α) : Prop := ∀ s, f (after x s) = f s

namespace Keeps

variable {f : σ → γ}

theorem ok {x : EStateM ε σ α} (h : Keeps f x) {s s' : σ} {a : α} (hx : x.run s = .ok a s') :
    f s' = f s := by
  rw [← h s, after_of_ok hx]

theorem error {x : EStateM ε σ α} (h : Keeps f x) {s s' : σ} {e : ε}
    (hx : x.run s = .error e s') : f s' = f s := by
  rw [← h s, after_of_error hx]

theorem pure (a : α) : Keeps f (pure a : EStateM ε σ α) := fun _ => rfl

theorem throw (e : ε) : Keeps f (throw e : EStateM ε σ α) := fun _ => rfl

theorem get : Keeps f (get : EStateM ε σ σ) := fun _ => rfl

theorem modify {g : σ → σ} (h : ∀ s, f (g s) = f s) : Keeps f (modify g : EStateM ε σ PUnit) :=
  h

theorem bind {x : EStateM ε σ α} {k : α → EStateM ε σ β} (hx : Keeps f x)
    (hk : ∀ a, Keeps f (k a)) : Keeps f (x >>= k) := by
  intro s
  rcases run_bind_cases x k s with ⟨a, s', hr, hb⟩ | ⟨e, s', hr, hb⟩
  · rw [after, hb]
    exact (hk a s').trans (hx.ok hr)
  · rw [after_of_error hb]
    exact hx.error hr

theorem ite {c : Prop} [Decidable c] {x y : EStateM ε σ α} (hx : Keeps f x) (hy : Keeps f y) :
    Keeps f (if c then x else y) := by
  split
  · exact hx
  · exact hy

end Keeps

/-! ## Relations between the states before and behind a program -/

/-- Whether `x` succeeds or fails, it leads from `s` to a state related to `s`. -/
def Advances (R : σ → σ → Prop) (x : EStateM ε σ α) : Prop := ∀ s, R s (after x s)

namespace Advances

variable {R : σ → σ → Prop}

theorem modify {g : σ → σ} (h : ∀ s, R s (g s)) : Advances R (modify g : EStateM ε σ PUnit) := h

theorem pure [Std.Refl R] (a : α) : Advances R (pure a : EStateM ε σ α) := fun s => refl_of R s

theorem throw [Std.Refl R] (e : ε) : Advances R (throw e : EStateM ε σ α) :=
  fun s => refl_of R s

theorem get [Std.Refl R] : Advances R (get : EStateM ε σ σ) := fun s => refl_of R s

/-- From one state, where more may be known about what the first program does. -/
theorem bind_at [IsTrans σ R] {x : EStateM ε σ α} {k : α → EStateM ε σ β} {s : σ}
    (hx : R s (after x s)) (hk : ∀ a s', x.run s = .ok a s' → R s' (after (k a) s')) :
    R s (after (x >>= k) s) := by
  rcases run_bind_cases x k s with ⟨a, s', hr, hb⟩ | ⟨e, s', hr, hb⟩
  · rw [after_of_ok hr] at hx
    have hafter : after (x >>= k) s = after (k a) s' := by
      rw [after, hb]
      rfl
    rw [hafter]
    exact trans_of R hx (hk a s' hr)
  · rw [after_of_error hr] at hx
    rw [after_of_error hb]
    exact hx

theorem bind [IsTrans σ R] {x : EStateM ε σ α} {k : α → EStateM ε σ β} (hx : Advances R x)
    (hk : ∀ a, Advances R (k a)) : Advances R (x >>= k) :=
  fun s => bind_at (hx s) fun a s' _ => hk a s'

theorem ite {c : Prop} [Decidable c] {x y : EStateM ε σ α} (hx : Advances R x)
    (hy : Advances R y) : Advances R (if c then x else y) := by
  split
  · exact hx
  · exact hy

end Advances

/-! ## Pre- and postconditions -/

/-- Started in a state with `P`, the program `x` ends with `Q` or fails with `E`. -/
def Triple (P : σ → Prop) (x : EStateM ε σ α) (Q : α → σ → Prop) (E : ε → σ → Prop) : Prop :=
  ∀ s, P s → match x.run s with
    | .ok a s' => Q a s'
    | .error e s' => E e s'

namespace Triple

variable {P : σ → Prop} {E : ε → σ → Prop}

theorem ok {x : EStateM ε σ α} {Q : α → σ → Prop} (h : Triple P x Q E) {s s' : σ} {a : α}
    (hP : P s) (hx : x.run s = .ok a s') : Q a s' := by
  have := h s hP
  rwa [hx] at this

theorem error {x : EStateM ε σ α} {Q : α → σ → Prop} (h : Triple P x Q E) {s s' : σ} {e : ε}
    (hP : P s) (hx : x.run s = .error e s') : E e s' := by
  have := h s hP
  rwa [hx] at this

/-- A condition that holds in both cases holds behind the program. -/
theorem holds_after {I : σ → Prop} {x : EStateM ε σ α}
    (h : Triple P x (fun _ => I) (fun _ => I)) {s : σ} (hs : P s) : I (after x s) := by
  have hres := h s hs
  unfold after
  cases hr : x.run s with
  | ok a s' =>
    rw [hr] at hres
    exact hres
  | error e s' =>
    rw [hr] at hres
    exact hres

theorem pure {Q : α → σ → Prop} (a : α) (h : ∀ s, P s → Q a s) :
    Triple P (pure a : EStateM ε σ α) Q E := h

theorem throw {Q : α → σ → Prop} (e : ε) (h : ∀ s, P s → E e s) :
    Triple P (throw e : EStateM ε σ α) Q E := h

theorem get {Q : σ → σ → Prop} (h : ∀ s, P s → Q s s) : Triple P (get : EStateM ε σ σ) Q E := h

theorem set {Q : PUnit → σ → Prop} (t : σ) (h : ∀ s, P s → Q .unit t) :
    Triple P (set t : EStateM ε σ PUnit) Q E := h

theorem modify {Q : PUnit → σ → Prop} {g : σ → σ} (h : ∀ s, P s → Q .unit (g s)) :
    Triple P (modify g : EStateM ε σ PUnit) Q E := h

theorem bind {x : EStateM ε σ α} {k : α → EStateM ε σ β} {R : α → σ → Prop} {Q : β → σ → Prop}
    (hx : Triple P x R E) (hk : ∀ a, Triple (R a) (k a) Q E) : Triple P (x >>= k) Q E := by
  intro s hP
  rcases run_bind_cases x k s with ⟨a, s', hr, hb⟩ | ⟨e, s', hr, hb⟩
  · rw [hb]
    exact hk a s' (hx.ok hP hr)
  · rw [hb]
    exact hx.error hP hr

/-- A program that goes on with the state it finds. -/
theorem get_bind {k : σ → EStateM ε σ β} {Q : β → σ → Prop}
    (hk : ∀ s₀, Triple (fun s => s = s₀ ∧ P s) (k s₀) Q E) :
    Triple P (MonadState.get >>= k) Q E := fun s hs => hk s s ⟨rfl, hs⟩

theorem ite {c : Prop} [Decidable c] {x y : EStateM ε σ α} {Q : α → σ → Prop}
    (hx : c → Triple P x Q E) (hy : ¬ c → Triple P y Q E) :
    Triple P (if c then x else y) Q E := by
  split
  · exact hx ‹_›
  · exact hy ‹_›

theorem conseq {P' : σ → Prop} {E' : ε → σ → Prop} {x : EStateM ε σ α} {Q Q' : α → σ → Prop}
    (h : Triple P x Q E) (hP : ∀ s, P' s → P s) (hQ : ∀ a s, Q a s → Q' a s)
    (hE : ∀ e s, E e s → E' e s) : Triple P' x Q' E' := by
  intro s hs
  have := h s (hP s hs)
  cases hr : x.run s with
  | ok a s' =>
    rw [hr] at this
    exact hQ a s' this
  | error e s' =>
    rw [hr] at this
    exact hE e s' this

/-- A condition on a part of the state that the program leaves alone still holds. -/
theorem of_keeps {f : σ → γ} {x : EStateM ε σ α} (h : Keeps f x) (I : γ → Prop) :
    Triple (fun s => I (f s)) x (fun _ s => I (f s)) (fun _ s => I (f s)) := by
  intro s hs
  cases hr : x.run s with
  | ok a s' =>
    show I (f s')
    rw [h.ok hr]
    exact hs
  | error e s' =>
    show I (f s')
    rw [h.error hr]
    exact hs

end Triple

/-! ## Programs on a component of the state -/

/-- Run a program on the component `view s` of the state. -/
def zoom (view : σ → ρ) (put : ρ → σ → σ) (x : EStateM ε ρ α) : EStateM ε σ α := fun s =>
  match x.run (view s) with
  | .ok a r => .ok a (put r s)
  | .error e r => .error e (put r s)

variable {view : σ → ρ} {put : ρ → σ → σ}

theorem run_zoom (x : EStateM ε ρ α) (s : σ) :
    (zoom view put x).run s = match x.run (view s) with
      | .ok a r => .ok a (put r s)
      | .error e r => .error e (put r s) := rfl

theorem after_zoom (x : EStateM ε ρ α) (s : σ) :
    after (zoom view put x) s = put (after x (view s)) s := by
  simp only [after, run_zoom]
  cases x.run (view s) <;> rfl

theorem completes_zoom (x : EStateM ε ρ α) (s : σ) :
    completes (zoom view put x) s = completes x (view s) := by
  simp only [completes, run_zoom]
  cases x.run (view s) <;> rfl

theorem triple_zoom {P : ρ → Prop} {Q : α → ρ → Prop} {E : ε → ρ → Prop}
    (hvp : ∀ r s, view (put r s) = r) {x : EStateM ε ρ α} (h : Triple P x Q E) :
    Triple (fun s => P (view s)) (zoom view put x) (fun a s => Q a (view s))
      (fun e s => E e (view s)) := by
  intro s hs
  rw [run_zoom]
  cases hr : x.run (view s) with
  | ok a r => simpa [hvp] using h.ok hs hr
  | error e r => simpa [hvp] using h.error hs hr

theorem advances_zoom {R : σ → σ → Prop} {R' : ρ → ρ → Prop}
    (h : ∀ r s, R' (view s) r → R s (put r s)) {x : EStateM ε ρ α} (hx : Advances R' x) :
    Advances R (zoom view put x) := by
  intro s
  rw [after_zoom]
  exact h _ _ (hx (view s))

/-! ## Failures that are caught -/

/-- Turn the failures that `h` knows into values. The state is kept. -/
def recover (h : ε → Option α) (x : EStateM ε σ α) : EStateM ε σ α := fun s =>
  match x.run s with
  | .ok a s' => .ok a s'
  | .error e s' =>
    match h e with
    | some a => .ok a s'
    | none => .error e s'

theorem run_recover (h : ε → Option α) (x : EStateM ε σ α) (s : σ) :
    (recover h x).run s = match x.run s with
      | .ok a s' => .ok a s'
      | .error e s' =>
        match h e with
        | some a => .ok a s'
        | none => .error e s' := rfl

theorem after_recover (h : ε → Option α) (x : EStateM ε σ α) (s : σ) :
    after (recover h x) s = after x s := by
  rw [after, after, run_recover]
  cases x.run s with
  | ok a s' => rfl
  | error e s' => cases he : h e <;> simp only [he]

theorem Triple.recover {P : σ → Prop} {Q : α → σ → Prop} {E : ε → σ → Prop}
    {x : EStateM ε σ α} (hx : Triple P x Q E) {h : ε → Option α}
    (hE : ∀ e a s, E e s → h e = some a → Q a s) : Triple P (recover h x) Q E := by
  intro s hs
  rw [run_recover]
  have hres := hx s hs
  cases hr : x.run s with
  | ok a s' =>
    rw [hr] at hres
    exact hres
  | error e s' =>
    rw [hr] at hres
    cases he : h e with
    | none =>
      simp only [he]
      exact hres
    | some a =>
      simp only [he]
      exact hE e a s' hres he

theorem Keeps.recover {f : σ → γ} {x : EStateM ε σ α} (hx : Keeps f x) (h : ε → Option α) :
    Keeps f (recover h x) := by
  intro s
  rw [after_recover, hx]

theorem Advances.recover {R : σ → σ → Prop} {x : EStateM ε σ α} (hx : Advances R x)
    (h : ε → Option α) : Advances R (recover h x) := by
  intro s
  rw [after_recover]
  exact hx s

/-! ## Programs that do the same -/

/-- The outcome of a program with its failure translated. -/
def mapError (f : ε → ε') : EStateM.Result ε σ α → EStateM.Result ε' σ α
  | .ok a s => .ok a s
  | .error e s => .error (f e) s

/-- Started in `s`, the program `x` does what `y` does. The program `x` may check more than
`y`: none of its other failures occurs. -/
def Mirrors (f : ε → ε') (x : EStateM ε' σ α) (y : EStateM ε σ α) (s : σ) : Prop :=
  x.run s = mapError f (y.run s)

namespace Mirrors

variable {f : ε → ε'} {x : EStateM ε' σ α} {y : EStateM ε σ α} {s : σ}

theorem bind (h : Mirrors f x y s) {k : α → EStateM ε' σ β} {l : α → EStateM ε σ β}
    (hk : ∀ a s', y.run s = .ok a s' → Mirrors f (k a) (l a) s') :
    Mirrors f (x >>= k) (y >>= l) s := by
  unfold Mirrors at h ⊢
  rw [EStateM.run_bind, EStateM.run_bind, h]
  cases hy : y.run s with
  | ok a s' => exact hk a s' hy
  | error e s' => rfl

/-- A check that succeeds. -/
theorem check {c : EStateM ε' σ γ} {k : γ → EStateM ε' σ α} {a : γ} (hc : c = Pure.pure a)
    (h : Mirrors f (k a) y s) : Mirrors f (c >>= k) y s := by
  subst hc
  exact h

theorem error (h : Mirrors f x y s) {e : ε'} {s' : σ} (hx : x.run s = .error e s') :
    ∃ e', e = f e' ∧ y.run s = .error e' s' := by
  unfold Mirrors at h
  rw [hx] at h
  cases hy : y.run s with
  | ok a t =>
    rw [hy] at h
    cases h
  | error e' t =>
    rw [hy] at h
    cases h
    exact ⟨e', rfl, rfl⟩

end Mirrors

/-! ## Loops -/

/-- Repeat `round` until it returns a value, for a number of rounds. Without a value the rounds
are used up. -/
def loop (round : EStateM ε σ (Option β)) : Nat → EStateM ε σ (Option β)
  | 0 => return none
  | fuel + 1 => do
    match ← round with
    | some b => return some b
    | none => loop round fuel

theorem run_loop_succ (round : EStateM ε σ (Option β)) (fuel : Nat) (s : σ) :
    (loop round (fuel + 1)).run s =
      match round.run s with
      | .ok none s' => (loop round fuel).run s'
      | r => r := by
  rw [loop, EStateM.run_bind]
  cases round.run s with
  | error e s' => rfl
  | ok r s' => cases r <;> rfl

/-- A loop ends if every round that is not the last one makes a measure smaller. It ends with the
outcome of the last round, and the invariant holds before that round. -/
theorem loop_ends {round : EStateM ε σ (Option β)} {I : σ → Prop} {m : σ → Nat}
    (hround : ∀ s s', I s → round.run s = .ok none s' → I s' ∧ m s' < m s) {s : σ} (hs : I s) :
    ∃ last, I last ∧ (∀ s', round.run last ≠ .ok none s') ∧
      ∀ fuel, m s < fuel → (loop round fuel).run s = round.run last := by
  induction hm : m s using Nat.strongRecOn generalizing s with
  | _ n ih =>
    by_cases hlast : ∃ s', round.run s = .ok none s'
    · obtain ⟨s', hnone⟩ := hlast
      obtain ⟨hs', hless⟩ := hround s s' hs hnone
      obtain ⟨last, hinv, hends, hrun⟩ := ih (m s') (hm ▸ hless) hs' rfl
      refine ⟨last, hinv, hends, fun fuel hfuel => ?_⟩
      obtain ⟨k, rfl⟩ : ∃ k, fuel = k + 1 := ⟨fuel - 1, by omega⟩
      rw [run_loop_succ, hnone]
      exact hrun k (by omega)
    · refine ⟨s, hs, fun s' hnone => hlast ⟨s', hnone⟩, fun fuel hfuel => ?_⟩
      obtain ⟨k, rfl⟩ : ∃ k, fuel = k + 1 := ⟨fuel - 1, by omega⟩
      rw [run_loop_succ]
      cases hr : round.run s with
      | error e s' => rfl
      | ok r s' =>
        cases r with
        | none => exact (hlast ⟨s', hr⟩).elim
        | some b => rfl

end EStateLogic
