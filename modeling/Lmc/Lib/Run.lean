import Mathlib.Tactic.Common

/-!
# Runs of a transition function

A system is given by `step : σ → ε → Option σ`: the state behind an event, if the event
can happen. `Reaches step ok s₀ s` says that a run from `s₀` leads to `s` and that every
step of it meets the condition `ok`. An invariant is shown once for the start and once
for a step (`Reaches.invariant`); a concrete run is a list of events that evaluates
(`exists_reaches`).
-/

namespace Runs

variable {σ ε : Type} {step : σ → ε → Option σ} {ok : σ → ε → Prop} {s₀ s : σ}

/-- `s` is reached from `s₀` by steps that all meet `ok`. -/
inductive Reaches (step : σ → ε → Option σ) (ok : σ → ε → Prop) (s₀ : σ) : σ → Prop
  | refl : Reaches step ok s₀ s₀
  | tail {s s' : σ} {e : ε} (run : Reaches step ok s₀ s) (meets : ok s e)
      (move : step s e = some s') : Reaches step ok s₀ s'

/-- No condition on the steps. -/
def always : σ → ε → Prop := fun _ _ => True

instance (s : σ) (e : ε) : Decidable (always s e) := .isTrue trivial

/-- What holds at the start and is kept by every step holds in every state reached. -/
theorem Reaches.invariant {I : σ → Prop} (start : I s₀)
    (next : ∀ s e s', I s → ok s e → step s e = some s' → I s')
    (h : Reaches step ok s₀ s) : I s := by
  induction h with
  | refl => exact start
  | tail _ meets move ih => exact next _ _ _ ih meets move

/-- Runs under a condition are runs under a weaker one. -/
theorem Reaches.mono {ok' : σ → ε → Prop} (h : Reaches step ok s₀ s)
    (weaker : ∀ s e, ok s e → ok' s e) : Reaches step ok' s₀ s := by
  induction h with
  | refl => exact .refl
  | tail _ meets move ih => exact .tail ih (weaker _ _ meets) move

theorem Reaches.trans {s₁ s₂ : σ} (h₁ : Reaches step ok s₀ s₁) (h₂ : Reaches step ok s₁ s₂) :
    Reaches step ok s₀ s₂ := by
  induction h₂ with
  | refl => exact h₁
  | tail _ meets move ih => exact .tail ih meets move

section Execution

variable (step) (ok) [∀ s e, Decidable (ok s e)]

/-- Execute a list of events as long as each one meets the condition and can happen. -/
def runUnder : σ → List ε → Option σ
  | s, [] => some s
  | s, e :: es => if ok s e then (step s e).bind fun s' => runUnder s' es else none

variable {step} {ok}

theorem reaches_of_runUnder {es : List ε} : ∀ {s₀ : σ}, runUnder step ok s₀ es = some s →
    Reaches step ok s₀ s := by
  induction es with
  | nil =>
    intro s₀ h
    cases h
    exact .refl
  | cons e es ih =>
    intro s₀ h
    rw [runUnder] at h
    split at h
    · rename_i hok
      obtain ⟨s₁, hmove, hrest⟩ := Option.bind_eq_some_iff.mp h
      exact (Reaches.tail .refl hok hmove).trans (ih hrest)
    · cases h

/-- A list of events that evaluates is a run to a state with the properties computed. -/
theorem exists_reaches {p : σ → Bool} (es : List ε)
    (h : (runUnder step ok s₀ es).any p = true) : ∃ s, Reaches step ok s₀ s ∧ p s = true := by
  cases hr : runUnder step ok s₀ es with
  | none =>
    rw [hr] at h
    cases h
  | some s =>
    rw [hr] at h
    exact ⟨s, reaches_of_runUnder hr, h⟩

end Execution

end Runs
