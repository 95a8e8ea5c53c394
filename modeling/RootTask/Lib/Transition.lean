import Mathlib.Logic.Basic

/-!
# Runs of partial step functions

A system is a step function that refuses an action with `none`. `Reaches` collects
the states of every run whose steps all meet a side condition; with the trivial
condition these are the reachable states. Safety results are proved through
`Reaches.invariant`, and concrete runs are evaluated through `exec`.
-/
namespace RootTask.Transition

variable {σ τ α β : Type*}

/-- The state after a list of actions, unless one of them is refused. -/
def exec (step : σ → α → Option σ) : σ → List α → Option σ
  | s, [] => some s
  | s, a :: rest => (step s a).bind fun t => exec step t rest

/-- States reached from `start` by steps that all meet `allowed`. -/
inductive Reaches (step : σ → α → Option σ) (allowed : σ → α → Prop) (start : σ) : σ → Prop
  | refl : Reaches step allowed start start
  | next {s t : σ} {a : α} : Reaches step allowed start s → allowed s a → step s a = some t →
      Reaches step allowed start t

/-- States of arbitrary runs. -/
abbrev Reachable (step : σ → α → Option σ) (start : σ) : σ → Prop :=
  Reaches step (fun _ _ => True) start

/-- A property of the start that every allowed step preserves holds along every run. -/
theorem Reaches.invariant {step : σ → α → Option σ} {allowed : σ → α → Prop} {start s : σ}
    (inv : σ → Prop) (initial : inv start)
    (preserved : ∀ s a t, inv s → allowed s a → step s a = some t → inv t)
    (run : Reaches step allowed start s) : inv s := by
  induction run with
  | refl => exact initial
  | next _ ok moved ih => exact preserved _ _ _ ih ok moved

/-- Runs compose. -/
theorem Reaches.trans {step : σ → α → Option σ} {allowed : σ → α → Prop} {start mid s : σ}
    (first : Reaches step allowed start mid) (second : Reaches step allowed mid s) :
    Reaches step allowed start s := by
  induction second with
  | refl => exact first
  | next _ ok moved ih => exact .next ih ok moved

/-- The step function cut down to the steps that meet `allowed`. -/
def guarded (step : σ → α → Option σ) (allowed : σ → α → Prop) [∀ s a, Decidable (allowed s a)]
    (s : σ) (a : α) : Option σ :=
  if allowed s a then step s a else none

section Evaluation

variable (step : σ → α → Option σ) (allowed : σ → α → Prop) [∀ s a, Decidable (allowed s a)]
  (start : σ)

private theorem reaches_exec {s t : σ} (actions : List α) (before : Reaches step allowed start s)
    (run : exec (guarded step allowed) s actions = some t) : Reaches step allowed start t := by
  induction actions generalizing s with
  | nil => cases run; exact before
  | cons a rest ih =>
    simp only [exec, guarded, Option.bind_eq_some_iff] at run
    obtain ⟨next, moved, run⟩ := run
    split at moved
    next ok => exact ih (.next before ok moved) run
    · cases moved

/-- An evaluated run, observed through `view`, ends in a state reached with that view. -/
theorem reaches_of_view (actions : List α) (view : σ → β) {v : β}
    (run : (exec (guarded step allowed) start actions).map view = some v) :
    ∃ s, Reaches step allowed start s ∧ view s = v := by
  obtain ⟨s, ended, seen⟩ := Option.map_eq_some_iff.mp run
  exact ⟨s, reaches_exec step allowed start actions .refl ended, seen⟩

end Evaluation

/-- The unguarded case of `reaches_of_view`. -/
theorem reachable_of_view (step : σ → α → Option σ) (start : σ) (actions : List α)
    (view : σ → β) {v : β} (run : (exec step start actions).map view = some v) :
    ∃ s, Reachable step start s ∧ view s = v :=
  by
  have same : guarded step (fun _ _ => True) = step := by
    funext s a
    exact if_pos trivial
  exact reaches_of_view step _ start actions view (by rw [same]; exact run)

@[simp] theorem toOption_eq_some {ε : Type*} (x : Except ε σ) (s : σ) :
    x.toOption = some s ↔ x = .ok s := by
  cases x <;> simp [Except.toOption]

/-! ### Computations that may fail -/

theorem bind_ok {ε : Type*} {x : Except ε σ} {f : σ → Except ε τ} {t : τ} :
    x.bind f = .ok t ↔ ∃ s, x = .ok s ∧ f s = .ok t := by
  cases x <;> simp [Except.bind]

theorem map_ok {ε : Type*} {x : Except ε σ} {f : σ → τ} {t : τ} :
    x.map f = .ok t ↔ ∃ s, x = .ok s ∧ f s = t := by
  cases x <;> simp [Except.map]

theorem exists_map_ok {ε : Type*} {x : Except ε σ} {f : σ → τ} :
    (∃ t, x.map f = .ok t) ↔ ∃ s, x = .ok s := by
  cases x <;> simp [Except.map]

theorem bind_error {ε : Type*} {x : Except ε σ} {f : σ → Except ε τ} {e : ε} :
    x.bind f = .error e ↔ x = .error e ∨ ∃ s, x = .ok s ∧ f s = .error e := by
  cases x <;> simp [Except.bind]

theorem map_error {ε : Type*} {x : Except ε σ} {f : σ → τ} {e : ε} :
    x.map f = .error e ↔ x = .error e := by
  cases x <;> simp [Except.map]

end RootTask.Transition
