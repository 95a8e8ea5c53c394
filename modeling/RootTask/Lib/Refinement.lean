import RootTask.Lib.Transition

/-!
# Refinement of data types

An implementation answers a call with a result and a new state, or fails. Its specification
is a data type with the same calls and results, a state of its own, and no failure. Calls that
agree on related states, one at a time, agree over every sequence of calls.
-/
namespace RootTask.Refinement

open RootTask.Transition

variable {σ α κ ρ ε : Type*}

/-- The results of a sequence of calls and the state they leave, unless one of them fails. -/
def run (call : σ → κ → Except ε (ρ × σ)) : σ → List κ → Except ε (List ρ × σ)
  | s, [] => .ok ([], s)
  | s, c :: rest =>
    (call s c).bind fun first => (run call first.2 rest).map fun later =>
      (first.1 :: later.1, later.2)

/-- The same for a specification. -/
def trace (spec : α → κ → ρ × α) : α → List κ → List ρ × α
  | a, [] => ([], a)
  | a, c :: rest => ((spec a c).1 :: (trace spec (spec a c).2 rest).1,
      (trace spec (spec a c).2 rest).2)

/-- Every call on related states returns the specified result and leaves related states. -/
def Simulates (call : σ → κ → Except ε (ρ × σ)) (spec : α → κ → ρ × α)
    (related : σ → α → Prop) : Prop :=
  ∀ s a c, related s a → ∃ t, call s c = .ok ((spec a c).1, t) ∧ related t (spec a c).2

variable {call : σ → κ → Except ε (ρ × σ)} {spec : α → κ → ρ × α} {related : σ → α → Prop}

/-- No sequence of calls fails, and its results are those of the specification. -/
theorem Simulates.run (simulates : Simulates call spec related) {s : σ} {a : α}
    (start : related s a) (calls : List κ) :
    ∃ t, run call s calls = .ok ((trace spec a calls).1, t) ∧
      related t (trace spec a calls).2 := by
  induction calls generalizing s a with
  | nil => exact ⟨s, rfl, start⟩
  | cons c rest ih =>
    obtain ⟨t, returned, next⟩ := simulates s a c start
    obtain ⟨u, later, ended⟩ := ih next
    refine ⟨u, ?_, ended⟩
    simp only [Refinement.run, returned, Except.bind, later, Except.map, trace]

/-- What holds of the empty history, and after each further call with its result, holds of the
history of every sequence of calls. -/
theorem trace_history (inv : List (κ × ρ) → α → Prop)
    (preserved : ∀ history a c, inv history a →
      inv (history ++ [(c, (spec a c).1)]) (spec a c).2)
    {history : List (κ × ρ)} {a : α} (start : inv history a) (calls : List κ) :
    inv (history ++ calls.zip (trace spec a calls).1) (trace spec a calls).2 := by
  induction calls generalizing history a with
  | nil => simpa [trace] using start
  | cons c rest ih =>
    have later := ih (preserved history a c start)
    simpa [trace] using later

/-- A state that no call of the sequence leaves: no result is one that it rules out. -/
theorem trace_excludes (inv : α → Prop) (allowed : κ → Prop) (excluded : ρ)
    (kept : ∀ a c, inv a → allowed c → (spec a c).1 ≠ excluded ∧ inv (spec a c).2)
    {a : α} (start : inv a) {calls : List κ} (all : ∀ c ∈ calls, allowed c) :
    excluded ∉ (trace spec a calls).1 := by
  induction calls generalizing a with
  | nil => simp [trace]
  | cons c rest ih =>
    obtain ⟨different, next⟩ := kept a c start (all c (by simp))
    have later := ih next fun c member => all c (by simp [member])
    simp [trace, different.symm, later]

end RootTask.Refinement
