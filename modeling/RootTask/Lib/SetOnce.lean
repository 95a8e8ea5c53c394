import Mathlib.Algebra.BigOperators.Group.Finset.Basic
import Mathlib.Algebra.Order.BigOperators.Group.Finset
import RootTask.Lib.Transition

/-!
# Threads that meet over fields set once

Several straight-line programs share a record of optional fields and a lock. A program sets
fields, waits until other programs have set theirs, and reads fields it relies on. When each field
is written at one place only, such programs are easier to reason about than threads in general:

* what a program has waited for stays there, so the reads that come later succeed;
* a read needs no lock, since nothing is left that could write the field;
* fields only ever grow, so one run to the end, found by trying, shows that no run gets stuck;
* every run leaves the same values.
-/
namespace RootTask.SetOnce

open Transition

/-- One step of a program. `await` is a loop that takes the lock, tests and releases it, until
the test succeeds; a failed round changes nothing. -/
inductive Op (φ V : Type)
  | lock
  | unlock
  | await (fs : List φ)
  | set (f : φ) (v : V)
  /-- Read one field and set another to a value computed from it. -/
  | derive (f src : φ) (g : V → V)
  /-- Read a field that has to be there. -/
  | use (f : φ)

namespace Op

variable {φ V : Type}

def writes : Op φ V → List φ
  | .set f _ | .derive f _ _ => [f]
  | .lock | .unlock | .await _ | .use _ => []

def reads : Op φ V → List φ
  | .derive _ src _ => [src]
  | .use f => [f]
  | .lock | .unlock | .await _ | .set _ _ => []

/-- Fields that are there once the step is done. -/
def ensures : Op φ V → List φ
  | .await fs => fs
  | .set f _ => [f]
  | .derive f src _ => [f, src]
  | .use f => [f]
  | .lock | .unlock => []

theorem writes_subset_ensures {op : Op φ V} {f : φ} (mem : f ∈ op.writes) : f ∈ op.ensures := by
  cases op <;> simp_all [writes, ensures]

end Op

/-- One program for each thread. -/
abbrev Programs (ι φ V : Type) := ι → List (Op φ V)

structure State (ι φ V : Type) where
  pos : ι → Nat
  fields : φ → Option V
  holder : Option ι

def start {ι φ V : Type} : State ι φ V := ⟨fun _ => 0, fun _ => none, none⟩

/-- Whether the lock is held after a step, given whether it was held before. -/
def Op.holds {φ V : Type} (held : Bool) : Op φ V → Bool
  | .lock => true
  | .unlock => false
  | .await _ | .set _ _ | .derive _ _ _ | .use _ => held

/-- Whether the lock is held after the first `k` steps of a program. -/
def inside {φ V : Type} (program : List (Op φ V)) (k : Nat) : Bool :=
  (program.take k).foldl Op.holds false

/-- Whether a step fits at a place where the lock is or is not held. -/
def Op.fits {φ V : Type} (held : Bool) : Op φ V → Bool
  | .lock | .await _ => !held
  | .unlock => held
  | .set _ _ | .derive _ _ _ | .use _ => true

section Invariant

variable {ι φ V : Type}

/-- A field is written at one place, a program has made sure of every field it reads, and locks
and unlocks alternate with no waiting in between. -/
structure WellFormed (P : Programs ι φ V) : Prop where
  oneWriter : ∀ i j, ∀ (k : Fin (P i).length) (l : Fin (P j).length),
    ∀ f ∈ ((P i).get k).writes, f ∈ ((P j).get l).writes → i = j ∧ k.val = l.val
  ensured : ∀ i, ∀ k : Fin (P i).length, ∀ f ∈ ((P i).get k).reads,
    ∃ l : Fin (P i).length, l.val < k.val ∧ f ∈ ((P i).get l).ensures
  locked : ∀ i, ∀ k : Fin (P i).length, ((P i).get k).fits (inside (P i) k) = true
  released : ∀ i, inside (P i) (P i).length = false

instance [Fintype ι] [DecidableEq ι] [DecidableEq φ] (P : Programs ι φ V) :
    Decidable (WellFormed P) :=
  decidable_of_iff
    ((∀ i j, ∀ (k : Fin (P i).length) (l : Fin (P j).length),
        ∀ f ∈ ((P i).get k).writes, f ∈ ((P j).get l).writes → i = j ∧ k.val = l.val) ∧
      (∀ i, ∀ k : Fin (P i).length, ∀ f ∈ ((P i).get k).reads,
        ∃ l : Fin (P i).length, l.val < k.val ∧ f ∈ ((P i).get l).ensures) ∧
      (∀ i, ∀ k : Fin (P i).length, ((P i).get k).fits (inside (P i) k) = true) ∧
      ∀ i, inside (P i) (P i).length = false)
    ⟨fun ⟨a, b, c, d⟩ => ⟨a, b, c, d⟩, fun ⟨a, b, c, d⟩ => ⟨a, b, c, d⟩⟩

/-- The fields are those that the steps done so far have set, with the values they gave, and the
lock is held by the thread that is between a lock and an unlock. -/
structure Inv (P : Programs ι φ V) (s : State ι φ V) : Prop where
  bounded : ∀ i, s.pos i ≤ (P i).length
  ensured : ∀ i k op, k < s.pos i → (P i)[k]? = some op → ∀ f ∈ op.ensures, s.fields f ≠ none
  written : ∀ f, s.fields f ≠ none →
    ∃ i k op, k < s.pos i ∧ (P i)[k]? = some op ∧ f ∈ op.writes
  set : ∀ i k f v, k < s.pos i → (P i)[k]? = some (.set f v) → s.fields f = some v
  derived : ∀ i k f src g, k < s.pos i → (P i)[k]? = some (.derive f src g) →
    ∃ v, s.fields src = some v ∧ s.fields f = some (g v)
  holder : ∀ i, s.holder = some i ↔ inside (P i) (s.pos i) = true

variable {P : Programs ι φ V} {s : State ι φ V} {i : ι} {op : Op φ V}

theorem lt_length {program : List (Op φ V)} {k : Nat} (here : program[k]? = some op) :
    k < program.length :=
  (List.getElem?_eq_some_iff.mp here).1

theorem get_eq {program : List (Op φ V)} {k : Nat} (here : program[k]? = some op) :
    program.get ⟨k, lt_length here⟩ = op :=
  (List.getElem?_eq_some_iff.mp here).2

theorem WellFormed.fits (wf : WellFormed P) {k : Nat} (here : (P i)[k]? = some op) :
    op.fits (inside (P i) k) = true := by
  have fits := wf.locked i ⟨k, lt_length here⟩
  rwa [get_eq here] at fits

theorem inside_succ {program : List (Op φ V)} {k : Nat} (here : program[k]? = some op) :
    inside program (k + 1) = op.holds (inside program k) := by
  rw [inside, List.take_add_one, here, List.foldl_append]
  rfl

theorem Inv.start (P : Programs ι φ V) : Inv P start where
  bounded _ := Nat.zero_le _
  ensured _ _ _ before := absurd before (Nat.not_lt_zero _)
  written _ there := absurd rfl there
  set _ _ _ _ before := absurd before (Nat.not_lt_zero _)
  derived _ _ _ _ _ before := absurd before (Nat.not_lt_zero _)
  holder i := by simp [SetOnce.start, inside]

/-- Nothing is left to write a field that is there. -/
theorem Inv.no_writer (wf : WellFormed P) (inv : Inv P s) {f : φ} (there : s.fields f ≠ none)
    {k : Nat} (later : s.pos i ≤ k) (here : (P i)[k]? = some op) : f ∉ op.writes := by
  intro writes
  obtain ⟨j, l, op', before, here', writes'⟩ := inv.written f there
  obtain ⟨rfl, same⟩ := wf.oneWriter i j ⟨k, lt_length here⟩ ⟨l, lt_length here'⟩ f
    (by rwa [get_eq here]) (by rwa [get_eq here'])
  simp only at same
  omega

/-- A program finds what it reads. -/
theorem Inv.reads (wf : WellFormed P) (inv : Inv P s) (here : (P i)[s.pos i]? = some op) {f : φ}
    (reads : f ∈ op.reads) : s.fields f ≠ none := by
  obtain ⟨l, before, ensures⟩ := wf.ensured i ⟨_, lt_length here⟩ f (by rwa [get_eq here])
  exact inv.ensured i l _ before (List.getElem?_eq_getElem l.isLt) f ensures

/-- A state that is further has every field of one that is less far. -/
theorem Inv.fields_mono {t : State ι φ V} (inv : Inv P s) (inv' : Inv P t)
    (further : ∀ i, s.pos i ≤ t.pos i) {f : φ} (there : s.fields f ≠ none) :
    t.fields f ≠ none := by
  obtain ⟨j, l, op', before, here', writes⟩ := inv.written f there
  exact inv'.ensured j l op' (by have := further j; omega) here' f (Op.writes_subset_ensures writes)

end Invariant

section Steps

variable {ι φ V : Type} [DecidableEq ι] [DecidableEq φ]

namespace State

/-- What a step does to fields and lock; `none` for one that waits or fails. -/
def fire (s : State ι φ V) (i : ι) : Op φ V → Option (State ι φ V)
  | .lock => if s.holder = none then some { s with holder := some i } else none
  | .unlock => if s.holder = some i then some { s with holder := none } else none
  | .await fs => if s.holder = none ∧ ∀ f ∈ fs, (s.fields f).isSome then some s else none
  | .set f v => some { s with fields := Function.update s.fields f (some v) }
  | .derive f src g =>
    (s.fields src).map fun v => { s with fields := Function.update s.fields f (some (g v)) }
  | .use f => (s.fields f).map fun _ => s

def advance (s : State ι φ V) (i : ι) : State ι φ V :=
  { s with pos := Function.update s.pos i (s.pos i + 1) }

end State

def step (P : Programs ι φ V) (s : State ι φ V) (i : ι) : Option (State ι φ V) :=
  (P i)[s.pos i]?.bind fun op => (s.fire i op).map (·.advance i)

/-- Every program is at its end. -/
def Done (P : Programs ι φ V) (s : State ι φ V) : Prop := ∀ i, s.pos i = (P i).length

/-! ### What a step does -/

variable {P : Programs ι φ V} {s t u : State ι φ V} {i : ι} {op : Op φ V}

theorem step_eq_some :
    step P s i = some t ↔
      ∃ op u, (P i)[s.pos i]? = some op ∧ s.fire i op = some u ∧ u.advance i = t := by
  simp only [step, Option.bind_eq_some_iff, Option.map_eq_some_iff]
  constructor
  · rintro ⟨op, here, u, fired, rfl⟩
    exact ⟨op, u, here, fired, rfl⟩
  · rintro ⟨op, u, here, fired, rfl⟩
    exact ⟨op, here, u, fired, rfl⟩

/-- Steps leave positions to `advance`, and set exactly the fields they write. -/
theorem fire_spec (fired : s.fire i op = some u) :
    u.pos = s.pos ∧ (∀ f, f ∉ op.writes → u.fields f = s.fields f) ∧
      ∀ f ∈ op.ensures, u.fields f ≠ none := by
  cases op with
  | lock =>
    simp only [State.fire, Option.ite_none_right_eq_some, Option.some.injEq] at fired
    obtain ⟨-, rfl⟩ := fired
    simp [Op.ensures]
  | unlock =>
    simp only [State.fire, Option.ite_none_right_eq_some, Option.some.injEq] at fired
    obtain ⟨-, rfl⟩ := fired
    simp [Op.ensures]
  | await fs =>
    simp only [State.fire, Option.ite_none_right_eq_some, Option.some.injEq] at fired
    obtain ⟨⟨-, all⟩, rfl⟩ := fired
    exact ⟨rfl, fun _ _ => rfl, fun f mem => Option.isSome_iff_ne_none.mp (all f mem)⟩
  | set f v =>
    obtain rfl := Option.some.inj fired
    refine ⟨rfl, fun g other => Function.update_of_ne (by simpa [Op.writes] using other) _ _, ?_⟩
    simp [Op.ensures]
  | derive f src g =>
    obtain ⟨v, there, rfl⟩ := Option.map_eq_some_iff.mp fired
    refine ⟨rfl, fun g other => Function.update_of_ne (by simpa [Op.writes] using other) _ _, ?_⟩
    intro e mem
    by_cases same : e = f
    · simp [same]
    · obtain rfl : e = src := by simpa [Op.ensures, same] using mem
      simp [same, there]
  | use f =>
    obtain ⟨v, there, rfl⟩ := Option.map_eq_some_iff.mp fired
    simp [Op.ensures, there]

/-- The lock is taken, released, or left as it is. -/
theorem fire_holder (fired : s.fire i op = some u) :
    (op = .lock ∧ s.holder = none ∧ u.holder = some i) ∨
    (op = .unlock ∧ s.holder = some i ∧ u.holder = none) ∨
    ((∀ held, op.holds held = held) ∧ u.holder = s.holder) := by
  cases op with
  | lock =>
    simp only [State.fire, Option.ite_none_right_eq_some, Option.some.injEq] at fired
    obtain ⟨free, rfl⟩ := fired
    exact .inl ⟨rfl, free, rfl⟩
  | unlock =>
    simp only [State.fire, Option.ite_none_right_eq_some, Option.some.injEq] at fired
    obtain ⟨mine, rfl⟩ := fired
    exact .inr (.inl ⟨rfl, mine, rfl⟩)
  | await fs =>
    simp only [State.fire, Option.ite_none_right_eq_some, Option.some.injEq] at fired
    obtain ⟨-, rfl⟩ := fired
    exact .inr (.inr ⟨fun _ => rfl, rfl⟩)
  | set f v =>
    obtain rfl := Option.some.inj fired
    exact .inr (.inr ⟨fun _ => rfl, rfl⟩)
  | derive f src g =>
    obtain ⟨v, -, rfl⟩ := Option.map_eq_some_iff.mp fired
    exact .inr (.inr ⟨fun _ => rfl, rfl⟩)
  | use f =>
    obtain ⟨v, -, rfl⟩ := Option.map_eq_some_iff.mp fired
    exact .inr (.inr ⟨fun _ => rfl, rfl⟩)

/-! ### The invariant along a run -/

/-- Fields that are there keep their values. -/
theorem Inv.fields_kept (wf : WellFormed P) (inv : Inv P s) (here : (P i)[s.pos i]? = some op)
    (fired : s.fire i op = some u) {f : φ} {v : V} (there : s.fields f = some v) :
    u.fields f = some v := by
  rw [(fire_spec fired).2.1 f (inv.no_writer wf (by simp [there]) le_rfl here), there]

theorem Inv.holder_step (inv : Inv P s) (here : (P i)[s.pos i]? = some op)
    (fired : s.fire i op = some u) (j : ι) :
    u.holder = some j ↔ inside (P j) (Function.update s.pos i (s.pos i + 1) j) = true := by
  by_cases same : j = i
  · subst same
    rw [Function.update_self, inside_succ here]
    obtain ⟨rfl, -, held⟩ | ⟨rfl, -, free⟩ | ⟨keeps, held⟩ := fire_holder fired
    · simp [held, Op.holds]
    · simp [free, Op.holds]
    · rw [keeps, held, inv.holder]
  · rw [Function.update_of_ne same, ← inv.holder j]
    obtain ⟨-, free, held⟩ | ⟨-, held, free⟩ | ⟨-, held⟩ := fire_holder fired
    · simp [held, free, Ne.symm same]
    · simp [held, free, Ne.symm same]
    · rw [held]

omit [DecidableEq φ] in
/-- A place that has been passed after a step of `i` is one passed before, or the step itself. -/
theorem passed_cases {j : ι} {k : Nat}
    (passed : k < Function.update s.pos i (s.pos i + 1) j) :
    k < s.pos j ∨ (j = i ∧ k = s.pos i) := by
  by_cases same : j = i
  · subst same
    rw [Function.update_self] at passed
    rcases Nat.lt_succ_iff_lt_or_eq.mp passed with before | here
    · exact .inl before
    · exact .inr ⟨rfl, here⟩
  · rw [Function.update_of_ne same] at passed
    exact .inl passed

theorem Inv.step (wf : WellFormed P) (inv : Inv P s) (moved : step P s i = some t) : Inv P t := by
  obtain ⟨op, u, here, fired, rfl⟩ := step_eq_some.mp moved
  obtain ⟨samePos, sameFields, ensures⟩ := fire_spec fired
  have pos : (u.advance i).pos = Function.update s.pos i (s.pos i + 1) := by
    simp [State.advance, samePos]
  constructor
  · intro j
    rw [pos, Function.update_apply]
    split
    next same => subst same; exact lt_length here
    next => exact inv.bounded j
  · intro j k op' passed here' f mem
    rw [pos] at passed
    obtain before | ⟨rfl, rfl⟩ := passed_cases passed
    · obtain ⟨v, there⟩ := Option.ne_none_iff_exists'.mp (inv.ensured j k op' before here' f mem)
      simp [State.advance, inv.fields_kept wf here fired there]
    · obtain rfl := Option.some.inj (here.symm.trans here')
      exact ensures f mem
  · intro f there
    by_cases writes : f ∈ op.writes
    · exact ⟨i, s.pos i, op, by simp [pos], here, writes⟩
    · have before : s.fields f ≠ none := by rwa [← sameFields f writes]
      obtain ⟨j, k, op', passed, here', writes'⟩ := inv.written f before
      refine ⟨j, k, op', ?_, here', writes'⟩
      rw [pos, Function.update_apply]
      split
      next same => subst same; exact Nat.lt_succ_of_lt passed
      next => exact passed
  · intro j k f v passed here'
    rw [pos] at passed
    obtain before | ⟨rfl, rfl⟩ := passed_cases passed
    · exact inv.fields_kept wf here fired (inv.set j k f v before here')
    · obtain rfl := Option.some.inj (here.symm.trans here')
      obtain rfl := Option.some.inj fired
      simp [State.advance]
  · intro j k f src g passed here'
    rw [pos] at passed
    obtain before | ⟨rfl, rfl⟩ := passed_cases passed
    · obtain ⟨v, there, derived⟩ := inv.derived j k f src g before here'
      exact ⟨v, inv.fields_kept wf here fired there, inv.fields_kept wf here fired derived⟩
    · obtain rfl := Option.some.inj (here.symm.trans here')
      have still := fun v => inv.fields_kept wf here fired (f := src) (v := v)
      obtain ⟨v, there, rfl⟩ := Option.map_eq_some_iff.mp fired
      exact ⟨v, still v there, by simp [State.advance]⟩
  · intro j
    rw [pos]
    exact inv.holder_step here fired j

theorem inv_of_reachable (wf : WellFormed P) (run : Reachable (step P) start s) : Inv P s :=
  run.invariant (Inv P) (.start P) fun _ _ _ inv _ moved => inv.step wf moved

/-! ### Nobody gets stuck -/

/-- A thread whose next step finds the lock and the fields as it needs them takes it. -/
theorem Inv.enabled (wf : WellFormed P) (inv : Inv P s) (here : (P i)[s.pos i]? = some op)
    (lock : op = .lock → s.holder = none) (unlock : op = .unlock → s.holder = some i)
    (await : ∀ fs, op = .await fs → s.holder = none ∧ ∀ f ∈ fs, s.fields f ≠ none) :
    ∃ t, SetOnce.step P s i = some t := by
  suffices ∃ u, s.fire i op = some u by
    obtain ⟨u, fired⟩ := this
    exact ⟨_, step_eq_some.mpr ⟨op, u, here, fired, rfl⟩⟩
  have reads := fun f => inv.reads wf here (f := f)
  cases op with
  | lock => exact ⟨_, if_pos (lock rfl)⟩
  | unlock => exact ⟨_, if_pos (unlock rfl)⟩
  | await fs =>
    obtain ⟨free, all⟩ := await fs rfl
    exact ⟨_, if_pos ⟨free, fun f mem => Option.isSome_iff_ne_none.mpr (all f mem)⟩⟩
  | set f v => exact ⟨_, rfl⟩
  | derive f src g =>
    obtain ⟨v, there⟩ := Option.ne_none_iff_exists'.mp (reads src (by simp [Op.reads]))
    exact ⟨_, by rw [State.fire, there, Option.map_some]⟩
  | use f =>
    obtain ⟨v, there⟩ := Option.ne_none_iff_exists'.mp (reads f (by simp [Op.reads]))
    exact ⟨_, by rw [State.fire, there, Option.map_some]⟩

/-- The thread that holds the lock can go on. -/
theorem Inv.holder_enabled (wf : WellFormed P) (inv : Inv P s) (held : s.holder = some i) :
    ∃ t, SetOnce.step P s i = some t := by
  have isInside := (inv.holder i).mp held
  have notEnd : s.pos i < (P i).length := by
    by_contra atEnd
    have : inside (P i) (s.pos i) = inside (P i) (P i).length := by
      rw [inside, inside, List.take_of_length_le (by omega), List.take_of_length_le le_rfl]
    rw [this, wf.released] at isInside
    cases isInside
  have here := List.getElem?_eq_getElem notEnd
  have fits := wf.fits here
  rw [isInside] at fits
  refine inv.enabled wf here (fun isLock => ?_) (fun _ => held) (fun fs isAwait => ?_)
  · rw [isLock] at fits
    cases fits
  · rw [isAwait] at fits
    cases fits

/-- Along a run to the end, the first step beyond a state can be taken in that state. -/
theorem Inv.first_beyond (wf : WellFormed P) (inv : Inv P s) (free : s.holder = none)
    {d : State ι φ V} (run : Reachable (SetOnce.step P) SetOnce.start d) :
    (∀ i, d.pos i ≤ s.pos i) ∨ ∃ i t, SetOnce.step P s i = some t := by
  induction run with
  | refl => exact .inl fun i => Nat.zero_le _
  | @next x y i ran _ moved ih =>
    obtain behind | stuck := ih
    · obtain ⟨op, u, here, fired, rfl⟩ := step_eq_some.mp moved
      obtain ⟨samePos, -, ensures⟩ := fire_spec fired
      by_cases beyond : s.pos i = x.pos i
      · -- the step was possible with fewer fields
        right
        have invX := inv_of_reachable wf ran
        rw [← beyond] at here
        have mono := fun f => invX.fields_mono inv behind (f := f)
        refine ⟨i, inv.enabled wf here (fun _ => free) (fun isUnlock => ?_) fun fs isAwait => ?_⟩
        · have fits := wf.fits here
          rw [isUnlock] at fits
          rw [(inv.holder i).mpr fits] at free
          cases free
        · subst isAwait
          simp only [State.fire, Option.ite_none_right_eq_some] at fired
          exact ⟨free, fun f mem => mono f (Option.isSome_iff_ne_none.mp (fired.1.2 f mem))⟩
      · refine .inl fun j => ?_
        have := behind j
        simp only [State.advance, samePos, Function.update_apply]
        split
        next same => subst same; omega
        next => exact this
    · exact .inr stuck

/-- Where one run reaches the end, no reachable state short of the end is stuck. -/
theorem not_stuck (wf : WellFormed P) {d : State ι φ V} (finished : Reachable (step P) start d)
    (done : Done P d) (run : Reachable (step P) start s) (notDone : ¬ Done P s) :
    ∃ i t, step P s i = some t := by
  have inv := inv_of_reachable wf run
  cases held : s.holder with
  | some i =>
    obtain ⟨t, moved⟩ := inv.holder_enabled wf held
    exact ⟨i, t, moved⟩
  | none =>
    obtain behind | able := inv.first_beyond wf held finished
    · refine absurd (fun i => ?_) notDone
      have := behind i
      have := inv.bounded i
      rw [done i] at *
      omega
    · exact able

/-- From every reachable state all threads can come to their ends. -/
theorem can_finish [Fintype ι] (wf : WellFormed P) {d : State ι φ V}
    (finished : Reachable (step P) start d) (done : Done P d)
    (run : Reachable (step P) start s) : ∃ t, Reachable (step P) s t ∧ Done P t := by
  -- every step that is taken leaves one step less
  induction left : ∑ i, ((P i).length - s.pos i) using Nat.strong_induction_on generalizing s with
  | _ n ih =>
    by_cases isDone : Done P s
    · exact ⟨s, .refl, isDone⟩
    · obtain ⟨i, u, moved⟩ := not_stuck wf finished done run isDone
      obtain ⟨op, fired, here, isFired, rfl⟩ := step_eq_some.mp moved
      have samePos := (fire_spec isFired).1
      have notEnd := lt_length here
      have less : ∑ j, ((P j).length - (fired.advance i).pos j) < n := by
        rw [← left]
        refine Finset.sum_lt_sum (fun j _ => ?_) ⟨i, Finset.mem_univ i, ?_⟩
        · simp only [State.advance, samePos, Function.update_apply]
          split
          next same => subst same; omega
          next => exact le_rfl
        · simp only [State.advance, samePos, Function.update_self]
          omega
      obtain ⟨t, later, isDone'⟩ := ih _ less (.next run trivial moved) rfl
      exact ⟨t, Reaches.trans (.next .refl trivial moved) later, isDone'⟩

/-! ### One outcome -/

/-- Whatever a run has put into a field is what every complete run leaves there. -/
theorem fields_of_done (wf : WellFormed P) {d : State ι φ V}
    (finished : Reachable (step P) start d) (done : Done P d)
    (run : Reachable (step P) start s) {f : φ} {v : V} (there : s.fields f = some v) :
    d.fields f = some v := by
  have invD := inv_of_reachable wf finished
  induction run generalizing f v with
  | refl => cases there
  | @next x y i ran _ moved ih =>
    obtain ⟨op, u, here, fired, rfl⟩ := step_eq_some.mp moved
    have passed : x.pos i < d.pos i := by rw [done i]; exact lt_length here
    by_cases writes : f ∈ op.writes
    · cases op with
      | set g w =>
        obtain rfl := Option.some.inj fired
        obtain rfl : f = g := by simpa [Op.writes] using writes
        have same : w = v := by simpa [State.advance] using there
        rw [← same, invD.set i _ f w passed here]
      | derive g src h =>
        obtain ⟨w, sourced, rfl⟩ := Option.map_eq_some_iff.mp fired
        obtain rfl : f = g := by simpa [Op.writes] using writes
        have same : h w = v := by simpa [State.advance] using there
        obtain ⟨w', sourced', derived⟩ := invD.derived i _ f src h passed here
        rw [ih sourced] at sourced'
        rw [← same, derived, ← Option.some.inj sourced']
      | lock => simp [Op.writes] at writes
      | unlock => simp [Op.writes] at writes
      | await fs => simp [Op.writes] at writes
      | use g => simp [Op.writes] at writes
    · refine ih ?_
      rw [← (fire_spec fired).2.1 f writes]
      exact there

end Steps

end RootTask.SetOnce
