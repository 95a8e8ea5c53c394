import RootTask.Lib.Refinement
import RootTask.Runtime.SafeRingBuffer

/-!
# `RingBuffer` as a bounded queue

The buffer with its fields as they are in memory: an array, and two `usize` positions that
nothing keeps below `SIZE` but the code itself. Additions and subtractions are checked for
overflow, and every index is checked. `RingBuffer` is what the reachable ones of these look
like: each operation on the image of a `RingBuffer` returns, and what it leaves is the image
of what the operation on `RingBuffer` leaves.
-/
namespace RootTask.Runtime

open RootTask.Transition RootTask.Refinement

/-- `a + b`. -/
def usizeAdd (a b : BitVec 64) : Except Panic (BitVec 64) :=
  if a.toNat + b.toNat < 2 ^ 64 then .ok (a + b) else .error .overflow

/-- `a - b`. -/
def usizeSub (a b : BitVec 64) : Except Panic (BitVec 64) :=
  if b.toNat ≤ a.toNat then .ok (a - b) else .error .overflow

theorem usizeAdd_ok {a b : BitVec 64} (bound : a.toNat + b.toNat < 2 ^ 64) :
    ∃ c, usizeAdd a b = .ok c ∧ c.toNat = a.toNat + b.toNat := by
  refine ⟨a + b, if_pos bound, ?_⟩
  rw [BitVec.toNat_add, Nat.mod_eq_of_lt bound]

theorem usizeSub_ok {a b : BitVec 64} (bound : b.toNat ≤ a.toNat) :
    ∃ c, usizeSub a b = .ok c ∧ c.toNat = a.toNat - b.toNat :=
  ⟨a - b, if_pos bound, BitVec.toNat_sub_of_le (BitVec.le_def.mpr bound)⟩

/-- `RingBuffer<T, SIZE>`. A `SIZE` of 0 is left out: `% SIZE` divides by it. -/
structure RawRingBuffer (T : Type) (SIZE : Nat) [NeZero SIZE] where
  data : Vector T SIZE
  start : BitVec 64
  end_ : BitVec 64

/-! ### The code -/

namespace RawRingBuffer

variable {T : Type} {SIZE : Nat} [NeZero SIZE]

def new [Inhabited T] : RawRingBuffer T SIZE := ⟨Vector.replicate SIZE default, 0, 0⟩

def size (b : RawRingBuffer T SIZE) : Except Panic (BitVec 64) :=
  (usizeAdd b.end_ (BitVec.ofNat 64 SIZE)).bind fun sum =>
    (usizeSub sum b.start).map fun size => size % BitVec.ofNat 64 SIZE

def empty (b : RawRingBuffer T SIZE) : Bool := b.end_ == b.start

def full (b : RawRingBuffer T SIZE) : Except Panic Bool :=
  (usizeAdd b.end_ 1).map fun next => next % BitVec.ofNat 64 SIZE == b.start

def push (b : RawRingBuffer T SIZE) (item : T) :
    Except Panic (Except Unit Unit × RawRingBuffer T SIZE) :=
  b.full.bind fun full =>
    if !full then
      if inRange : b.end_.toNat < SIZE then
        (usizeAdd b.end_ 1).map fun next =>
          (.ok (), { b with
            data := b.data.set b.end_.toNat item inRange
            end_ := next % BitVec.ofNat 64 SIZE })
      else .error .indexOutOfBounds
    else .ok (.error (), b)

def pop (b : RawRingBuffer T SIZE) : Except Panic (Option T × RawRingBuffer T SIZE) :=
  if !b.empty then
    if inRange : b.start.toNat < SIZE then
      (usizeAdd b.start 1).map fun next =>
        (some (b.data.get ⟨b.start.toNat, inRange⟩),
          { b with start := next % BitVec.ofNat 64 SIZE })
    else .error .indexOutOfBounds
  else .ok (none, b)

end RawRingBuffer

/-- A call of `push` or `pop`. -/
inductive QueueCall (T : Type) where
  | push (item : T)
  | pop

/-- A call with what it returns. -/
def RawRingBuffer.call {T : Type} {SIZE : Nat} [NeZero SIZE] (b : RawRingBuffer T SIZE) :
    QueueCall T → Except Panic (Outcome T × RawRingBuffer T SIZE)
  | .push item => (b.push item).map fun (result, b) =>
    match result with
    | .ok () => (.pushOk, b)
    | .error () => (.pushErr, b)
  | .pop => b.pop.map fun (result, b) =>
    match result with
    | some item => (.popSome item, b)
    | none => (.popNone, b)

/-! ### The queue -/

/-- A first-in first-out queue of at most `capacity` values. -/
def boundedQueue {T : Type} (capacity : Nat) : List T → QueueCall T → Outcome T × List T
  | values, .push item =>
    if values.length = capacity then (.pushErr, values) else (.pushOk, values ++ [item])
  | [], .pop => (.popNone, [])
  | first :: rest, .pop => (.popSome first, rest)

/-- The values that a `push` of the history has put in, in order. -/
def pushed {T : Type} (history : List (QueueCall T × Outcome T)) : List T :=
  history.filterMap fun
    | (.push item, .pushOk) => some item
    | _ => none

/-- The values that a `pop` of the history has returned, in order. -/
def popped {T : Type} (history : List (QueueCall T × Outcome T)) : List T :=
  history.filterMap fun
    | (.pop, .popSome item) => some item
    | _ => none

theorem pushed_append {T : Type} (history later : List (QueueCall T × Outcome T)) :
    pushed (history ++ later) = pushed history ++ pushed later := List.filterMap_append

theorem popped_append {T : Type} (history later : List (QueueCall T × Outcome T)) :
    popped (history ++ later) = popped history ++ popped later := List.filterMap_append

/-- The queue holds the values that were pushed and not popped. -/
theorem boundedQueue_history {T : Type} (capacity : Nat) (calls : List (QueueCall T)) :
    pushed (calls.zip (trace (boundedQueue capacity) [] calls).1) =
      popped (calls.zip (trace (boundedQueue capacity) [] calls).1) ++
        (trace (boundedQueue capacity) [] calls).2 := by
  have start : pushed ([] : List (QueueCall T × Outcome T)) = popped [] ++ [] := rfl
  refine trace_history (fun history values => pushed history = popped history ++ values) ?_
    start calls
  intro history values c balance
  rw [pushed_append, popped_append, balance]
  cases c with
  | push item =>
    simp only [boundedQueue]
    split
    · simp [pushed, popped]
    · simp [pushed, popped]
  | pop =>
    cases values with
    | nil => simp [pushed, popped, boundedQueue]
    | cons first rest => simp [pushed, popped, boundedQueue]

/-! ### Images of ring buffers -/

namespace RingBuffer

variable {T : Type} {SIZE : Nat} [NeZero SIZE]

/-- The buffer in memory. -/
def raw (b : RingBuffer T SIZE) : RawRingBuffer T SIZE :=
  ⟨Vector.ofFn b.data, BitVec.ofNat 64 b.start.val, BitVec.ofNat 64 b.end_.val⟩

theorem raw_new [Inhabited T] : (new : RingBuffer T SIZE).raw = .new := by
  simp only [raw, new, RawRingBuffer.new, Fin.val_zero]
  congr
  ext i
  simp

variable (fits : 2 * SIZE < 2 ^ 64)
include fits

omit [NeZero SIZE] in
theorem toNat_position (i : Fin SIZE) : (BitVec.ofNat 64 i.val).toNat = i.val := by
  rw [BitVec.toNat_ofNat]
  exact Nat.mod_eq_of_lt (by omega)

omit [NeZero SIZE] in
private theorem position_beq (i j : Fin SIZE) :
    (BitVec.ofNat 64 i.val == BitVec.ofNat 64 j.val) = (i == j) := by
  apply Bool.eq_iff_iff.mpr
  simp only [beq_iff_eq, ← BitVec.toNat_inj, toNat_position fits, Fin.ext_iff]

omit [NeZero SIZE] in
private theorem toNat_size : (BitVec.ofNat 64 SIZE).toNat = SIZE := by
  rw [BitVec.toNat_ofNat]
  exact Nat.mod_eq_of_lt (by omega)

omit [NeZero SIZE] in
/-- `(i + 1) % SIZE` does not overflow. -/
private theorem next_position (i : Fin SIZE) :
    ∃ next, usizeAdd (BitVec.ofNat 64 i.val) 1 = .ok next ∧
      next % BitVec.ofNat 64 SIZE = BitVec.ofNat 64 (wrap i 1).val := by
  have bound := i.isLt
  have position := toNat_position fits i
  have one : (1 : BitVec 64).toNat = 1 := rfl
  obtain ⟨next, added, value⟩ := usizeAdd_ok (a := BitVec.ofNat 64 i.val) (b := 1) (by omega)
  refine ⟨next, added, BitVec.eq_of_toNat_eq ?_⟩
  rw [BitVec.toNat_umod, value, position, toNat_position fits, toNat_size fits]
  rfl

theorem raw_size (b : RingBuffer T SIZE) : b.raw.size = .ok (BitVec.ofNat 64 b.size) := by
  have below := b.start.isLt
  have start := toNat_position fits b.start
  have end_ := toNat_position fits b.end_
  have size := toNat_size fits
  obtain ⟨sum, added, sumValue⟩ := usizeAdd_ok (a := BitVec.ofNat 64 b.end_.val)
    (b := BitVec.ofNat 64 SIZE) (by omega)
  obtain ⟨difference, subtracted, value⟩ := usizeSub_ok (a := sum)
    (b := BitVec.ofNat 64 b.start.val) (by omega)
  simp only [RawRingBuffer.size, raw, added, Except.bind, subtracted, Except.map,
    Except.ok.injEq]
  apply BitVec.eq_of_toNat_eq
  rw [BitVec.toNat_umod, value, sumValue, start, end_, size, BitVec.toNat_ofNat, RingBuffer.size]
  exact (Nat.mod_eq_of_lt (Nat.lt_trans b.size_lt (by omega))).symm

theorem raw_empty (b : RingBuffer T SIZE) : b.raw.empty = b.empty := position_beq fits _ _

theorem raw_full (b : RingBuffer T SIZE) : b.raw.full = .ok b.full := by
  obtain ⟨next, added, wrapped⟩ := next_position fits b.end_
  simp only [RawRingBuffer.full, raw, added, Except.map, wrapped, position_beq fits, full]

omit [NeZero SIZE] fits in
private theorem set_ofFn (f : Fin SIZE → T) (i : Fin SIZE) (item : T) {k : Nat} (inRange : k < SIZE)
    (same : k = i.val) :
    (Vector.ofFn f).set k item inRange = Vector.ofFn (Function.update f i item) := by
  subst same
  ext j bound
  by_cases here : i.val = j
  · subst here
    simp
  · have elsewhere : (⟨j, bound⟩ : Fin SIZE) ≠ i := fun eq => here (by rw [← eq])
    simp [here, Function.update_of_ne elsewhere]

/-- `push` in memory is `push`, whether there is room or not. -/
theorem raw_push (b : RingBuffer T SIZE) (item : T) :
    b.raw.push item = .ok (match b.push item with
      | .ok after => (.ok (), after.raw)
      | .error () => (.error (), b.raw)) := by
  simp only [RawRingBuffer.push, raw_full fits, Except.bind, push]
  cases b.full with
  | true => rfl
  | false =>
    have position : b.raw.end_.toNat = b.end_.val := toNat_position fits b.end_
    have inRange : b.raw.end_.toNat < SIZE := position ▸ b.end_.isLt
    obtain ⟨next, added, wrapped⟩ := next_position fits b.end_
    have advanced : usizeAdd b.raw.end_ 1 = .ok next := added
    have written : b.raw.data.set b.raw.end_.toNat item inRange =
        Vector.ofFn (Function.update b.data b.end_ item) :=
      set_ofFn b.data b.end_ item inRange position
    simp only [Bool.not_false, if_true, dif_pos inRange, advanced, Except.map, wrapped, written]
    rfl

theorem raw_pop (b : RingBuffer T SIZE) :
    b.raw.pop = .ok (match b.pop with
      | some (item, after) => (some item, after.raw)
      | none => (none, b.raw)) := by
  simp only [RawRingBuffer.pop, raw_empty fits, pop]
  cases b.empty with
  | true => rfl
  | false =>
    have position : b.raw.start.toNat = b.start.val := toNat_position fits b.start
    have inRange : b.raw.start.toNat < SIZE := position ▸ b.start.isLt
    obtain ⟨next, added, wrapped⟩ := next_position fits b.start
    have advanced : usizeAdd b.raw.start 1 = .ok next := added
    have first : b.raw.data.get ⟨b.raw.start.toNat, inRange⟩ = b.data b.start := by
      have here : (⟨b.raw.start.toNat, inRange⟩ : Fin SIZE) = b.start := Fin.ext position
      rw [here]
      exact Vector.getElem_ofFn b.start.isLt
    simp only [Bool.not_false, if_true, dif_pos inRange, advanced, Except.map, wrapped, first]
    rfl

end RingBuffer

/-! ### Refinement -/

namespace RawRingBuffer

variable {T : Type} {SIZE : Nat} [NeZero SIZE]

/-- The values from `start` up to `end`. -/
def contents (b : RawRingBuffer T SIZE) : List T :=
  (List.range ((b.end_.toNat + SIZE - b.start.toNat) % SIZE)).map fun i =>
    b.data.get ⟨(b.start.toNat + i) % SIZE, Nat.mod_lt _ (NeZero.pos SIZE)⟩

/-- All that can be seen of a buffer with these values in it. -/
structure Holds (b : RawRingBuffer T SIZE) (values : List T) : Prop where
  contents : b.contents = values
  size : b.size.map BitVec.toNat = .ok values.length
  empty : b.empty = true ↔ values = []
  full : b.full = .ok (decide (values.length = SIZE - 1))
  start_lt : b.start.toNat < SIZE
  end_lt : b.end_.toNat < SIZE

/-- The buffer is the image of a `RingBuffer` with these values. -/
def Represents (b : RawRingBuffer T SIZE) (values : List T) : Prop :=
  ∃ ring : RingBuffer T SIZE, ring.raw = b ∧ ring.toList = values

theorem represents_new [Inhabited T] : (new : RawRingBuffer T SIZE).Represents [] :=
  ⟨.new, RingBuffer.raw_new, RingBuffer.toList_new⟩

variable {b : RawRingBuffer T SIZE} {values : List T} (fits : 2 * SIZE < 2 ^ 64)
include fits

theorem Represents.holds (represents : b.Represents values) : b.Holds values := by
  obtain ⟨ring, rfl, rfl⟩ := represents
  have positive := NeZero.pos SIZE
  have start : ring.raw.start.toNat = ring.start.val := RingBuffer.toNat_position fits ring.start
  have end_ : ring.raw.end_.toNat = ring.end_.val := RingBuffer.toNat_position fits ring.end_
  refine ⟨?_, ?_, ?_, ?_, ?_, ?_⟩
  · simp only [contents, start, end_]
    exact List.map_congr_left fun i _ => Vector.getElem_ofFn (wrap ring.start i).isLt
  · have below := ring.size_lt
    rw [RingBuffer.raw_size fits, RingBuffer.length_toList, Except.map, BitVec.toNat_ofNat,
      Nat.mod_eq_of_lt (by omega)]
  · rw [RingBuffer.raw_empty fits, RingBuffer.empty_iff]
  · rw [RingBuffer.raw_full fits]
    congr 1
    apply Bool.eq_iff_iff.mpr
    rw [RingBuffer.full_iff, decide_eq_true_eq]
    omega
  · rw [start]
    exact ring.start.isLt
  · rw [end_]
    exact ring.end_.isLt

/-- `push` appends, and refuses only a buffer with `SIZE - 1` values, which stays as it is. -/
theorem Represents.push (represents : b.Represents values) (item : T) :
    (values.length = SIZE - 1 → b.push item = .ok (.error (), b)) ∧
    (values.length ≠ SIZE - 1 →
      ∃ after, b.push item = .ok (.ok (), after) ∧ after.Represents (values ++ [item])) := by
  obtain ⟨ring, rfl, rfl⟩ := represents
  have positive := NeZero.pos SIZE
  have refused := ring.push_error_iff item
  rw [RingBuffer.raw_push fits]
  cases returned : ring.push item with
  | ok after =>
    have room : ring.toList.length ≠ SIZE - 1 := by
      intro full
      obtain ⟨e, failed⟩ := refused.mpr (by omega)
      rw [returned] at failed
      cases failed
    exact ⟨fun full => absurd full room,
      fun _ => ⟨after.raw, rfl, after, rfl, RingBuffer.push_ok returned⟩⟩
  | error e =>
    have full := refused.mp ⟨e, returned⟩
    exact ⟨fun _ => rfl, fun room => absurd (by omega) room⟩

/-- `pop` takes the first value, and leaves an empty buffer as it is. -/
theorem Represents.pop (represents : b.Represents values) :
    (values = [] → b.pop = .ok (none, b)) ∧
    ∀ first rest, values = first :: rest →
      ∃ after, b.pop = .ok (some first, after) ∧ after.Represents rest := by
  obtain ⟨ring, rfl, rfl⟩ := represents
  rw [RingBuffer.raw_pop fits]
  cases returned : ring.pop with
  | none =>
    have empty := ring.pop_none_iff.mp returned
    simp [empty]
  | some result =>
    obtain ⟨item, after⟩ := result
    rw [RingBuffer.pop_some returned]
    constructor
    · intro empty
      cases empty
    · rintro first rest ⟨⟩
      exact ⟨after.raw, rfl, after, rfl, rfl⟩

theorem call_simulates :
    Simulates (@call T SIZE _) (boundedQueue (SIZE - 1)) Represents := by
  intro b values c represents
  cases c with
  | push item =>
    obtain ⟨refused, accepted⟩ := represents.push fits item
    by_cases full : values.length = SIZE - 1
    · simp only [call, boundedQueue, if_pos full, refused full]
      exact ⟨b, rfl, represents⟩
    · obtain ⟨after, returned, next⟩ := accepted full
      simp only [call, boundedQueue, if_neg full, returned]
      exact ⟨after, rfl, next⟩
  | pop =>
    obtain ⟨nothing, something⟩ := represents.pop fits
    cases values with
    | nil =>
      simp only [call, nothing rfl]
      exact ⟨b, rfl, represents⟩
    | cons first rest =>
      obtain ⟨after, returned, next⟩ := something first rest rfl
      simp only [call, returned]
      exact ⟨after, rfl, next⟩

/-- Over every sequence of calls from `new`: none of them panics, and there is a list of the
values pushed and not popped, in order, such that the buffer is a queue of at most `SIZE - 1`
values with this list in it. -/
theorem refines_boundedQueue [Inhabited T] (calls : List (QueueCall T)) :
    ∃ (outcomes : List (Outcome T)) (b : RawRingBuffer T SIZE) (values : List T),
      run call new calls = .ok (outcomes, b) ∧
      trace (boundedQueue (SIZE - 1)) [] calls = (outcomes, values) ∧
      pushed (calls.zip outcomes) = popped (calls.zip outcomes) ++ values ∧
      b.Holds values ∧
      (∀ item, values.length = SIZE - 1 → b.push item = .ok (.error (), b)) ∧
      (∀ item, values.length ≠ SIZE - 1 →
        ∃ after, b.push item = .ok (.ok (), after) ∧ after.Holds (values ++ [item])) ∧
      (values = [] → b.pop = .ok (none, b)) ∧
      ∀ first rest, values = first :: rest →
        ∃ after, b.pop = .ok (some first, after) ∧ after.Holds rest := by
  obtain ⟨b, returned, represents⟩ := (call_simulates fits).run represents_new calls
  refine ⟨_, b, _, returned, rfl, boundedQueue_history _ calls, represents.holds fits,
    fun item => (represents.push fits item).1, fun item room => ?_, (represents.pop fits).1,
    fun first rest front => ?_⟩
  · obtain ⟨after, pushed, next⟩ := (represents.push fits item).2 room
    exact ⟨after, pushed, next.holds fits⟩
  · obtain ⟨after, popped, next⟩ := (represents.pop fits).2 first rest front
    exact ⟨after, popped, next.holds fits⟩

omit [NeZero SIZE] fits in
/-- A buffer of three slots takes two values, refuses a third, and goes around. One with a single
slot takes none. -/
theorem refines_boundedQueue_around :
    (∃ b : RawRingBuffer Nat 3,
      run call new [.push 1, .push 2, .push 3, .pop, .push 4, .pop, .push 5] =
        .ok ([.pushOk, .pushOk, .pushErr, .popSome 1, .pushOk, .popSome 2, .pushOk], b) ∧
      b.Holds [4, 5]) ∧
    ∃ b : RawRingBuffer Nat 1, run call new [.push 1, .pop] = .ok ([.pushErr, .popNone], b) ∧
      b.Holds [] := by
  constructor
  · have fits : 2 * 3 < 2 ^ 64 := by decide
    obtain ⟨_, b, _, returned, queued, -, holds, -⟩ :=
      refines_boundedQueue (T := Nat) fits
        [.push 1, .push 2, .push 3, .pop, .push 4, .pop, .push 5]
    cases queued
    exact ⟨b, returned, holds⟩
  · have fits : 2 * 1 < 2 ^ 64 := by decide
    obtain ⟨_, b, _, returned, queued, -, holds, -⟩ :=
      refines_boundedQueue (T := Nat) fits [.push 1, .pop]
    cases queued
    exact ⟨b, returned, holds⟩

end RawRingBuffer

end RootTask.Runtime
