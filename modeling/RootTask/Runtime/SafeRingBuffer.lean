import RootTask.Lib.Transition
import RootTask.Runtime.Utils
import Mathlib.Data.Nat.ModEq

/-!
# `SafeRingBuffer` shared by one producer and one consumer

`push_safe` and `pop_safe` touch four locations, `data`, `start`, `end` and `count`, one
access at a time. Each access is one step here, and the two parties interleave freely.

## Proof strategy

Positions are absolute: the `k`-th accepted value lives in slot `k % SIZE`. `count` lags
behind `end` while the producer has not yet published, and behind `start` while the
consumer has not yet released, so the invariant adds each party's own advance to the
lengths of the two histories.
-/
namespace RootTask.Runtime

open Transition

structure SafeRingBuffer (T : Type) (SIZE : Nat) where
  data : Fin SIZE → T
  start : Fin SIZE
  end_ : Fin SIZE
  count : Nat

/-- `fetch_add(1)` on an `AtomicUsize`, wrapping at the top. -/
def fetchAdd (count : Nat) : Nat := if count + 1 = 2 ^ 64 then 0 else count + 1

/-- `fetch_sub(1)` on an `AtomicUsize`, wrapping below zero. -/
def fetchSub (count : Nat) : Nat := if count = 0 then 2 ^ 64 - 1 else count - 1

namespace SafeRingBuffer

variable {T : Type} {SIZE : Nat}

def new [NeZero SIZE] [Inhabited T] : SafeRingBuffer T SIZE := ⟨fun _ => default, 0, 0, 0⟩

end SafeRingBuffer

/-- The next access of `push_safe`. -/
inductive Producer (T : Type) where
  | idle
  | check (item : T)
  | write (item : T)
  | advance (item : T)
  | publish (item : T)
  deriving DecidableEq

/-- The next access of `pop_safe`. -/
inductive Consumer (T : Type) where
  | idle
  | read
  | advance (item : T)
  | release (item : T)
  deriving DecidableEq

/-- What a call returns when its last access is done. -/
inductive Outcome (T : Type) where
  | pushOk
  | pushErr
  | popSome (item : T)
  | popNone
  deriving DecidableEq

inductive Access (T : Type) where
  | push (item : T)
  | producer
  | pop
  | consumer

/-- The buffer, the two parties, and the values accepted and returned so far. -/
structure Spsc (T : Type) (SIZE : Nat) where
  buffer : SafeRingBuffer T SIZE
  producer : Producer T := .idle
  consumer : Consumer T := .idle
  accepted : List T := []
  returned : List T := []

namespace Spsc

variable {T : Type} {SIZE : Nat}

def new [NeZero SIZE] [Inhabited T] : Spsc T SIZE := { buffer := .new }

/-- One access, with the outcome of the call if it was the last one. -/
def access (s : Spsc T SIZE) : Access T → Option (Spsc T SIZE × Option (Outcome T))
  | .push item =>
    match s.producer with
    -- `let cnt = self.count.load(Relaxed)`: the loaded value is never used
    | .idle => some ({ s with producer := .check item }, none)
    | _ => none
  | .producer =>
    match s.producer with
    | .idle => none
    | .check item =>
      -- `self.full()` loads `count` again
      if !(s.buffer.count == SIZE) then some ({ s with producer := .write item }, none)
      else some ({ s with producer := .idle }, some .pushErr)
    | .write item =>
      some ({ s with
        buffer := { s.buffer with data := Function.update s.buffer.data s.buffer.end_ item }
        producer := .advance item }, none)
    | .advance item =>
      some ({ s with
        buffer := { s.buffer with end_ := wrap s.buffer.end_ 1 }
        producer := .publish item }, none)
    | .publish item =>
      some ({ s with
        buffer := { s.buffer with count := fetchAdd s.buffer.count }
        producer := .idle
        accepted := s.accepted ++ [item] }, some .pushOk)
  | .pop =>
    match s.consumer with
    | .idle =>
      -- `self.empty()`, the first access of `pop_safe`
      if !(s.buffer.count == 0) then some ({ s with consumer := .read }, none)
      else some (s, some .popNone)
    | _ => none
  | .consumer =>
    match s.consumer with
    | .idle => none
    | .read => some ({ s with consumer := .advance (s.buffer.data s.buffer.start) }, none)
    | .advance item =>
      some ({ s with
        buffer := { s.buffer with start := wrap s.buffer.start 1 }
        consumer := .release item }, none)
    | .release item =>
      some ({ s with
        buffer := { s.buffer with count := fetchSub s.buffer.count }
        consumer := .idle
        returned := s.returned ++ [item] }, some (.popSome item))

def step (s : Spsc T SIZE) (a : Access T) : Option (Spsc T SIZE) := (s.access a).map Prod.fst

/-- All that an access can do, by the call it belongs to. -/
inductive Accessed (s : Spsc T SIZE) : Access T → Spsc T SIZE → Option (Outcome T) → Prop
  | called (item : T) (idle : s.producer = .idle) :
      Accessed s (.push item) { s with producer := .check item } none
  | admitted (item : T) (pc : s.producer = .check item) (room : s.buffer.count ≠ SIZE) :
      Accessed s .producer { s with producer := .write item } none
  | refused (item : T) (pc : s.producer = .check item) (full : s.buffer.count = SIZE) :
      Accessed s .producer { s with producer := .idle } (some .pushErr)
  | written (item : T) (pc : s.producer = .write item) :
      Accessed s .producer { s with
        buffer := { s.buffer with data := Function.update s.buffer.data s.buffer.end_ item }
        producer := .advance item } none
  | endMoved (item : T) (pc : s.producer = .advance item) :
      Accessed s .producer { s with
        buffer := { s.buffer with end_ := wrap s.buffer.end_ 1 }
        producer := .publish item } none
  | published (item : T) (pc : s.producer = .publish item) :
      Accessed s .producer { s with
        buffer := { s.buffer with count := fetchAdd s.buffer.count }
        producer := .idle
        accepted := s.accepted ++ [item] } (some .pushOk)
  | found (pc : s.consumer = .idle) (some_ : s.buffer.count ≠ 0) :
      Accessed s .pop { s with consumer := .read } none
  | nothing (pc : s.consumer = .idle) (none_ : s.buffer.count = 0) :
      Accessed s .pop s (some .popNone)
  | read (pc : s.consumer = .read) :
      Accessed s .consumer { s with consumer := .advance (s.buffer.data s.buffer.start) } none
  | startMoved (item : T) (pc : s.consumer = .advance item) :
      Accessed s .consumer { s with
        buffer := { s.buffer with start := wrap s.buffer.start 1 }
        consumer := .release item } none
  | released (item : T) (pc : s.consumer = .release item) :
      Accessed s .consumer { s with
        buffer := { s.buffer with count := fetchSub s.buffer.count }
        consumer := .idle
        returned := s.returned ++ [item] } (some (.popSome item))

theorem access_cases {s t : Spsc T SIZE} {a : Access T} {o : Option (Outcome T)}
    (moved : s.access a = some (t, o)) : s.Accessed a t o := by
  cases a with
  | push item =>
    cases pc : s.producer <;> simp only [access, pc, reduceCtorEq] at moved
    cases moved
    exact .called item pc
  | producer =>
    cases pc : s.producer with
    | idle => simp [access, pc] at moved
    | check item =>
      simp only [access, pc] at moved
      split at moved
      next room => cases moved; exact .admitted item pc (by simpa using room)
      next full => cases moved; exact .refused item pc (by simpa using full)
    | write item => simp only [access, pc] at moved; cases moved; exact .written item pc
    | advance item => simp only [access, pc] at moved; cases moved; exact .endMoved item pc
    | publish item => simp only [access, pc] at moved; cases moved; exact .published item pc
  | pop =>
    cases pc : s.consumer <;> simp only [access, pc, reduceCtorEq] at moved
    split at moved
    next some_ => cases moved; exact .found pc (by simpa using some_)
    next none_ => cases moved; exact .nothing pc (by simpa using none_)
  | consumer =>
    cases pc : s.consumer with
    | idle => simp [access, pc] at moved
    | read => simp only [access, pc] at moved; cases moved; exact .read pc
    | advance item => simp only [access, pc] at moved; cases moved; exact .startMoved item pc
    | release item => simp only [access, pc] at moved; cases moved; exact .released item pc

/-! ### Positions -/

/-- Slot of the `k`-th value ever accepted. -/
def slot [NeZero SIZE] (k : Nat) : Fin SIZE := ⟨k % SIZE, Nat.mod_lt _ (NeZero.pos SIZE)⟩

theorem wrap_slot [NeZero SIZE] (k : Nat) : wrap (slot k : Fin SIZE) 1 = slot (k + 1) := by
  simp [wrap, slot]

/-- Positions less than one revolution apart occupy different slots. -/
theorem slot_ne [NeZero SIZE] {k m : Nat} (order : k < m) (near : m - k < SIZE) :
    (slot k : Fin SIZE) ≠ slot m := by
  intro same
  have congruent : k % SIZE = m % SIZE := congrArg Fin.val same
  -- equal slots would be a whole number of revolutions apart
  have divides : SIZE ∣ m - k := (Nat.modEq_iff_dvd' (by omega)).mp congruent
  exact absurd (Nat.le_of_dvd (by omega) divides) (by omega)

/-- One while `end` is ahead of `count`. -/
def Producer.ahead : Producer T → Nat
  | .publish _ => 1
  | _ => 0

/-- One while `start` is ahead of `count`. -/
def Consumer.ahead : Consumer T → Nat
  | .release _ => 1
  | _ => 0

/-! ### Invariant -/

/-- What the producer may rely on between its accesses. -/
def ProducerFacts [NeZero SIZE] (s : Spsc T SIZE) : Prop :=
  match s.producer with
  | .idle | .check _ => True
  | .write _ => s.buffer.count < SIZE
  | .advance item | .publish item =>
    s.buffer.count < SIZE ∧ s.buffer.data (slot s.accepted.length) = item

/-- What the consumer may rely on between its accesses. -/
def ConsumerFacts (s : Spsc T SIZE) : Prop :=
  match s.consumer with
  | .idle => True
  | .read => 0 < s.buffer.count
  | .advance item | .release item =>
    0 < s.buffer.count ∧ s.accepted[s.returned.length]? = some item

structure Invariant [NeZero SIZE] (s : Spsc T SIZE) : Prop where
  balance : s.accepted.length = s.returned.length + s.buffer.count
  capacity : s.buffer.count ≤ SIZE
  history : s.returned <+: s.accepted
  start_eq : s.buffer.start = slot (s.returned.length + Consumer.ahead s.consumer)
  end_eq : s.buffer.end_ = slot (s.accepted.length + Producer.ahead s.producer)
  stored : ∀ k item, s.returned.length ≤ k → s.accepted[k]? = some item →
    s.buffer.data (slot k) = item
  producing : s.ProducerFacts
  consuming : s.ConsumerFacts

variable [NeZero SIZE]

theorem invariant_new [Inhabited T] : (new : Spsc T SIZE).Invariant where
  balance := rfl
  capacity := Nat.zero_le _
  history := List.prefix_rfl
  start_eq := by apply Fin.ext; simp [new, SafeRingBuffer.new, slot, Consumer.ahead]
  end_eq := by apply Fin.ext; simp [new, SafeRingBuffer.new, slot, Producer.ahead]
  stored := by simp [new]
  producing := trivial
  consuming := trivial

omit [NeZero SIZE] in
theorem fetchAdd_eq {count : Nat} (room : count < SIZE) (fits : SIZE < 2 ^ 64) :
    fetchAdd count = count + 1 :=
  if_neg (by omega)

theorem fetchSub_eq {count : Nat} (pos : 0 < count) : fetchSub count = count - 1 :=
  if_neg (by omega)

/-- Storing the item disturbs no value that is still to be returned. -/
private theorem write_keeps {s : Spsc T SIZE} {item : T} (inv : s.Invariant)
    (pc : s.producer = .write item) :
    Invariant { s with
      buffer := { s.buffer with data := Function.update s.buffer.data s.buffer.end_ item }
      producer := .advance item } := by
  have room : s.buffer.count < SIZE := by simpa [ProducerFacts, pc] using inv.producing
  have here : s.buffer.end_ = slot s.accepted.length := by
    simpa [pc, Producer.ahead] using inv.end_eq
  refine ⟨inv.balance, inv.capacity, inv.history, inv.start_eq, by simpa [Producer.ahead] using here,
    ?_, ⟨room, by simp [here]⟩, inv.consuming⟩
  intro k value live found
  have old : k < s.accepted.length := (List.getElem?_eq_some_iff.mp found).1
  have balance := inv.balance
  -- a value still to be returned lies less than one revolution behind the end
  have other : (slot k : Fin SIZE) ≠ s.buffer.end_ := by
    rw [here]
    exact slot_ne old (by simp only at live; omega)
  simp only [Function.update_of_ne other]
  exact inv.stored k value live found

/-- Publishing makes the stored item the newest accepted value. -/
private theorem publish_keeps {s : Spsc T SIZE} {item : T} (fits : SIZE < 2 ^ 64)
    (inv : s.Invariant) (pc : s.producer = .publish item) :
    Invariant { s with
      buffer := { s.buffer with count := fetchAdd s.buffer.count }
      producer := .idle
      accepted := s.accepted ++ [item] } := by
  have facts : s.buffer.count < SIZE ∧ s.buffer.data (slot s.accepted.length) = item := by
    simpa [ProducerFacts, pc] using inv.producing
  have added := fetchAdd_eq facts.1 fits
  have balance := inv.balance
  refine ⟨?_, ?_, inv.history.trans (List.prefix_append _ _), inv.start_eq, ?_, ?_, trivial, ?_⟩
  · simp only [List.length_append, List.length_singleton, added]
    omega
  · simp only [added]
    omega
  · simpa [pc, Producer.ahead] using inv.end_eq
  · intro k value live found
    -- only the newest value is new to the history
    by_cases old : k < s.accepted.length
    · rw [List.getElem?_append_left old] at found
      exact inv.stored k value live found
    · have last : k = s.accepted.length := by
        have inHistory := (List.getElem?_eq_some_iff.mp found).1
        simp only [List.length_append, List.length_singleton] at inHistory
        omega
      subst last
      simp only [List.getElem?_concat_length, Option.some.injEq] at found
      exact found ▸ facts.2
  · -- the value in the consumer's hands was accepted before this one
    have consuming := inv.consuming
    revert consuming
    simp only [ConsumerFacts, added]
    cases s.consumer with
    | idle => exact id
    | read => intro _; omega
    | advance v | release v =>
      rintro ⟨pos, found⟩
      have old := (List.getElem?_eq_some_iff.mp found).1
      exact ⟨by omega, by rw [List.getElem?_append_left old]; exact found⟩

/-- Releasing returns the oldest accepted value that was not yet returned. -/
private theorem release_keeps {s : Spsc T SIZE} {item : T} (inv : s.Invariant)
    (pc : s.consumer = .release item) :
    Invariant { s with
      buffer := { s.buffer with count := fetchSub s.buffer.count }
      consumer := .idle
      returned := s.returned ++ [item] } := by
  have facts : 0 < s.buffer.count ∧ s.accepted[s.returned.length]? = some item := by
    simpa [ConsumerFacts, pc] using inv.consuming
  have removed := fetchSub_eq facts.1
  have balance := inv.balance
  have capacity := inv.capacity
  refine ⟨?_, ?_, ?_, ?_, inv.end_eq, ?_, ?_, trivial⟩
  · simp only [List.length_append, List.length_singleton, removed]
    omega
  · simp only [removed]
    omega
  -- what the consumer holds is the first accepted value after those returned
  · obtain ⟨rest, split⟩ := inv.history
    have head : rest[0]? = some item := by
      have found := facts.2
      rw [← split, List.getElem?_append_right (Nat.le_refl _), Nat.sub_self] at found
      exact found
    cases rest with
    | nil => simp at head
    | cons first rest =>
      simp only [List.getElem?_cons_zero, Option.some.injEq] at head
      subst head
      exact ⟨rest, by simp [← split]⟩
  · simpa [pc, Consumer.ahead] using inv.start_eq
  · intro k value live found
    refine inv.stored k value ?_ found
    simp only [List.length_append, List.length_singleton] at live
    omega
  -- a smaller count gives the producer more room, not less
  · have producing := inv.producing
    revert producing
    simp only [ProducerFacts, removed]
    cases s.producer with
    | idle | check _ => exact id
    | write _ => intro room; omega
    | advance v | publish v => rintro ⟨room, held⟩; exact ⟨by omega, held⟩

/-- Every access keeps the invariant. -/
theorem access_keeps {s t : Spsc T SIZE} {a : Access T} {o : Option (Outcome T)}
    (fits : SIZE < 2 ^ 64) (inv : s.Invariant) (moved : s.access a = some (t, o)) :
    t.Invariant := by
  cases access_cases moved with
  | called item pc =>
    exact { inv with producing := trivial, end_eq := by simpa [pc, Producer.ahead] using inv.end_eq }
  | admitted item pc room =>
    -- the test passed, and only the consumer changes `count` until the
    -- value is published: it can only get smaller
    have below : s.buffer.count < SIZE := Nat.lt_of_le_of_ne inv.capacity room
    exact { inv with producing := below, end_eq := by simpa [pc, Producer.ahead] using inv.end_eq }
  | refused item pc full =>
    exact { inv with producing := trivial, end_eq := by simpa [pc, Producer.ahead] using inv.end_eq }
  | written item pc => exact write_keeps inv pc
  | endMoved item pc =>
    have facts : s.buffer.count < SIZE ∧ s.buffer.data (slot s.accepted.length) = item := by
      simpa [ProducerFacts, pc] using inv.producing
    have here : s.buffer.end_ = slot s.accepted.length := by
      simpa [pc, Producer.ahead] using inv.end_eq
    exact { inv with producing := facts, end_eq := by simp [Producer.ahead, here, wrap_slot] }
  | published item pc => exact publish_keeps fits inv pc
  | found pc some_ =>
    exact { inv with
      consuming := Nat.pos_of_ne_zero some_
      start_eq := by simpa [pc, Consumer.ahead] using inv.start_eq }
  | nothing pc none_ => exact inv
  | read pc =>
    have pos : 0 < s.buffer.count := by simpa [ConsumerFacts, pc] using inv.consuming
    have here : s.buffer.start = slot s.returned.length := by
      simpa [pc, Consumer.ahead] using inv.start_eq
    have balance := inv.balance
    have old : s.returned.length < s.accepted.length := by omega
    -- the slot at `start` still holds the oldest value that was not returned
    have oldest : s.accepted[s.returned.length]? = some (s.buffer.data s.buffer.start) := by
      rw [List.getElem?_eq_getElem old, here,
        inv.stored _ _ (Nat.le_refl _) (List.getElem?_eq_getElem old)]
    exact { inv with
      consuming := ⟨pos, oldest⟩
      start_eq := by simpa [Consumer.ahead] using here }
  | startMoved item pc =>
    have facts : 0 < s.buffer.count ∧ s.accepted[s.returned.length]? = some item := by
      simpa [ConsumerFacts, pc] using inv.consuming
    have here : s.buffer.start = slot s.returned.length := by
      simpa [pc, Consumer.ahead] using inv.start_eq
    exact { inv with consuming := facts, start_eq := by simp [Consumer.ahead, here, wrap_slot] }
  | released item pc => exact release_keeps inv pc

theorem reachable_invariant [Inhabited T] {s : Spsc T SIZE} (fits : SIZE < 2 ^ 64)
    (run : Reachable step new s) : s.Invariant := by
  refine Reaches.invariant Invariant invariant_new (fun s a t inv _ moved => ?_) run
  obtain ⟨⟨next, o⟩, accessed, rfl⟩ := Option.map_eq_some_iff.mp moved
  exact access_keeps fits inv accessed

/-- The producer never writes the slot that the consumer is about to read. -/
theorem Invariant.no_race {s : Spsc T SIZE} {item : T} (inv : s.Invariant)
    (writing : s.producer = .write item) (reading : s.consumer = .read) :
    s.buffer.end_ ≠ s.buffer.start := by
  have room : s.buffer.count < SIZE := by simpa [ProducerFacts, writing] using inv.producing
  have pos : 0 < s.buffer.count := by simpa [ConsumerFacts, reading] using inv.consuming
  have balance := inv.balance
  -- both positions are within one revolution, and `count` is neither 0 nor `SIZE`
  rw [inv.start_eq, inv.end_eq, writing, reading]
  exact (slot_ne (by simp only [Producer.ahead, Consumer.ahead]; omega)
    (by simp only [Producer.ahead, Consumer.ahead]; omega)).symm

omit [NeZero SIZE] in
/-- A refused call has made loads only. -/
theorem access_refused {s t : Spsc T SIZE} {a : Access T} {o : Option (Outcome T)}
    (moved : s.access a = some (t, o)) :
    (o = some .pushErr → (∃ item, s.producer = .check item) ∧ s.buffer.count = SIZE ∧
      t = { s with producer := .idle }) ∧
    (o = some .popNone → s.consumer = .idle ∧ s.buffer.count = 0 ∧ t = s) ∧
    (∀ item, a = .push item → t.buffer = s.buffer) := by
  cases access_cases moved with
  | refused item pc full => simp [pc, full]
  | nothing pc none_ => simp [pc, none_]
  | called | admitted | written | endMoved | published => simp
  | found | read | startMoved | released => simp

/-- Single-producer single-consumer correctness: over every interleaving of the accesses,
the values returned are a prefix of the values accepted, `count` is exactly their
difference and stays within bounds, a slot is never read while it is written, and only a
full (empty) buffer makes `push_safe` (`pop_safe`) give up, leaving everything as it was. -/
theorem safeRingBuffer_spsc [Inhabited T] {s : Spsc T SIZE} (fits : SIZE < 2 ^ 64)
    (run : Reachable step new s) :
    s.returned <+: s.accepted ∧
    s.buffer.count ≤ SIZE ∧
    s.accepted.length = s.returned.length + s.buffer.count ∧
    (∀ item, s.producer = .publish item → s.buffer.count < SIZE) ∧
    (∀ item, s.consumer = .release item → 0 < s.buffer.count) ∧
    (∀ item, s.producer = .write item → s.consumer = .read →
      s.buffer.end_ ≠ s.buffer.start) ∧
    ∀ a t o, s.access a = some (t, o) →
      (o = some .pushErr → (∃ item, s.producer = .check item) ∧ s.buffer.count = SIZE ∧
        t = { s with producer := .idle }) ∧
      (o = some .popNone → s.consumer = .idle ∧ s.buffer.count = 0 ∧ t = s) ∧
      (∀ item, a = .push item → t.buffer = s.buffer) := by
  have inv := reachable_invariant fits run
  refine ⟨inv.history, inv.capacity, inv.balance, ?_, ?_, fun item => inv.no_race,
    fun a t o => access_refused⟩
  · intro item publishing
    have facts := inv.producing
    simp only [ProducerFacts, publishing] at facts
    exact facts.1
  · intro item releasing
    have facts := inv.consuming
    simp only [ConsumerFacts, releasing] at facts
    exact facts.1

/-- A one-slot buffer is filled, refuses a second value, is drained and filled again: the
exactly-full case and the wrap-around in one run. -/
theorem safeRingBuffer_spsc_one_slot : ∃ s : Spsc Nat 1, Reachable step new s ∧
    s.accepted = [7, 9] ∧ s.returned = [7] ∧ s.returned <+: s.accepted ∧
    s.buffer.count ≤ 1 := by
  obtain ⟨s, reached, seen⟩ := reachable_of_view step (new : Spsc Nat 1)
    [.push 7, .producer, .producer, .producer, .producer, .push 8, .producer,
     .pop, .consumer, .consumer, .consumer,
     .push 9, .producer, .producer, .producer, .producer]
    (fun s => (s.accepted, s.returned)) (v := ([7, 9], [7])) rfl
  obtain ⟨accepted, returned⟩ := Prod.mk.inj seen
  have safe := safeRingBuffer_spsc (by decide) reached
  exact ⟨s, reached, accepted, returned, safe.1, safe.2.1⟩

/-! ### Refinement of an atomic bounded queue -/

/-- The values accepted and not yet returned, oldest first. -/
def contents (s : Spsc T SIZE) : List T := s.accepted.drop s.returned.length

theorem Invariant.contents_length {s : Spsc T SIZE} (inv : s.Invariant) :
    s.contents.length = s.buffer.count := by
  have balance := inv.balance
  simp only [contents, List.length_drop]
  omega

omit [NeZero SIZE] in
private theorem drop_prefix_snoc {returned accepted : List T} (history : returned <+: accepted)
    (item : T) : (accepted ++ [item]).drop returned.length =
      accepted.drop returned.length ++ [item] :=
  List.drop_append_of_le_length history.length_le

/-- What an access does to the contents, by the call that it completes. -/
def QueueEffect (s t : Spsc T SIZE) : Option (Outcome T) → Prop
  | some .pushOk => ∃ item, s.producer = .publish item ∧ s.contents.length < SIZE ∧
      t.contents = s.contents ++ [item]
  | some .pushErr => s.contents.length = SIZE ∧ t.contents = s.contents
  | some (.popSome item) => s.contents = item :: t.contents
  | some .popNone => s.contents = [] ∧ t.contents = []
  | none => t.contents = s.contents

/-- Each call takes effect in one access: a push appends where it publishes, a pop takes the
head where it releases, a refused call sees a full or an empty queue. -/
theorem access_refines_queue {s t : Spsc T SIZE} {a : Access T} {o : Option (Outcome T)}
    (inv : s.Invariant) (moved : s.access a = some (t, o)) : QueueEffect s t o := by
  have length := inv.contents_length
  cases access_cases moved with
  | called | admitted | written | endMoved => rfl
  | found | read | startMoved => rfl
  | refused item pc full => exact ⟨by omega, rfl⟩
  | published item pc =>
    have facts := inv.producing
    simp only [ProducerFacts, pc] at facts
    -- the call takes effect here: from now on the consumer can see the value
    exact ⟨item, pc, by omega, drop_prefix_snoc inv.history item⟩
  | nothing pc none_ =>
    have nil : s.contents = [] := List.eq_nil_of_length_eq_zero (by omega)
    exact ⟨nil, nil⟩
  | released item pc =>
    have facts := inv.consuming
    simp only [ConsumerFacts, pc] at facts
    -- the value read before is still the head of the contents
    obtain ⟨bound, head⟩ := List.getElem?_eq_some_iff.mp facts.2
    simp only [QueueEffect, contents, List.length_append, List.length_singleton]
    rw [List.drop_eq_getElem_cons bound, head]

end Spsc

end RootTask.Runtime
