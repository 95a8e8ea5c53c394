import RootTask.Memory.MemoryAllocator

/-!
# Allocations that wait for the kernel

`map_vaddr` and `unmap_vaddr` of the asynchronous allocator suspend while the kernel works on
their request: the first between taking a slot and entering its address in the table, the second
between finding the address in the table and giving the slot back. Coroutines that run
`single_test` on one allocator interleave at these points.

In between, a slot is neither free nor in the table, and an address that is about to be unmapped
is still there to be found. What keeps the coroutines apart is that they are given different
addresses.
-/
namespace RootTask.Memory

open RootTask.Runtime RootTask.Transition RootTask.Syscall

namespace MemoryAllocator

/-! ### The calls, cut where they suspend -/

/-- `map_vaddr` up to the system call: the slot whose frame is to be mapped. -/
def beginMap (a : MemoryAllocator) (vaddr : Word) : Except Panic (Option Nat × MemoryAllocator) :=
  if startAddr ≤ vaddr.toNat ∧ vaddr.toNat < endAddr ∧ vaddr.toNat % 0x1000 = 0 then
    match a.allocSlot with
    | (some slot, a) =>
      if slot < maxPageNum then .ok (some slot, a) else .error .indexOutOfBounds
    | (none, a) => .ok (none, a)
  else .ok (none, a)

def endMap (a : MemoryAllocator) (slot : Nat) (vaddr : Word) : MemoryAllocator :=
  { a with mappedVaddrs := Function.update a.mappedVaddrs slot vaddr }

/-- `unmap_vaddr` up to the system call: the slot whose frame is to be unmapped. -/
def beginUnmap (a : MemoryAllocator) (vaddr : Word) : Option Nat :=
  (List.range maxPageNum).find? fun index => vaddr == a.mappedVaddrs index

def endUnmap (a : MemoryAllocator) (index : Nat) : MemoryAllocator :=
  { a with
    mappedVaddrs := Function.update a.mappedVaddrs index 0
    recycled := a.recycled ++ [index] }

/-- With nothing in between, the halves are the calls. -/
theorem mapVaddr_eq {κ : Type} (calls : FrameCalls κ) (a : MemoryAllocator) (vaddr : Word) :
    a.mapVaddr calls vaddr = (a.beginMap vaddr).map fun
      | (some slot, a) => (some (calls.map (a.frames slot) vaddr), a.endMap slot vaddr)
      | (none, a) => (none, a) := by
  unfold mapVaddr beginMap
  split
  · cases a.allocSlot with
    | mk slot a =>
      cases slot with
      | none => rfl
      | some slot =>
        simp only
        split <;> rfl
  · rfl

theorem unmapVaddr_eq {κ : Type} (calls : FrameCalls κ) (a : MemoryAllocator) (vaddr : Word) :
    a.unmapVaddr calls vaddr = match a.beginUnmap vaddr with
      | some index => (some (calls.unmap (a.frames index)), a.endUnmap index)
      | none => (none, a) := rfl

theorem beginUnmap_eq_some {a : MemoryAllocator} {vaddr : Word} {index : Nat}
    (found : a.beginUnmap vaddr = some index) :
    index < maxPageNum ∧ a.mappedVaddrs index = vaddr := by
  simp only [beginUnmap, List.find?_range_eq_some, List.mem_range, beq_iff_eq] at found
  exact ⟨found.2.1, found.1.symm⟩

theorem beginUnmap_eq_none {a : MemoryAllocator} {vaddr : Word} (found : a.beginUnmap vaddr = none)
    {index : Nat} (inRange : index < maxPageNum) : a.mappedVaddrs index ≠ vaddr := by
  intro same
  have differs := List.find?_range_eq_none.mp found index inRange
  simp [same] at differs

end MemoryAllocator

/-! ### Coroutines that run `single_test` -/

/-- Where a coroutine is suspended. `mapped` is the slot it has mapped, if it got one. -/
inductive TestPoint
  | fresh
  | mapping (slot : Nat)
  | unmapping (mapped : Option Nat) (index : Nat)
  | finished
deriving DecidableEq, Repr

/-- The slot a suspended coroutine works on. -/
def TestPoint.slot : TestPoint → Option Nat
  | .mapping slot => some slot
  | .unmapping _ index => some index
  | .fresh | .finished => none

structure SingleTests (ι : Type) where
  allocator : MemoryAllocator
  point : ι → TestPoint

/-- A coroutine is polled for the first time, or resumed after the kernel's reply. -/
inductive TestAction (ι : Type)
  | start (i : ι)
  | resume (i : ι)

namespace SingleTests

variable {ι : Type} [DecidableEq ι] (vaddr : ι → Word)

def init (frames : Nat → Word) : SingleTests ι := ⟨.new frames, fun _ => .fresh⟩

/-- `single_test` from its second call on. -/
def unmap (s : SingleTests ι) (a : MemoryAllocator) (i : ι) (mapped : Option Nat) :
    SingleTests ι where
  allocator := a
  point := Function.update s.point i
    (match a.beginUnmap (vaddr i) with
      | some index => .unmapping mapped index
      | none => .finished)

def step (s : SingleTests ι) : TestAction ι → Option (SingleTests ι)
  | .start i =>
    match s.point i with
    | .fresh => (s.allocator.beginMap (vaddr i)).toOption.map fun
      | (some slot, a) => ⟨a, Function.update s.point i (.mapping slot)⟩
      -- there is no slot or the address is refused; `single_test` goes on
      | (none, a) => s.unmap vaddr a i none
    | .mapping _ | .unmapping _ _ | .finished => none
  | .resume i =>
    match s.point i with
    | .mapping slot => some (s.unmap vaddr (s.allocator.endMap slot (vaddr i)) i (some slot))
    | .unmapping _ index =>
      some ⟨s.allocator.endUnmap index, Function.update s.point i .finished⟩
    | .fresh | .finished => none

/-- What a step does, by the point its coroutine was at. -/
theorem step_cases {s t : SingleTests ι} {action : TestAction ι}
    (moved : s.step vaddr action = some t) :
    (∃ i slot a, s.point i = .fresh ∧ s.allocator.allocSlot = (some slot, a) ∧
      t = ⟨a, Function.update s.point i (.mapping slot)⟩) ∨
    (∃ i, s.point i = .fresh ∧ t = s.unmap vaddr s.allocator i none) ∨
    (∃ i slot, s.point i = .mapping slot ∧
      t = s.unmap vaddr (s.allocator.endMap slot (vaddr i)) i (some slot)) ∨
    ∃ i mapped index, s.point i = .unmapping mapped index ∧
      t = ⟨s.allocator.endUnmap index, Function.update s.point i .finished⟩ := by
  cases action with
  | start i =>
    simp only [step] at moved
    cases here : s.point i with
    | fresh =>
      simp only [here, Option.map_eq_some_iff, toOption_eq_some] at moved
      obtain ⟨⟨slot, a⟩, began, rfl⟩ := moved
      unfold MemoryAllocator.beginMap at began
      split at began
      · split at began
        next allocated =>
          split at began
          · cases began
            exact .inl ⟨i, _, _, here, allocated, rfl⟩
          · cases began
        next allocated =>
          cases began
          rw [MemoryAllocator.allocSlot_none allocated]
          exact .inr (.inl ⟨i, here, rfl⟩)
      · cases began
        exact .inr (.inl ⟨i, here, rfl⟩)
    | mapping slot => simp [here] at moved
    | unmapping mapped index => simp [here] at moved
    | finished => simp [here] at moved
  | resume i =>
    simp only [step] at moved
    cases here : s.point i with
    | fresh => simp [here] at moved
    | mapping slot =>
      simp only [here, Option.some.injEq] at moved
      exact .inr (.inr (.inl ⟨i, slot, here, moved.symm⟩))
    | unmapping mapped index =>
      simp only [here, Option.some.injEq] at moved
      exact .inr (.inr (.inr ⟨i, mapped, index, here, moved.symm⟩))
    | finished => simp [here] at moved

/-! ### Slots have one owner -/

/-- A slot below the counter is free or is worked on by one coroutine, and the table has the
addresses that are waiting to be unmapped. -/
structure Exclusive (s : SingleTests ι) : Prop where
  nodup : s.allocator.recycled.Nodup
  bound : s.allocator.current ≤ maxPageNum
  free : ∀ slot ∈ s.allocator.recycled,
    slot < s.allocator.current ∧ ∀ i, (s.point i).slot ≠ some slot
  held : ∀ i slot, (s.point i).slot = some slot → slot < s.allocator.current
  once : ∀ i j slot, (s.point i).slot = some slot → (s.point j).slot = some slot → i = j
  used : ∀ slot < s.allocator.current,
    slot ∈ s.allocator.recycled ∨ ∃ i, (s.point i).slot = some slot
  own : ∀ i mapped index, s.point i = .unmapping mapped index →
    mapped = some index ∧ s.allocator.mappedVaddrs index = vaddr i
  table : ∀ slot, s.allocator.mappedVaddrs slot ≠ 0 →
    ∃ i mapped, s.point i = .unmapping mapped slot

variable {vaddr} {s : SingleTests ι} {i : ι}

omit [DecidableEq ι] in
theorem exclusive_init (frames : Nat → Word) : Exclusive vaddr (init frames) := by
  constructor <;> simp [init, MemoryAllocator.new, TestPoint.slot]

omit [DecidableEq ι] in
/-- The address of a coroutine that is not unmapping is not in the table. -/
theorem Exclusive.absent (ok : Exclusive vaddr s) (distinct : Function.Injective vaddr)
    (nonzero : vaddr i ≠ 0) (notUnmapping : ∀ mapped index, s.point i ≠ .unmapping mapped index)
    (slot : Nat) : s.allocator.mappedVaddrs slot ≠ vaddr i := by
  intro same
  obtain ⟨j, mapped, here⟩ := ok.table slot (by rwa [same])
  have owner := (ok.own j mapped slot here).2
  obtain rfl := distinct (same.symm.trans owner)
  exact notUnmapping mapped slot here

/-- An allocated slot leaves the free ones, or moves the counter; nobody works on it. -/
structure Allocated (s : SingleTests ι) (slot : Nat) (a : MemoryAllocator) : Prop where
  table : a.mappedVaddrs = s.allocator.mappedVaddrs
  bound : a.current ≤ maxPageNum
  nodup : a.recycled.Nodup
  gone : slot ∉ a.recycled
  below : slot < a.current
  nobody : ∀ i, (s.point i).slot ≠ some slot
  free : ∀ other, other ∈ a.recycled ↔ other ∈ s.allocator.recycled ∧ other ≠ slot
  counted : ∀ other, other < a.current ↔ other < s.allocator.current ∨ other = slot

omit [DecidableEq ι] in
theorem Exclusive.allocSlot (ok : Exclusive vaddr s) {slot : Nat} {a : MemoryAllocator}
    (allocated : s.allocator.allocSlot = (some slot, a)) : Allocated s slot a := by
  obtain ⟨⟨stack, current⟩ | ⟨nil, empty, rfl, room, current⟩, mapped, -⟩ :=
    MemoryAllocator.allocSlot_some allocated
  · have nodup := ok.nodup
    rw [stack, List.nodup_append] at nodup
    -- the slot occurs on the stack once, so no copy stays behind
    have gone : slot ∉ a.recycled := fun member =>
      nodup.2.2 slot member slot (List.mem_singleton_self _) rfl
    obtain ⟨below, nobody⟩ := ok.free slot (by simp [stack])
    refine ⟨mapped, current ▸ ok.bound, nodup.1, gone, current ▸ below, nobody, ?_, ?_⟩
    · intro other
      rw [stack, List.mem_append, List.mem_singleton]
      constructor
      · exact fun member => ⟨.inl member, fun same => gone (same ▸ member)⟩
      · rintro ⟨member | same, different⟩
        · exact member
        · exact absurd same different
    · intro other
      rw [current]
      constructor
      · exact .inl
      · rintro (small | rfl)
        · exact small
        · exact below
  · have nobody : ∀ i, (s.point i).slot ≠ some s.allocator.current := fun i here =>
      absurd (ok.held i _ here) (Nat.lt_irrefl _)
    refine ⟨mapped, ?_, ?_, ?_, ?_, nobody, ?_, ?_⟩
    · rw [current]
      exact room
    · simp [empty]
    · simp [empty]
    · omega
    · simp [empty, nil]
    · intro other
      omega

/-- The coroutine gets a slot that nobody works on. -/
theorem Exclusive.startMap (ok : Exclusive vaddr s) (fresh : s.point i = .fresh) {slot : Nat}
    {a : MemoryAllocator} (new : Allocated s slot a) :
    Exclusive vaddr ⟨a, Function.update s.point i (.mapping slot)⟩ := by
  have slotOf : ∀ j, (Function.update s.point i (.mapping slot) j).slot =
      if j = i then some slot else (s.point j).slot := by
    intro j
    rw [Function.update_apply]
    split <;> rfl
  have notUnmapping : ∀ j mapped index,
      Function.update s.point i (.mapping slot) j = .unmapping mapped index ↔
        s.point j = .unmapping mapped index := by
    intro j mapped index
    by_cases same : j = i
    · simp [same, fresh]
    · rw [Function.update_of_ne same]
  constructor
  · exact new.nodup
  · exact new.bound
  · intro other member
    obtain ⟨old, different⟩ := (new.free other).mp member
    obtain ⟨small, nobody⟩ := ok.free other old
    refine ⟨(new.counted other).mpr (.inl small), fun j => ?_⟩
    rw [slotOf]
    split
    · exact fun same => different (Option.some.inj same).symm
    · exact nobody j
  · intro j other here
    rw [slotOf] at here
    split at here
    · cases here
      exact new.below
    · exact (new.counted other).mpr (.inl (ok.held j other here))
  · intro j k other here here'
    rw [slotOf] at here here'
    split at here <;> split at here'
    next sameJ sameK => rw [sameJ, sameK]
    · cases here
      exact absurd here' (new.nobody k)
    · cases here'
      exact absurd here (new.nobody j)
    · exact ok.once j k other here here'
  · intro other small
    by_cases same : other = slot
    · exact .inr ⟨i, by rw [slotOf, if_pos rfl, same]⟩
    · obtain free | ⟨j, here⟩ := ok.used other (((new.counted other).mp small).resolve_right same)
      · exact .inl ((new.free other).mpr ⟨free, same⟩)
      · refine .inr ⟨j, ?_⟩
        have : j ≠ i := by
          rintro rfl
          simp [fresh, TestPoint.slot] at here
        rw [slotOf, if_neg this, here]
  · intro j mapped index here
    rw [new.table]
    exact ok.own j mapped index ((notUnmapping j mapped index).mp here)
  · intro other isMapped
    rw [new.table] at isMapped
    obtain ⟨j, mapped, here⟩ := ok.table other isMapped
    exact ⟨j, mapped, (notUnmapping j mapped other).mpr here⟩

omit [DecidableEq ι] in
/-- Slots and their owners are the same; only the table has changed. -/
theorem Exclusive.relabel (ok : Exclusive vaddr s) {t : SingleTests ι}
    (recycled : t.allocator.recycled = s.allocator.recycled)
    (current : t.allocator.current = s.allocator.current)
    (slots : ∀ j, (t.point j).slot = (s.point j).slot)
    (own : ∀ j mapped index, t.point j = .unmapping mapped index →
      mapped = some index ∧ t.allocator.mappedVaddrs index = vaddr j)
    (table : ∀ slot, t.allocator.mappedVaddrs slot ≠ 0 →
      ∃ j mapped, t.point j = .unmapping mapped slot) : Exclusive vaddr t where
  nodup := recycled ▸ ok.nodup
  bound := current ▸ ok.bound
  free := by simpa only [recycled, current, slots] using ok.free
  held := by simpa only [current, slots] using ok.held
  once := by simpa only [slots] using ok.once
  used := by simpa only [recycled, current, slots] using ok.used
  own := own
  table := table

/-- Without a slot there is nothing to unmap either. -/
theorem Exclusive.giveUp (ok : Exclusive vaddr s) (distinct : Function.Injective vaddr)
    (nonzero : vaddr i ≠ 0) (fresh : s.point i = .fresh) :
    Exclusive vaddr (s.unmap vaddr s.allocator i none) := by
  have absent := ok.absent distinct nonzero (by simp [fresh])
  have notFound : s.allocator.beginUnmap (vaddr i) = none := by
    cases found : s.allocator.beginUnmap (vaddr i) with
    | none => rfl
    | some index => exact absurd (MemoryAllocator.beginUnmap_eq_some found).2 (absent index)
  have point : (s.unmap vaddr s.allocator i none).point = Function.update s.point i .finished := by
    simp [unmap, notFound]
  have same : ∀ j mapped index,
      (s.unmap vaddr s.allocator i none).point j = .unmapping mapped index ↔
        s.point j = .unmapping mapped index := by
    intro j mapped index
    rw [point]
    by_cases this : j = i
    · simp [this, fresh]
    · rw [Function.update_of_ne this]
  refine ok.relabel rfl rfl (fun j => ?_) (fun j mapped index here => ?_) fun slot isMapped => ?_
  · rw [point]
    by_cases this : j = i
    · simp [this, fresh, TestPoint.slot]
    · rw [Function.update_of_ne this]
  · exact ok.own j mapped index ((same j mapped index).mp here)
  · obtain ⟨j, mapped, here⟩ := ok.table slot isMapped
    exact ⟨j, mapped, (same j mapped slot).mpr here⟩

/-- A coroutine finds the address it has just entered in the slot it has entered it for. -/
theorem Exclusive.enter (ok : Exclusive vaddr s) (distinct : Function.Injective vaddr)
    (nonzero : vaddr i ≠ 0) {slot : Nat} (here : s.point i = .mapping slot) :
    Exclusive vaddr (s.unmap vaddr (s.allocator.endMap slot (vaddr i)) i (some slot)) := by
  have absent := ok.absent distinct nonzero (by simp [here])
  have slotHere : (s.point i).slot = some slot := by simp [here, TestPoint.slot]
  have found : (s.allocator.endMap slot (vaddr i)).beginUnmap (vaddr i) = some slot := by
    cases found : (s.allocator.endMap slot (vaddr i)).beginUnmap (vaddr i) with
    | none =>
      have small : slot < maxPageNum := Nat.lt_of_lt_of_le (ok.held i slot slotHere) ok.bound
      have := MemoryAllocator.beginUnmap_eq_none found small
      simp [MemoryAllocator.endMap] at this
    | some index =>
      by_contra different
      have entry := (MemoryAllocator.beginUnmap_eq_some found).2
      have : index ≠ slot := by simpa using different
      simp only [MemoryAllocator.endMap, Function.update_of_ne this] at entry
      exact absent index entry
  have point : (s.unmap vaddr (s.allocator.endMap slot (vaddr i)) i (some slot)).point =
      Function.update s.point i (.unmapping (some slot) slot) := by
    simp [unmap, found]
  refine ok.relabel rfl rfl (fun j => ?_) (fun j mapped index there => ?_) fun other isMapped => ?_
  · rw [point]
    by_cases same : j = i
    · simp [same, here, TestPoint.slot]
    · rw [Function.update_of_ne same]
  · rw [point] at there
    by_cases same : j = i
    · subst same
      rw [Function.update_self] at there
      cases there
      exact ⟨rfl, Function.update_self ..⟩
    · rw [Function.update_of_ne same] at there
      obtain ⟨own, entry⟩ := ok.own j mapped index there
      refine ⟨own, ?_⟩
      -- the slot of another coroutine's address is another slot
      have : index ≠ slot := by
        rintro rfl
        exact same (ok.once j i index (by simp [there, TestPoint.slot]) slotHere)
      exact (Function.update_of_ne this ..).trans entry
  · rw [point]
    by_cases same : other = slot
    · exact ⟨i, some slot, by rw [Function.update_self, same]⟩
    · have entry : s.allocator.mappedVaddrs other ≠ 0 := by
        simpa [unmap, MemoryAllocator.endMap, same] using isMapped
      obtain ⟨j, mapped, there⟩ := ok.table other entry
      have : j ≠ i := by
        rintro rfl
        rw [here] at there
        cases there
      exact ⟨j, mapped, by rw [Function.update_of_ne this, there]⟩

/-- A coroutine gives back the slot it alone works on. -/
theorem Exclusive.giveBack (ok : Exclusive vaddr s) {mapped : Option Nat} {index : Nat}
    (here : s.point i = .unmapping mapped index) :
    Exclusive vaddr ⟨s.allocator.endUnmap index, Function.update s.point i .finished⟩ := by
  have slotHere : (s.point i).slot = some index := by simp [here, TestPoint.slot]
  have notFree : index ∉ s.allocator.recycled := fun free => (ok.free index free).2 i slotHere
  have slotOf : ∀ j slot, (Function.update s.point i .finished j).slot = some slot ↔
      j ≠ i ∧ (s.point j).slot = some slot := by
    intro j slot
    by_cases same : j = i
    · simp [same, TestPoint.slot]
    · simp [same]
  constructor
  · exact List.nodup_append.mpr ⟨ok.nodup, List.nodup_singleton _, fun a free b isIndex same =>
      notFree (List.mem_singleton.mp isIndex ▸ same ▸ free)⟩
  · exact ok.bound
  · intro slot free
    simp only [MemoryAllocator.endUnmap, List.mem_append, List.mem_singleton] at free
    obtain free | rfl := free
    · obtain ⟨small, nobody⟩ := ok.free slot free
      exact ⟨small, fun j there => nobody j ((slotOf j slot).mp there).2⟩
    · refine ⟨ok.held i slot slotHere, fun j there => ?_⟩
      obtain ⟨different, there⟩ := (slotOf j slot).mp there
      exact different (ok.once j i slot there slotHere)
  · intro j slot there
    exact ok.held j slot ((slotOf j slot).mp there).2
  · intro j k slot there there'
    exact ok.once j k slot ((slotOf j slot).mp there).2 ((slotOf k slot).mp there').2
  · intro slot small
    simp only [MemoryAllocator.endUnmap, List.mem_append, List.mem_singleton]
    obtain free | ⟨j, there⟩ := ok.used slot small
    · exact .inl (.inl free)
    · by_cases same : j = i
      · subst same
        exact .inl (.inr (Option.some.inj (there.symm.trans slotHere)))
      · exact .inr ⟨j, (slotOf j slot).mpr ⟨same, there⟩⟩
  · intro j mapped' slot there
    by_cases same : j = i
    · simp [same] at there
    · simp only [Function.update_of_ne same] at there
      obtain ⟨own, entry⟩ := ok.own j mapped' slot there
      have : slot ≠ index := by
        rintro rfl
        exact same (ok.once j i slot (by simp [there, TestPoint.slot]) slotHere)
      exact ⟨own, (Function.update_of_ne this ..).trans entry⟩
  · intro slot isMapped
    have different : slot ≠ index := by
      rintro rfl
      simp [MemoryAllocator.endUnmap] at isMapped
    simp only [MemoryAllocator.endUnmap, Function.update_of_ne different] at isMapped
    obtain ⟨j, mapped', there⟩ := ok.table slot isMapped
    have : j ≠ i := by
      rintro rfl
      rw [here] at there
      cases there
      exact different rfl
    exact ⟨j, mapped', by simp [this, there]⟩

theorem exclusive_of_reachable (distinct : Function.Injective vaddr) (nonzero : ∀ i, vaddr i ≠ 0)
    {frames : Nat → Word} (run : Reachable (step vaddr) (init frames) s) : Exclusive vaddr s := by
  refine run.invariant (Exclusive vaddr) (exclusive_init frames) fun s action t ok _ moved => ?_
  obtain ⟨i, slot, a, fresh, allocated, rfl⟩ | ⟨i, fresh, rfl⟩ | ⟨i, slot, here, rfl⟩ |
    ⟨i, mapped, index, here, rfl⟩ := step_cases vaddr moved
  · exact ok.startMap fresh (ok.allocSlot allocated)
  · exact ok.giveUp distinct (nonzero i) fresh
  · exact ok.enter distinct (nonzero i) here
  · exact ok.giveBack here

omit [DecidableEq ι] in
/-- `frames[slot]` is in bounds. -/
theorem Exclusive.beginMap_ok (ok : Exclusive vaddr s) (v : Word) :
    ∃ result, s.allocator.beginMap v = .ok result := by
  unfold MemoryAllocator.beginMap
  split
  · split
    next slot a allocated =>
      have new := ok.allocSlot allocated
      exact ⟨_, if_pos (Nat.lt_of_lt_of_le new.below new.bound)⟩
    · exact ⟨_, rfl⟩
  · exact ⟨_, rfl⟩

/-- Any number of coroutines run `single_test` on one allocator, with different addresses other
than 0, and interleave wherever they wait for the kernel. No two of them ever work on one slot, a
slot that is worked on is not free, no slot is free twice, each coroutine unmaps the frame that it
has mapped, and no index is out of bounds. When nobody waits, every slot handed out so far is free
again and the table is empty. -/
theorem single_tests_apart (distinct : Function.Injective vaddr) (nonzero : ∀ i, vaddr i ≠ 0)
    (frames : Nat → Word) (s : SingleTests ι)
    (run : Reachable (step vaddr) (init frames) s) :
    (∀ i j slot, (s.point i).slot = some slot → (s.point j).slot = some slot → i = j) ∧
    (∀ i slot, (s.point i).slot = some slot → slot ∉ s.allocator.recycled) ∧
    s.allocator.recycled.Nodup ∧
    (∀ i mapped index, s.point i = .unmapping mapped index → mapped = some index) ∧
    (∀ i, ∃ result, s.allocator.beginMap (vaddr i) = .ok result) ∧
    ((∀ i, (s.point i).slot = none) →
      (∀ slot < s.allocator.current, slot ∈ s.allocator.recycled) ∧
      ∀ slot, s.allocator.mappedVaddrs slot = 0) := by
  have ok := exclusive_of_reachable distinct nonzero run
  refine ⟨ok.once, fun i slot here free => (ok.free slot free).2 i here, ok.nodup,
    fun i mapped index here => (ok.own i mapped index here).1, fun i => ok.beginMap_ok _,
    fun idle => ⟨fun slot small => ?_, fun slot => ?_⟩⟩
  · obtain free | ⟨i, here⟩ := ok.used slot small
    · exact free
    · rw [idle i] at here
      cases here
  · by_contra isMapped
    obtain ⟨i, mapped, here⟩ := ok.table slot isMapped
    have := idle i
    rw [here] at this
    cases this

/-- Two coroutines, both waiting for their pages to be mapped. -/
def twoPages : Bool → Word
  | false => 0x2000000
  | true => 0x2001000

theorem single_tests_apart_two :
    ∃ s, Reachable (step twoPages) (init fun _ => 0) s ∧ (s.point false).slot = some 0 ∧
      (s.point true).slot = some 1 ∧ s.allocator.recycled.Nodup := by
  obtain ⟨s, run, seen⟩ := reachable_of_view (step twoPages) (init fun _ => 0)
    [.start false, .start true] (fun s => ((s.point false).slot, (s.point true).slot))
    (v := (some 0, some 1)) (by decide)
  simp only [Prod.mk.injEq] at seen
  refine ⟨s, run, seen.1, seen.2, ?_⟩
  have distinct : Function.Injective twoPages := by decide
  exact (single_tests_apart distinct (by decide) (fun _ => 0) s run).2.2.1

end SingleTests

end RootTask.Memory
