import RootTask.Lib.Transition
import RootTask.Syscall.Wrappers

/-!
# Frame slots

`memory_allocator.rs`: sixteen frames, each in a slot, and the address that each slot is mapped
at, with 0 for a slot that is not. Slots come from a stack of recycled ones or else from a bump
counter. `AsyncMemoryAllocator` and `SyncMemoryAllocator` have the same code up to the kernel
calls they make, so they are two instances of one definition.

`unmap_vaddr` looks the address up in the table and does not ask whether it is an address.
Address 0 finds a slot that is not mapped, and recycles it.
-/
namespace RootTask.Memory

open RootTask.Runtime RootTask.Transition RootTask.Syscall

abbrev startAddr : Nat := 0x2000000
abbrev endAddr : Nat := 0x2010000
abbrev pageSize : Nat := 0x1000
abbrev maxPageNum : Nat := (endAddr - startAddr) / pageSize

structure MemoryAllocator where
  current : Nat
  /-- A stack, its top at the end. -/
  recycled : List Nat
  frames : Nat → Word
  mappedVaddrs : Nat → Word

/-- The two calls that an allocator makes on a frame. -/
structure FrameCalls (κ : Type) where
  map : (frame vaddr : Word) → κ
  unmap : (frame : Word) → κ

/-- The calls of `AsyncMemoryAllocator` are items for the kernel. -/
def asyncCalls (cid : CoroutineId) (vspace rights attrs : Word) : FrameCalls IPCItem where
  map := fun frame vaddr => riscvPageMap cid frame vspace vaddr rights attrs
  unmap := fun frame => riscvPageUnmap cid frame

inductive SyncCall where
  | frameMap (frame vspace vaddr rights attrs : Word)
  | frameUnmap (frame : Word)
  deriving DecidableEq, Repr

/-- The calls of `SyncMemoryAllocator` are invocations of the frame. -/
def syncCalls (vspace rights attrs : Word) : FrameCalls SyncCall where
  map := fun frame vaddr => .frameMap frame vspace vaddr rights attrs
  unmap := .frameUnmap

namespace MemoryAllocator

variable {κ : Type}

/-- `new`, and then the frames that `init` fills in. -/
def new (frames : Nat → Word) : MemoryAllocator where
  current := 0
  recycled := []
  frames := frames
  mappedVaddrs := fun _ => 0

def allocSlot (a : MemoryAllocator) : Option Nat × MemoryAllocator :=
  match a.recycled.getLast? with
  | some slot => (some slot, { a with recycled := a.recycled.dropLast })
  | none =>
    if a.current < maxPageNum then (some a.current, { a with current := a.current + 1 })
    else (none, a)

/-- Returns the kernel call it makes, if any. -/
def mapVaddr (calls : FrameCalls κ) (a : MemoryAllocator) (vaddr : Word) :
    Except Panic (Option κ × MemoryAllocator) :=
  if startAddr ≤ vaddr.toNat ∧ vaddr.toNat < endAddr ∧ vaddr.toNat % 0x1000 = 0 then
    match a.allocSlot with
    | (some slot, a) =>
      if slot < maxPageNum then
        .ok (some (calls.map (a.frames slot) vaddr),
          { a with mappedVaddrs := Function.update a.mappedVaddrs slot vaddr })
      else .error .indexOutOfBounds
    -- no slot is left
    | (none, a) => .ok (none, a)
  else .ok (none, a)

def unmapVaddr (calls : FrameCalls κ) (a : MemoryAllocator) (vaddr : Word) :
    Option κ × MemoryAllocator :=
  match (List.range maxPageNum).find? fun index => vaddr == a.mappedVaddrs index with
  | some index =>
    (some (calls.unmap (a.frames index)),
      { a with
        mappedVaddrs := Function.update a.mappedVaddrs index 0
        recycled := a.recycled ++ [index] })
  | none => (none, a)

inductive Action where
  | map (vaddr : Word)
  | unmap (vaddr : Word)
  deriving DecidableEq, Repr

/-- One call, run to completion. -/
def step (calls : FrameCalls κ) (a : MemoryAllocator) : Action → Option MemoryAllocator
  | .map vaddr => (a.mapVaddr calls vaddr).toOption.map Prod.snd
  | .unmap vaddr => some (a.unmapVaddr calls vaddr).2

/-! ### What the operations do -/

theorem allocSlot_some {a a' : MemoryAllocator} {slot : Nat}
    (returned : a.allocSlot = (some slot, a')) :
    (a.recycled = a'.recycled ++ [slot] ∧ a'.current = a.current ∨
      a.recycled = [] ∧ a'.recycled = [] ∧ slot = a.current ∧ a.current < maxPageNum ∧
        a'.current = a.current + 1) ∧
    a'.mappedVaddrs = a.mappedVaddrs ∧ a'.frames = a.frames := by
  unfold allocSlot at returned
  cases top : a.recycled.getLast? with
  | some last =>
    simp only [top, Prod.mk.injEq, Option.some.injEq] at returned
    obtain ⟨rfl, rfl⟩ := returned
    refine ⟨.inl ⟨?_, rfl⟩, rfl, rfl⟩
    obtain ⟨nonempty, isLast⟩ := List.getLast?_eq_some_iff.mp top
    simp [isLast]
  | none =>
    -- nothing is recycled, so the counter decides
    have nil := List.getLast?_eq_none_iff.mp top
    simp only [top] at returned
    split at returned
    next room =>
      simp only [Prod.mk.injEq, Option.some.injEq] at returned
      obtain ⟨rfl, rfl⟩ := returned
      exact ⟨.inr ⟨nil, nil, rfl, room, rfl⟩, rfl, rfl⟩
    · cases returned

theorem allocSlot_none {a a' : MemoryAllocator} (returned : a.allocSlot = (none, a')) : a' = a := by
  unfold allocSlot at returned
  split at returned
  · cases returned
  · split at returned
    · cases returned
    · exact (congrArg Prod.snd returned).symm

/-- The addresses that `map_vaddr` accepts. -/
def ValidVaddr (vaddr : Word) : Prop :=
  startAddr ≤ vaddr.toNat ∧ vaddr.toNat < endAddr ∧ vaddr.toNat % 0x1000 = 0

instance (vaddr : Word) : Decidable (ValidVaddr vaddr) := inferInstanceAs (Decidable (_ ∧ _))

/-- Address 0 lies below `startAddr`. -/
theorem ValidVaddr.ne_zero {vaddr : Word} (valid : ValidVaddr vaddr) : vaddr ≠ 0 := by
  rintro rfl
  exact absurd valid.1 (by decide)

/-- `map_vaddr` does nothing, or maps the frame of the slot it allocates. -/
theorem mapVaddr_ok {calls : FrameCalls κ} {a a' : MemoryAllocator} {vaddr : Word} {call : Option κ}
    (returned : a.mapVaddr calls vaddr = .ok (call, a')) :
    (call = none ∧ a' = a ∧ (ValidVaddr vaddr → a.allocSlot.1 = none)) ∨
    ∃ slot a₁, a.allocSlot = (some slot, a₁) ∧ slot < maxPageNum ∧ ValidVaddr vaddr ∧
      call = some (calls.map (a.frames slot) vaddr) ∧
      a' = { a₁ with mappedVaddrs := Function.update a₁.mappedVaddrs slot vaddr } := by
  unfold mapVaddr at returned
  split at returned
  next valid =>
    split at returned
    next slot a₁ allocated =>
      split at returned
      next bound =>
        cases returned
        have frames : a₁.frames = a.frames := (allocSlot_some allocated).2.2
        exact .inr ⟨slot, a₁, allocated, bound, valid, by rw [frames], rfl⟩
      · cases returned
    next a₁ exhausted =>
      cases returned
      exact .inl ⟨rfl, allocSlot_none exhausted, fun _ => by rw [exhausted]⟩
  next invalid =>
    cases returned
    exact .inl ⟨rfl, rfl, fun valid => absurd valid invalid⟩

/-- `unmap_vaddr` does nothing if no slot has the address, and else recycles the first one. -/
theorem unmapVaddr_cases (calls : FrameCalls κ) (a : MemoryAllocator) (vaddr : Word) :
    ((∀ i < maxPageNum, a.mappedVaddrs i ≠ vaddr) ∧ a.unmapVaddr calls vaddr = (none, a)) ∨
    ∃ index < maxPageNum, a.mappedVaddrs index = vaddr ∧
      a.unmapVaddr calls vaddr = (some (calls.unmap (a.frames index)), { a with
        mappedVaddrs := Function.update a.mappedVaddrs index 0
        recycled := a.recycled ++ [index] }) := by
  unfold unmapVaddr
  cases found : (List.range maxPageNum).find? fun index => vaddr == a.mappedVaddrs index with
  | none =>
    refine .inl ⟨fun i inRange same => ?_, rfl⟩
    have differs := List.find?_range_eq_none.mp found i inRange
    simp [same] at differs
  | some index =>
    simp only [List.find?_range_eq_some, List.mem_range, beq_iff_eq] at found
    exact .inr ⟨index, found.2.1, found.1.symm, rfl⟩

/-! ### Free slots -/

/-- A slot below the counter is either recycled, once, or mapped. -/
structure SlotsOk (a : MemoryAllocator) : Prop where
  nodup : a.recycled.Nodup
  free : ∀ slot ∈ a.recycled, slot < a.current ∧ a.mappedVaddrs slot = 0
  used : ∀ slot < a.current, slot ∈ a.recycled ∨ a.mappedVaddrs slot ≠ 0

/-- With this, a slot that was never handed out is not mapped. -/
structure FramesOk (a : MemoryAllocator) : Prop extends SlotsOk a where
  fresh : ∀ slot, a.current ≤ slot → a.mappedVaddrs slot = 0
  bound : a.current ≤ maxPageNum

theorem framesOk_new (frames : Nat → Word) : (new frames).FramesOk := by
  constructor
  · constructor <;> simp [new]
  · simp [new]
  · simp [new]

/-- The slot that `alloc_slot` returns is not mapped. -/
theorem FramesOk.allocSlot {a a' : MemoryAllocator} {slot : Nat} (ok : a.FramesOk)
    (returned : a.allocSlot = (some slot, a')) : a.mappedVaddrs slot = 0 := by
  obtain ⟨⟨popped, -⟩ | ⟨-, -, rfl, -⟩, -⟩ := allocSlot_some returned
  · exact (ok.free slot (by simp [popped])).2
  · exact ok.fresh _ (Nat.le_refl _)

/-- A recycled slot is mapped: it leaves the stack, and occurs there once. -/
theorem FramesOk.refill {a a₁ : MemoryAllocator} {slot : Nat} {vaddr : Word} (ok : a.FramesOk)
    (stack : a.recycled = a₁.recycled ++ [slot]) (current : a₁.current = a.current)
    (mapped : a₁.mappedVaddrs = a.mappedVaddrs) (nonzero : vaddr ≠ 0) :
    FramesOk { a₁ with mappedVaddrs := Function.update a₁.mappedVaddrs slot vaddr } := by
  have nodup := ok.nodup
  rw [stack, List.nodup_append] at nodup
  -- no second copy of the slot stays behind on the stack
  have gone : slot ∉ a₁.recycled := fun member =>
    nodup.2.2 slot member slot (List.mem_singleton_self _) rfl
  have below : slot < a.current := (ok.free slot (by simp [stack])).1
  constructor
  · constructor
    · exact nodup.1
    · intro other member
      have different : other ≠ slot := fun same => gone (same ▸ member)
      obtain ⟨small, zero⟩ := ok.free other (by simp [stack, member])
      exact ⟨current ▸ small, by simp [Function.update_of_ne different, mapped, zero]⟩
    -- every other slot below the counter is where it was
    · intro other inUse
      by_cases same : other = slot
      · subst same
        exact .inr (by simpa using nonzero)
      · rcases ok.used other (current ▸ inUse) with recycled | isMapped
        · rw [stack, List.mem_append, List.mem_singleton] at recycled
          exact .inl (recycled.resolve_right same)
        · exact .inr (by simpa [Function.update_of_ne same, mapped] using isMapped)
  · intro other beyond
    have beyond : a.current ≤ other := current ▸ beyond
    have different : other ≠ slot := by omega
    simpa [Function.update_of_ne different, mapped] using ok.fresh other beyond
  · exact current ▸ ok.bound

/-- A new slot is mapped: the counter moves past it, and the stack stays empty. -/
theorem FramesOk.bump {a a₁ : MemoryAllocator} {vaddr : Word} (ok : a.FramesOk)
    (nil : a.recycled = []) (empty : a₁.recycled = []) (room : a.current < maxPageNum)
    (current : a₁.current = a.current + 1) (mapped : a₁.mappedVaddrs = a.mappedVaddrs)
    (nonzero : vaddr ≠ 0) :
    FramesOk { a₁ with mappedVaddrs := Function.update a₁.mappedVaddrs a.current vaddr } := by
  constructor
  · refine ⟨by simp [empty], by simp [empty], fun other inUse => .inr ?_⟩
    have inUse : other < a.current + 1 := current ▸ inUse
    by_cases same : other = a.current
    · simpa [same] using nonzero
    · rcases ok.used other (by omega) with recycled | isMapped
      · simp [nil] at recycled
      · simpa [Function.update_of_ne same, mapped] using isMapped
  · intro other beyond
    -- the mapped slot is the last one below the new counter
    have beyond : a.current + 1 ≤ other := current ▸ beyond
    have different : other ≠ a.current := by omega
    simpa [Function.update_of_ne different, mapped] using ok.fresh other (by omega)
  · rw [current]
    exact room

theorem FramesOk.mapVaddr {calls : FrameCalls κ} {a a' : MemoryAllocator} {vaddr : Word}
    {call : Option κ} (ok : a.FramesOk) (returned : a.mapVaddr calls vaddr = .ok (call, a')) :
    a'.FramesOk := by
  rcases mapVaddr_ok returned with ⟨-, rfl, -⟩ | ⟨slot, a₁, allocated, -, valid, -, rfl⟩
  · exact ok
  · obtain ⟨⟨stack, current⟩ | ⟨nil, empty, rfl, room, current⟩, mapped, -⟩ :=
      allocSlot_some allocated
    · exact ok.refill stack current mapped valid.ne_zero
    · exact ok.bump nil empty room current mapped valid.ne_zero

/-- Recycling the slot of an address keeps the slots in order. -/
theorem FramesOk.recycle {a : MemoryAllocator} {index : Nat} (ok : a.FramesOk)
    (isMapped : a.mappedVaddrs index ≠ 0) :
    FramesOk { a with
      mappedVaddrs := Function.update a.mappedVaddrs index 0
      recycled := a.recycled ++ [index] } := by
  -- a mapped slot is neither free nor beyond the counter
  have absent : index ∉ a.recycled := fun member => isMapped (ok.free index member).2
  have below : index < a.current := by
    by_contra beyond
    exact isMapped (ok.fresh index (by omega))
  -- the update only adds zeros to the table
  have zero : ∀ slot, a.mappedVaddrs slot = 0 → Function.update a.mappedVaddrs index 0 slot = 0 := by
    intro slot isZero
    by_cases same : slot = index
    · simp [same]
    · rw [Function.update_of_ne same, isZero]
  constructor
  · constructor
    · exact List.nodup_append.mpr ⟨ok.nodup, List.nodup_singleton _, fun slot member other last => by
        rw [List.mem_singleton.mp last]
        exact fun same => absent (same ▸ member)⟩
    · intro slot member
      rcases List.mem_append.mp member with old | last
      · exact ⟨(ok.free slot old).1, zero slot (ok.free slot old).2⟩
      · rw [List.mem_singleton.mp last]
        exact ⟨below, by simp⟩
    · intro slot inUse
      by_cases same : slot = index
      · exact .inl (by simp [same])
      · rcases ok.used slot inUse with recycled | isMapped
        · exact .inl (List.mem_append_left _ recycled)
        · exact .inr (by simpa [Function.update_of_ne same] using isMapped)
  · exact fun slot beyond => zero slot (ok.fresh slot beyond)
  · exact ok.bound

/-- An unmap of 0 finds no slot that is not mapped. -/
def Sound (a : MemoryAllocator) : Action → Prop
  | .map _ => True
  | .unmap vaddr => vaddr = 0 → ∀ i < maxPageNum, a.mappedVaddrs i ≠ 0

instance (a : MemoryAllocator) (act : Action) : Decidable (a.Sound act) :=
  match act with
  | .map _ => .isTrue trivial
  | .unmap vaddr => inferInstanceAs (Decidable (vaddr = 0 → ∀ i < maxPageNum, a.mappedVaddrs i ≠ 0))

theorem FramesOk.step {calls : FrameCalls κ} {a t : MemoryAllocator} {act : Action}
    (ok : a.FramesOk) (sound : a.Sound act) (moved : a.step calls act = some t) : t.FramesOk := by
  cases act with
  | map vaddr =>
    simp only [MemoryAllocator.step, Option.map_eq_some_iff, toOption_eq_some, Prod.exists] at moved
    obtain ⟨call, a', returned, rfl⟩ := moved
    exact ok.mapVaddr returned
  | unmap vaddr =>
    obtain rfl : _ = t := Option.some.inj moved
    rcases unmapVaddr_cases calls a vaddr with ⟨-, same⟩ | ⟨index, inRange, found, recycled⟩
    · rw [same]; exact ok
    · rw [recycled]
      refine ok.recycle fun isZero => ?_
      exact sound (found.symm.trans isZero) index inRange isZero

/-- An unmap of 0 that finds a slot recycles one that is free already, or one that was never
handed out. -/
theorem FramesOk.unsound {calls : FrameCalls κ} {a t : MemoryAllocator} {act : Action}
    (ok : a.FramesOk) (unsound : ¬ a.Sound act) (moved : a.step calls act = some t) :
    ¬ t.SlotsOk := by
  intro after
  cases act with
  | map vaddr => exact unsound trivial
  | unmap vaddr =>
    obtain rfl : _ = t := Option.some.inj moved
    simp only [Sound, not_forall, not_not] at unsound
    obtain ⟨rfl, i, inRange, isZero⟩ := unsound
    rcases unmapVaddr_cases calls a 0 with ⟨absent, -⟩ | ⟨index, -, found, recycled⟩
    · exact absent i inRange isZero
    · rw [recycled] at after
      -- if the slot were in order afterwards, it would lie below the counter, and what lies
      -- there unmapped was on the stack before
      have below := (after.free index (by simp)).1
      rcases ok.used index below with member | isMapped
      · have nodup := after.nodup
        rw [List.nodup_append] at nodup
        exact nodup.2.2 index member index (List.mem_singleton_self _) rfl
      · exact isMapped found

/-- In every run in which no unmap of 0 finds a slot, the recycled slots are distinct, below
the counter and not mapped, all other slots below the counter are mapped, and so `alloc_slot`
never hands out the slot of a mapped frame. One unmap of 0 that finds a slot breaks this. -/
theorem slots_never_shared {calls : FrameCalls κ} {frames : Nat → Word} {a : MemoryAllocator}
    (run : Reaches (step calls) Sound (new frames) a) :
    (a.recycled.Nodup ∧ (∀ slot ∈ a.recycled, slot < a.current ∧ a.mappedVaddrs slot = 0) ∧
      ∀ slot < a.current, slot ∈ a.recycled ∨ a.mappedVaddrs slot ≠ 0) ∧
    (∀ slot a', a.allocSlot = (some slot, a') → a.mappedVaddrs slot = 0) ∧
    ∀ act t, a.step calls act = some t → (t.SlotsOk ↔ a.Sound act) := by
  have ok := run.invariant FramesOk (framesOk_new frames)
    fun _ _ _ ok sound moved => ok.step sound moved
  refine ⟨⟨ok.nodup, ok.free, ok.used⟩, fun _ _ returned => ok.allocSlot returned,
    fun act t moved => ⟨fun after => ?_, fun sound => (ok.step sound moved).toSlotsOk⟩⟩
  by_contra unsound
  exact ok.unsound unsound moved after

/-- Slot 0 is recycled by an unmap of 0, mapped, and then handed out again by the counter. -/
theorem reused_slot (calls : FrameCalls κ) :
    ∃ a, Reachable (step calls) (new fun _ => 0) a ∧ a.mappedVaddrs 0 = 0x2000000 ∧
      a.allocSlot.1 = some 0 := by
  obtain ⟨a, run, seen⟩ := reachable_of_view (step calls) (new fun _ => 0)
    [.unmap 0, .map 0x2000000] (fun a => (a.mappedVaddrs 0, a.allocSlot.1))
    (v := (0x2000000, some 0)) rfl
  exact ⟨a, run, congrArg Prod.fst seen, congrArg Prod.snd seen⟩

/-- In either allocator a second page then takes the frame of the first one. -/
theorem slots_shared :
    (∃ a, Reachable (step (asyncCalls ⟨0⟩ 1 3 1)) (new fun _ => 0) a ∧
      ∃ slot a', a.allocSlot = (some slot, a') ∧ a.mappedVaddrs slot ≠ 0) ∧
    ∃ a, Reachable (step (syncCalls 1 3 1)) (new fun _ => 0) a ∧
      ∃ slot a', a.allocSlot = (some slot, a') ∧ a.mappedVaddrs slot ≠ 0 := by
  constructor
  · obtain ⟨a, run, mapped, allocated⟩ := reused_slot (asyncCalls ⟨0⟩ 1 3 1)
    exact ⟨a, run, 0, a.allocSlot.2, Prod.ext allocated rfl, by rw [mapped]; decide⟩
  · obtain ⟨a, run, mapped, allocated⟩ := reused_slot (syncCalls 1 3 1)
    exact ⟨a, run, 0, a.allocSlot.2, Prod.ext allocated rfl, by rw [mapped]; decide⟩

/-- The demo's use, a page mapped and unmapped and another one mapped, with an unmap of an
address that is not mapped. -/
theorem slots_never_shared_demo :
    ∃ a, Reaches (step (asyncCalls ⟨0⟩ 1 3 1)) Sound (new fun _ => 0) a ∧
      a.current = 2 ∧ a.recycled = [1] ∧ a.mappedVaddrs 1 = 0 := by
  obtain ⟨a, run, seen⟩ := reaches_of_view (step (asyncCalls ⟨0⟩ 1 3 1)) Sound (new fun _ => 0)
    [.map 0x2000000, .map 0x2001000, .unmap 0x2000000, .map 0x2002000, .unmap 0x7, .unmap 0x2001000]
    (fun a => (a.current, a.recycled)) (v := (2, [1])) (by decide +kernel)
  obtain ⟨current, recycled⟩ := Prod.mk.inj seen
  exact ⟨a, run, current, recycled, ((slots_never_shared run).1.2.1 1 (by simp [recycled])).2⟩

end MemoryAllocator

end RootTask.Memory
