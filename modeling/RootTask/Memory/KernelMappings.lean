import RootTask.Lib.Transition
import RootTask.Memory.MemoryAllocator
import RootTask.Syscall.Requests

/-!
# The table and the kernel

Each call of an allocator is carried out by a kernel that has its own record of what is mapped
where. `map_vaddr` does not look at the answer: it writes the address into its table also when
the kernel has refused the mapping because the address has a page. The kernel is a parameter,
with what its interface says of the two calls on a frame.
-/
namespace RootTask.Memory

open RootTask.Runtime RootTask.Transition RootTask.Syscall

/-- The frame at each address of an address space. -/
abbrev Space : Type := Word → Option Word

/-- What the kernel does with the calls on the frames of an allocator. -/
structure PageCalls {κ : Type} (calls : FrameCalls κ) (frames : Nat → Word)
    (run : κ → Space → Space) : Prop where
  /-- An address that has a page is refused. -/
  map_taken : ∀ slot < maxPageNum, ∀ (vaddr : Word) (space : Space),
    MemoryAllocator.ValidVaddr vaddr → space vaddr ≠ none →
      run (calls.map (frames slot) vaddr) space = space
  map_free : ∀ slot < maxPageNum, ∀ (vaddr : Word) (space : Space),
    MemoryAllocator.ValidVaddr vaddr → space vaddr = none → (∀ v, space v ≠ some (frames slot)) →
      run (calls.map (frames slot) vaddr) space = Function.update space vaddr (some (frames slot))
  unmap : ∀ slot < maxPageNum, ∀ space : Space,
    run (calls.unmap (frames slot)) space =
      fun v => if space v = some (frames slot) then none else space v

/-- What `init` gives an allocator. -/
def Distinct (frames : Nat → Word) : Prop :=
  ∀ i < maxPageNum, ∀ j < maxPageNum, frames i = frames j → i = j

def Unmapped (frames : Nat → Word) (space : Space) : Prop :=
  ∀ slot < maxPageNum, ∀ v, space v ≠ some (frames slot)

/-- An allocator and the address space it works on. -/
structure Mappings where
  allocator : MemoryAllocator
  space : Space

namespace Mappings

open MemoryAllocator (Action ValidVaddr)

variable {κ : Type}

def init (frames : Nat → Word) (space : Space) : Mappings := ⟨.new frames, space⟩

/-- The kernel carries out the call of an operation, if there is one. -/
def carryOut (run : κ → Space → Space) (space : Space) : Option κ × MemoryAllocator → Mappings
  | (some call, allocator) => ⟨allocator, run call space⟩
  | (none, allocator) => ⟨allocator, space⟩

def step (calls : FrameCalls κ) (run : κ → Space → Space) (m : Mappings) :
    Action → Option Mappings
  | .map vaddr => (m.allocator.mapVaddr calls vaddr).toOption.map (carryOut run m.space)
  | .unmap vaddr => some (carryOut run m.space (m.allocator.unmapVaddr calls vaddr))

/-- The table says where the frames are mapped. -/
def Mirrors (m : Mappings) : Prop :=
  ∀ slot < maxPageNum, ∀ v, v ≠ 0 →
    (m.allocator.mappedVaddrs slot = v ↔ m.space v = some (m.allocator.frames slot))

/-- No call is made with address 0. -/
def NonZero : Action → Prop
  | .map vaddr | .unmap vaddr => vaddr ≠ 0

/-- An address that gets a slot has no page. -/
def Fresh (m : Mappings) : Action → Prop
  | .map vaddr => ValidVaddr vaddr → m.allocator.allocSlot.1 ≠ none → m.space vaddr = none
  | .unmap _ => True

instance : DecidablePred NonZero
  | .map vaddr => inferInstanceAs (Decidable (vaddr ≠ 0))
  | .unmap vaddr => inferInstanceAs (Decidable (vaddr ≠ 0))

instance (m : Mappings) : DecidablePred m.Fresh
  | .map vaddr => inferInstanceAs (Decidable (ValidVaddr vaddr → _ → m.space vaddr = none))
  | .unmap _ => .isTrue trivial

/-! ### The invariant -/

section

variable {calls : FrameCalls κ} {frames : Nat → Word} {run : κ → Space → Space} {space₀ : Space}
  {m t : Mappings}

/-- The frames are where the table says, and everything else is as it was at the start. -/
structure Tracks (frames : Nat → Word) (space₀ : Space) (table : Nat → Word) (space : Space) :
    Prop where
  mirror : ∀ slot < maxPageNum, ∀ v, space v = some (frames slot) ↔ v ≠ 0 ∧ table slot = v
  others : ∀ v, space v = space₀ v ∨
    space₀ v = none ∧ ∃ slot < maxPageNum, space v = some (frames slot)

namespace Tracks

variable {table : Nat → Word} {space : Space} {slot : Nat} {v : Word}

/-- A frame whose slot is free is not mapped. -/
theorem free (tracks : Tracks frames space₀ table space) (inRange : slot < maxPageNum)
    (zero : table slot = 0) (v : Word) : space v ≠ some (frames slot) := by
  rw [Ne, tracks.mirror slot inRange v, zero]
  rintro ⟨nonzero, rfl⟩
  exact nonzero rfl

/-- An address without a page had none at the start. -/
theorem unused (tracks : Tracks frames space₀ table space) (noPage : space v = none) :
    space₀ v = none := by
  rcases tracks.others v with same | ⟨none_, -⟩
  · exact same.symm.trans noPage
  · exact none_

/-- The frame of a free slot is mapped at an address that has no page. -/
theorem map (tracks : Tracks frames space₀ table space) (distinct : Distinct frames)
    (inRange : slot < maxPageNum) (zero : table slot = 0) (nonzero : v ≠ 0)
    (noPage : space v = none) :
    Tracks frames space₀ (Function.update table slot v)
      (Function.update space v (some (frames slot))) := by
  constructor
  · intro other inRange' w
    by_cases here : w = v
    · subst here
      rw [Function.update_self, Option.some.injEq]
      by_cases self : other = slot
      · subst self
        rw [Function.update_self]
        exact iff_of_true rfl ⟨nonzero, rfl⟩
      · rw [Function.update_of_ne self]
        -- the table has no other slot at an address without a page
        refine iff_of_false (fun equal => self ?_) fun mapped => ?_
        · exact (distinct slot inRange other inRange' equal).symm
        · have found := (tracks.mirror other inRange' w).mpr mapped
          rw [noPage] at found
          cases found
    · rw [Function.update_of_ne here]
      by_cases self : other = slot
      · subst self
        rw [Function.update_self]
        exact iff_of_false (tracks.free inRange zero w) fun mapped => here mapped.2.symm
      · rw [Function.update_of_ne self]
        exact tracks.mirror other inRange' w
  · intro w
    by_cases here : w = v
    · subst here
      exact .inr ⟨tracks.unused noPage, slot, inRange, by rw [Function.update_self]⟩
    · rw [Function.update_of_ne here]
      exact tracks.others w

/-- An address in the table has the frame of its slot, and had no page at the start. -/
theorem mapped (tracks : Tracks frames space₀ table space) (unmapped : Unmapped frames space₀)
    (inRange : slot < maxPageNum) (nonzero : v ≠ 0) (found : table slot = v) :
    space v = some (frames slot) ∧ space₀ v = none := by
  have here := (tracks.mirror slot inRange v).mpr ⟨nonzero, found⟩
  refine ⟨here, ?_⟩
  rcases tracks.others v with same | ⟨none_, -⟩
  · exact absurd (same.symm.trans here) (unmapped slot inRange v)
  · exact none_

/-- A mapped frame is taken away from its address. -/
theorem unmap (tracks : Tracks frames space₀ table space) (distinct : Distinct frames)
    (unmapped : Unmapped frames space₀) (inRange : slot < maxPageNum) (inUse : table slot ≠ 0) :
    Tracks frames space₀ (Function.update table slot 0)
      (fun w => if space w = some (frames slot) then none else space w) := by
  constructor
  · intro other inRange' w
    by_cases self : other = slot
    · subst self
      rw [Function.update_self]
      refine iff_of_false ?_ fun mapped => mapped.1 mapped.2.symm
      split
      · rintro ⟨⟩
      next elsewhere => exact elsewhere
    · rw [Function.update_of_ne self, ← tracks.mirror other inRange' w]
      split
      next here =>
        -- another frame cannot be at the address of this one
        rw [here, Option.some.injEq]
        refine iff_of_false (by rintro ⟨⟩) fun equal => self ?_
        exact (distinct slot inRange other inRange' equal).symm
      · exact Iff.rfl
  · intro w
    split
    next here =>
      have found := ((tracks.mirror slot inRange w).mp here).2
      exact .inl (tracks.mapped unmapped inRange (found ▸ inUse) found).2.symm
    · exact tracks.others w

end Tracks

structure Ok (frames : Nat → Word) (space₀ : Space) (m : Mappings) : Prop
    extends Tracks frames space₀ m.allocator.mappedVaddrs m.space where
  slots : m.allocator.FramesOk
  given : m.allocator.frames = frames

theorem ok_init (unmapped : Unmapped frames space₀) :
    (init frames space₀).Ok frames space₀ := by
  constructor
  · constructor
    · intro slot inRange v
      refine iff_of_false (unmapped slot inRange v) ?_
      rintro ⟨nonzero, rfl⟩
      exact nonzero rfl
    · exact fun v => .inl rfl
  · exact MemoryAllocator.framesOk_new frames
  · rfl

theorem Ok.mirrors (ok : m.Ok frames space₀) : m.Mirrors := by
  intro slot inRange v nonzero
  rw [ok.given, ok.mirror slot inRange v]
  exact ⟨fun mapped => ⟨nonzero, mapped⟩, And.right⟩

theorem Ok.map (ok : m.Ok frames space₀) (kernel : PageCalls calls frames run)
    (distinct : Distinct frames) {vaddr : Word} {call : Option κ} {a : MemoryAllocator}
    (fresh : m.Fresh (.map vaddr))
    (returned : m.allocator.mapVaddr calls vaddr = .ok (call, a)) :
    (carryOut run m.space (call, a)).Ok frames space₀ := by
  have slots := ok.slots.mapVaddr returned
  rcases MemoryAllocator.mapVaddr_ok returned with
    ⟨rfl, rfl, -⟩ | ⟨slot, a₁, allocated, inRange, valid, rfl, rfl⟩
  · exact ok
  · obtain ⟨-, table, same⟩ := MemoryAllocator.allocSlot_some allocated
    have zero := ok.slots.allocSlot allocated
    have noPage : m.space vaddr = none := fresh valid (by rw [allocated]; simp)
    have carried := kernel.map_free slot inRange vaddr m.space valid noPage
      (ok.toTracks.free inRange zero)
    have tracks := ok.toTracks.map distinct inRange zero valid.ne_zero noPage
    refine ⟨?_, slots, same.trans ok.given⟩
    simp only [carryOut, ok.given, carried, table]
    exact tracks

/-- Whether the address is in the table or not, it is left as it was at the start. -/
theorem Ok.unmap (ok : m.Ok frames space₀) (kernel : PageCalls calls frames run)
    (distinct : Distinct frames) (unmapped : Unmapped frames space₀) {vaddr : Word}
    (nonzero : vaddr ≠ 0) :
    (carryOut run m.space (m.allocator.unmapVaddr calls vaddr)).Ok frames space₀ ∧
      (carryOut run m.space (m.allocator.unmapVaddr calls vaddr)).space vaddr = space₀ vaddr := by
  rcases MemoryAllocator.unmapVaddr_cases calls m.allocator vaddr with
    ⟨absent, same⟩ | ⟨index, inRange, found, recycled⟩
  · rw [same]
    refine ⟨ok, ?_⟩
    rcases ok.others vaddr with same | ⟨-, slot, inRange, here⟩
    · exact same
    · exact absurd ((ok.mirror slot inRange vaddr).mp here).2 (absent slot inRange)
  · obtain ⟨here, before⟩ := ok.toTracks.mapped unmapped inRange nonzero found
    have inUse : m.allocator.mappedVaddrs index ≠ 0 := by rw [found]; exact nonzero
    have carried := kernel.unmap index inRange m.space
    have tracks := ok.toTracks.unmap distinct unmapped inRange inUse
    rw [recycled]
    refine ⟨⟨?_, ok.slots.recycle inUse, ok.given⟩, ?_⟩
    · simp only [carryOut, ok.given, carried]
      exact tracks
    · simp only [carryOut, ok.given, carried, here, before, if_true]

theorem Ok.step {act : Action} (ok : m.Ok frames space₀) (kernel : PageCalls calls frames run)
    (distinct : Distinct frames) (unmapped : Unmapped frames space₀) (nonzero : NonZero act)
    (fresh : m.Fresh act) (moved : m.step calls run act = some t) : t.Ok frames space₀ := by
  cases act with
  | map vaddr =>
    simp only [Mappings.step, Option.map_eq_some_iff, toOption_eq_some, Prod.exists] at moved
    obtain ⟨call, a, returned, rfl⟩ := moved
    exact ok.map kernel distinct fresh returned
  | unmap vaddr =>
    obtain rfl : _ = t := Option.some.inj moved
    exact (ok.unmap kernel distinct unmapped nonzero).1

/-- A refused mapping gets into the table all the same. -/
theorem Ok.stale {act : Action} (ok : m.Ok frames space₀) (kernel : PageCalls calls frames run)
    (stale : ¬ m.Fresh act) (moved : m.step calls run act = some t) : ¬ t.Mirrors := by
  cases act with
  | unmap vaddr => exact absurd trivial stale
  | map vaddr =>
    simp only [Mappings.step, Option.map_eq_some_iff, toOption_eq_some, Prod.exists] at moved
    obtain ⟨call, a, returned, rfl⟩ := moved
    simp only [Fresh, Classical.not_imp] at stale
    obtain ⟨valid, room, page⟩ := stale
    rcases MemoryAllocator.mapVaddr_ok returned with
      ⟨-, -, exhausted⟩ | ⟨slot, a₁, allocated, inRange, -, rfl, rfl⟩
    · exact absurd (exhausted valid) room
    · obtain ⟨-, -, same⟩ := MemoryAllocator.allocSlot_some allocated
      intro mirrors
      have mapped := (mirrors slot inRange vaddr valid.ne_zero).mp (Function.update_self ..)
      have refused := kernel.map_taken slot inRange vaddr m.space valid page
      simp only [carryOut, same, ok.given, refused] at mapped
      exact ok.toTracks.free inRange (ok.slots.allocSlot allocated) vaddr mapped

end

/-! ### Two kernels -/

end Mappings

end RootTask.Memory
