import Mathlib.Data.List.Nodup
import RootTask.Lib.Transition
import RootTask.Runtime.Utils

/-!
# Capability slots and untyped memory

`object_allocator.rs` and the two `init_mmio` routines of the network drivers. The allocator
hands out the free slots of the root CSpace in order, and untyped regions by first fit, each
marked as used. Most routines reserve a slot before they use it. The `init_mmio` routines use
a slot first and reserve it afterwards, one step ahead of the next use.

What the kernel answers is a parameter. An operation returns the slots it hands out and the
kernel calls it makes as events; `Effect` says once what an operation may do, and composes.
-/
namespace RootTask.Memory

open RootTask.Runtime RootTask.Transition

structure UntypedDesc where
  isDevice : Bool
  sizeBits : Nat
  paddr : Nat
  deriving DecidableEq, Repr

/-- The part of the boot info that is read here. -/
structure BootInfo where
  untypedList : List UntypedDesc
  untypedStart : Nat
  emptyStart : Nat
  emptyEnd : Nat

inductive ObjectBlueprint where
  | notification
  | endpoint
  | tcb
  | untyped (sizeBits : Nat)
  | page4K
  | megaPage
  | pageTable
  deriving DecidableEq, Repr

/-- The object sizes of the platform. -/
structure ObjectBits where
  notification : Nat
  endpoint : Nat
  tcb : Nat
  page : Nat
  megaPage : Nat
  pageTable : Nat

def ObjectBits.physicalSizeBits (bits : ObjectBits) : ObjectBlueprint → Nat
  | .notification => bits.notification
  | .endpoint => bits.endpoint
  | .tcb => bits.tcb
  | .untyped sizeBits => sizeBits
  | .page4K => bits.page
  | .megaPage => bits.megaPage
  | .pageTable => bits.pageTable

/-- The kernel's answers during one operation. -/
structure Kernel where
  /-- Whether `num` objects are made from an untyped, at the slots from `dest` on. -/
  retype : (untyped : Nat) → ObjectBlueprint → (dest num : Nat) → Bool
  frameAddress : (slot : Nat) → Option Nat
  mapped : Bool

structure UsedUntypedDesc where
  desc : UntypedDesc
  used : Bool
  deriving DecidableEq, Repr

structure ObjectAllocator where
  untypedList : List UsedUntypedDesc
  untypedStart : Nat
  emptyStart : Nat
  emptyEnd : Nat

/-- What an operation does with slots and untypeds. -/
inductive Event where
  | returned (slot : Nat)
  | untyped (index requested : Nat)
  | retype (untyped : Nat) (blueprint : ObjectBlueprint) (dest num : Nat)
  /-- A retype of device memory. -/
  | mmioRetype (untyped : Nat) (blueprint : ObjectBlueprint) (dest num : Nat)
  deriving DecidableEq, Repr

namespace ObjectAllocator

def init (boot : BootInfo) : ObjectAllocator where
  untypedList := boot.untypedList.map fun desc => ⟨desc, false⟩
  untypedStart := boot.untypedStart
  emptyStart := boot.emptyStart
  emptyEnd := boot.emptyEnd

/-- `empty.next().unwrap()`. -/
def next (a : ObjectAllocator) : Except Panic (Nat × ObjectAllocator) :=
  if a.emptyStart < a.emptyEnd then .ok (a.emptyStart, { a with emptyStart := a.emptyStart + 1 })
  else .error .unwrapNone

/-- `next` over and over, without its results. -/
def skip : Nat → ObjectAllocator → Except Panic ObjectAllocator
  | 0, a => .ok a
  | n + 1, a => a.next.bind fun x => skip n x.2

def getEmptySlot (a : ObjectAllocator) : Except Panic (List Event × ObjectAllocator) :=
  a.next.map fun x => ([.returned x.1], x.2)

section Operations

variable (bits : ObjectBits) (kernel : Kernel)

/-- The slot of the untyped, the event of its choice, and the allocator with its mark. -/
def getTheFirstUntypedSlot (a : ObjectAllocator) (blueprint : ObjectBlueprint) :
    Except Panic (Nat × Event × ObjectAllocator) :=
  let requested := bits.physicalSizeBits blueprint
  match a.untypedList.findIdx? fun u =>
      !u.desc.isDevice && decide (requested ≤ u.desc.sizeBits) && u.used == false with
  | none => .error .unwrapNone
  | some idx => .ok (a.untypedStart + idx, .untyped idx requested,
      { a with untypedList := a.untypedList.modify idx fun u => { u with used := true } })

/-- The body that the single allocations share. A refused retype is passed on as an error, and
the slot and the untyped stay taken. -/
def allocObject (a : ObjectAllocator) (blueprint : ObjectBlueprint) :
    Except Panic (Option Nat × List Event × ObjectAllocator) :=
  (a.getTheFirstUntypedSlot bits blueprint).bind fun (untyped, chosen, a) =>
    a.next.map fun (slot, a) =>
      (if kernel.retype untyped blueprint slot 1 then some slot else none,
        [chosen, .retype untyped blueprint slot 1], a)

def allocNtfn (a : ObjectAllocator) := a.allocObject bits kernel .notification
def allocEp (a : ObjectAllocator) := a.allocObject bits kernel .endpoint
def allocFrame (a : ObjectAllocator) := a.allocObject bits kernel .page4K
def allocTcb (a : ObjectAllocator) := a.allocObject bits kernel .tcb
def allocPageTable (a : ObjectAllocator) := a.allocObject bits kernel .pageTable

/-- The body that the bulk allocations share. -/
def allocMany (a : ObjectAllocator) (objectBits : Nat) (blueprint : ObjectBlueprint)
    (cntBits : Nat) : Except Panic (List Nat × List Event × ObjectAllocator) :=
  -- `1 << cnt_bits`
  if cntBits < 64 then
    let cnt := 2 ^ cntBits
    (a.getTheFirstUntypedSlot bits (.untyped (objectBits + cntBits))).bind
      fun (untyped, chosen, a) =>
        a.next.bind fun (slot, a) =>
          (skip (cnt - 1) a).bind fun a =>
            if kernel.retype untyped blueprint slot cnt then
              .ok ((List.range cnt).map (slot + ·),
                [chosen, .retype untyped blueprint slot cnt], a)
            else .error .unwrapErr
  else .error .overflow

def allocManyEp (a : ObjectAllocator) := a.allocMany bits kernel bits.endpoint .endpoint
def allocManyFrame (a : ObjectAllocator) := a.allocMany bits kernel bits.page .page4K
def allocManyTcb (a : ObjectAllocator) := a.allocMany bits kernel bits.tcb .tcb

end Operations

end ObjectAllocator

/-! ### `init_mmio` -/

/-- Where the two routines differ. -/
structure Mmio where
  /-- The device region to look for. -/
  wanted : UntypedDesc → Bool
  /-- The size of the pieces that the region is cut into. -/
  chunkBits : ObjectBits → Nat
  retypeNum : (retypeBits : Nat) → Nat
  /-- Whether a frame holds the registers. -/
  hit : ObjectBits → (paddr : Nat) → Bool
  /-- Whether the frame needs a page table first. -/
  needsPageTable : Bool

namespace Mmio

abbrev netDeviceAddr : Nat := 0x10008000
abbrev ethAddress : Nat := 0x60140000
abbrev dmaAddress : Nat := 0x60100000

/-- `virtio_net`. -/
def virtio : Mmio where
  wanted := fun desc => desc.isDevice && decide (desc.paddr ≤ netDeviceAddr) &&
    decide (netDeviceAddr < desc.paddr + 2 ^ desc.sizeBits)
  chunkBits := fun bits => bits.megaPage
  retypeNum := fun retypeBits => 2 ^ retypeBits / 4
  hit := fun bits paddr => decide (paddr ≤ netDeviceAddr) &&
    decide (netDeviceAddr < paddr + 2 ^ bits.megaPage)
  needsPageTable := false

/-- `axi_net`. -/
def axi : Mmio where
  wanted := fun desc => desc.isDevice && decide (desc.paddr ≤ dmaAddress) &&
    decide (ethAddress < desc.paddr + 2 ^ desc.sizeBits)
  chunkBits := fun bits => bits.megaPage + 7
  retypeNum := fun retypeBits => 2 ^ retypeBits
  hit := fun bits paddr => decide (paddr ≤ dmaAddress) &&
    decide (ethAddress < paddr + 2 ^ bits.megaPage)
  needsPageTable := true

/-- The slot and the size of the device region; without one, slot 0 and size 0. -/
def device (mmio : Mmio) (boot : BootInfo) : Nat × Nat :=
  match boot.untypedList.findIdx? mmio.wanted with
  | some i => (boot.untypedStart + i, (boot.untypedList[i]?.map UntypedDesc.sizeBits).getD 0)
  | none => (0, 0)

variable (bits : ObjectBits) (kernel : Kernel)

/-- The rest of a round that found the frame. -/
def mapFrame (mmio : Mmio) (a : ObjectAllocator) : Except Panic (List Event × ObjectAllocator) :=
  if mmio.needsPageTable then
    (a.allocPageTable bits kernel).bind fun (cap, events, a) =>
      match cap with
      | none => .error .unwrapErr
      | some _ => if kernel.mapped then .ok (events, a) else .error .unwrapErr
  else if kernel.mapped then .ok ([], a)
  else .error .unwrapErr

/-- The rounds from `i` on: each makes one frame and reserves one slot. -/
def frameLoop (mmio : Mmio) (untypedSlot frameSlot : Nat) :
    Nat → Nat → ObjectAllocator → Except Panic (List Event × ObjectAllocator)
  | 0, _, a => .ok ([], a)
  | n + 1, i, a =>
    if kernel.retype (untypedSlot + i) .megaPage (frameSlot + i) 1 then
      a.next.bind fun (_, a) =>
        match kernel.frameAddress (frameSlot + i) with
        | none => .error .unwrapErr
        | some paddr =>
          (if mmio.hit bits paddr then mmio.mapFrame bits kernel a
            else frameLoop mmio untypedSlot frameSlot n (i + 1) a).map fun (events, a) =>
              (.mmioRetype (untypedSlot + i) .megaPage (frameSlot + i) 1 :: events, a)
    else .error .unwrapErr

def initMmio (mmio : Mmio) (boot : BootInfo) (a : ObjectAllocator) :
    Except Panic (List Event × ObjectAllocator) :=
  let (untyped, untypedBits) := mmio.device boot
  let chunk := mmio.chunkBits bits
  a.next.bind fun (untypedSlot, a) =>
    if untypedBits < chunk ∨ 64 ≤ untypedBits - chunk then .error .overflow
    else
      let retypeNum := mmio.retypeNum (untypedBits - chunk)
      if !kernel.retype untyped (.untyped chunk) untypedSlot retypeNum then .error .unwrapErr
      -- `retype_num - 1`
      else if retypeNum = 0 then .error .overflow
      else
        (ObjectAllocator.skip (retypeNum - 1) a).bind fun a =>
          a.next.bind fun (frameSlot, a) =>
            (mmio.frameLoop bits kernel untypedSlot frameSlot retypeNum 0 a).map fun (events, a) =>
              (.mmioRetype untyped (.untyped chunk) untypedSlot retypeNum :: events, a)

end Mmio

/-! ### What an operation may do -/

namespace Event

/-- The slots that an event uses. -/
def slots : Event → List Nat
  | .returned slot => [slot]
  | .untyped .. => []
  | .retype _ _ dest num | .mmioRetype _ _ dest num => List.range' dest num

/-- The untyped that an event takes. -/
def index : Event → Option Nat
  | .untyped index _ => some index
  | .returned _ | .retype .. | .mmioRetype .. => none

end Event

namespace ObjectAllocator

/-- The untyped at `i` is marked as used, or not. -/
def Marked (a : ObjectAllocator) (i : Nat) (used : Bool) : Prop :=
  ∃ desc, a.untypedList[i]? = some ⟨desc, used⟩

/-- From `a` to `b` an operation uses fresh slots, each once, takes unused untypeds that are
large enough, each once, and makes no more objects than their untyped holds. -/
structure Effect (bits : ObjectBits) (a : ObjectAllocator) (events : List Event)
    (b : ObjectAllocator) : Prop where
  slotsOnce : (events.flatMap Event.slots).Nodup
  slotsFresh : ∀ slot ∈ events.flatMap Event.slots,
    a.emptyStart ≤ slot ∧ slot < b.emptyStart ∧ slot < a.emptyEnd
  start : a.emptyStart ≤ b.emptyStart
  stop : b.emptyEnd = a.emptyEnd
  untypedStart : b.untypedStart = a.untypedStart
  descs : b.untypedList.map UsedUntypedDesc.desc = a.untypedList.map UsedUntypedDesc.desc
  indicesOnce : (events.filterMap Event.index).Nodup
  taken : ∀ idx requested, .untyped idx requested ∈ events → b.Marked idx true ∧
    ∃ desc, a.untypedList[idx]? = some ⟨desc, false⟩ ∧ desc.isDevice = false ∧
      requested ≤ desc.sizeBits
  marks : ∀ i, a.Marked i true → b.Marked i true
  fits : ∀ untyped blueprint dest num, .retype untyped blueprint dest num ∈ events →
    ∃ idx requested, .untyped idx requested ∈ events ∧ untyped = a.untypedStart + idx ∧
      num * 2 ^ bits.physicalSizeBits blueprint ≤ 2 ^ requested

variable {bits : ObjectBits} {kernel : Kernel}

theorem Effect.refl (a : ObjectAllocator) : Effect bits a [] a := by
  constructor <;> simp

theorem mem_indices {events : List Event} {idx : Nat} :
    idx ∈ events.filterMap Event.index ↔ ∃ requested, .untyped idx requested ∈ events := by
  rw [List.mem_filterMap]
  constructor
  · rintro ⟨event, member, isIndex⟩
    cases event with
    | untyped index requested =>
      obtain rfl : index = idx := by simpa [Event.index] using isIndex
      exact ⟨requested, member⟩
    | returned _ => simp [Event.index] at isIndex
    | retype _ _ _ _ => simp [Event.index] at isIndex
    | mmioRetype _ _ _ _ => simp [Event.index] at isIndex
  · rintro ⟨requested, member⟩
    exact ⟨_, member, rfl⟩

theorem Marked.unique {a : ObjectAllocator} {i : Nat} (yes : a.Marked i true) :
    ¬ a.Marked i false := by
  rintro ⟨desc, unused⟩
  obtain ⟨desc', used⟩ := yes
  simp [used] at unused

/-- What is unused afterwards was unused before, and the same untyped. -/
theorem Effect.unused {a b : ObjectAllocator} {events : List Event} (ab : Effect bits a events b)
    {i : Nat} {desc : UntypedDesc} (after : b.untypedList[i]? = some ⟨desc, false⟩) :
    a.untypedList[i]? = some ⟨desc, false⟩ := by
  have sameDesc := congrArg (·[i]?) ab.descs
  simp only [List.getElem?_map, after, Option.map_some] at sameDesc
  obtain ⟨⟨desc', used⟩, before, rfl⟩ := Option.map_eq_some_iff.mp sameDesc.symm
  cases used with
  | false => exact before
  | true => exact absurd ⟨_, after⟩ (ab.marks i ⟨_, before⟩).unique

theorem Effect.trans {a b c : ObjectAllocator} {xs ys : List Event} (ab : Effect bits a xs b)
    (bc : Effect bits b ys c) : Effect bits a (xs ++ ys) c := by
  constructor
  · rw [List.flatMap_append, List.nodup_append]
    refine ⟨ab.slotsOnce, bc.slotsOnce, fun x inX y inY => ?_⟩
    -- the first part's slots end where the second part's begin
    have before := (ab.slotsFresh x inX).2.1
    have after := (bc.slotsFresh y inY).1
    omega
  · intro slot member
    rw [List.flatMap_append, List.mem_append] at member
    have start := ab.start
    have later := bc.start
    have stop := ab.stop
    rcases member with first | second
    · have facts := ab.slotsFresh slot first
      omega
    · have facts := bc.slotsFresh slot second
      omega
  · exact Nat.le_trans ab.start bc.start
  · exact bc.stop.trans ab.stop
  · exact bc.untypedStart.trans ab.untypedStart
  · exact bc.descs.trans ab.descs
  · rw [List.filterMap_append, List.nodup_append]
    refine ⟨ab.indicesOnce, bc.indicesOnce, fun i inX j inY => ?_⟩
    rintro rfl
    -- what the first part takes is marked, and the second takes only what is not
    obtain ⟨r, first⟩ := mem_indices.mp inX
    obtain ⟨r', second⟩ := mem_indices.mp inY
    obtain ⟨-, desc, unused, -⟩ := bc.taken i r' second
    exact (ab.taken i r first).1.unique ⟨desc, unused⟩
  · intro idx requested member
    rcases List.mem_append.mp member with first | second
    · obtain ⟨used, found⟩ := ab.taken idx requested first
      exact ⟨bc.marks idx used, found⟩
    · obtain ⟨used, desc, unused, large⟩ := bc.taken idx requested second
      exact ⟨used, desc, ab.unused unused, large⟩
  · exact fun i used => bc.marks i (ab.marks i used)
  · intro untyped blueprint dest num member
    rcases List.mem_append.mp member with first | second
    · obtain ⟨idx, r, chosen, facts⟩ := ab.fits _ _ _ _ first
      exact ⟨idx, r, List.mem_append_left _ chosen, facts⟩
    · obtain ⟨idx, r, chosen, same, small⟩ := bc.fits _ _ _ _ second
      exact ⟨idx, r, List.mem_append_right _ chosen, same.trans (by rw [ab.untypedStart]), small⟩

/-! ### The operations keep to it -/

theorem next_ok {a b : ObjectAllocator} {slot : Nat} (returned : a.next = .ok (slot, b)) :
    slot = a.emptyStart ∧ a.emptyStart < a.emptyEnd ∧
      b = { a with emptyStart := a.emptyStart + 1 } := by
  unfold next at returned
  split at returned
  next room => cases returned; exact ⟨rfl, room, rfl⟩
  · cases returned

/-- One slot was free, and the `n` that follow it were free if there were any. -/
theorem room_after {start stop n : Nat} (room : start < stop)
    (fits : n ≠ 0 → start + 1 + n ≤ stop) : start + (n + 1) ≤ stop := by
  by_cases last : n = 0
  · subst last
    exact room
  · have rest := fits last
    omega

theorem skip_ok {n : Nat} {a b : ObjectAllocator} (returned : skip n a = .ok b) :
    b = { a with emptyStart := a.emptyStart + n } ∧ (n ≠ 0 → a.emptyStart + n ≤ a.emptyEnd) := by
  induction n generalizing a with
  | zero => cases returned; exact ⟨rfl, fun nonzero => absurd rfl nonzero⟩
  | succ n ih =>
    obtain ⟨⟨slot, a₁⟩, first, rest⟩ := bind_ok.mp returned
    obtain ⟨-, room, rfl⟩ := next_ok first
    obtain ⟨rfl, fits⟩ := ih rest
    exact ⟨by simp only [Nat.add_comm, Nat.add_left_comm], fun _ => room_after room fits⟩

/-- Slots that were reserved may be used, once each. -/
theorem Effect.reserved {a : ObjectAllocator} {n : Nat} {events : List Event}
    (room : n ≠ 0 → a.emptyStart + n ≤ a.emptyEnd)
    (once : (events.flatMap Event.slots).Nodup)
    (range : ∀ slot ∈ events.flatMap Event.slots,
      a.emptyStart ≤ slot ∧ slot < a.emptyStart + n)
    (indices : ∀ idx requested, .untyped idx requested ∉ events)
    (retypes : ∀ untyped blueprint dest num, .retype untyped blueprint dest num ∉ events) :
    Effect bits a events { a with emptyStart := a.emptyStart + n } := by
  constructor
  · exact once
  · intro slot member
    obtain ⟨low, high⟩ := range slot member
    have bound := room (by omega)
    exact ⟨low, high, by omega⟩
  · exact Nat.le_add_right _ _
  · rfl
  · rfl
  · rfl
  · refine List.nodup_iff_count_le_one.mpr fun idx => ?_
    rw [List.count_eq_zero_of_not_mem]
    · exact Nat.zero_le _
    · rintro member
      obtain ⟨requested, isIn⟩ := mem_indices.mp member
      exact indices idx requested isIn
  · exact fun idx requested member => absurd member (indices idx requested)
  · exact fun _ used => used
  · exact fun _ _ _ _ member => absurd member (retypes _ _ _ _)

theorem getEmptySlot_effect {a b : ObjectAllocator} {events : List Event}
    (returned : a.getEmptySlot = .ok (events, b)) : Effect bits a events b := by
  obtain ⟨⟨slot, a₁⟩, taken, same⟩ := map_ok.mp returned
  obtain ⟨rfl, rfl⟩ := Prod.mk.inj same
  obtain ⟨rfl, room, rfl⟩ := next_ok taken
  apply Effect.reserved (n := 1)
  · exact fun _ => room
  · simp [Event.slots]
  · simp [Event.slots]
  · simp
  · simp

theorem getTheFirstUntypedSlot_effect {a b : ObjectAllocator} {blueprint : ObjectBlueprint}
    {untyped : Nat} {chosen : Event}
    (returned : a.getTheFirstUntypedSlot bits blueprint = .ok (untyped, chosen, b)) :
    ∃ idx, untyped = a.untypedStart + idx ∧
      chosen = .untyped idx (bits.physicalSizeBits blueprint) ∧ Effect bits a [chosen] b ∧
      b.emptyStart = a.emptyStart := by
  unfold getTheFirstUntypedSlot at returned
  dsimp only at returned
  split at returned
  · cases returned
  next idx found =>
    cases returned
    obtain ⟨inRange, suits, -⟩ := List.findIdx?_eq_some_iff_getElem.mp found
    simp only [Bool.and_eq_true, Bool.not_eq_true', decide_eq_true_eq, beq_iff_eq] at suits
    obtain ⟨⟨notDevice, large⟩, unused⟩ := suits
    -- first fit: what is found suits the request, and was not used
    have atIdx : a.untypedList[idx]? = some ⟨a.untypedList[idx].desc, false⟩ := by
      rw [List.getElem?_eq_getElem inRange, ← unused]
    refine ⟨idx, rfl, rfl, ?_, rfl⟩
    constructor
    · simp [Event.slots]
    · simp [Event.slots]
    · exact Nat.le_refl _
    · rfl
    · rfl
    -- the mark is the only change
    · apply List.ext_getElem?
      intro i
      simp only [List.getElem?_map, List.getElem?_modify]
      cases a.untypedList[i]? with
      | none => rfl
      | some u => by_cases same : idx = i <;> simp [same]
    · simp [Event.index]
    · intro i requested member
      obtain ⟨rfl, rfl⟩ : i = idx ∧ requested = bits.physicalSizeBits blueprint := by
        simpa using member
      exact ⟨⟨a.untypedList[i].desc, by simp [atIdx]⟩, _, atIdx, notDevice, large⟩
    · rintro i ⟨desc, used⟩
      refine ⟨desc, ?_⟩
      by_cases same : idx = i <;> simp [used, same]
    · simp

/-- The retype of a chosen untyped, at the slots reserved for it. -/
theorem Effect.retyped {a b : ObjectAllocator} {idx requested num : Nat}
    {blueprint : ObjectBlueprint} (chosen : Effect bits a [.untyped idx requested] b)
    (room : num ≠ 0 → b.emptyStart + num ≤ b.emptyEnd)
    (small : num * 2 ^ bits.physicalSizeBits blueprint ≤ 2 ^ requested) :
    Effect bits a
      [.untyped idx requested, .retype (a.untypedStart + idx) blueprint b.emptyStart num]
      { b with emptyStart := b.emptyStart + num } := by
  have start := chosen.start
  have stop := chosen.stop
  constructor
  · simp [Event.slots, List.nodup_range']
  · intro slot member
    simp only [List.flatMap_cons, Event.slots, List.nil_append, List.flatMap_nil, List.append_nil,
      List.mem_range'_1] at member
    have bound := room (by omega)
    dsimp only
    omega
  · exact Nat.le_trans start (Nat.le_add_right _ _)
  · exact stop
  · exact chosen.untypedStart
  · exact chosen.descs
  · exact List.nodup_singleton idx
  · intro i r member
    obtain ⟨rfl, rfl⟩ : i = idx ∧ r = requested := by simpa using member
    exact chosen.taken i r (List.mem_singleton_self _)
  · exact chosen.marks
  · intro untyped bp dest n member
    obtain ⟨rfl, rfl, rfl, rfl⟩ : untyped = a.untypedStart + idx ∧ bp = blueprint ∧
        dest = b.emptyStart ∧ n = num := by simpa using member
    exact ⟨idx, requested, List.mem_cons_self, rfl, small⟩

theorem allocObject_effect {a b : ObjectAllocator} {blueprint : ObjectBlueprint} {cap : Option Nat}
    {events : List Event} (returned : a.allocObject bits kernel blueprint = .ok (cap, events, b)) :
    Effect bits a events b := by
  obtain ⟨⟨untyped, chosen, a₁⟩, found, returned⟩ := bind_ok.mp returned
  obtain ⟨⟨slot, a₂⟩, reserved, same⟩ := map_ok.mp returned
  obtain ⟨-, rfl, rfl⟩ := by simpa only [Prod.mk.injEq] using same
  obtain ⟨idx, rfl, rfl, effect, -⟩ := getTheFirstUntypedSlot_effect found
  obtain ⟨rfl, room, rfl⟩ := next_ok reserved
  exact effect.retyped (fun _ => room) (by simp)

/-- The bulk allocation of objects whose blueprint has the size that it computes with. -/
theorem allocMany_effect {a b : ObjectAllocator} {objectBits cntBits : Nat}
    {blueprint : ObjectBlueprint} {caps : List Nat} {events : List Event}
    (size : bits.physicalSizeBits blueprint = objectBits)
    (returned : a.allocMany bits kernel objectBits blueprint cntBits = .ok (caps, events, b)) :
    Effect bits a events b := by
  unfold allocMany at returned
  split at returned
  · obtain ⟨⟨untyped, chosen, a₁⟩, found, returned⟩ := bind_ok.mp returned
    obtain ⟨⟨slot, a₂⟩, reserved, returned⟩ := bind_ok.mp returned
    obtain ⟨a₃, skipped, returned⟩ := bind_ok.mp returned
    split at returned
    next accepted =>
      cases returned
      obtain ⟨idx, rfl, rfl, effect, -⟩ := getTheFirstUntypedSlot_effect found
      obtain ⟨rfl, room, rfl⟩ := next_ok reserved
      obtain ⟨rfl, fits⟩ := skip_ok skipped
      have positive : 0 < 2 ^ cntBits := Nat.two_pow_pos _
      -- all slots of the bulk were reserved, the first by `next` and the rest by `skip`
      have total : a₁.emptyStart + 2 ^ cntBits ≤ a₁.emptyEnd := by
        have rest := room_after room fits
        rwa [Nat.sub_add_cancel positive] at rest
      have counted : a₁.emptyStart + 1 + (2 ^ cntBits - 1) = a₁.emptyStart + 2 ^ cntBits := by omega
      simp only [counted]
      refine effect.retyped (fun _ => total) ?_
      rw [size, ← Nat.pow_add, Nat.add_comm]
      exact Nat.le_refl _
    · cases returned
  · cases returned

/-! ### A refused retype -/

/-- The allocations that pass a refused retype on as an error. -/
inductive SingleAlloc where
  | ntfn
  | ep
  | frame
  | tcb
  | pageTable
  deriving DecidableEq, Repr

def SingleAlloc.blueprint : SingleAlloc → ObjectBlueprint
  | .ntfn => .notification
  | .ep => .endpoint
  | .frame => .page4K
  | .tcb => .tcb
  | .pageTable => .pageTable

def SingleAlloc.run (op : SingleAlloc) (bits : ObjectBits) (kernel : Kernel)
    (a : ObjectAllocator) : Except Panic (Option Nat × List Event × ObjectAllocator) :=
  match op with
  | .ntfn => a.allocNtfn bits kernel
  | .ep => a.allocEp bits kernel
  | .frame => a.allocFrame bits kernel
  | .tcb => a.allocTcb bits kernel
  | .pageTable => a.allocPageTable bits kernel

theorem SingleAlloc.run_eq (op : SingleAlloc) (a : ObjectAllocator) :
    op.run bits kernel a = a.allocObject bits kernel op.blueprint := by
  cases op <;> rfl

/-- An untyped that a request of some size may take. -/
def Suits (requested : Nat) (u : UsedUntypedDesc) : Prop :=
  u.desc.isDevice = false ∧ requested ≤ u.desc.sizeBits ∧ u.used = false

/-- `b` is `a` without its first slot and without the first untyped that suits. -/
structure Taken (requested : Nat) (a b : ObjectAllocator) : Prop where
  room : a.emptyStart < a.emptyEnd
  untyped : ∃ idx desc, a.untypedList[idx]? = some ⟨desc, false⟩ ∧ Suits requested ⟨desc, false⟩ ∧
    (∀ j < idx, ∀ u, a.untypedList[j]? = some u → ¬ Suits requested u) ∧
    b = { a with
      untypedList := a.untypedList.set idx ⟨desc, true⟩
      emptyStart := a.emptyStart + 1 }

/-- Whatever the kernel answers, a call that returns has taken a slot and an untyped. -/
theorem allocObject_taken {a b : ObjectAllocator} {blueprint : ObjectBlueprint} {cap : Option Nat}
    {events : List Event} (returned : a.allocObject bits kernel blueprint = .ok (cap, events, b)) :
    Taken (bits.physicalSizeBits blueprint) a b := by
  obtain ⟨⟨untyped, chosen, a₁⟩, found, returned⟩ := bind_ok.mp returned
  obtain ⟨⟨slot, a₂⟩, reserved, same⟩ := map_ok.mp returned
  obtain ⟨-, -, rfl⟩ := by simpa only [Prod.mk.injEq] using same
  obtain ⟨-, room, rfl⟩ := next_ok reserved
  unfold getTheFirstUntypedSlot at found
  dsimp only at found
  split at found
  · cases found
  next idx first =>
    cases found
    obtain ⟨inRange, suits, before⟩ := List.findIdx?_eq_some_iff_getElem.mp first
    simp only [Bool.and_eq_true, Bool.not_eq_true', decide_eq_true_eq, beq_iff_eq] at suits
    obtain ⟨⟨notDevice, large⟩, unused⟩ := suits
    refine ⟨room, idx, a.untypedList[idx].desc, ?_, ⟨notDevice, large, rfl⟩, ?_, ?_⟩
    · rw [List.getElem?_eq_getElem inRange, ← unused]
    · intro j earlier u atJ suitsU
      obtain ⟨inList, rfl⟩ := List.getElem?_eq_some_iff.mp atJ
      refine before j earlier ?_
      simp [suitsU.1, suitsU.2.1, suitsU.2.2]
    · rw [List.modify_eq_set_get _ inRange]
      rfl

/-- The untypeds that are left. -/
def unusedNum (a : ObjectAllocator) : Nat := a.untypedList.countP fun u => !u.used

theorem Taken.unusedNum {requested : Nat} {a b : ObjectAllocator} (taken : Taken requested a b) :
    b.unusedNum + 1 = a.unusedNum := by
  obtain ⟨idx, desc, unused, -, -, rfl⟩ := taken.untyped
  obtain ⟨inRange, atIdx⟩ := List.getElem?_eq_some_iff.mp unused
  have positive : 0 < a.untypedList.countP fun u => !u.used :=
    List.countP_pos_iff.mpr ⟨_, List.mem_of_getElem? unused, rfl⟩
  simp only [ObjectAllocator.unusedNum, List.countP_set inRange, atIdx]
  simpa using Nat.sub_add_cancel positive

/-- A call that the kernel refuses. -/
def refusedStep (bits : ObjectBits) (a : ObjectAllocator) (call : SingleAlloc × Kernel) :
    Option ObjectAllocator :=
  match call.1.run bits call.2 a with
  | .ok (none, _, b) => some b
  | _ => none

theorem refusedStep_some {a b : ObjectAllocator} {call : SingleAlloc × Kernel}
    (refused : refusedStep bits a call = some b) :
    Taken (bits.physicalSizeBits call.1.blueprint) a b := by
  unfold refusedStep at refused
  split at refused
  next b' returned =>
    cases refused
    rw [SingleAlloc.run_eq] at returned
    exact allocObject_taken returned
  · cases refused

/-- A run of refused calls takes a slot and an untyped per call and changes nothing else. -/
theorem refused_run {a b : ObjectAllocator} {calls : List (SingleAlloc × Kernel)}
    (run : exec (refusedStep bits) a calls = some b) :
    b.emptyStart = a.emptyStart + calls.length ∧ b.emptyEnd = a.emptyEnd ∧
      b.unusedNum + calls.length = a.unusedNum ∧ b.untypedStart = a.untypedStart ∧
      b.untypedList.map UsedUntypedDesc.desc = a.untypedList.map UsedUntypedDesc.desc := by
  induction calls generalizing a with
  | nil => cases run; exact ⟨rfl, rfl, rfl, rfl, rfl⟩
  | cons call rest ih =>
    obtain ⟨a₁, refused, run⟩ := Option.bind_eq_some_iff.mp run
    have taken := refusedStep_some refused
    obtain ⟨start, stop, unused, first, descs⟩ := ih run
    have one := taken.unusedNum
    obtain ⟨idx, desc, found, -, -, rfl⟩ := taken.untyped
    refine ⟨?_, stop, ?_, first, ?_⟩
    · rw [start, List.length_cons]
      dsimp only
      omega
    · rw [List.length_cons]
      omega
    · -- the mark is no part of a description
      obtain ⟨inRange, atIdx⟩ := List.getElem?_eq_some_iff.mp found
      have inDescs : idx < (a.untypedList.map UsedUntypedDesc.desc).length := by simpa using inRange
      have same : desc = (a.untypedList.map UsedUntypedDesc.desc)[idx] := by simp [atIdx]
      rw [descs, List.map_set]
      dsimp only
      rw [same, List.set_getElem_self]

/-- A call that returns an error has used up two things, the first untyped that suits and the
first free slot, and nothing else; so a sequence of failing calls takes one of each per call from
later ones. -/
theorem refused_alloc_taken (bits : ObjectBits) (a : ObjectAllocator) :
    (∀ (op : SingleAlloc) (kernel : Kernel) (events : List Event) (b : ObjectAllocator),
      op.run bits kernel a = .ok (none, events, b) →
        Taken (bits.physicalSizeBits op.blueprint) a b) ∧
    ∀ (calls : List (SingleAlloc × Kernel)) (b : ObjectAllocator),
      exec (refusedStep bits) a calls = some b →
        b.emptyStart = a.emptyStart + calls.length ∧ b.emptyEnd = a.emptyEnd ∧
          b.unusedNum + calls.length = a.unusedNum ∧ b.untypedStart = a.untypedStart ∧
          b.untypedList.map UsedUntypedDesc.desc = a.untypedList.map UsedUntypedDesc.desc := by
  refine ⟨fun op kernel events b refused => ?_, fun calls b run => refused_run run⟩
  rw [SingleAlloc.run_eq] at refused
  exact allocObject_taken refused

/-- The kernel that refuses everything. -/
def refusing : Kernel := ⟨fun _ _ _ _ => false, fun _ => none, false⟩

/-- One refused notification uses up the only untyped and the only slot, and the next call
panics although the kernel never took anything. -/
theorem refused_alloc_leaks :
    ∃ b, SingleAlloc.run .ntfn ⟨5, 4, 10, 12, 21, 12⟩ refusing
          ⟨[⟨⟨false, 12, 0⟩, false⟩], 40, 100, 101⟩ =
        .ok (none, [.untyped 0 5, .retype 40 .notification 100 1], b) ∧
      b.untypedList ≠ [⟨⟨false, 12, 0⟩, false⟩] ∧ b.emptyStart ≠ 100 ∧
      SingleAlloc.run .ep ⟨5, 4, 10, 12, 21, 12⟩ refusing b = .error .unwrapNone :=
  ⟨_, rfl, by decide, by decide, rfl⟩

/-- Two refused calls on an allocator with a device region and two untypeds. -/
theorem refused_alloc_taken_twice :
    ∃ b, exec (refusedStep ⟨5, 4, 10, 12, 21, 12⟩)
        ⟨[⟨⟨true, 24, 0⟩, false⟩, ⟨⟨false, 12, 0⟩, false⟩, ⟨⟨false, 13, 0⟩, false⟩], 40, 100, 110⟩
        [(.ep, refusing), (.frame, refusing)] = some b ∧
      b.emptyStart = 102 ∧ b.unusedNum = 1 := by
  refine ⟨_, rfl, ?_⟩
  obtain ⟨start, -, unused, -⟩ := (refused_alloc_taken ⟨5, 4, 10, 12, 21, 12⟩
    ⟨[⟨⟨true, 24, 0⟩, false⟩, ⟨⟨false, 12, 0⟩, false⟩, ⟨⟨false, 13, 0⟩, false⟩], 40, 100, 110⟩).2
    [(.ep, refusing), (.frame, refusing)] _ rfl
  exact ⟨start, Nat.add_right_cancel unused⟩

end ObjectAllocator

namespace Mmio

open ObjectAllocator

variable {bits : ObjectBits} {kernel : Kernel} {mmio : Mmio}

theorem mapFrame_effect {a b : ObjectAllocator} {events : List Event}
    (returned : mmio.mapFrame bits kernel a = .ok (events, b)) : Effect bits a events b := by
  unfold mapFrame at returned
  split at returned
  · obtain ⟨⟨cap, evs, a₁⟩, allocated, returned⟩ := bind_ok.mp returned
    cases cap with
    | none => cases returned
    | some slot =>
      dsimp only at returned
      split at returned
      · cases returned
        exact allocObject_effect allocated
      · cases returned
  · split at returned
    · cases returned
      exact .refl a
    · cases returned

/-- The retypes of `m` rounds from round `i` on. -/
def frameEvents (untypedSlot frameSlot i m : Nat) : List Event :=
  (List.range' i m).map fun j => .mmioRetype (untypedSlot + j) .megaPage (frameSlot + j) 1

theorem slots_frameEvents (untypedSlot frameSlot i m : Nat) :
    (frameEvents untypedSlot frameSlot i m).flatMap Event.slots = List.range' (frameSlot + i) m := by
  induction m generalizing i with
  | zero => rfl
  | succ m ih =>
    have tail := ih (i + 1)
    simp only [frameEvents] at tail ⊢
    rw [List.range'_succ, List.map_cons, List.flatMap_cons, tail, List.range'_succ]
    rfl

/-- The loop makes some number of frames at consecutive slots and reserves as many, one ahead;
then it may map the last of them. -/
theorem frameLoop_effect {untypedSlot frameSlot n i : Nat} {a b : ObjectAllocator}
    {events : List Event}
    (returned : mmio.frameLoop bits kernel untypedSlot frameSlot n i a = .ok (events, b)) :
    ∃ m rest, events = frameEvents untypedSlot frameSlot i m ++ rest ∧
      (m ≠ 0 → a.emptyStart + m ≤ a.emptyEnd) ∧
      Effect bits { a with emptyStart := a.emptyStart + m } rest b := by
  induction n generalizing i a events with
  | zero =>
    cases returned
    exact ⟨0, [], rfl, fun nonzero => absurd rfl nonzero, .refl _⟩
  | succ n ih =>
    unfold frameLoop at returned
    split at returned
    · obtain ⟨⟨slot, a₁⟩, reserved, returned⟩ := bind_ok.mp returned
      obtain ⟨-, room, rfl⟩ := next_ok reserved
      dsimp only at returned
      split at returned
      · cases returned
      next paddr address =>
        obtain ⟨⟨evs, a₂⟩, round, same⟩ := map_ok.mp returned
        obtain ⟨rfl, rfl⟩ := Prod.mk.inj same
        split at round
        · -- the frame is found in this round
          exact ⟨1, evs, rfl, fun _ => room, mapFrame_effect round⟩
        -- another round: this frame comes before those of the rounds to come
        · obtain ⟨m, rest, rfl, fits, effect⟩ := ih round
          refine ⟨m + 1, rest, ?_, fun _ => room_after room fits, ?_⟩
          · simp only [frameEvents, List.range'_succ, List.map_cons, List.cons_append]
          · simpa only [Nat.add_assoc, Nat.add_comm 1 m] using effect
    · cases returned

/-- The pieces and the frames fill consecutive slots; the slot reserved last is left over. -/
theorem mmio_slots_effect {a : ObjectAllocator} {untyped num m : Nat} {blueprint : ObjectBlueprint}
    (frameRoom : a.emptyStart + num < a.emptyEnd)
    (fits : m ≠ 0 → a.emptyStart + num + 1 + m ≤ a.emptyEnd) :
    Effect bits a (.mmioRetype untyped blueprint a.emptyStart num ::
        frameEvents a.emptyStart (a.emptyStart + num) 0 m)
      { a with emptyStart := a.emptyStart + num + 1 + m } := by
  -- the frames start right after the pieces
  have slots : (Event.mmioRetype untyped blueprint a.emptyStart num ::
      frameEvents a.emptyStart (a.emptyStart + num) 0 m).flatMap Event.slots =
        List.range' a.emptyStart (num + m) := by
    rw [List.flatMap_cons, slots_frameEvents, Nat.add_zero, ← List.range'_append_1]
    rfl
  have total : a.emptyStart + num + 1 + m = a.emptyStart + (num + 1 + m) := by omega
  rw [total]
  apply Effect.reserved
  · intro _
    have rest := room_after frameRoom fits
    omega
  · rw [slots]
    exact List.nodup_range'
  · intro slot member
    rw [slots, List.mem_range'_1] at member
    omega
  · simp [frameEvents]
  · simp [frameEvents]

/-- The routine uses the slots of the pieces and of the frames, all reserved by its end. -/
theorem initMmio_effect {boot : BootInfo} {a b : ObjectAllocator} {events : List Event}
    (returned : mmio.initMmio bits kernel boot a = .ok (events, b)) : Effect bits a events b := by
  unfold initMmio at returned
  generalize mmio.device boot = dev at returned
  obtain ⟨untyped, untypedBits⟩ := dev
  dsimp only at returned
  obtain ⟨⟨untypedSlot, a₁⟩, first, returned⟩ := bind_ok.mp returned
  obtain ⟨rfl, room, rfl⟩ := next_ok first
  dsimp only at returned
  generalize mmio.retypeNum (untypedBits - mmio.chunkBits bits) = num at returned
  split at returned
  · cases returned
  · split at returned
    · cases returned
    · split at returned
      · cases returned
      next positive =>
        obtain ⟨a₂, skipped, returned⟩ := bind_ok.mp returned
        obtain ⟨⟨frameSlot, a₃⟩, frames, returned⟩ := bind_ok.mp returned
        obtain ⟨⟨evs, a₄⟩, loop, same⟩ := map_ok.mp returned
        obtain ⟨rfl, rfl⟩ := Prod.mk.inj same
        obtain ⟨rfl, -⟩ := skip_ok skipped
        obtain ⟨rfl, frameRoom, rfl⟩ := next_ok frames
        obtain ⟨m, rest, rfl, fits, effect⟩ := frameLoop_effect loop
        dsimp only at fits effect frameRoom ⊢
        -- the slot of the first frame is the one after the last piece
        have frameStart : a.emptyStart + 1 + (num - 1) = a.emptyStart + num := by omega
        rw [frameStart] at fits effect frameRoom ⊢
        exact Effect.trans (mmio_slots_effect frameRoom fits) effect

end Mmio

/-! ### Runs -/

/-- A call, with the answers that the kernel gives during it. -/
inductive Request where
  | getEmptySlot
  | getTheFirstUntypedSlot (blueprint : ObjectBlueprint)
  | allocNtfn (kernel : Kernel)
  | allocEp (kernel : Kernel)
  | allocFrame (kernel : Kernel)
  | allocTcb (kernel : Kernel)
  | allocPageTable (kernel : Kernel)
  | allocManyEp (kernel : Kernel) (cntBits : Nat)
  | allocManyFrame (kernel : Kernel) (cntBits : Nat)
  | allocManyTcb (kernel : Kernel) (cntBits : Nat)
  | virtioInitMmio (kernel : Kernel)
  | axiInitMmio (kernel : Kernel)

/-- The allocator and all that it did since the boot. -/
structure Session where
  allocator : ObjectAllocator
  log : List Event

namespace Session

open ObjectAllocator

variable (bits : ObjectBits) (boot : BootInfo)

def init : Session := ⟨.init boot, []⟩

def perform (a : ObjectAllocator) : Request → Except Panic (List Event × ObjectAllocator)
  | .getEmptySlot => a.getEmptySlot
  | .getTheFirstUntypedSlot blueprint =>
    (a.getTheFirstUntypedSlot bits blueprint).map fun x => ([x.2.1], x.2.2)
  | .allocNtfn kernel => (a.allocNtfn bits kernel).map Prod.snd
  | .allocEp kernel => (a.allocEp bits kernel).map Prod.snd
  | .allocFrame kernel => (a.allocFrame bits kernel).map Prod.snd
  | .allocTcb kernel => (a.allocTcb bits kernel).map Prod.snd
  | .allocPageTable kernel => (a.allocPageTable bits kernel).map Prod.snd
  | .allocManyEp kernel cntBits => (a.allocManyEp bits kernel cntBits).map Prod.snd
  | .allocManyFrame kernel cntBits => (a.allocManyFrame bits kernel cntBits).map Prod.snd
  | .allocManyTcb kernel cntBits => (a.allocManyTcb bits kernel cntBits).map Prod.snd
  | .virtioInitMmio kernel => Mmio.virtio.initMmio bits kernel boot a
  | .axiInitMmio kernel => Mmio.axi.initMmio bits kernel boot a

def step (s : Session) (r : Request) : Option Session :=
  (perform bits boot s.allocator r).toOption.map fun x => ⟨x.2, s.log ++ x.1⟩

variable {bits boot}

private theorem effect_of_object {a b : ObjectAllocator} {kernel : Kernel}
    {blueprint : ObjectBlueprint} {events : List Event}
    (returned : (a.allocObject bits kernel blueprint).map Prod.snd = .ok (events, b)) :
    Effect bits a events b := by
  obtain ⟨⟨cap, evs, a₁⟩, allocated, same⟩ := map_ok.mp returned
  cases same
  exact allocObject_effect allocated

private theorem effect_of_many {a b : ObjectAllocator} {kernel : Kernel}
    {blueprint : ObjectBlueprint} {objectBits cntBits : Nat} {events : List Event}
    (size : bits.physicalSizeBits blueprint = objectBits)
    (returned : (a.allocMany bits kernel objectBits blueprint cntBits).map Prod.snd =
      .ok (events, b)) : Effect bits a events b := by
  obtain ⟨⟨caps, evs, a₁⟩, allocated, same⟩ := map_ok.mp returned
  cases same
  exact allocMany_effect size allocated

theorem perform_effect {a b : ObjectAllocator} {r : Request} {events : List Event}
    (returned : perform bits boot a r = .ok (events, b)) : Effect bits a events b := by
  cases r with
  | getEmptySlot => exact getEmptySlot_effect returned
  | getTheFirstUntypedSlot blueprint =>
    obtain ⟨⟨slot, chosen, a₁⟩, found, same⟩ := map_ok.mp returned
    cases same
    obtain ⟨idx, -, -, effect, -⟩ := getTheFirstUntypedSlot_effect found
    exact effect
  | allocNtfn kernel => exact effect_of_object returned
  | allocEp kernel => exact effect_of_object returned
  | allocFrame kernel => exact effect_of_object returned
  | allocTcb kernel => exact effect_of_object returned
  | allocPageTable kernel => exact effect_of_object returned
  | allocManyEp kernel cntBits =>
    have size : bits.physicalSizeBits .endpoint = bits.endpoint := rfl
    exact effect_of_many size returned
  | allocManyFrame kernel cntBits =>
    have size : bits.physicalSizeBits .page4K = bits.page := rfl
    exact effect_of_many size returned
  | allocManyTcb kernel cntBits =>
    have size : bits.physicalSizeBits .tcb = bits.tcb := rfl
    exact effect_of_many size returned
  | virtioInitMmio kernel => exact Mmio.initMmio_effect returned
  | axiInitMmio kernel => exact Mmio.initMmio_effect returned

/-- All that happened since the boot is the effect of one big operation. -/
theorem reachable_effect {s : Session} (run : Reachable (step bits boot) (init boot) s) :
    Effect bits (.init boot) s.log s.allocator := by
  refine run.invariant (fun s => Effect bits (.init boot) s.log s.allocator) (.refl _) ?_
  intro s r t effect _ moved
  obtain ⟨⟨events, b⟩, returned, rfl⟩ := Option.map_eq_some_iff.mp moved
  rw [toOption_eq_some] at returned
  exact effect.trans (perform_effect returned)

/-- Along every run in which nothing panics: each slot that is returned or retyped into is free
at boot and used once, each untyped that is returned is no device memory, at least as large as
requested and returned once, and a retype asks for no more than its untyped holds. -/
theorem handed_out_once {s : Session} (run : Reachable (step bits boot) (init boot) s) :
    (s.log.flatMap Event.slots).Nodup ∧
    (∀ slot ∈ s.log.flatMap Event.slots, boot.emptyStart ≤ slot ∧ slot < boot.emptyEnd) ∧
    (s.log.filterMap Event.index).Nodup ∧
    (∀ idx requested, .untyped idx requested ∈ s.log →
      ∃ desc, boot.untypedList[idx]? = some desc ∧ desc.isDevice = false ∧
        requested ≤ desc.sizeBits) ∧
    ∀ untyped blueprint dest num, .retype untyped blueprint dest num ∈ s.log →
      ∃ idx desc, idx ∈ s.log.filterMap Event.index ∧ untyped = boot.untypedStart + idx ∧
        boot.untypedList[idx]? = some desc ∧
        num * 2 ^ bits.physicalSizeBits blueprint ≤ 2 ^ desc.sizeBits := by
  have effect := reachable_effect run
  have taken : ∀ idx requested, .untyped idx requested ∈ s.log →
      ∃ desc, boot.untypedList[idx]? = some desc ∧ desc.isDevice = false ∧
        requested ≤ desc.sizeBits := by
    intro idx requested member
    obtain ⟨-, desc, found, facts⟩ := effect.taken idx requested member
    refine ⟨desc, ?_, facts⟩
    simpa [ObjectAllocator.init] using found
  refine ⟨effect.slotsOnce, fun slot member => ?_, effect.indicesOnce, taken, ?_⟩
  · obtain ⟨low, -, high⟩ := effect.slotsFresh slot member
    exact ⟨low, high⟩
  · intro untyped blueprint dest num member
    obtain ⟨idx, requested, chosen, same, small⟩ := effect.fits _ _ _ _ member
    obtain ⟨desc, found, -, large⟩ := taken idx requested chosen
    exact ⟨idx, desc, mem_indices.mpr ⟨requested, chosen⟩, same, found,
      Nat.le_trans small (Nat.pow_le_pow_right (by decide) large)⟩

/-- The driver of the demo between two bulk allocations, on a machine whose device region is cut
into two pieces: the frame is found in the second round. -/
theorem handed_out_once_with_driver :
    ∃ s : Session, Reachable
        (step ⟨5, 4, 10, 12, 21, 12⟩ ⟨[⟨true, 24, 0x10000000⟩, ⟨false, 14, 0⟩, ⟨false, 13, 0⟩], 40,
          100, 120⟩)
        (init ⟨[⟨true, 24, 0x10000000⟩, ⟨false, 14, 0⟩, ⟨false, 13, 0⟩], 40, 100, 120⟩) s ∧
      s.log.flatMap Event.slots = [100, 101, 102, 103, 104, 105, 107, 108] ∧
      (s.log.flatMap Event.slots).Nodup := by
  obtain ⟨s, run, seen⟩ := reachable_of_view
    (step ⟨5, 4, 10, 12, 21, 12⟩ ⟨[⟨true, 24, 0x10000000⟩, ⟨false, 14, 0⟩, ⟨false, 13, 0⟩], 40,
      100, 120⟩)
    (init ⟨[⟨true, 24, 0x10000000⟩, ⟨false, 14, 0⟩, ⟨false, 13, 0⟩], 40, 100, 120⟩)
    [.allocManyEp ⟨fun _ _ _ _ => true, fun _ => none, true⟩ 1,
      .virtioInitMmio ⟨fun _ _ _ _ => true,
        fun slot => some (if slot = 105 then 0x10000000 else 0), true⟩,
      .allocManyFrame ⟨fun _ _ _ _ => true, fun _ => none, true⟩ 1]
    (fun s => s.log.flatMap Event.slots) (v := [100, 101, 102, 103, 104, 105, 107, 108])
    (by decide +kernel)
  exact ⟨s, run, seen, (handed_out_once run).1⟩

end Session

end RootTask.Memory
