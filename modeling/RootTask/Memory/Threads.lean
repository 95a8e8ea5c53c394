import RootTask.Memory.ObjectAllocator
import RootTask.Syscall.Wrappers

/-!
# Starting threads

`create_thread` and `create_many_threads` give a new thread a TCB, a fault endpoint, a page for
its IPC buffer and a block of memory for its stack. The stack pointer and the thread pointer both
start in the middle of the block: below them is the stack, above them are the thread-local
variables, which is where every `#[thread_local]` static of the runtime lives.

Threads are never destroyed and their memory is never given back. The heap that `alloc_zeroed`
takes memory from is a parameter, and so are the kernel's answers.
-/
namespace RootTask.Memory

open RootTask.Runtime RootTask.Transition RootTask.Syscall

/-! ### The heap -/

structure Block where
  base : Nat
  size : Nat
deriving DecidableEq, Repr

def Block.Apart (b c : Block) : Prop := b.base + b.size ≤ c.base ∨ c.base + c.size ≤ b.base

/-- `alloc_zeroed`, with `none` for the null pointer. -/
structure Heap (η : Type) where
  alloc : η → (size align : Nat) → Option (Nat × η)

/-- What is promised of a heap in a state in which `blocks` are allocated: a new block is aligned
and apart from all of them. -/
structure Heap.Lawful {η : Type} (heap : Heap η) (allocated : η → List Block → Prop) : Prop where
  aligned : ∀ h blocks size align p h', allocated h blocks →
    heap.alloc h size align = some (p, h') → p % align = 0
  apart : ∀ h blocks size align p h', allocated h blocks →
    heap.alloc h size align = some (p, h') → ∀ b ∈ blocks, b.Apart ⟨p, size⟩
  extended : ∀ h blocks size align p h', allocated h blocks →
    heap.alloc h size align = some (p, h') → allocated h' (⟨p, size⟩ :: blocks)

/-- The heap with the blocks that were taken from it. -/
structure HeapState (η : Type) where
  heap : η
  blocks : List Block

/-- `alloc_zeroed` followed by the test for the null pointer. -/
def HeapState.alloc {η : Type} (heap : Heap η) (h : HeapState η) (size align : Nat) :
    Except Panic (Nat × HeapState η) :=
  match heap.alloc h.heap size align with
  | some (p, h') => .ok (p, ⟨h', ⟨p, size⟩ :: h.blocks⟩)
  | none => .error .explicit

/-! ### Setting a thread up -/

/-- The invocations of a TCB. -/
inductive TcbCall
  | configure
  | setSchedParams
  | readRegisters
  | writeAllRegisters
  | setAffinity
  | resume
deriving DecidableEq, Repr

structure ThreadKernel extends Kernel where
  invoke : (tcb : Nat) → TcbCall → Bool

/-- What is the same for all threads of one call. -/
structure ThreadParams where
  func : Nat
  resume : Bool

structure Thread where
  tcb : Nat
  faultEp : Nat
  ipcBuffer : Nat
  ipcBufferCap : Nat
  /-- The block that was allocated for the stack. -/
  stack : Block
  tp : Nat
  pc : Nat
  sp : Nat
  a0 : Nat
  a1 : Nat
deriving Repr

/-- `x & !(n - 1)`, for a power of two. -/
def alignDown (x n : Nat) : Nat := x / n * n

section Create

variable {η : Type} (bits : ObjectBits) (image : UserImage) (heap : Heap η) (kernel : ThreadKernel)

/-- A page for the IPC buffer and the capability to its frame. -/
def allocIpcBuffer (h : HeapState η) : Except Panic (Nat × Nat × HeapState η) :=
  (h.alloc heap 4096 4096).bind fun (addr, h) =>
    (image.getUserImageFrameSlot addr).map fun cap => (addr, cap, h)

/-- From `tcb_configure` on; `none` is an error of the kernel. The stack has `pages` pages, and
the thread pointer is `tlsPages` pages below its end. -/
def setUp (pages tlsPages : Nat) (params : ThreadParams) (tcb ep ipcBuffer cap arg : Nat)
    (h : HeapState η) : Except Panic (Option Thread × HeapState η) :=
  if kernel.invoke tcb .configure && kernel.invoke tcb .setSchedParams &&
      kernel.invoke tcb .readRegisters then
    (h.alloc heap (4096 * pages) 4096).map fun (base, h) =>
      let rawSp := base + 4096 * pages
      let tp := alignDown (rawSp - 4096 * tlsPages) (2 ^ 12)
      let thread : Thread := {
        tcb := tcb, faultEp := ep, ipcBuffer := ipcBuffer, ipcBufferCap := cap
        stack := ⟨base, 4096 * pages⟩, tp := tp, pc := params.func, sp := alignDown tp 16
        a0 := arg, a1 := ipcBuffer }
      if kernel.invoke tcb .writeAllRegisters && kernel.invoke tcb .setAffinity &&
          (!params.resume || kernel.invoke tcb .resume) then (some thread, h) else (none, h)
  else .ok (none, h)

def createThread (params : ThreadParams) (arg : Nat) (a : ObjectAllocator) (h : HeapState η) :
    Except Panic (Option Thread × ObjectAllocator × HeapState η) :=
  (allocIpcBuffer image heap h).bind fun (ipcBuffer, cap, h) =>
    (a.allocTcb bits kernel.toKernel).bind fun (tcb, _, a) =>
      match tcb with
      | none => .ok (none, a, h)
      | some tcb =>
        (a.allocEp bits kernel.toKernel).bind fun (ep, _, a) =>
          match ep with
          | none => .ok (none, a, h)
          | some ep =>
            (setUp heap kernel 256 128 params tcb ep ipcBuffer cap arg h).map fun (thread, h) =>
              (thread, a, h)

/-- The loop of `create_many_threads`, over the TCBs, endpoints and arguments; an error of the
kernel is unwrapped. -/
def setUpMany (params : ThreadParams) :
    List (Nat × Nat × Nat) → HeapState η → Except Panic (List Thread × HeapState η)
  | [], h => .ok ([], h)
  | (tcb, ep, arg) :: rest, h =>
    (allocIpcBuffer image heap h).bind fun (ipcBuffer, cap, h) =>
      (setUp heap kernel 64 32 params tcb ep ipcBuffer cap arg h).bind fun (thread, h) =>
        match thread with
        | none => .error .unwrapErr
        | some thread => (setUpMany params rest h).map fun (threads, h) => (thread :: threads, h)

def createManyThreads (cntBits : Nat) (params : ThreadParams) (args : List Nat)
    (a : ObjectAllocator) (h : HeapState η) :
    Except Panic (List Thread × ObjectAllocator × HeapState η) :=
  if cntBits < 64 then
    if args.length = 2 ^ cntBits then
      (a.allocManyEp bits kernel.toKernel cntBits).bind fun (eps, _, a) =>
        (a.allocManyTcb bits kernel.toKernel cntBits).bind fun (tcbs, _, a) =>
          (setUpMany image heap kernel params (tcbs.zip (eps.zip args)) h).map fun (threads, h) =>
            (threads, a, h)
    else .error .assertFailed
  else .error .overflow

end Create

/-! ### One call after another -/

inductive ThreadRequest
  | one (params : ThreadParams) (arg : Nat)
  | many (cntBits : Nat) (params : ThreadParams) (args : List Nat)

/-- The threads that were started, the latest one first. -/
structure ThreadSession (η : Type) where
  allocator : ObjectAllocator
  heap : HeapState η
  threads : List Thread

namespace ThreadSession

variable {η : Type} (bits : ObjectBits) (image : UserImage) (heap : Heap η)

def init (boot : BootInfo) (h : HeapState η) : ThreadSession η := ⟨.init boot, h, []⟩

/-- The kernel may answer each call differently. -/
def step (s : ThreadSession η) : ThreadRequest × ThreadKernel → Option (ThreadSession η)
  | (.one params arg, kernel) =>
    (createThread bits image heap kernel params arg s.allocator s.heap).toOption.map
      fun (thread, a, h) => ⟨a, h, thread.toList ++ s.threads⟩
  | (.many cntBits params args, kernel) =>
    (createManyThreads bits image heap kernel cntBits params args s.allocator s.heap).toOption.map
      fun (threads, a, h) => ⟨a, h, threads.reverse ++ s.threads⟩

end ThreadSession

/-! ### Memory and objects of one thread -/

namespace Thread

/-- The memory that belongs to a thread. -/
def regions (t : Thread) : List Block := [t.stack, ⟨t.ipcBuffer, 4096⟩]

/-- Stack and thread-local variables share the block half and half, and the IPC buffer is a page
of the image with its capability. -/
structure Ok (image : UserImage) (t : Thread) : Prop where
  sp : t.sp = t.tp
  half : 2 * t.tp = 2 * t.stack.base + t.stack.size
  page : t.sp % 4096 = 0
  room : 4096 * 32 ≤ t.sp - t.stack.base
  ipcBuffer : t.ipcBuffer % 4096 = 0
  cap : image.getUserImageFrameSlot t.ipcBuffer = .ok t.ipcBufferCap
  arg : t.a1 = t.ipcBuffer

end Thread

/-! ### What the calls do -/

section Calls

variable {η : Type} {bits : ObjectBits} {image : UserImage} {heap : Heap η}
  {allocated : η → List Block → Prop}

/-- The blocks in use are apart. -/
structure HeapState.Ok (allocated : η → List Block → Prop) (h : HeapState η) : Prop where
  live : allocated h.heap h.blocks
  apart : h.blocks.Pairwise Block.Apart

theorem Block.Apart.symm {b c : Block} (apart : b.Apart c) : c.Apart b := Or.symm apart

theorem HeapState.Ok.alloc (lawful : heap.Lawful allocated) {h h' : HeapState η}
    (ok : h.Ok allocated) {size align p : Nat} (returned : h.alloc heap size align = .ok (p, h')) :
    h'.Ok allocated ∧ p % align = 0 ∧ h'.blocks = ⟨p, size⟩ :: h.blocks := by
  unfold HeapState.alloc at returned
  split at returned
  next q h₁ taken =>
    cases returned
    have apart := lawful.apart _ _ _ _ _ _ ok.live taken
    refine ⟨⟨lawful.extended _ _ _ _ _ _ ok.live taken, ?_⟩,
      lawful.aligned _ _ _ _ _ _ ok.live taken, rfl⟩
    exact List.pairwise_cons.mpr ⟨fun b mem => (apart b mem).symm, ok.apart⟩
  · cases returned

/-- New threads of one call, with the state it leaves: their objects are in fresh slots and their
memory is in new blocks. -/
structure Started (image : UserImage) (allocated : η → List Block → Prop) (a : ObjectAllocator)
    (h : HeapState η) (threads : List Thread) (a' : ObjectAllocator) (h' : HeapState η) : Prop where
  heap : h'.Ok allocated
  ok : ∀ t ∈ threads, t.Ok image
  blocks : (threads.flatMap Thread.regions ++ h.blocks).Sublist h'.blocks
  start : a.emptyStart ≤ a'.emptyStart
  tcbs : (threads.map Thread.tcb).Nodup
  eps : (threads.map Thread.faultEp).Nodup
  different : ∀ t ∈ threads, ∀ u ∈ threads, t.tcb ≠ u.faultEp
  fresh : ∀ t ∈ threads, (a.emptyStart ≤ t.tcb ∧ t.tcb < a'.emptyStart) ∧
    a.emptyStart ≤ t.faultEp ∧ t.faultEp < a'.emptyStart

/-- A call that starts nobody may still have taken slots and memory. -/
theorem Started.none {a a' : ObjectAllocator} {h h' : HeapState η} (ok : h'.Ok allocated)
    (blocks : h.blocks.Sublist h'.blocks) (start : a.emptyStart ≤ a'.emptyStart) :
    Started image allocated a h [] a' h' := by
  constructor <;> simp [ok, blocks, start]

end Calls

/-! ### All threads -/

namespace ThreadSession

variable {η : Type} {bits : ObjectBits} {image : UserImage} {heap : Heap η}
  {allocated : η → List Block → Prop}

structure Ok (image : UserImage) (allocated : η → List Block → Prop) (s : ThreadSession η) :
    Prop where
  heap : s.heap.Ok allocated
  threads : ∀ t ∈ s.threads, t.Ok image
  owned : (s.threads.flatMap Thread.regions).Sublist s.heap.blocks
  tcbs : (s.threads.map Thread.tcb).Nodup
  eps : (s.threads.map Thread.faultEp).Nodup
  different : ∀ t ∈ s.threads, ∀ u ∈ s.threads, t.tcb ≠ u.faultEp
  below : ∀ t ∈ s.threads, t.tcb < s.allocator.emptyStart ∧ t.faultEp < s.allocator.emptyStart

theorem Ok.add {s : ThreadSession η} (ok : s.Ok image allocated) {new : List Thread}
    {a : ObjectAllocator} {h : HeapState η}
    (started : Started image allocated s.allocator s.heap new a h) :
    Ok image allocated ⟨a, h, new ++ s.threads⟩ := by
  have grown := started.start
  constructor
  · exact started.heap
  · intro t mem
    rcases List.mem_append.mp mem with isNew | old
    · exact started.ok t isNew
    · exact ok.threads t old
  · rw [List.flatMap_append]
    exact (List.Sublist.append_left ok.owned _).trans started.blocks
  · rw [List.map_append, List.nodup_append]
    refine ⟨started.tcbs, ok.tcbs, fun x isNew y old => ?_⟩
    obtain ⟨t, mem, rfl⟩ := List.mem_map.mp isNew
    obtain ⟨u, mem', rfl⟩ := List.mem_map.mp old
    have := started.fresh t mem
    have := ok.below u mem'
    omega
  · rw [List.map_append, List.nodup_append]
    refine ⟨started.eps, ok.eps, fun x isNew y old => ?_⟩
    obtain ⟨t, mem, rfl⟩ := List.mem_map.mp isNew
    obtain ⟨u, mem', rfl⟩ := List.mem_map.mp old
    have := started.fresh t mem
    have := ok.below u mem'
    omega
  · intro t mem u mem'
    rcases List.mem_append.mp mem with isNew | old <;>
      rcases List.mem_append.mp mem' with isNew' | old'
    · exact started.different t isNew u isNew'
    · have := started.fresh t isNew
      have := ok.below u old'
      omega
    · have := started.fresh u isNew'
      have := ok.below t old
      omega
    · exact ok.different t old u old'
  · intro t mem
    rcases List.mem_append.mp mem with isNew | old
    · exact ⟨(started.fresh t isNew).1.2, (started.fresh t isNew).2.2⟩
    · have := ok.below t old
      simp only
      omega

/-- A heap that gives out memory upwards and takes none back. -/
def bump : Heap Nat where
  alloc next size align :=
    if align = 0 then none
    else
      let p := (next + (align - 1)) / align * align
      some (p, p + size)

end ThreadSession

end RootTask.Memory
