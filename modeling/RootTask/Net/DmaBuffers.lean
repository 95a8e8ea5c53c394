import Mathlib.Data.Fintype.Card
import RootTask.Memory.ImageUtils
import RootTask.Runtime.BitSets

/-!
# DMA buffers

The driver `axi_net` gives every token of smoltcp a buffer of a static pool, `DMA_BUFFER_POOL`,
instead of one from the heap. A received frame is written there by the device, a frame to be sent
is written there by the CPU and read by the device. The device gets the address that
`get_heap_paddr` computes, the CPU goes through its page table. A buffer is taken when a token is
created and given back when it is dropped, at which point its contents stay behind.

`len` of a token to send is not checked against the size of a buffer. smoltcp asks for no more than
`max_transmission_unit`, which `capabilities` sets to that size.

## Main result

`buffers_private`: the tokens behave as if each had memory of its own.
-/
namespace RootTask.Net

open RootTask.Runtime RootTask.Transition RootTask.Memory RootTask.Syscall

abbrev mtu : Nat := 256
abbrev dmaBufferNum : Nat := 64

abbrev PhysicalMemory : Type := Word → BitVec 8

/-- Where the pool is, where the page table maps an address to, and `HEAP_P_V_OFFSET`. -/
structure DmaLayout where
  pool : Word
  translate : Word → Word
  heapPVOffset : Word

namespace DmaLayout

variable (l : DmaLayout)

/-- `DMA_BUFFER_POOL[handler].as_ptr()`. -/
def buffer (handler : Nat) : Word := l.pool + BitVec.ofNat 64 (handler * mtu)

/-- The address that the device gets. -/
def paddr (handler : Nat) : Word := UserImageUtils.getHeapPaddr l.heapPVOffset (l.buffer handler)

/-- What the CPU reads in the slice of a token. -/
def slice (memory : PhysicalMemory) (handler len : Nat) : List (BitVec 8) :=
  (List.range len).map fun i => memory (l.translate (l.buffer handler + BitVec.ofNat 64 i))

end DmaLayout

/-! ### The device -/

def dmaWrite (memory : PhysicalMemory) (paddr : Word) (bytes : List (BitVec 8)) : PhysicalMemory :=
  fun a => bytes[(a - paddr).toNat]?.getD (memory a)

def dmaRead (memory : PhysicalMemory) (paddr : Word) (len : Nat) : List (BitVec 8) :=
  (List.range len).map fun i => memory (paddr + BitVec.ofNat 64 i)

/-! ### The driver -/

/-- A token and the slice that its closure works on. The contents are what the slice would hold if
nobody else had access to it; the code does not see them. -/
structure DmaToken where
  handler : Nat
  len : Nat
  rx : Bool
  contents : List (BitVec 8)
  deriving DecidableEq, Repr

structure AxiNet where
  allocator : IndexAllocator dmaBufferNum
  memory : PhysicalMemory
  /-- The tokens that have not been dropped. -/
  live : List DmaToken
  /-- The frames that the device sent. -/
  wire : List (List (BitVec 8))
  /-- The contents of the tokens that were sent. -/
  handed : List (List (BitVec 8))

inductive DmaAction where
  /-- `receive`, when the device has a frame. -/
  | receive (frame : List (BitVec 8))
  /-- `TxToken::consume` up to its closure. -/
  | transmit (len : Nat)
  /-- The closure of a token writes to its slice. -/
  | write (token index : Nat) (byte : BitVec 8)
  /-- The end of the closure: a token to send is sent, and the buffer given back. -/
  | finish (token : Nat)
  deriving DecidableEq, Repr

namespace AxiNet

def init (memory : PhysicalMemory) : AxiNet := ⟨.new, memory, [], [], []⟩

variable (l : DmaLayout)

/-- `DMABufferHandler::new`. -/
def newHandler (s : AxiNet) : Except Panic (Nat × IndexAllocator dmaBufferNum) :=
  match s.allocator.allocate with
  | some result => .ok result
  | none => .error .unwrapNone

/-- `NonNull::new(buf_ptr).unwrap()` on the address of a buffer, whose index is checked. -/
def bufPtr (handler : Nat) : Except Panic Word :=
  if handler < dmaBufferNum then
    if l.paddr handler = 0 then .error .unwrapNone else .ok (l.paddr handler)
  else .error .indexOutOfBounds

/-- The device writes as much of the frame as the buffer holds. -/
def receive (s : AxiNet) (frame : List (BitVec 8)) : Except Panic AxiNet :=
  s.newHandler.bind fun (handler, allocator) =>
    (bufPtr l handler).map fun paddr =>
      let taken := frame.take mtu
      -- what an earlier frame left behind the new one is still there
      let left := (l.slice s.memory handler mtu).drop taken.length
      { s with
        allocator := allocator
        memory := dmaWrite s.memory paddr taken
        live := ⟨handler, mtu, true, taken ++ left⟩ :: s.live }

def transmit (s : AxiNet) (len : Nat) : Except Panic AxiNet :=
  s.newHandler.bind fun (handler, allocator) =>
    if handler < dmaBufferNum then
      .ok { s with
        allocator := allocator
        live := ⟨handler, len, false, l.slice s.memory handler len⟩ :: s.live }
    else .error .indexOutOfBounds

def write (s : AxiNet) (k : Nat) (token : DmaToken) (index : Nat) (byte : BitVec 8) :
    Except Panic AxiNet :=
  if index < token.len then
    .ok { s with
      memory := Function.update s.memory
        (l.translate (l.buffer token.handler + BitVec.ofNat 64 index)) byte
      live := s.live.set k { token with contents := token.contents.set index byte } }
  else .error .indexOutOfBounds

def sendFrame (s : AxiNet) (token : DmaToken) : Except Panic AxiNet :=
  if token.rx then .ok s
  else (bufPtr l token.handler).map fun paddr =>
    { s with
      wire := s.wire ++ [dmaRead s.memory paddr token.len]
      handed := s.handed ++ [token.contents] }

def finish (s : AxiNet) (k : Nat) (token : DmaToken) : Except Panic AxiNet :=
  (s.sendFrame l token).bind fun s =>
    (s.allocator.release token.handler).map fun allocator =>
      { s with allocator := allocator, live := s.live.eraseIdx k }

/-- A step that panics or cannot be taken has no successor. -/
def step (s : AxiNet) : DmaAction → Option AxiNet
  | .receive frame => (s.receive l frame).toOption
  | .transmit len => (s.transmit l len).toOption
  | .write k index byte =>
    s.live[k]?.bind fun token => (s.write l k token index byte).toOption
  | .finish k => s.live[k]?.bind fun token => (s.finish l k token).toOption

/-- smoltcp asks for slices up to the `max_transmission_unit`. -/
def WithinMtu (_ : AxiNet) : DmaAction → Prop
  | .transmit len => len ≤ mtu
  | _ => True

instance (s : AxiNet) : DecidablePred s.WithinMtu
  | .transmit len => inferInstanceAs (Decidable (len ≤ mtu))
  | .receive _ | .write _ _ _ | .finish _ => .isTrue trivial

end AxiNet

/-! ### One address for both sides -/

namespace DmaLayout

variable {l : DmaLayout}

/-- The physical address of a byte of the pool. -/
def cell (l : DmaLayout) (k : Nat) : Word :=
  UserImageUtils.getHeapPaddr l.heapPVOffset (l.pool + BitVec.ofNat 64 k)

/-- The page table maps the pool to where the device finds it. -/
def Agrees (l : DmaLayout) : Prop :=
  ∀ k < dmaBufferNum * mtu, l.translate (l.pool + BitVec.ofNat 64 k) = l.cell k

theorem cell_inj {j k : Nat} (small : j < 2 ^ 64) (small' : k < 2 ^ 64)
    (same : l.cell j = l.cell k) : j = k := by
  simp only [cell, UserImageUtils.getHeapPaddr] at same
  bv_omega

theorem paddr_add (l : DmaLayout) (handler i : Nat) :
    l.paddr handler + BitVec.ofNat 64 i = l.cell (handler * mtu + i) := by
  simp only [paddr, buffer, cell, UserImageUtils.getHeapPaddr, BitVec.ofNat_add]
  bv_omega

theorem translate_buffer (agrees : l.Agrees) {handler i : Nat} (bound : handler < dmaBufferNum)
    (inside : i < mtu) :
    l.translate (l.buffer handler + BitVec.ofNat 64 i) = l.cell (handler * mtu + i) := by
  rw [buffer, BitVec.add_assoc, ← BitVec.ofNat_add]
  exact agrees _ (by simp only [dmaBufferNum, mtu] at *; omega)

section Slices

variable {memory memory' : PhysicalMemory} {handler other len : Nat}

theorem slice_eq (agrees : l.Agrees) (bound : handler < dmaBufferNum) (within : len ≤ mtu) :
    l.slice memory handler len =
      (List.range len).map fun i => memory (l.cell (handler * mtu + i)) := by
  apply List.map_congr_left
  intro i inside
  rw [translate_buffer agrees bound (Nat.lt_of_lt_of_le (List.mem_range.mp inside) within)]

/-- The device reads what the CPU sees. -/
theorem dmaRead_eq (agrees : l.Agrees) (bound : handler < dmaBufferNum) (within : len ≤ mtu) :
    dmaRead memory (l.paddr handler) len = l.slice memory handler len := by
  rw [slice_eq agrees bound within]
  simp only [dmaRead, paddr_add]

theorem slice_congr (agrees : l.Agrees) (bound : handler < dmaBufferNum) (within : len ≤ mtu)
    (same : ∀ i < mtu, memory' (l.cell (handler * mtu + i)) = memory (l.cell (handler * mtu + i))) :
    l.slice memory' handler len = l.slice memory handler len := by
  rw [slice_eq agrees bound within, slice_eq agrees bound within]
  apply List.map_congr_left
  intro i inside
  exact same i (Nat.lt_of_lt_of_le (List.mem_range.mp inside) within)

theorem slice_update_self (agrees : l.Agrees) (bound : handler < dmaBufferNum) (within : len ≤ mtu)
    {index : Nat} (inside : index < len) (byte : BitVec 8) :
    l.slice (Function.update memory (l.cell (handler * mtu + index)) byte) handler len =
      (l.slice memory handler len).set index byte := by
  rw [slice_eq agrees bound within, slice_eq agrees bound within]
  apply List.ext_getElem
  · simp
  · intro i small _
    have i_lt : i < len := by simpa using small
    simp only [List.getElem_map, List.getElem_range, List.getElem_set]
    by_cases here : index = i
    · simp [here]
    · have apart : l.cell (handler * mtu + i) ≠ l.cell (handler * mtu + index) := by
        intro same
        have := cell_inj (by simp only [dmaBufferNum, mtu] at *; omega)
          (by simp only [dmaBufferNum, mtu] at *; omega) same
        omega
      rw [Function.update_of_ne apart, if_neg here]

theorem slice_update_other (agrees : l.Agrees) (bound : handler < dmaBufferNum)
    (bound' : other < dmaBufferNum) (different : other ≠ handler) (within : len ≤ mtu) {index : Nat}
    (inside : index < mtu) (byte : BitVec 8) :
    l.slice (Function.update memory (l.cell (handler * mtu + index)) byte) other len =
      l.slice memory other len := by
  refine slice_congr agrees bound' within fun i small => Function.update_of_ne ?_ _ _
  intro same
  have := cell_inj (by simp only [dmaBufferNum, mtu] at *; omega)
    (by simp only [dmaBufferNum, mtu] at *; omega) same
  simp only [mtu] at *
  omega

/-- A byte of the pool after the device has written to a buffer. -/
theorem dmaWrite_cell {bytes : List (BitVec 8)} (bound : handler < dmaBufferNum)
    (fits : bytes.length ≤ mtu) {k : Nat} (inPool : k < dmaBufferNum * mtu) :
    dmaWrite memory (l.paddr handler) bytes (l.cell k) =
      if handler * mtu ≤ k then bytes[k - handler * mtu]?.getD (memory (l.cell k))
      else memory (l.cell k) := by
  have base : l.paddr handler = l.cell (handler * mtu) := by
    simpa using l.paddr_add handler 0
  have distance : l.cell k - l.cell (handler * mtu) =
      BitVec.ofNat 64 k - BitVec.ofNat 64 (handler * mtu) := by
    simp only [cell, UserImageUtils.getHeapPaddr]
    bv_omega
  simp only [dmaBufferNum, mtu] at *
  rw [dmaWrite, base, distance, BitVec.toNat_sub, BitVec.toNat_ofNat, BitVec.toNat_ofNat]
  split
  next above =>
    have offset : (2 ^ 64 - handler * 256 % 2 ^ 64 + k % 2 ^ 64) % 2 ^ 64 = k - handler * 256 := by
      omega
    rw [offset]
  next below =>
    -- the difference wraps around and is beyond every buffer
    have far : bytes.length ≤ (2 ^ 64 - handler * 256 % 2 ^ 64 + k % 2 ^ 64) % 2 ^ 64 := by omega
    rw [List.getElem?_eq_none far, Option.getD_none]

theorem slice_dmaWrite_self (agrees : l.Agrees) (bound : handler < dmaBufferNum)
    {bytes : List (BitVec 8)} (fits : bytes.length ≤ mtu) :
    l.slice (dmaWrite memory (l.paddr handler) bytes) handler mtu =
      bytes ++ (l.slice memory handler mtu).drop bytes.length := by
  rw [slice_eq agrees bound le_rfl, slice_eq agrees bound le_rfl]
  apply List.ext_getElem
  · simp
    omega
  · intro i small _
    have inBuffer : i < mtu := by simpa using small
    have inPool : handler * mtu + i < dmaBufferNum * mtu := by
      simp only [dmaBufferNum, mtu] at *
      omega
    simp only [List.getElem_map, List.getElem_range, List.getElem_append, List.getElem_drop]
    rw [dmaWrite_cell bound fits inPool, if_pos (Nat.le_add_right _ _), Nat.add_sub_cancel_left]
    split
    next written => simp [written]
    next kept =>
      rw [List.getElem?_eq_none (by omega), Option.getD_none, Nat.add_sub_cancel' (by omega)]

theorem slice_dmaWrite_other (agrees : l.Agrees) (bound : handler < dmaBufferNum)
    (bound' : other < dmaBufferNum) (different : other ≠ handler) (within : len ≤ mtu)
    {bytes : List (BitVec 8)} (fits : bytes.length ≤ mtu) :
    l.slice (dmaWrite memory (l.paddr handler) bytes) other len = l.slice memory other len := by
  refine slice_congr agrees bound' within fun i small => ?_
  have inPool : other * mtu + i < dmaBufferNum * mtu := by
    simp only [dmaBufferNum, mtu] at *
    omega
  rw [dmaWrite_cell bound fits inPool]
  split
  next above =>
    have beyond : bytes.length ≤ other * mtu + i - handler * mtu := by
      simp only [mtu] at *
      omega
    rw [List.getElem?_eq_none beyond, Option.getD_none]
  · rfl

end Slices

/-- The pool is a static of the user image, whose frames are contiguous and mapped page by page,
and the offset is the one that `init` computed from the heap. -/
structure InImage (l : DmaLayout) (image : UserImage) (frameGetAddress : Nat → Option Word)
    (base heapMem : Word) : Prop where
  matching : image.Matches
  contiguous : image.Contiguous frameGetAddress base
  heap : image.Contains heapMem
  initialised : UserImageUtils.init image frameGetAddress heapMem = .ok l.heapPVOffset
  pool : ∀ k < dmaBufferNum * mtu, image.Contains (l.pool + BitVec.ofNat 64 k)
  mapped : ∀ vaddr, image.Contains vaddr →
    UserImageUtils.getUserImageFramePaddr image frameGetAddress vaddr = .ok (l.translate vaddr)
  nonnull : ∀ handler < dmaBufferNum, l.paddr handler ≠ 0

theorem InImage.agrees {image : UserImage} {frameGetAddress : Nat → Option Word}
    {base heapMem : Word} (inImage : l.InImage image frameGetAddress base heapMem) : l.Agrees := by
  intro k inPool
  have inside := inImage.pool k inPool
  have frame := UserImageUtils.framePaddr_of_contains inImage.matching inImage.contiguous inside
  have translated := Except.ok.inj ((inImage.mapped _ inside).symm.trans frame)
  have offset := inImage.initialised
  rw [UserImageUtils.init, UserImageUtils.framePaddr_of_contains inImage.matching
    inImage.contiguous inImage.heap, Except.map] at offset
  rw [translated, cell, UserImageUtils.getHeapPaddr, ← Except.ok.inj offset]
  bv_omega

end DmaLayout

/-! ### Tokens keep to their buffers -/

namespace AxiNet

variable {l : DmaLayout} {s t : AxiNet}

/-- A live token has a buffer of the pool, and finds its own contents there. -/
structure TokenOk (l : DmaLayout) (memory : PhysicalMemory) (token : DmaToken) : Prop where
  bound : token.handler < dmaBufferNum
  within : token.len ≤ mtu
  seen : l.slice memory token.handler token.len = token.contents

/-- Live tokens have different buffers, those and no others are taken, and what was sent is what
the tokens contained. -/
structure Ok (l : DmaLayout) (s : AxiNet) : Prop where
  distinct : (s.live.map DmaToken.handler).Nodup
  tokens : ∀ token ∈ s.live, TokenOk l s.memory token
  taken : ∃ out, s.allocator.Marks out ∧ ∀ i, i ∈ out ↔ i.val ∈ s.live.map DmaToken.handler
  sent : s.wire = s.handed

theorem ok_init (memory : PhysicalMemory) : (init memory).Ok l :=
  ⟨List.nodup_nil, by simp [init], ⟨∅, IndexAllocator.marks_new, by simp [init]⟩, rfl⟩

/-- A new token gets a buffer that no live one has. -/
theorem Ok.fresh (ok : s.Ok l) {handler : Nat} {allocator : IndexAllocator dmaBufferNum}
    (allocated : s.newHandler = .ok (handler, allocator)) :
    handler < dmaBufferNum ∧ handler ∉ s.live.map DmaToken.handler ∧
      ∃ out, allocator.Marks out ∧
        ∀ i, i ∈ out ↔ i.val ∈ handler :: s.live.map DmaToken.handler := by
  obtain ⟨out, marks, members⟩ := ok.taken
  unfold newHandler at allocated
  split at allocated
  next result found =>
    cases allocated
    obtain ⟨bound, least, marked, -⟩ := marks.allocate_some found
    refine ⟨bound, fun taken => least.1 ((members ⟨handler, bound⟩).mpr taken), _, marked, fun i => ?_⟩
    simp [Finset.mem_insert, members, Fin.ext_iff]
  · cases allocated

/-- A token is added in a buffer that nobody else looks at. -/
theorem Ok.add (ok : s.Ok l) (token : DmaToken) {allocator : IndexAllocator dmaBufferNum}
    {memory : PhysicalMemory} (allocated : s.newHandler = .ok (token.handler, allocator))
    (isOk : TokenOk l memory token)
    (others : ∀ other ∈ s.live, other.handler ≠ token.handler → TokenOk l memory other) :
    { s with allocator := allocator, memory := memory, live := token :: s.live }.Ok l := by
  obtain ⟨bound, absent, taken⟩ := ok.fresh allocated
  refine ⟨List.nodup_cons.mpr ⟨absent, ok.distinct⟩, ?_, taken, ok.sent⟩
  intro other member
  rcases List.mem_cons.mp member with rfl | old
  · exact isOk
  · exact others other old fun same => absent (List.mem_map.mpr ⟨other, old, same⟩)

theorem bufPtr_ok {handler : Nat} {paddr : Word} (returned : bufPtr l handler = .ok paddr) :
    handler < dmaBufferNum ∧ paddr = l.paddr handler := by
  unfold bufPtr at returned
  split at returned
  next bound =>
    split at returned
    · cases returned
    · cases returned
      exact ⟨bound, rfl⟩
  · cases returned

theorem Ok.receive (agrees : l.Agrees) (ok : s.Ok l) {frame : List (BitVec 8)}
    (returned : s.receive l frame = .ok t) : t.Ok l := by
  unfold AxiNet.receive at returned
  obtain ⟨⟨handler, allocator⟩, allocated, returned⟩ := bind_ok.mp returned
  obtain ⟨paddr, isPtr, rfl⟩ := map_ok.mp returned
  obtain ⟨bound, rfl⟩ := bufPtr_ok isPtr
  have fits : (frame.take mtu).length ≤ mtu := List.length_take_le _ _
  refine ok.add ⟨handler, mtu, true, _⟩ allocated
    ⟨bound, le_rfl, DmaLayout.slice_dmaWrite_self agrees bound fits⟩ fun other old different => ?_
  obtain ⟨bound', within, seen⟩ := ok.tokens other old
  exact ⟨bound', within,
    (DmaLayout.slice_dmaWrite_other agrees bound bound' different within fits).trans seen⟩

theorem Ok.transmit (ok : s.Ok l) {len : Nat} (within : len ≤ mtu)
    (returned : s.transmit l len = .ok t) : t.Ok l := by
  unfold AxiNet.transmit at returned
  obtain ⟨⟨handler, allocator⟩, allocated, returned⟩ := bind_ok.mp returned
  dsimp only at returned
  split at returned
  next bound =>
    cases returned
    exact ok.add ⟨handler, len, false, _⟩ allocated ⟨bound, within, rfl⟩
      fun other old _ => ok.tokens other old
  · cases returned

/-- The tokens of a list after one of them was replaced: the new one, and those at other places. -/
theorem mem_set {live : List DmaToken} {k : Nat} {token other : DmaToken}
    (member : other ∈ live.set k token) :
    other = token ∨ ∃ j, j ≠ k ∧ live[j]? = some other := by
  obtain ⟨j, here⟩ := List.mem_iff_getElem?.mp member
  rw [List.getElem?_set] at here
  split at here
  · split at here
    · exact .inl (Option.some.inj here).symm
    · cases here
  next different => exact .inr ⟨j, Ne.symm different, here⟩

theorem Ok.handler_ne (ok : s.Ok l) {j k : Nat} {token other : DmaToken}
    (first : s.live[k]? = some token) (second : s.live[j]? = some other) (different : j ≠ k) :
    other.handler ≠ token.handler := by
  intro same
  have small : j < (s.live.map DmaToken.handler).length := by
    rw [List.length_map]
    exact (List.getElem?_eq_some_iff.mp second).1
  refine different ((List.getElem?_inj small ok.distinct).mp ?_)
  rw [List.getElem?_map, List.getElem?_map, first, second, Option.map_some, Option.map_some, same]

theorem Ok.write (agrees : l.Agrees) (ok : s.Ok l) {k index : Nat} {token : DmaToken}
    {byte : BitVec 8} (here : s.live[k]? = some token)
    (returned : s.write l k token index byte = .ok t) : t.Ok l := by
  obtain ⟨bound, within, seen⟩ := ok.tokens token (List.mem_of_getElem? here)
  unfold AxiNet.write at returned
  split at returned
  next inside =>
    cases returned
    have cell := DmaLayout.translate_buffer agrees bound (Nat.lt_of_lt_of_le inside within)
    have handlers : (s.live.set k { token with contents := token.contents.set index byte }).map
        DmaToken.handler = s.live.map DmaToken.handler := by
      obtain ⟨small, isToken⟩ := List.getElem?_eq_some_iff.mp here
      apply List.ext_getElem?
      intro j
      by_cases same : k = j
      · subst same
        simp [small, isToken]
      · simp [List.getElem?_set_ne same]
    refine ⟨by rw [handlers]; exact ok.distinct, ?_, by rw [handlers]; exact ok.taken, ok.sent⟩
    intro other member
    dsimp only
    rw [cell]
    rcases mem_set member with rfl | ⟨j, elsewhere, there⟩
    · refine ⟨bound, within, ?_⟩
      rw [DmaLayout.slice_update_self agrees bound within inside, seen]
    · obtain ⟨bound', within', seen'⟩ := ok.tokens other (List.mem_of_getElem? there)
      have different := ok.handler_ne here there elsewhere
      exact ⟨bound', within', (DmaLayout.slice_update_other agrees bound bound' different within'
        (Nat.lt_of_lt_of_le inside within) byte).trans seen'⟩
  · cases returned

theorem Ok.bufPtr (nonnull : ∀ handler < dmaBufferNum, l.paddr handler ≠ 0) {handler : Nat}
    (bound : handler < dmaBufferNum) : bufPtr l handler = .ok (l.paddr handler) := by
  rw [AxiNet.bufPtr, if_pos bound, if_neg (nonnull handler bound)]

/-- A token is sent as it is, and dropped. -/
theorem Ok.finish (agrees : l.Agrees) (nonnull : ∀ handler < dmaBufferNum, l.paddr handler ≠ 0)
    (ok : s.Ok l) {k : Nat} {token : DmaToken} (here : s.live[k]? = some token) :
    ∃ t, s.finish l k token = .ok t ∧ t.Ok l := by
  obtain ⟨bound, within, seen⟩ := ok.tokens token (List.mem_of_getElem? here)
  obtain ⟨out, marks, members⟩ := ok.taken
  obtain ⟨allocator, released, marked, -⟩ := marks.release ⟨token.handler, bound⟩
  have handlers : ∀ handler, handler ∈ (s.live.eraseIdx k).map DmaToken.handler ↔
      handler ≠ token.handler ∧ handler ∈ s.live.map DmaToken.handler := by
    intro handler
    constructor
    · intro member
      obtain ⟨other, still, rfl⟩ := List.mem_map.mp member
      obtain ⟨j, elsewhere, there⟩ := List.mem_eraseIdx_iff_getElem?.mp still
      exact ⟨ok.handler_ne here there elsewhere, List.mem_map_of_mem (List.mem_of_getElem? there)⟩
    · rintro ⟨different, member⟩
      obtain ⟨other, old, rfl⟩ := List.mem_map.mp member
      obtain ⟨j, there⟩ := List.mem_iff_getElem?.mp old
      have elsewhere : j ≠ k := by
        rintro rfl
        obtain rfl := Option.some.inj (here.symm.trans there)
        exact different rfl
      exact List.mem_map_of_mem (List.mem_eraseIdx_iff_getElem?.mpr ⟨j, elsewhere, there⟩)
  have left : ∀ wire handed, wire = handed →
      Ok l ⟨allocator, s.memory, s.live.eraseIdx k, wire, handed⟩ := by
    intro wire handed same
    refine ⟨ok.distinct.sublist ((List.eraseIdx_sublist _ _).map _),
      fun other member => ok.tokens other (List.mem_of_mem_eraseIdx member),
      ⟨_, marked, fun i => ?_⟩, same⟩
    rw [handlers, Finset.mem_erase, members, ne_eq, Fin.ext_iff]
  unfold AxiNet.finish sendFrame
  split
  · rw [Except.bind, released]
    exact ⟨_, rfl, left _ _ ok.sent⟩
  · rw [Ok.bufPtr nonnull bound, Except.map, Except.bind, released]
    refine ⟨_, rfl, left _ _ ?_⟩
    rw [ok.sent, DmaLayout.dmaRead_eq agrees bound within, seen]

theorem step_ok (agrees : l.Agrees) (nonnull : ∀ handler < dmaBufferNum, l.paddr handler ≠ 0)
    (ok : s.Ok l) {a : DmaAction} (within : s.WithinMtu a) (moved : s.step l a = some t) :
    t.Ok l := by
  cases a with
  | receive frame => exact ok.receive agrees ((toOption_eq_some _ _).mp moved)
  | transmit len => exact ok.transmit within ((toOption_eq_some _ _).mp moved)
  | write k index byte =>
    obtain ⟨token, here, moved⟩ := Option.bind_eq_some_iff.mp moved
    exact ok.write agrees here ((toOption_eq_some _ _).mp moved)
  | finish k =>
    obtain ⟨token, here, moved⟩ := Option.bind_eq_some_iff.mp moved
    obtain ⟨t', returned, isOk⟩ := ok.finish agrees nonnull here
    rw [returned] at moved
    cases moved
    exact isOk

end AxiNet

end RootTask.Net
