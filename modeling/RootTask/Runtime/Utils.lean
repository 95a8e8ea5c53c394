import Mathlib.Logic.Function.Basic
import Mathlib.Data.List.Basic
import Mathlib.Tactic.Ring

/-!
# Containers of the runtime

`IndexAllocator`, `BitMap64`, `BitMap4096` and `RingBuffer` as `utils.rs` writes them. Arrays
are functions of the index; a ring buffer keeps its two positions in `Fin SIZE`, so that
an out-of-range position cannot be built.
-/
namespace RootTask.Runtime

/-- How a Rust call can abort the thread. -/
inductive Panic where
  | indexOutOfBounds
  | unwrapNone
  | unwrapErr
  | assertFailed
  | overflow
  /-- A `panic!` in the code. -/
  | explicit
  deriving DecidableEq, Repr

/-! ### Single bits -/

theorem and_bit_eq_zero {w : Nat} (x : BitVec w) (i : Nat) :
    x &&& (1#w <<< i) = 0#w ↔ (i < w → x.getLsbD i = false) := by
  rw [← BitVec.twoPow_eq, BitVec.and_twoPow]
  split
  next set =>
    have bound : i < w := BitVec.lt_of_getLsbD set
    -- the mask of a bit inside the word is not 0, so the conjunction decides the bit
    have nonzero : BitVec.twoPow w i ≠ 0#w := by
      intro zero
      have bit := congrArg (fun v => v.getLsbD i) zero
      simp [bound] at bit
    simp [nonzero, set, bound]
  next clear => simp [clear]

theorem getLsbD_or_bit {w : Nat} (x : BitVec w) (i j : Nat) (bound : i < w) :
    (x ||| (1#w <<< i)).getLsbD j = (x.getLsbD j || decide (i = j)) := by
  rw [← BitVec.twoPow_eq, BitVec.getLsbD_or, BitVec.getLsbD_twoPow]
  simp [bound]

theorem getLsbD_and_not_bit {w : Nat} (x : BitVec w) (i j : Nat) :
    (x &&& ~~~(1#w <<< i)).getLsbD j = (x.getLsbD j && !decide (i < w ∧ i = j)) := by
  rw [← BitVec.twoPow_eq, BitVec.getLsbD_and, BitVec.getLsbD_not, BitVec.getLsbD_twoPow]
  -- beyond the width both sides are 0
  by_cases bound : j < w
  · simp [bound]
  · have clear : x.getLsbD j = false := BitVec.getLsbD_of_ge x j (by omega)
    simp [clear]

/-! ### `IndexAllocator` -/

structure IndexAllocator (SIZE : Nat) where
  bitmap : Nat → BitVec 8

namespace IndexAllocator

variable {SIZE : Nat}

def new : IndexAllocator SIZE := ⟨fun _ => 0⟩

/-- The test of `allocate`: the bit of `index` is clear. -/
def free (a : IndexAllocator SIZE) (index : Nat) : Bool :=
  (a.bitmap (index / 8) &&& (1#8 <<< (index % 8))) == 0#8

def allocate (a : IndexAllocator SIZE) : Option (Nat × IndexAllocator SIZE) :=
  ((List.range SIZE).find? a.free).map fun index =>
    (index, ⟨Function.update a.bitmap (index / 8)
      (a.bitmap (index / 8) ||| (1#8 <<< (index % 8)))⟩)

def release (a : IndexAllocator SIZE) (index : Nat) : Except Panic (IndexAllocator SIZE) :=
  if index / 8 < (SIZE + 7) / 8 then
    .ok ⟨Function.update a.bitmap (index / 8)
      (a.bitmap (index / 8) &&& ~~~(1#8 <<< (index % 8)))⟩
  else .error .indexOutOfBounds

theorem free_iff (a : IndexAllocator SIZE) (index : Nat) :
    a.free index = true ↔ (a.bitmap (index / 8)).getLsbD (index % 8) = false := by
  have bound : index % 8 < 8 := Nat.mod_lt _ (by omega)
  simp only [free, beq_iff_eq, and_bit_eq_zero, bound, forall_const]

@[simp] theorem free_new (index : Nat) : (new : IndexAllocator SIZE).free index = true := by
  simp [free_iff, new]

private theorem index_ne {i j : Nat} (different : i ≠ j) (same : i / 8 = j / 8) :
    i % 8 ≠ j % 8 := by
  omega

/-- `allocate` hands out the least free index and marks no other one. -/
theorem allocate_some {a a' : IndexAllocator SIZE} {index : Nat}
    (returned : a.allocate = some (index, a')) :
    index < SIZE ∧ a.free index = true ∧ (∀ i < index, a.free i = false) ∧
      ∀ i, a'.free i = (a.free i && !decide (i = index)) := by
  simp only [allocate, Option.map_eq_some_iff, List.find?_range_eq_some, Prod.mk.injEq,
    List.mem_range, Bool.not_eq_true'] at returned
  obtain ⟨found, ⟨isFree, bound, least⟩, rfl, rfl⟩ := returned
  refine ⟨bound, isFree, least, fun i => ?_⟩
  apply Bool.eq_iff_iff.mpr
  simp only [Bool.and_eq_true, Bool.not_eq_true', decide_eq_false_iff_not, free_iff]
  -- another byte is not touched; within the byte, only the bit of the
  -- index found is
  by_cases byte : i / 8 = found / 8
  · rw [byte, Function.update_self, getLsbD_or_bit _ _ _ (Nat.mod_lt _ (by omega))]
    by_cases same : i = found
    · simp [same]
    · simp [same, (index_ne same byte).symm]
  · have different : i ≠ found := fun same => byte (by rw [same])
    simp [Function.update_of_ne byte, different]

theorem allocate_none {a : IndexAllocator SIZE} :
    a.allocate = none ↔ ∀ i < SIZE, a.free i = false := by
  simp [allocate]

/-- `release` frees its own index and no other one. -/
theorem release_ok {a a' : IndexAllocator SIZE} {index : Nat}
    (returned : a.release index = .ok a') (i : Nat) :
    a'.free i = (a.free i || decide (i = index)) := by
  unfold release at returned
  split at returned
  · cases returned
    apply Bool.eq_iff_iff.mpr
    simp only [Bool.or_eq_true, decide_eq_true_eq, free_iff]
    -- as for `allocate`, byte by byte
    by_cases byte : i / 8 = index / 8
    · rw [byte, Function.update_self, getLsbD_and_not_bit]
      by_cases same : i = index
      · simp [same, Nat.mod_lt]
      · simp [same, (index_ne same byte).symm]
    · have different : i ≠ index := fun same => byte (by rw [same])
      simp [Function.update_of_ne byte, different]
  · cases returned

theorem release_total {a : IndexAllocator SIZE} {index : Nat} (bound : index < SIZE) :
    ∃ a', a.release index = .ok a' := ⟨_, if_pos (by omega)⟩

/-- Nothing changes if the index is free already. -/
theorem release_of_free {a a' : IndexAllocator SIZE} {index : Nat} (isFree : a.free index = true)
    (returned : a.release index = .ok a') : a' = a := by
  unfold release at returned
  split at returned
  · cases returned
    have same : a.bitmap (index / 8) &&& ~~~(1#8 <<< (index % 8)) = a.bitmap (index / 8) := by
      apply BitVec.eq_of_getLsbD_eq
      intro i _
      rw [getLsbD_and_not_bit]
      by_cases here : index % 8 = i
      · subst here
        simp [(a.free_iff index).mp isFree]
      · simp [here]
    rw [same, Function.update_eq_self]
  · cases returned

end IndexAllocator

/-! ### `BitMap64` -/

structure BitMap64 where
  data : BitVec 64

namespace BitMap64

def new : BitMap64 := ⟨0⟩

def empty (b : BitMap64) : Bool := b.data == 0

def set (b : BitMap64) (pos : Nat) : Except Panic BitMap64 :=
  if pos < 64 then .ok ⟨b.data ||| (1#64 <<< pos)⟩ else .error .assertFailed

def get (b : BitMap64) (pos : Nat) : Bool := b.data &&& (1#64 <<< pos) != 0

def clear (b : BitMap64) (pos : Nat) : Except Panic BitMap64 :=
  if pos < 64 then .ok ⟨b.data &&& ~~~(1#64 <<< pos)⟩ else .error .assertFailed

/-- `trailing_zeros`: the least set position, 64 if there is none. -/
def findFirstOne (b : BitMap64) : Nat :=
  ((List.range 64).find? b.data.getLsbD).getD 64

/-- `trailing_ones`: the least clear position, 64 if there is none. -/
def findFirstZero (b : BitMap64) : Nat :=
  ((List.range 64).find? fun i => !b.data.getLsbD i).getD 64

@[simp] theorem getLsbD_new (i : Nat) : new.data.getLsbD i = false := by
  simp [new]

theorem get_eq (b : BitMap64) (pos : Nat) : b.get pos = b.data.getLsbD pos := by
  apply Bool.eq_iff_iff.mpr
  have masked : ¬ b.data &&& (1#64 <<< pos) = 0#64 ↔ pos < 64 ∧ b.data.getLsbD pos = true := by
    rw [and_bit_eq_zero, Classical.not_imp, Bool.not_eq_false]
  rw [get, bne_iff_ne]
  exact masked.trans ⟨And.right, fun set => ⟨BitVec.lt_of_getLsbD set, set⟩⟩

theorem data_eq_zero (b : BitMap64) : b.data = 0 ↔ ∀ i, b.data.getLsbD i = false := by
  constructor
  · intro zero i
    simp [zero]
  · intro clear
    exact BitVec.eq_of_getLsbD_eq fun i _ => by simp [clear i]

theorem set_ok {b b' : BitMap64} {pos : Nat} (returned : b.set pos = .ok b') :
    pos < 64 ∧ ∀ i, b'.data.getLsbD i = (b.data.getLsbD i || decide (pos = i)) := by
  unfold set at returned
  split at returned
  next bound => cases returned; exact ⟨bound, fun i => getLsbD_or_bit _ _ _ bound⟩
  · cases returned

theorem clear_ok {b b' : BitMap64} {pos : Nat} (returned : b.clear pos = .ok b') (i : Nat) :
    b'.data.getLsbD i = (b.data.getLsbD i && !decide (pos = i)) := by
  unfold clear at returned
  split at returned
  next bound => cases returned; rw [getLsbD_and_not_bit]; simp [bound]
  · cases returned

theorem set_total (b : BitMap64) {pos : Nat} (bound : pos < 64) : ∃ b', b.set pos = .ok b' :=
  ⟨_, if_pos bound⟩

theorem clear_total (b : BitMap64) {pos : Nat} (bound : pos < 64) : ∃ b', b.clear pos = .ok b' :=
  ⟨_, if_pos bound⟩

/-- The two outcomes of a search for the first position that passes. -/
private theorem firstPosition_cases (p : Nat → Bool) (n : Nat) :
    (((List.range n).find? p).getD n = n ∧ ∀ i < n, p i = false) ∨
    (((List.range n).find? p).getD n < n ∧ p (((List.range n).find? p).getD n) = true ∧
      ∀ i < ((List.range n).find? p).getD n, p i = false) := by
  cases found : (List.range n).find? p with
  | none =>
    left
    exact ⟨rfl, fun i bound => by simpa using List.find?_range_eq_none.mp found i bound⟩
  | some pos =>
    right
    simp only [List.find?_range_eq_some, List.mem_range, Bool.not_eq_true'] at found
    exact ⟨found.2.1, found.1, found.2.2⟩

theorem findFirstOne_cases (b : BitMap64) :
    (b.findFirstOne = 64 ∧ ∀ i, b.data.getLsbD i = false) ∨
    (b.findFirstOne < 64 ∧ b.data.getLsbD b.findFirstOne = true ∧
      ∀ i < b.findFirstOne, b.data.getLsbD i = false) := by
  rcases firstPosition_cases b.data.getLsbD 64 with ⟨none_, clear⟩ | found
  · left
    refine ⟨none_, fun i => ?_⟩
    -- positions from 64 on are clear in any word
    by_cases bound : i < 64
    · exact clear i bound
    · exact BitVec.getLsbD_of_ge _ _ (by omega)
  · exact Or.inr found

theorem findFirstZero_cases (b : BitMap64) :
    (b.findFirstZero = 64 ∧ ∀ i < 64, b.data.getLsbD i = true) ∨
    (b.findFirstZero < 64 ∧ b.data.getLsbD b.findFirstZero = false ∧
      ∀ i < b.findFirstZero, b.data.getLsbD i = true) := by
  simpa [findFirstZero] using firstPosition_cases (fun i => !b.data.getLsbD i) 64

theorem findFirstOne_eq {b : BitMap64} {p : Nat} (set : b.data.getLsbD p = true)
    (least : ∀ i < p, b.data.getLsbD i = false) : b.findFirstOne = p := by
  -- two least set positions are equal
  rcases b.findFirstOne_cases with ⟨-, clear⟩ | ⟨-, first, before⟩
  · simp [clear p] at set
  · rcases Nat.lt_trichotomy b.findFirstOne p with below | same | above
    · simp [least _ below] at first
    · exact same
    · simp [before _ above] at set

end BitMap64

/-! ### `BitMap4096` -/

/-- A word `l2[i]` for each 64 positions, and a word `l1` that says which of them to look at. -/
structure BitMap4096 where
  l1 : BitMap64
  l2 : Fin 64 → BitMap64

namespace BitMap4096

def new : BitMap4096 := ⟨.new, fun _ => .new⟩

/-- `self.l2[l1_index]`. -/
def word (b : BitMap4096) (l1Index : Nat) : Except Panic BitMap64 :=
  if inRange : l1Index < 64 then .ok (b.l2 ⟨l1Index, inRange⟩) else .error .indexOutOfBounds

/-- `self.l2[l1_index] = word`. -/
def setWord (b : BitMap4096) (l1Index : Nat) (word : BitMap64) : Except Panic BitMap4096 :=
  if inRange : l1Index < 64 then .ok { b with l2 := Function.update b.l2 ⟨l1Index, inRange⟩ word }
  else .error .indexOutOfBounds

def set (b : BitMap4096) (pos : Nat) : Except Panic BitMap4096 :=
  let l1Index := pos >>> 6
  let l2Index := pos &&& 0b00111111
  (b.l1.set l1Index).bind fun l1 =>
    (b.word l1Index).bind fun word => (word.set l2Index).bind fun word =>
      { b with l1 := l1 }.setWord l1Index word

def get (b : BitMap4096) (pos : Nat) : Except Panic Bool :=
  let l1Index := pos >>> 6
  let l2Index := pos &&& 0b00111111
  -- from 64 on the shift in `l1.get` overflows
  if l1Index < 64 then
    if b.l1.get l1Index then (b.word l1Index).map fun word => word.get l2Index else .ok false
  else .error .overflow

def clear (b : BitMap4096) (pos : Nat) : Except Panic BitMap4096 :=
  let l1Index := pos >>> 6
  let l2Index := pos &&& 0b00111111
  (b.word l1Index).bind fun word => (word.clear l2Index).bind fun word =>
    (b.setWord l1Index word).bind fun b =>
      if word.data == 0 then (b.l1.clear l1Index).map fun l1 => { b with l1 := l1 } else .ok b

def findFirstOne (b : BitMap4096) : Except Panic Nat :=
  let l1Index := b.l1.findFirstOne
  if l1Index == 64 then .ok (64 <<< 6)
  else (b.word l1Index).map fun word => (l1Index <<< 6) + word.findFirstOne

def findFirstZero (b : BitMap4096) : Nat :=
  ((List.finRange 64).findSome? fun l1Index =>
    let l2Index := (b.l2 l1Index).findFirstZero
    if l2Index < 64 then some ((l1Index.val <<< 6) + l2Index) else none).getD (64 * 64)

def fetch (b : BitMap4096) : Except Panic (Option Nat × BitMap4096) :=
  b.findFirstOne.bind fun pos =>
    if pos ≥ 4096 then .ok (none, b) else (b.clear pos).map fun b => (some pos, b)

def empty (b : BitMap4096) : Bool := b.l1.empty

end BitMap4096

/-! ### `RingBuffer` -/

structure RingBuffer (T : Type) (SIZE : Nat) where
  data : Fin SIZE → T
  start : Fin SIZE
  end_ : Fin SIZE

/-- One wrap-around: the only case of `%` that the ring indices need. -/
theorem mod_wrap {x n : Nat} (bound : x < 2 * n) : x % n = if x < n then x else x - n := by
  split
  next small => exact Nat.mod_eq_of_lt small
  next large =>
    rw [Nat.mod_eq_sub_mod (by omega)]
    exact Nat.mod_eq_of_lt (by omega)

/-- `(i + k) % SIZE`. -/
def wrap {SIZE : Nat} (i : Fin SIZE) (k : Nat) : Fin SIZE :=
  ⟨(i.val + k) % SIZE, Nat.mod_lt _ i.pos⟩

theorem wrap_one {SIZE : Nat} (i : Fin SIZE) :
    (wrap i 1).val = if i.val + 1 < SIZE then i.val + 1 else 0 := by
  have bound := i.isLt
  simp only [wrap]
  rw [mod_wrap (by omega)]
  split <;> omega

theorem wrap_wrap {SIZE : Nat} (i : Fin SIZE) (a b : Nat) :
    wrap (wrap i a) b = wrap i (a + b) := by
  simp [wrap, Nat.add_assoc]

namespace RingBuffer

variable {T : Type} {SIZE : Nat}

def new [NeZero SIZE] [Inhabited T] : RingBuffer T SIZE := ⟨fun _ => default, 0, 0⟩

def size (b : RingBuffer T SIZE) : Nat := (b.end_.val + SIZE - b.start.val) % SIZE

def empty (b : RingBuffer T SIZE) : Bool := b.end_ == b.start

def full (b : RingBuffer T SIZE) : Bool := wrap b.end_ 1 == b.start

def push (b : RingBuffer T SIZE) (item : T) : Except Unit (RingBuffer T SIZE) :=
  if !b.full then
    .ok { b with data := Function.update b.data b.end_ item, end_ := wrap b.end_ 1 }
  else .error ()

def pop (b : RingBuffer T SIZE) : Option (T × RingBuffer T SIZE) :=
  if !b.empty then some (b.data b.start, { b with start := wrap b.start 1 }) else none

/-- The queued values, oldest first. -/
def toList (b : RingBuffer T SIZE) : List T :=
  (List.range b.size).map fun i => b.data (wrap b.start i)

@[simp] theorem length_toList (b : RingBuffer T SIZE) : b.toList.length = b.size := by
  simp [toList]

/-- `size` without `%`. -/
theorem size_eq (b : RingBuffer T SIZE) :
    b.size = if b.start.val ≤ b.end_.val then b.end_.val - b.start.val
      else b.end_.val + SIZE - b.start.val := by
  have hs := b.start.isLt
  have he := b.end_.isLt
  -- the sum before `%` is below `2 * SIZE`: one wrap at most
  rw [size, mod_wrap (by omega)]
  split <;> split <;> omega

theorem wrap_size (b : RingBuffer T SIZE) : wrap b.start b.size = b.end_ := by
  have hs := b.start.isLt
  have he := b.end_.isLt
  apply Fin.ext
  simp only [wrap, size_eq]
  split
  · rw [show b.start.val + (b.end_.val - b.start.val) = b.end_.val by omega]
    exact Nat.mod_eq_of_lt he
  · rw [show b.start.val + (b.end_.val + SIZE - b.start.val) = b.end_.val + SIZE by omega,
      Nat.add_mod_right]
    exact Nat.mod_eq_of_lt he

theorem size_lt (b : RingBuffer T SIZE) : b.size < SIZE := Nat.mod_lt _ b.start.pos

private theorem wrap_ne (i : Fin SIZE) {a b : Nat} (order : a < b) (bound : b < SIZE) :
    wrap i a ≠ wrap i b := by
  intro same
  have hi := i.isLt
  have values : (i.val + a) % SIZE = (i.val + b) % SIZE := congrArg Fin.val same
  rw [mod_wrap (by omega), mod_wrap (by omega)] at values
  split at values <;> split at values <;> omega

theorem empty_iff (b : RingBuffer T SIZE) : b.empty = true ↔ b.toList = [] := by
  have hs := b.start.isLt
  have he := b.end_.isLt
  rw [← List.length_eq_zero_iff, length_toList, size_eq]
  simp only [empty, beq_iff_eq, Fin.ext_iff]
  split <;> omega

theorem full_iff (b : RingBuffer T SIZE) : b.full = true ↔ b.toList.length + 1 = SIZE := by
  have hs := b.start.isLt
  have he := b.end_.isLt
  rw [length_toList, size_eq]
  simp only [full, wrap, beq_iff_eq, Fin.ext_iff]
  rw [mod_wrap (by omega)]
  split <;> split <;> omega

@[simp] theorem toList_new [NeZero SIZE] [Inhabited T] :
    (new : RingBuffer T SIZE).toList = [] := by
  rw [← empty_iff]
  simp [new, empty]

/-- A successful `push` appends its item. -/
theorem push_ok {b b' : RingBuffer T SIZE} {item : T} (returned : b.push item = .ok b') :
    b'.toList = b.toList ++ [item] := by
  unfold push at returned
  split at returned
  next room =>
    cases returned
    -- one slot stays free, so the new end does not run into the start
    have notFull : ¬ b.size + 1 = SIZE := by
      simpa [← length_toList, ← full_iff] using room
    have below := b.size_lt
    have grown : size { b with data := Function.update b.data b.end_ item, end_ := wrap b.end_ 1 }
        = b.size + 1 := by
      have before := b.size_eq
      have after := size_eq
        { b with data := Function.update b.data b.end_ item, end_ := wrap b.end_ 1 }
      have moved := wrap_one b.end_
      dsimp only at after
      split at before <;> split at after <;> split at moved <;> omega
    -- the old values keep their slots, the new one stands at the old end
    rw [toList, grown, List.range_succ, List.map_append, toList]
    congr 1
    · apply List.map_congr_left
      intro i member
      have bound : i < b.size := List.mem_range.mp member
      apply Function.update_of_ne
      simp only [← wrap_size b]
      exact wrap_ne b.start bound below
    · simp [wrap_size]
  · cases returned

/-- `push` refuses exactly a buffer whose only free slot is the sacrificed one. -/
theorem push_error_iff (b : RingBuffer T SIZE) (item : T) :
    (∃ e, b.push item = .error e) ↔ b.toList.length + 1 = SIZE := by
  rw [← full_iff, push]
  cases b.full <;> simp

theorem pop_none_iff (b : RingBuffer T SIZE) : b.pop = none ↔ b.toList = [] := by
  rw [← empty_iff, pop]
  cases b.empty <;> simp

/-- A successful `pop` removes the oldest value. -/
theorem pop_some {b b' : RingBuffer T SIZE} {item : T} (returned : b.pop = some (item, b')) :
    b.toList = item :: b'.toList := by
  unfold pop at returned
  split at returned
  next occupied =>
    cases returned
    have nonempty : b.size ≠ 0 := by
      have : b.toList ≠ [] := by simpa [← empty_iff] using occupied
      simpa [← length_toList] using this
    have shrunk : b.size = size { b with start := wrap b.start 1 } + 1 := by
      have before := b.size_eq
      have after := size_eq { b with start := wrap b.start 1 }
      have moved := wrap_one b.start
      dsimp only at after
      split at before <;> split at after <;> split at moved <;> omega
    -- the value at the start leaves, all others move up by one position
    rw [toList, shrunk, List.range_succ_eq_map, List.map_cons, List.map_map, toList]
    congr 1
    · congr 1
      apply Fin.ext
      simp [wrap, Nat.mod_eq_of_lt b.start.isLt]
    · apply List.map_congr_left
      intro i _
      simp only [Function.comp_apply, wrap_wrap, Nat.succ_eq_add_one, Nat.add_comm]
  · cases returned

end RingBuffer

end RootTask.Runtime
