import RootTask.Lib.Transition
import RootTask.Syscall.Wrappers

/-!
# Addresses in the user image

`image_utils.rs` translates an address in two ways. `get_user_image_frame_paddr` divides it into
page and offset, finds the frame of the page and asks the kernel where that frame lies.
`get_heap_paddr` adds one constant, which `init` computes from the start of the heap. The drivers
use the second way also for statics outside the heap.

Sums and differences of addresses are modulo `2 ^ 64`.
-/
namespace RootTask.Memory

open RootTask.Runtime RootTask.Transition RootTask.Syscall

namespace UserImageUtils

/-- Without `init`: the frame of the page, the kernel's answer for it, and the offset. -/
def getUserImageFramePaddr (image : UserImage) (frameGetAddress : Nat → Option Word)
    (vaddr : Word) : Except Panic Word :=
  let offset := vaddr.toNat % 4096
  let newVaddr := vaddr.toNat - offset
  (image.getUserImageFrameSlot newVaddr).bind fun frameCap =>
    match frameGetAddress frameCap with
    | none => .error .unwrapErr
    | some paddr => .ok (paddr + BitVec.ofNat 64 offset)

/-- The value of `HEAP_P_V_OFFSET` after `init`. -/
def init (image : UserImage) (frameGetAddress : Nat → Option Word) (heapMem : Word) :
    Except Panic Word :=
  (getUserImageFramePaddr image frameGetAddress heapMem).map fun paddrStart => paddrStart - heapMem

def getHeapPaddr (heapPVOffset vaddr : Word) : Word := vaddr + heapPVOffset

def getHeapVaddr (heapPVOffset paddr : Word) : Word := paddr - heapPVOffset

end UserImageUtils

end RootTask.Memory

namespace RootTask.Syscall.UserImage

open RootTask.Runtime

/-- An address in a page of the image. -/
def Contains (image : UserImage) (vaddr : Word) : Prop :=
  image.footprintStart ≤ vaddr.toNat ∧ vaddr.toNat < image.footprintEnd

instance (image : UserImage) (vaddr : Word) : Decidable (image.Contains vaddr) :=
  inferInstanceAs (Decidable (_ ∧ _))

/-- The boot info has one frame for every page of the footprint. -/
structure Matches (image : UserImage) : Prop where
  frames : image.footprintEnd - image.footprintStart =
    (image.framesEnd - image.framesStart) * granuleSize
  slots : image.framesEnd < 2 ^ 64

/-- The frames lie behind each other in the order of their slots. -/
def Contiguous (image : UserImage) (frameGetAddress : Nat → Option Word) (base : Word) : Prop :=
  ∀ k < image.framesEnd - image.framesStart,
    frameGetAddress (image.framesStart + k) = some (base + BitVec.ofNat 64 (4096 * k))

variable {image : UserImage}

theorem footprintStart_aligned (image : UserImage) : image.footprintStart % 4096 = 0 := by
  simp only [footprintStart, roundDown, granuleSize]
  omega

/-- The frame of an address in the image is the one that its page number within the image
says. -/
theorem frameSlot_of_contains {vaddr : Word} (matching : image.Matches)
    (inside : image.Contains vaddr) :
    image.getUserImageFrameSlot (vaddr.toNat - vaddr.toNat % 4096) =
        .ok (image.framesStart + (vaddr.toNat - image.footprintStart) / 4096) ∧
      (vaddr.toNat - image.footprintStart) / 4096 < image.framesEnd - image.framesStart := by
  obtain ⟨above, below⟩ := inside
  have aligned := image.footprintStart_aligned
  have frames := matching.frames
  have slots := matching.slots
  simp only [granuleSize] at frames
  have number : (vaddr.toNat - vaddr.toNat % 4096 - image.footprintStart) / 4096 =
      (vaddr.toNat - image.footprintStart) / 4096 := by omega
  have inFrames :
      (vaddr.toNat - image.footprintStart) / 4096 < image.framesEnd - image.framesStart := by omega
  refine ⟨?_, inFrames⟩
  unfold getUserImageFrameSlot
  simp only [granuleSize]
  rw [if_neg (by omega), if_neg (not_not_intro frames), if_neg (by omega)]
  rw [if_pos (by omega), number]

end RootTask.Syscall.UserImage

namespace RootTask.Memory.UserImageUtils

open RootTask.Runtime RootTask.Transition RootTask.Syscall

variable {image : UserImage} {frameGetAddress : Nat → Option Word} {base : Word}

/-- In contiguous frames the slow way gives the distance from the start of the image. -/
theorem framePaddr_of_contains {vaddr : Word} (matching : image.Matches)
    (contiguous : image.Contiguous frameGetAddress base) (inside : image.Contains vaddr) :
    getUserImageFramePaddr image frameGetAddress vaddr =
      .ok (base + (vaddr - BitVec.ofNat 64 image.footprintStart)) := by
  obtain ⟨slot, inFrames⟩ := UserImage.frameSlot_of_contains matching inside
  simp only [getUserImageFramePaddr, slot, Except.bind, contiguous _ inFrames, Except.ok.injEq]
  -- page number and offset make up the distance, since the image starts at a page
  have aligned := image.footprintStart_aligned
  have bound := vaddr.isLt
  have above := inside.1
  have parts : 4096 * ((vaddr.toNat - image.footprintStart) / 4096) + vaddr.toNat % 4096 =
      vaddr.toNat - image.footprintStart := by omega
  rw [BitVec.add_assoc, ← BitVec.ofNat_add, parts]
  congr 1
  apply BitVec.eq_of_toNat_eq
  rw [BitVec.toNat_ofNat, BitVec.toNat_sub, BitVec.toNat_ofNat]
  omega

/-- After `init` both ways give the same physical address for every address of the image, in the
heap or not, the slow way uses a frame of the image, and `get_heap_vaddr` leads back. -/
theorem heap_paddr_eq_frame_paddr (heapMem : Word) (matching : image.Matches)
    (contiguous : image.Contiguous frameGetAddress base) (heapInside : image.Contains heapMem) :
    ∃ heapPVOffset, init image frameGetAddress heapMem = .ok heapPVOffset ∧
      ∀ vaddr, image.Contains vaddr →
        getUserImageFramePaddr image frameGetAddress vaddr =
            .ok (getHeapPaddr heapPVOffset vaddr) ∧
        (∃ slot, image.getUserImageFrameSlot (vaddr.toNat - vaddr.toNat % 4096) = .ok slot ∧
          image.framesStart ≤ slot ∧ slot < image.framesEnd) ∧
        getHeapVaddr heapPVOffset (getHeapPaddr heapPVOffset vaddr) = vaddr := by
  refine ⟨base + (heapMem - BitVec.ofNat 64 image.footprintStart) - heapMem, ?_, ?_⟩
  · rw [init, framePaddr_of_contains matching contiguous heapInside, Except.map]
  · intro vaddr inside
    refine ⟨?_, ?_, ?_⟩
    · rw [framePaddr_of_contains matching contiguous inside, getHeapPaddr]
      congr 1
      bv_omega
    · obtain ⟨slot, inFrames⟩ := UserImage.frameSlot_of_contains matching inside
      exact ⟨_, slot, Nat.le_add_right _ _, by omega⟩
    · rw [getHeapVaddr, getHeapPaddr, BitVec.add_sub_cancel]

/-- An image of four pages at `0x8020_0000`, whose heap starts inside the second page: a static
in the fourth page, outside the heap, is translated by the constant of the heap. -/
theorem heap_paddr_eq_frame_paddr_static :
    ∃ heapPVOffset,
      init ⟨0x10010, 0x13f00, 100, 104⟩
        (fun slot => some (0x80200000 + BitVec.ofNat 64 (4096 * (slot - 100)))) 0x11010 =
          .ok heapPVOffset ∧
      getHeapPaddr heapPVOffset 0x13ea8 = 0x80203ea8 := by
  have matching : UserImage.Matches ⟨0x10010, 0x13f00, 100, 104⟩ := by
    constructor <;> decide
  have contiguous : UserImage.Contiguous ⟨0x10010, 0x13f00, 100, 104⟩
      (fun slot => some (0x80200000 + BitVec.ofNat 64 (4096 * (slot - 100)))) 0x80200000 := by
    intro k _
    simp only [Nat.add_sub_cancel_left]
  obtain ⟨heapPVOffset, computed, agree⟩ :=
    heap_paddr_eq_frame_paddr 0x11010 matching contiguous (by decide)
  refine ⟨heapPVOffset, computed, ?_⟩
  have same := (agree 0x13ea8 (by decide)).1
  -- the slow way computes it
  exact (Except.ok.inj same).symm

end RootTask.Memory.UserImageUtils
