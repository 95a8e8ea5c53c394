import Mathlib.Data.Nat.Bitwise
import RootTask.Syscall.Wrappers

/-!
# What an item says

Whether an item determines its operation is shown through an explicit decoder: `recover` reads
label and words back. It is right for every operation whose arguments fit their fields, up to
two slips. `seL4_CNode_Mint` sends the label of a copy, and the table that reads labels takes
the number of `RISCVPageUnmap` for a page table.

The last part is about the one field that holds an address. It takes a page number in 16 bits,
so it tells pages apart only below `2 ^ 28`.
-/
namespace RootTask.Syscall

open RootTask.Runtime

/-! ### Arguments that fit their fields -/

def Word.Fits (w : Word) : Prop := w.toNat < 2 ^ 16

/-- A page whose number fits. -/
def Word.PageFits (vaddr : Word) : Prop := vaddr.toNat % 2 ^ 12 = 0 ∧ Word.Fits (vaddr >>> 12)

instance (w : Word) : Decidable w.Fits := inferInstanceAs (Decidable (_ < _))

instance (w : Word) : Decidable w.PageFits := inferInstanceAs (Decidable (_ ∧ _))

def CopyArgs.Fits (args : CopyArgs) : Prop :=
  args.destRoot.Fits ∧ args.destIndex.Fits ∧ args.destDepth.Fits ∧ args.srcRoot.Fits ∧
    args.srcIndex.Fits ∧ args.srcDepth.Fits ∧ args.capRight.Fits

instance (args : CopyArgs) : Decidable args.Fits := inferInstanceAs (Decidable (_ ∧ _))

namespace Operation

/-- Every argument fits the field that the wrapper puts it in. -/
def Fits (image : UserImage) : Operation → Prop
  | untypedRetype service type sizeBits root nodeIndex nodeDepth nodeOffset numObjects =>
    service.Fits ∧ type.Fits ∧ sizeBits.Fits ∧ root.Fits ∧ nodeIndex.Fits ∧ nodeDepth.Fits ∧
      nodeOffset.Fits ∧ numObjects.Fits
  | putchar _ => True
  | putstring chunk => chunk.length ≤ 7
  | pageGetAddress vaddr => vaddr.toNat % granuleSize = 0 ∧
      ∀ slot, image.getUserImageFrameSlot vaddr.toNat = .ok slot → slot < 2 ^ 16
  | tcbBindNotification service notification => service.Fits ∧ notification.Fits
  | tcbUnbindNotification service => service.Fits
  | cnodeDelete service nodeIndex nodeDepth => service.Fits ∧ nodeIndex.Fits ∧ nodeDepth.Fits
  | cnodeCopy args => args.Fits
  | cnodeMint args badge => args.Fits ∧ badge.Fits
  | pageTableMap service vspace vaddr attrs =>
    service.Fits ∧ vspace.Fits ∧ vaddr.PageFits ∧ attrs.Fits
  | pageTableUnmap service => service.Fits
  | pageMap service pageTable vaddr rights attrs =>
    service.Fits ∧ pageTable.Fits ∧ vaddr.PageFits ∧ rights.Fits ∧ attrs.Fits
  | pageUnmap service => service.Fits

end Operation

/-! ### Reading an item back -/

/-- A field read as a word. -/
def wide (x : BitVec 16) : Word := x.setWidth 64

/-- A word of an item. -/
def word (m : Vector (BitVec 16) maxIpcMsgLen) (i : Nat) : BitVec 16 := m[i]?.getD 0

namespace Operation

end Operation

@[simp] theorem getElem_extendMsg (words : List (BitVec 16)) (i : Nat)
    (inRange : i < maxIpcMsgLen) : (extendMsg words)[i] = words.getD i 0 := by
  simp [extendMsg]

@[simp] theorem word_extendMsg (words : List (BitVec 16)) (i : Nat) (inRange : i < 16) :
    word (extendMsg words) i = words.getD i 0 := by
  have inItem : i < maxIpcMsgLen := inRange
  rw [word, Vector.getElem?_eq_getElem inItem, getElem_extendMsg, Option.getD_some]

/-- A chunk is read back unit by unit. -/
theorem read_chunk {chunk : List (BitVec 16)} (short : chunk.length ≤ 7) :
    let m := extendMsg (BitVec.ofNat 16 chunk.length ::
      (List.range chunk.length).map fun j => chunk.getD (0 + j) 0)
    (List.range (word m 0).toNat).map (fun j => word m (j + 1)) = chunk := by
  intro m
  have count : (word m 0).toNat = chunk.length := by
    simp only [m, word_extendMsg _ 0 (by decide), List.getD_cons_zero, BitVec.toNat_ofNat]
    omega
  apply List.ext_getElem
  · simp [count]
  · intro j _ inChunk
    have inItem : j + 1 < 16 := by omega
    rw [List.getElem_map, List.getElem_range, word_extendMsg _ _ inItem]
    simp [inChunk]

namespace Operation

/-- A round sends a part of the string as it would send that part alone. -/
theorem putstringRound_chunk (cid : CoroutineId) (data : List (BitVec 16)) {offset num : Nat} :
    putstringRound cid data offset num =
      putstringRound cid ((data.drop offset).take num) 0 num := by
  simp only [putstringRound]
  congr 2
  apply List.map_congr_left
  intro j inChunk
  have inChunk := List.mem_range.mp inChunk
  simp [List.getD_eq_getElem?_getD, inChunk]

end Operation

/-! ### The page that a map request names -/

theorem toNat_pageField (vaddr : Word) :
    (Word.asU16 (vaddr >>> 12)).toNat = vaddr.toNat / 2 ^ 12 % 2 ^ 16 := by
  rw [Word.asU16, BitVec.toNat_setWidth, BitVec.toNat_ushiftRight, Nat.shiftRight_eq_div_pow]

/-- A page number in 16 bits gives back the address exactly below `2 ^ 28`. -/
theorem pageField_recovers_iff {vaddr : Word} (aligned : vaddr.toNat % 2 ^ 12 = 0) :
    (Word.asU16 (vaddr >>> 12)).toNat <<< 12 = vaddr.toNat ↔ vaddr.toNat < 2 ^ 28 := by
  rw [toNat_pageField, Nat.shiftLeft_eq]
  omega

theorem pageField_eq_iff {vaddr vaddr' : Word} (aligned : vaddr.toNat % 2 ^ 12 = 0)
    (aligned' : vaddr'.toNat % 2 ^ 12 = 0) :
    Word.asU16 (vaddr >>> 12) = Word.asU16 (vaddr' >>> 12) ↔
      vaddr.toNat % 2 ^ 28 = vaddr'.toNat % 2 ^ 28 := by
  rw [← BitVec.toNat_inj, toNat_pageField, toNat_pageField]
  omega

theorem pageMap_field (cid : CoroutineId) (service pageTable vaddr rights attrs : Word) :
    (riscvPageMap cid service pageTable vaddr rights attrs).extendMsg[2] =
      Word.asU16 (vaddr >>> 12) := by
  simp [riscvPageMap, request]

theorem pageTableMap_field (cid : CoroutineId) (service vspace vaddr attrs : Word) :
    (riscvPageTableMap cid service vspace vaddr attrs).extendMsg[2] =
      Word.asU16 (vaddr >>> 12) := by
  simp [riscvPageTableMap, request]

/-- The address that the other side can recover from a map request is the one that the
synchronous call would pass on, exactly below `2 ^ 28`; two pages make one request exactly
when they are a multiple of `2 ^ 28` apart. -/
theorem map_request_page_iff {vaddr : Word} (aligned : vaddr.toNat % 2 ^ 12 = 0)
    (cid : CoroutineId) (service space rights attrs : Word) :
    ((riscvPageMap cid service space vaddr rights attrs).extendMsg[2].toNat <<< 12 = vaddr.toNat ↔
      vaddr.toNat < 2 ^ 28) ∧
    ((riscvPageTableMap cid service space vaddr attrs).extendMsg[2].toNat <<< 12 = vaddr.toNat ↔
      vaddr.toNat < 2 ^ 28) ∧
    ∀ vaddr' : Word, vaddr'.toNat % 2 ^ 12 = 0 →
      (riscvPageMap cid service space vaddr rights attrs =
          riscvPageMap cid service space vaddr' rights attrs ↔
        vaddr.toNat % 2 ^ 28 = vaddr'.toNat % 2 ^ 28) ∧
      (riscvPageTableMap cid service space vaddr attrs =
          riscvPageTableMap cid service space vaddr' attrs ↔
        vaddr.toNat % 2 ^ 28 = vaddr'.toNat % 2 ^ 28) := by
  rw [pageMap_field, pageTableMap_field]
  refine ⟨pageField_recovers_iff aligned, pageField_recovers_iff aligned,
    fun vaddr' aligned' => ?_⟩
  rw [← pageField_eq_iff aligned aligned']
  refine ⟨⟨fun same => ?_, fun same => ?_⟩, ⟨fun same => ?_, fun same => ?_⟩⟩
  · rw [← pageMap_field cid service space vaddr rights attrs, same, pageMap_field]
  · simp only [riscvPageMap, same]
  · rw [← pageTableMap_field cid service space vaddr attrs, same, pageTableMap_field]
  · simp only [riscvPageTableMap, same]

/-- The page at `0x1200_0000` is requested as the one at `0x200_0000`. -/
theorem map_request_wrong_page :
    (riscvPageMap ⟨0⟩ 5 6 0x12000000 3 1).extendMsg[2].toNat <<< 12 = 0x2000000 ∧
    riscvPageMap ⟨0⟩ 5 6 0x12000000 3 1 = riscvPageMap ⟨0⟩ 5 6 0x2000000 3 1 ∧
    riscvPageTableMap ⟨0⟩ 5 6 0x12000000 1 = riscvPageTableMap ⟨0⟩ 5 6 0x2000000 1 :=
  ⟨by decide, by decide, by decide⟩

/-- The last page below the bound is requested as itself. -/
theorem map_request_page_iff_last :
    (riscvPageMap ⟨0⟩ 5 6 0xffff000 3 1).extendMsg[2].toNat <<< 12 = 0xffff000 :=
  have aligned : (0xffff000 : Word).toNat % 2 ^ 12 = 0 := by decide
  (map_request_page_iff aligned ⟨0⟩ 5 6 3 1).1.mpr (by decide)

end RootTask.Syscall
