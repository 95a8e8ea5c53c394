import RootTask.Runtime.NewBuffer

/-!
# Asynchronous system calls

The wrappers of `async_lib.rs` write an operation and its arguments into an `IPCItem`: a label
in `msg_info`, and one 16-bit word of `extend_msg` for each argument, from the first word on.
`message_info.rs` has the labels and the table by which the other side reads them back.

Capability pointers, object types and rights are opaque here and stand for the machine word
that the wrappers read from them.
-/
namespace RootTask.Syscall

open RootTask.Runtime

inductive AsyncMessageLabel where
  | untypedRetype
  | putChar
  | riscvPageTableMap
  | riscvPageTableUnmap
  | riscvPageMap
  | riscvPageUnmap
  | riscvPageGetAddress
  | cnodeRevoke
  | cnodeDelete
  | cnodeCancelBadgedSends
  | cnodeCopy
  | cnodeMint
  | cnodeMove
  | cnodeMutate
  | cnodeRotate
  | tcbBindNotification
  | tcbUnbindNotification
  | putString
  | unknownLabel
  deriving DecidableEq, Repr

namespace AsyncMessageLabel

/-- `From<AsyncMessageLabel> for u32`: the discriminant. -/
def toU32 (label : AsyncMessageLabel) : BitVec 32 := BitVec.ofNat 32 label.ctorIdx

/-- `From<u32> for AsyncMessageLabel`, arm by arm. -/
def ofU32 (value : BitVec 32) : AsyncMessageLabel :=
  match value.toNat with
  | 0 => .untypedRetype
  | 1 => .putChar
  | 2 => .riscvPageTableMap
  | 3 => .riscvPageTableUnmap
  | 4 => .riscvPageMap
  -- the discriminant of `RISCVPageUnmap`
  | 5 => .riscvPageTableUnmap
  | 6 => .riscvPageGetAddress
  | 7 => .cnodeRevoke
  | 8 => .cnodeDelete
  | 9 => .cnodeCancelBadgedSends
  | 10 => .cnodeCopy
  | 11 => .cnodeMint
  | 12 => .cnodeMove
  | 13 => .cnodeMutate
  | 14 => .cnodeRotate
  | 15 => .tcbBindNotification
  | 16 => .tcbUnbindNotification
  | 17 => .putString
  | _ => .unknownLabel

end AsyncMessageLabel

/-- `usize`, `u64` and `CPtr::bits`. -/
abbrev Word := BitVec 64

/-- `as u16`. -/
def Word.asU16 (w : Word) : BitVec 16 := w.setWidth 16

/-- `extend_msg` of a fresh item after its first words are written. -/
def extendMsg (words : List (BitVec 16)) : Vector (BitVec 16) maxIpcMsgLen :=
  .ofFn fun i => words.getD i 0

def request (cid : CoroutineId) (label : AsyncMessageLabel) (words : List (BitVec 16)) : IPCItem :=
  ⟨cid, label.toU32, extendMsg words⟩

/-! ### `image_utils.rs` -/

abbrev granuleSize : Nat := 4096

/-- The linker symbols and the part of the boot info that locate the frames of the image. -/
structure UserImage where
  executableStart : Nat
  imageEnd : Nat
  framesStart : Nat
  framesEnd : Nat

namespace UserImage

def roundDown (n b : Nat) : Nat := n - n % b

/-- `next_multiple_of`. -/
def roundUp (n b : Nat) : Nat := if n % b = 0 then n else n + (b - n % b)

/-- `get_user_image_footprint`. -/
def footprintStart (image : UserImage) : Nat := roundDown image.executableStart granuleSize

def footprintEnd (image : UserImage) : Nat := roundUp image.imageEnd granuleSize

def getUserImageFrameSlot (image : UserImage) (vaddr : Nat) : Except Panic Nat :=
  if vaddr % granuleSize ≠ 0 then .error .assertFailed
  else if image.footprintEnd - image.footprintStart ≠
      (image.framesEnd - image.framesStart) * granuleSize then .error .assertFailed
  else if vaddr < image.footprintStart then .error .overflow
  else
    let ix := (vaddr - image.footprintStart) / granuleSize
    if image.framesStart + ix < 2 ^ 64 then .ok (image.framesStart + ix) else .error .overflow

end UserImage

/-! ### The wrappers -/

section Wrappers

variable (cid : CoroutineId)

def untypedRetype (service type sizeBits root nodeIndex nodeDepth nodeOffset numObjects : Word) :
    IPCItem :=
  request cid .untypedRetype [service.asU16, type.asU16, sizeBits.asU16, root.asU16,
    nodeIndex.asU16, nodeDepth.asU16, nodeOffset.asU16, numObjects.asU16]

def putchar (c : BitVec 16) : IPCItem := request cid .putChar [c]

/-- One round of `seL4_Putstring`: `num` units of the data from `offset` on. -/
def putstringRound (data : List (BitVec 16)) (offset num : Nat) : IPCItem :=
  request cid .putString
    (BitVec.ofNat 16 num :: (List.range num).map fun j => data.getD (offset + j) 0)

/-- The items that `seL4_Putstring` sends, in order. -/
def putstring (data : List (BitVec 16)) : List IPCItem :=
  let round := data.length / 7
  (List.range (round + 1)).map fun i =>
    let num := if i < round then 7 else data.length - 7 * i
    putstringRound cid data (i * 7) num

def riscvPageGetAddress (image : UserImage) (vaddr : Word) : Except Panic IPCItem :=
  let offset := vaddr.toNat % 4096
  let newVaddr := vaddr.toNat - offset
  (image.getUserImageFrameSlot newVaddr).map fun frameCap =>
    request cid .riscvPageGetAddress [Word.asU16 (BitVec.ofNat 64 frameCap)]

def tcbBindNotification (service notification : Word) : IPCItem :=
  request cid .tcbBindNotification [service.asU16, notification.asU16]

def tcbUnbindNotification (service : Word) : IPCItem :=
  request cid .tcbUnbindNotification [service.asU16]

def cnodeDelete (service nodeIndex nodeDepth : Word) : IPCItem :=
  request cid .cnodeDelete [service.asU16, nodeIndex.asU16, nodeDepth.asU16]

/-- The arguments that `seL4_CNode_Copy` and `seL4_CNode_Mint` share. -/
structure CopyArgs where
  destRoot : Word
  destIndex : Word
  destDepth : Word
  srcRoot : Word
  srcIndex : Word
  srcDepth : Word
  capRight : Word
  deriving DecidableEq, Repr

def CopyArgs.words (args : CopyArgs) : List (BitVec 16) :=
  [args.destRoot.asU16, args.destIndex.asU16, args.destDepth.asU16, args.srcRoot.asU16,
    args.srcIndex.asU16, args.srcDepth.asU16, args.capRight.asU16]

def cnodeCopy (args : CopyArgs) : IPCItem := request cid .cnodeCopy args.words

/-- The label is that of `CNodeCopy`. -/
def cnodeMint (args : CopyArgs) (badge : Word) : IPCItem :=
  request cid .cnodeCopy (args.words ++ [badge.asU16])

def riscvPageTableMap (service vspace vaddr attrs : Word) : IPCItem :=
  request cid .riscvPageTableMap
    [service.asU16, vspace.asU16, Word.asU16 (vaddr >>> 12), attrs.asU16]

def riscvPageTableUnmap (service : Word) : IPCItem :=
  request cid .riscvPageTableUnmap [service.asU16]

def riscvPageMap (service pageTable vaddr rights attrs : Word) : IPCItem :=
  request cid .riscvPageMap
    [service.asU16, pageTable.asU16, Word.asU16 (vaddr >>> 12), rights.asU16, attrs.asU16]

def riscvPageUnmap (service : Word) : IPCItem := request cid .riscvPageUnmap [service.asU16]

end Wrappers

/-- An operation with its arguments. A string goes out in chunks, each an operation. -/
inductive Operation where
  | untypedRetype (service type sizeBits root nodeIndex nodeDepth nodeOffset numObjects : Word)
  | putchar (c : BitVec 16)
  | putstring (chunk : List (BitVec 16))
  | pageGetAddress (vaddr : Word)
  | tcbBindNotification (service notification : Word)
  | tcbUnbindNotification (service : Word)
  | cnodeDelete (service nodeIndex nodeDepth : Word)
  | cnodeCopy (args : CopyArgs)
  | cnodeMint (args : CopyArgs) (badge : Word)
  | pageTableMap (service vspace vaddr attrs : Word)
  | pageTableUnmap (service : Word)
  | pageMap (service pageTable vaddr rights attrs : Word)
  | pageUnmap (service : Word)
  deriving DecidableEq, Repr

namespace Operation

/-- The item that the wrapper of the operation sends. -/
def item (image : UserImage) (cid : CoroutineId) : Operation → Except Panic IPCItem
  | untypedRetype service type sizeBits root nodeIndex nodeDepth nodeOffset numObjects =>
    .ok (Syscall.untypedRetype cid service type sizeBits root nodeIndex nodeDepth nodeOffset
      numObjects)
  | putchar c => .ok (Syscall.putchar cid c)
  | putstring chunk => .ok (putstringRound cid chunk 0 chunk.length)
  | pageGetAddress vaddr => riscvPageGetAddress cid image vaddr
  | tcbBindNotification service notification =>
    .ok (Syscall.tcbBindNotification cid service notification)
  | tcbUnbindNotification service => .ok (Syscall.tcbUnbindNotification cid service)
  | cnodeDelete service nodeIndex nodeDepth =>
    .ok (Syscall.cnodeDelete cid service nodeIndex nodeDepth)
  | cnodeCopy args => .ok (Syscall.cnodeCopy cid args)
  | cnodeMint args badge => .ok (Syscall.cnodeMint cid args badge)
  | pageTableMap service vspace vaddr attrs => .ok (riscvPageTableMap cid service vspace vaddr attrs)
  | pageTableUnmap service => .ok (riscvPageTableUnmap cid service)
  | pageMap service pageTable vaddr rights attrs =>
    .ok (riscvPageMap cid service pageTable vaddr rights attrs)
  | pageUnmap service => .ok (riscvPageUnmap cid service)

/-- The label of the operation that the wrapper is named after. -/
def label : Operation → AsyncMessageLabel
  | untypedRetype .. => .untypedRetype
  | putchar _ => .putChar
  | putstring _ => .putString
  | pageGetAddress _ => .riscvPageGetAddress
  | tcbBindNotification .. => .tcbBindNotification
  | tcbUnbindNotification _ => .tcbUnbindNotification
  | cnodeDelete .. => .cnodeDelete
  | cnodeCopy _ => .cnodeCopy
  | cnodeMint .. => .cnodeMint
  | pageTableMap .. => .riscvPageTableMap
  | pageTableUnmap _ => .riscvPageTableUnmap
  | pageMap .. => .riscvPageMap
  | pageUnmap _ => .riscvPageUnmap

end Operation

/-- What the other side sees of an item, its sender apart. -/
def view (item : IPCItem) : AsyncMessageLabel × Vector (BitVec 16) maxIpcMsgLen :=
  (.ofU32 item.msgInfo, item.extendMsg)

end RootTask.Syscall
