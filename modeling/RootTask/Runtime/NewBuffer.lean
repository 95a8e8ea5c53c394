import RootTask.Runtime.SafeRingBuffer
import RootTask.Runtime.Executor

/-!
# Shared IPC buffers

`new_buffer.rs`. An `ItemsQueue` is a `SafeRingBuffer` of items. Its two calls are modelled
as one atomic step each; `access_refines_itemsQueue` connects them to the interleaved
accesses of the ring buffer below.
-/
namespace RootTask.Runtime

abbrev maxItemNum : Nat := 4096
abbrev maxIpcMsgLen : Nat := 16

structure IPCItem where
  cid : CoroutineId
  msgInfo : BitVec 32
  extendMsg : Vector (BitVec 16) maxIpcMsgLen
  deriving DecidableEq, Repr

namespace IPCItem

def new : IPCItem := ⟨⟨0⟩, 0, .replicate maxIpcMsgLen 0⟩

/-- `IPCItem::from`. -/
def ofMsg (cid : CoroutineId) (msg : BitVec 32) : IPCItem :=
  ⟨cid, msg, .replicate maxIpcMsgLen 0⟩

instance : Inhabited IPCItem := ⟨new⟩

end IPCItem

/-- The items between the two ends, oldest first. The item type is a parameter, so that
items may carry what identifies them in a proof. -/
structure ItemsQueue (T : Type) where
  items : List T
  bounded : items.length ≤ maxItemNum

namespace ItemsQueue

variable {T : Type}

def new : ItemsQueue T := ⟨[], by simp⟩

def writeFreeItem (q : ItemsQueue T) (item : T) : Except Unit (ItemsQueue T) :=
  if room : q.items.length < maxItemNum then
    .ok ⟨q.items ++ [item], by simp only [List.length_append, List.length_singleton]; omega⟩
  else .error ()

def getFirstItem (q : ItemsQueue T) : Option (T × ItemsQueue T) :=
  match h : q.items with
  | [] => none
  | item :: rest =>
    some (item, ⟨rest, Nat.le_of_succ_le (by simpa [h] using q.bounded)⟩)

theorem writeFreeItem_ok {q q' : ItemsQueue T} {item : T}
    (returned : q.writeFreeItem item = .ok q') :
    q.items.length < maxItemNum ∧ q'.items = q.items ++ [item] := by
  unfold writeFreeItem at returned
  split at returned
  next room => cases returned; exact ⟨room, rfl⟩
  · cases returned

theorem writeFreeItem_error_iff (q : ItemsQueue T) (item : T) :
    q.writeFreeItem item = .error () ↔ q.items.length = maxItemNum := by
  have bounded := q.bounded
  unfold writeFreeItem
  split
  -- `push_safe` refuses when `count` is `SIZE`; no slot is sacrificed here
  next room => simp; omega
  next full => simp; omega

theorem getFirstItem_some {q q' : ItemsQueue T} {item : T}
    (returned : q.getFirstItem = some (item, q')) : q.items = item :: q'.items := by
  unfold getFirstItem at returned
  split at returned
  · cases returned
  next first rest shape => cases returned; exact shape

theorem getFirstItem_cons {q q' : ItemsQueue T} {item : T}
    (shape : q.items = item :: q'.items) : q.getFirstItem = some (item, q') := by
  unfold getFirstItem
  split
  next nil => simp [nil] at shape
  next first rest shape' =>
    obtain ⟨rfl, rfl⟩ := List.cons.inj (shape'.symm.trans shape)
    rfl

theorem getFirstItem_none_iff (q : ItemsQueue T) : q.getFirstItem = none ↔ q.items = [] := by
  unfold getFirstItem
  split
  next nil => simp [nil]
  next first rest shape => simp [shape]

/-- The queue that the two ends of a ring buffer share. -/
def ofSpsc (s : Spsc T maxItemNum) (inv : s.Invariant) : ItemsQueue T :=
  ⟨s.contents, inv.contents_length ▸ inv.capacity⟩

/-- The atomic call on the queue that completes with an access, if any. -/
def AtomicCall (q q' : ItemsQueue T) : Option (Outcome T) → Prop
  | some .pushOk => ∃ item, q.writeFreeItem item = .ok q'
  | some .pushErr => q' = q ∧ ∀ item, q.writeFreeItem item = .error ()
  | some (.popSome item) => q.getFirstItem = some (item, q')
  | some .popNone => q' = q ∧ q.getFirstItem = none
  | none => q' = q

/-- Every access of the ring buffer is invisible or is one atomic call on the queue. -/
theorem access_refines_itemsQueue {s t : Spsc T maxItemNum} {a : Access T}
    {o : Option (Outcome T)} (inv : s.Invariant) (inv' : t.Invariant)
    (moved : s.access a = some (t, o)) : AtomicCall (ofSpsc s inv) (ofSpsc t inv') o := by
  have refined := Spsc.access_refines_queue inv moved
  cases o with
  | none => simpa [AtomicCall, ofSpsc, Spsc.QueueEffect] using refined
  | some outcome =>
    cases outcome with
    | pushOk =>
      -- the access that publishes is the atomic write
      obtain ⟨item, -, room, grown⟩ := refined
      exact ⟨item, by simp [writeFreeItem, ofSpsc, room, grown]⟩
    | pushErr =>
      refine ⟨?_, fun item => (writeFreeItem_error_iff _ _).mpr refined.1⟩
      simp [ofSpsc, refined.2]
    | popSome item =>
      -- the access that releases is the atomic read
      exact getFirstItem_cons refined
    | popNone =>
      refine ⟨?_, (getFirstItem_none_iff _).mpr refined.1⟩
      simp [ofSpsc, refined.1, refined.2]

end ItemsQueue

structure NewBuffer (T : Type) where
  recvReqStatus : Bool
  recvReplyStatus : Bool
  reqItems : ItemsQueue T
  resItems : ItemsQueue T

def NewBuffer.new {T : Type} : NewBuffer T := ⟨false, false, .new, .new⟩

end RootTask.Runtime
