import RootTask.Runtime.NewBuffer

/-!
# Thread-local state of the asynchronous library

`async_lib.rs`: next to its executor every thread has the interrupt vectors it registered,
the coroutine that each vector wakes, and one mailbox slot per coroutine id, through which
`wake_with_value` hands an item to a `yield_now`. Item type and future are parameters.
-/
namespace RootTask.Runtime

abbrev maxUintVec : Nat := 64

structure AsyncState (φ T : Type) where
  runtime : RuntimeState φ
  uintVecAllocator : IndexAllocator maxUintVec
  wakeMap : Nat → Option CoroutineId
  immediateValue : Nat → Option T

namespace AsyncState

variable {φ T : Type}

def init : AsyncState φ T := ⟨.init, .new, fun _ => none, fun _ => none⟩

/-- The executor of the thread. -/
abbrev executor (s : AsyncState φ T) : Executor φ := s.runtime.executor

def setExecutor (s : AsyncState φ T) (e : Executor φ) : AsyncState φ T :=
  { s with runtime := { s.runtime with executor := e } }

def registerRecvCid (s : AsyncState φ T) (cid : CoroutineId) : Option Nat × AsyncState φ T :=
  match s.uintVecAllocator.allocate with
  | some (vec, allocator) =>
    (some vec, { s with
      uintVecAllocator := allocator
      wakeMap := Function.update s.wakeMap vec (some cid) })
  | none => (none, s)

/-- `Err` is a panic, since `uintr_handler` unwraps it. -/
def wakeRecvCoroutine (s : AsyncState φ T) (vec : Nat) : Except Panic (AsyncState φ T) :=
  match s.wakeMap vec with
  | some cid => (s.executor.delayWake cid).map s.setExecutor
  | none => .error .unwrapErr

def wake (s : AsyncState φ T) (cid : CoroutineId) : Except Panic (AsyncState φ T) :=
  (s.executor.wake cid).map s.setExecutor

def wakeWithValue (s : AsyncState φ T) (cid : CoroutineId) (item : T) :
    Except Panic (AsyncState φ T) :=
  if cid.val < maxTaskNum then
    -- a value that is still in the slot is overwritten
    { s with immediateValue := Function.update s.immediateValue cid.val (some item) }.wake cid
  else .error .indexOutOfBounds

/-- What a resumed `yield_now` does: take the value in the slot of the current coroutine. -/
def takeValue (s : AsyncState φ T) : Except Panic (Option T × AsyncState φ T) :=
  match s.executor.current with
  | none => .error .unwrapNone
  | some cid =>
    if cid.val < maxTaskNum then
      -- `take` leaves the slot empty, also when nobody deposited anything
      .ok (s.immediateValue cid.val,
        { s with immediateValue := Function.update s.immediateValue cid.val none })
    else .error .indexOutOfBounds

/-! ### What the operations can do -/

theorem wake_ok {s t : AsyncState φ T} {cid : CoroutineId} (returned : s.wake cid = .ok t) :
    ∃ e, s.executor.wake cid = .ok e ∧ t = s.setExecutor e := by
  unfold wake at returned
  cases woken : s.executor.wake cid with
  | error p => simp [woken, Except.map] at returned
  | ok e =>
    simp only [woken, Except.map, Except.ok.injEq] at returned
    exact ⟨e, rfl, returned.symm⟩

theorem wakeWithValue_ok {s t : AsyncState φ T} {cid : CoroutineId} {item : T}
    (returned : s.wakeWithValue cid item = .ok t) :
    ∃ e, s.executor.wake cid = .ok e ∧ t = { s.setExecutor e with
      immediateValue := Function.update s.immediateValue cid.val (some item) } := by
  unfold wakeWithValue at returned
  split at returned
  · obtain ⟨e, woken, rfl⟩ := wake_ok returned
    exact ⟨e, woken, rfl⟩
  · cases returned

theorem wakeRecvCoroutine_ok {s t : AsyncState φ T} {vec : Nat}
    (returned : s.wakeRecvCoroutine vec = .ok t) :
    ∃ cid e, s.wakeMap vec = some cid ∧ s.executor.delayWake cid = .ok e ∧
      t = s.setExecutor e := by
  unfold wakeRecvCoroutine at returned
  split at returned
  next cid registered =>
    cases delayed : s.executor.delayWake cid with
    | error p => simp [delayed, Except.map] at returned
    | ok e =>
      simp only [delayed, Except.map, Except.ok.injEq] at returned
      exact ⟨cid, e, registered, delayed, returned.symm⟩
  · cases returned

theorem takeValue_ok {s t : AsyncState φ T} {value : Option T}
    (returned : s.takeValue = .ok (value, t)) :
    ∃ cid, s.executor.current = some cid ∧ value = s.immediateValue cid.val ∧
      t = { s with immediateValue := Function.update s.immediateValue cid.val none } := by
  unfold takeValue at returned
  split at returned
  · cases returned
  next cid current =>
    split at returned
    · cases returned
      exact ⟨cid, current, rfl, rfl⟩
    · cases returned

theorem registerRecvCid_eq {s t : AsyncState φ T} {cid : CoroutineId} {vec : Option Nat}
    (returned : s.registerRecvCid cid = (vec, t)) :
    (vec = none ∧ t = s) ∨ ∃ v allocator, vec = some v ∧ v < maxUintVec ∧
      s.uintVecAllocator.allocate = some (v, allocator) ∧ t = { s with
        uintVecAllocator := allocator
        wakeMap := Function.update s.wakeMap v (some cid) } := by
  unfold registerRecvCid at returned
  split at returned
  next v allocator granted =>
    cases returned
    exact .inr ⟨v, allocator, rfl, (IndexAllocator.allocate_some granted).1, granted, rfl⟩
  · cases returned
    exact .inl ⟨rfl, rfl⟩

end AsyncState

end RootTask.Runtime
