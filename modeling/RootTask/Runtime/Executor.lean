import Mathlib.Algebra.BigOperators.Ring.Finset
import RootTask.Runtime.Utils

/-!
# The coroutine executor

`coroutine.rs` and `executor.rs`: eight ready queues of coroutine ids, a bitmap of the
queues to look at, the task table, and the word of wake-ups that user interrupts leave
behind until the next flush. A future is opaque to the executor, so it is a type
parameter; the wakers are no-ops and left out.

Every operation has one inversion lemma that says all it can do. Later modules use these
and never unfold the operations.
-/
namespace RootTask.Runtime

abbrev maxTaskNum : Nat := 2048
abbrev maxPrioNum : Nat := 8
abbrev maxCidNum : Nat := 4096

@[ext]
structure CoroutineId where
  val : Nat
  deriving DecidableEq, Repr, Inhabited

/-- A list of distinct ids with slots in the task table is no longer than the table. -/
theorem length_le_maxTaskNum {cids : List CoroutineId} (nodup : cids.Nodup)
    (bound : ∀ c ∈ cids, c.val < maxTaskNum) : cids.length ≤ maxTaskNum := by
  have distinct : (cids.map CoroutineId.val).Nodup := nodup.map fun _ _ => CoroutineId.ext
  have inTable : cids.map CoroutineId.val ⊆ List.range maxTaskNum := by
    intro i member
    obtain ⟨c, inList, rfl⟩ := List.mem_map.mp member
    exact List.mem_range.mpr (bound c inList)
  simpa using (distinct.subperm inTable).length_le

structure Coroutine (φ : Type) where
  cid : CoroutineId
  prio : Nat
  future : φ
  deriving DecidableEq, Repr

structure Executor (φ : Type) where
  readyQueue : Nat → RingBuffer CoroutineId maxTaskNum
  prioBitmap : BitMap64
  coroutineNum : Nat
  current : Option CoroutineId
  tasks : Nat → Option (Coroutine φ)
  delayWakeCids : BitVec 64
  tasksBak : List (Coroutine φ)

namespace Executor

variable {φ : Type}

def new : Executor φ where
  readyQueue := fun _ => .new
  prioBitmap := .new
  coroutineNum := 0
  current := none
  tasks := fun _ => none
  delayWakeCids := 0
  tasksBak := []

def isEmpty (e : Executor φ) : Bool := e.coroutineNum == 0

/-- `prio_bitmap.set(prio); ready_queue[prio].push(&cid).unwrap()`, as `spawn` and `wake`
both have it. -/
def enqueue (e : Executor φ) (prio : Nat) (cid : CoroutineId) : Except Panic (Executor φ) :=
  match e.prioBitmap.set prio with
  | .error p => .error p
  | .ok bitmap =>
    if prio < maxPrioNum then
      match (e.readyQueue prio).push cid with
      | .error _ => .error .unwrapErr
      | .ok q =>
        .ok { e with prioBitmap := bitmap, readyQueue := Function.update e.readyQueue prio q }
    else .error .indexOutOfBounds

/-- A dead coroutine is not woken: the missing task is silently skipped. -/
def wake (e : Executor φ) (cid : CoroutineId) : Except Panic (Executor φ) :=
  if cid.val < maxTaskNum then
    match e.tasks cid.val with
    | some task => e.enqueue task.prio cid
    | none => .ok e
  else .error .indexOutOfBounds

def delayWake (e : Executor φ) (cid : CoroutineId) : Except Panic (Executor φ) :=
  if cid.val < 64 then
    .ok { e with delayWakeCids := e.delayWakeCids ||| (1#64 <<< cid.val) }
  else .error .assertFailed

/-- The loop of `actual_wake`. The mask is both shifted and cleared by absolute index; 64
shifts empty it, so 64 rounds of fuel suffice. -/
def actualWakeLoop : Nat → Nat → BitVec 64 → Executor φ → Except Panic (Executor φ)
  | 0, _, _, e => .ok e
  | fuel + 1, index, mask, e =>
    if mask = 0 then .ok e
    else if mask &&& 1 ≠ 0 then
      -- after the shifts so far, position `index` is no longer that of coroutine `index`
      (e.wake ⟨index⟩).bind fun e =>
        actualWakeLoop fuel (index + 1) ((mask &&& ~~~(1#64 <<< index)) >>> 1) e
    else actualWakeLoop fuel (index + 1) (mask >>> 1) e

def actualWake (e : Executor φ) : Except Panic (Executor φ) :=
  actualWakeLoop 64 0 e.delayWakeCids { e with delayWakeCids := 0 }

def switchPossible (e : Executor φ) : Except Panic (Bool × Executor φ) :=
  e.actualWake.bind fun e =>
    match e.current with
    | none => .error .unwrapNone
    | some cid =>
      if cid.val < maxTaskNum then
        match e.tasks cid.val with
        | none => .error .unwrapNone
        -- a smaller number is more urgent; with no bit set the search gives 64
        | some task => .ok (decide (e.prioBitmap.findFirstOne < task.prio), e)
      else .error .indexOutOfBounds

def fetch (e : Executor φ) : Except Panic (Option (Coroutine φ) × Executor φ) :=
  e.actualWake.bind fun e =>
    let prio := e.prioBitmap.findFirstOne
    -- `trailing_zeros` of 0
    if prio = 64 then .ok (none, e)
    else if prio < maxPrioNum then
      match (e.readyQueue prio).pop with
      | none => .ok (none, e)
      | some (cid, q) =>
        let e := { e with readyQueue := Function.update e.readyQueue prio q }
        if cid.val < maxTaskNum then
          match e.tasks cid.val with
          -- a stale entry: the bit of `prio` stays set even if this was the last entry
          | none => .ok (none, e)
          | some task =>
            let e := { e with current := some cid }
            if q.empty then
              match e.prioBitmap.clear prio with
              | .error p => .error p
              | .ok bitmap => .ok (some task, { e with prioBitmap := bitmap })
            else .ok (some task, e)
        else .error .indexOutOfBounds
    else .error .indexOutOfBounds

end Executor

/-- The executor of a thread together with its thread-local `CID_ALLOCATOR`. -/
structure RuntimeState (φ : Type) where
  executor : Executor φ
  cidAllocator : IndexAllocator maxCidNum

namespace RuntimeState

variable {φ : Type}

/-- The state after `runtime_init`. -/
def init : RuntimeState φ := ⟨.new, .new⟩

def spawn (r : RuntimeState φ) (future : φ) (prio : Nat) : Except Panic (CoroutineId × RuntimeState φ) :=
  match r.cidAllocator.allocate with
  | none => .error .unwrapNone
  | some (index, allocator) =>
    let task : Coroutine φ := ⟨⟨index⟩, prio, future⟩
    (r.executor.enqueue prio task.cid).bind fun e =>
      if task.cid.val < maxTaskNum then
        .ok (task.cid, {
          executor := { e with
            tasks := Function.update e.tasks task.cid.val (some task)
            coroutineNum := e.coroutineNum + 1
            tasksBak := e.tasksBak ++ [task] }
          cidAllocator := allocator })
      else .error .indexOutOfBounds

def removeTask (r : RuntimeState φ) (cid : CoroutineId) : Except Panic (RuntimeState φ) :=
  if cid.val < maxTaskNum then
    -- `coroutine_num -= 1` with overflow checks
    if r.executor.coroutineNum = 0 then .error .overflow
    else
      (r.cidAllocator.release cid.val).bind fun allocator =>
        .ok {
          executor := { r.executor with
            tasks := Function.update r.executor.tasks cid.val none
            coroutineNum := r.executor.coroutineNum - 1 }
          cidAllocator := allocator }
  else .error .indexOutOfBounds

end RuntimeState

/-! ### What the operations can do -/

namespace Executor

variable {φ : Type}

/-- The ids waiting at one priority, oldest first. -/
def queue (e : Executor φ) (p : Nat) : List CoroutineId := (e.readyQueue p).toList

/-- The bit of one priority. -/
def bit (e : Executor φ) (p : Nat) : Bool := e.prioBitmap.data.getLsbD p

/-- Everything but the ready queues and their bitmap. -/
structure SameTasks (e e' : Executor φ) : Prop where
  tasks : e'.tasks = e.tasks
  coroutineNum : e'.coroutineNum = e.coroutineNum
  tasksBak : e'.tasksBak = e.tasksBak

theorem SameTasks.trans {a b c : Executor φ} (ab : SameTasks a b) (bc : SameTasks b c) :
    SameTasks a c :=
  ⟨bc.tasks.trans ab.tasks, bc.coroutineNum.trans ab.coroutineNum, bc.tasksBak.trans ab.tasksBak⟩

/-- `e'` is `e` with `cid` appended at priority `prio`. -/
structure Enqueued (e : Executor φ) (prio : Nat) (cid : CoroutineId) (e' : Executor φ) : Prop
    extends SameTasks e e' where
  prio_lt : prio < maxPrioNum
  queue_eq : e'.queue = Function.update e.queue prio (e.queue prio ++ [cid])
  bit_eq : ∀ p, e'.bit p = (e.bit p || decide (prio = p))
  current : e'.current = e.current
  delayWakeCids : e'.delayWakeCids = e.delayWakeCids

theorem queue_update (e : Executor φ) (p : Nat) (q : RingBuffer CoroutineId maxTaskNum) :
    queue { e with readyQueue := Function.update e.readyQueue p q } =
      Function.update e.queue p q.toList := by
  funext p'
  by_cases same : p' = p
  · subst same; simp [queue]
  · simp [queue, Function.update_of_ne same]

theorem enqueue_ok {e e' : Executor φ} {prio : Nat} {cid : CoroutineId}
    (returned : e.enqueue prio cid = .ok e') : e.Enqueued prio cid e' := by
  unfold enqueue at returned
  split at returned
  · cases returned
  next bitmap marked =>
    split at returned
    next bound =>
      split at returned
      · cases returned
      next q pushed =>
        cases returned
        refine ⟨⟨rfl, rfl, rfl⟩, bound, ?_, (BitMap64.set_ok marked).2, rfl, rfl⟩
        rw [queue, ← RingBuffer.push_ok pushed]
        exact queue_update e prio q
    · cases returned

theorem wake_ok {e e' : Executor φ} {cid : CoroutineId} (returned : e.wake cid = .ok e') :
    cid.val < maxTaskNum ∧
    ((e.tasks cid.val = none ∧ e' = e) ∨
      ∃ task, e.tasks cid.val = some task ∧ e.Enqueued task.prio cid e') := by
  unfold wake at returned
  split at returned
  next bound =>
    refine ⟨bound, ?_⟩
    cases live : e.tasks cid.val with
    | none => simp only [live, Except.ok.injEq] at returned; exact .inl ⟨rfl, returned.symm⟩
    | some task =>
      simp only [live] at returned
      exact .inr ⟨task, rfl, enqueue_ok returned⟩
  · cases returned

/-- A push fails only when one slot is left. -/
theorem enqueue_total {e : Executor φ} {prio : Nat} (cid : CoroutineId) (bound : prio < maxPrioNum)
    (room : (e.queue prio).length + 1 ≠ maxTaskNum) : ∃ e', e.enqueue prio cid = .ok e' := by
  have inWord : prio < 64 := Nat.lt_trans bound (by decide)
  cases pushed : (e.readyQueue prio).push cid with
  | error u =>
    exact absurd ((RingBuffer.push_error_iff _ cid).mp ⟨u, pushed⟩) room
  | ok q =>
    simp only [enqueue, BitMap64.set, if_pos inWord, if_pos bound, pushed]
    exact ⟨_, rfl⟩

theorem wake_total {e : Executor φ} {cid : CoroutineId} {task : Coroutine φ}
    (inTable : cid.val < maxTaskNum) (live : e.tasks cid.val = some task)
    (bound : task.prio < maxPrioNum) (room : (e.queue task.prio).length + 1 ≠ maxTaskNum) :
    ∃ e', e.wake cid = .ok e' := by
  obtain ⟨e', queued⟩ := enqueue_total cid bound room
  exact ⟨e', by simp only [wake, if_pos inTable, live, queued]⟩

theorem delayWake_ok {e e' : Executor φ} {cid : CoroutineId}
    (returned : e.delayWake cid = .ok e') :
    cid.val < 64 ∧ e' = { e with delayWakeCids := e.delayWakeCids ||| (1#64 <<< cid.val) } := by
  unfold delayWake at returned
  split at returned
  next bound => cases returned; exact ⟨bound, rfl⟩
  · cases returned

/-! ### The flush of delayed wake-ups -/

/-- The ids that the loop of `actual_wake` wakes, in order. -/
def delayedFrom : Nat → Nat → BitVec 64 → List CoroutineId
  | 0, _, _ => []
  | fuel + 1, index, mask =>
    if mask = 0 then []
    else if mask &&& 1 ≠ 0 then
      ⟨index⟩ :: delayedFrom fuel (index + 1) ((mask &&& ~~~(1#64 <<< index)) >>> 1)
    else delayedFrom fuel (index + 1) (mask >>> 1)

def delayedCids (mask : BitVec 64) : List CoroutineId := delayedFrom 64 0 mask

/-- Several wakes in a row. -/
def wakeAll : List CoroutineId → Executor φ → Except Panic (Executor φ)
  | [], e => .ok e
  | cid :: rest, e => (e.wake cid).bind (wakeAll rest)

theorem wakeAll_singleton (cid : CoroutineId) (e : Executor φ) : wakeAll [cid] e = e.wake cid := by
  simp only [wakeAll]
  cases e.wake cid <;> rfl

theorem actualWakeLoop_eq (fuel index : Nat) (mask : BitVec 64) (e : Executor φ) :
    actualWakeLoop fuel index mask e = wakeAll (delayedFrom fuel index mask) e := by
  induction fuel generalizing index mask e with
  | zero => rfl
  | succ fuel ih =>
    simp only [actualWakeLoop, delayedFrom]
    split
    · rfl
    · split
      · simp only [wakeAll, ih]
      · exact ih _ _ _

theorem actualWake_eq (e : Executor φ) :
    e.actualWake = wakeAll (delayedCids e.delayWakeCids) { e with delayWakeCids := 0 } :=
  actualWakeLoop_eq _ _ _ _

theorem and_one_ne_zero {mask : BitVec 64} (odd : mask &&& 1 ≠ 0) :
    mask.getLsbD 0 = true := by
  by_contra even
  refine odd ((and_bit_eq_zero mask 0).mpr fun _ => ?_)
  simpa using even

/-- Only an id whose bit was set is woken, although the clearing by absolute index may lose
others. -/
theorem delayedFrom_sound (fuel index : Nat) (mask : BitVec 64) (cid : CoroutineId)
    (member : cid ∈ delayedFrom fuel index mask) :
    ∃ k, cid.val = index + k ∧ mask.getLsbD k = true := by
  induction fuel generalizing index mask with
  | zero => simp [delayedFrom] at member
  | succ fuel ih =>
    simp only [delayedFrom] at member
    split at member
    · simp at member
    · split at member
      next odd =>
        rcases List.mem_cons.mp member with rfl | later
        · exact ⟨0, rfl, and_one_ne_zero odd⟩
        · obtain ⟨k, at_k, set⟩ := ih _ _ later
          rw [BitVec.getLsbD_ushiftRight, getLsbD_and_not_bit, Bool.and_eq_true] at set
          exact ⟨1 + k, by omega, set.1⟩
      · obtain ⟨k, at_k, set⟩ := ih _ _ member
        rw [BitVec.getLsbD_ushiftRight] at set
        exact ⟨1 + k, by omega, set⟩

theorem delayedCids_sound {mask : BitVec 64} {cid : CoroutineId}
    (member : cid ∈ delayedCids mask) : mask.getLsbD cid.val = true := by
  obtain ⟨k, at_k, set⟩ := delayedFrom_sound 64 0 mask cid member
  simpa [at_k] using set

theorem delayedFrom_zero (fuel index : Nat) : delayedFrom fuel index 0 = [] := by
  cases fuel <;> rfl

/-- A single delayed wake-up is not lost. -/
theorem delayedFrom_single (fuel index k : Nat) (mask : BitVec 64) (bound : k < fuel)
    (inWord : k < 64) (single : ∀ i < 64, mask.getLsbD i = decide (i = k)) :
    delayedFrom fuel index mask = [⟨index + k⟩] := by
  induction fuel generalizing index k mask with
  | zero => omega
  | succ fuel ih =>
    have nonzero : mask ≠ 0 := by
      rintro rfl
      have bit := single k inWord
      simp at bit
    -- the loop wakes in this round exactly if the single bit is at position 0
    have parity : mask &&& 1 ≠ 0 ↔ k = 0 := by
      have bit := and_bit_eq_zero mask 0
      have first := single 0 (by omega)
      simp only [BitVec.shiftLeft_zero, first] at bit
      rw [Ne, not_iff_comm]
      refine Iff.trans ?_ bit.symm
      simp [eq_comm]
    simp only [delayedFrom, if_neg nonzero]
    cases k with
    | zero =>
      rw [if_pos (parity.mpr rfl)]
      -- the only bit is shifted out, whatever the clearing does
      have rest : (mask &&& ~~~(1#64 <<< index)) >>> 1 = 0 := by
        ext i range
        have beyond : mask.getLsbD (1 + i) = false := by
          by_cases inRange : 1 + i < 64
          · simpa using single (1 + i) inRange
          · exact BitVec.getLsbD_of_ge _ _ (by omega)
        simp only [← BitVec.getLsbD_eq_getElem, BitVec.getLsbD_ushiftRight,
          getLsbD_and_not_bit, beyond]
        simp
      rw [rest, delayedFrom_zero]
      rfl
    | succ k =>
      rw [if_neg (mt parity.mp (Nat.succ_ne_zero k))]
      rw [ih (index + 1) k (mask >>> 1) (by omega) (by omega)]
      · simp; omega
      · intro i range
        rw [BitVec.getLsbD_ushiftRight]
        by_cases inRange : 1 + i < 64
        · rw [single (1 + i) inRange]
          exact decide_eq_decide.mpr (by omega)
        · rw [BitVec.getLsbD_of_ge _ _ (by omega)]
          exact (decide_eq_false (by omega)).symm

theorem delayedCids_single {mask : BitVec 64} {cid : CoroutineId} (set : mask.getLsbD cid.val)
    (only : ∀ i, mask.getLsbD i = true → i = cid.val) : delayedCids mask = [cid] := by
  have inWord : cid.val < 64 := BitVec.lt_of_getLsbD set
  have single : ∀ i < 64, mask.getLsbD i = decide (i = cid.val) := by
    intro i _
    by_cases same : i = cid.val
    · simp [same, set]
    · simpa [same] using fun isSet => same (only i isSet)
  rw [delayedCids, delayedFrom_single 64 0 cid.val mask inWord inWord single, Nat.zero_add]

/-- What one wake preserves, a sequence of wakes preserves. -/
theorem wakeAll_induct {cids : List CoroutineId} {e e' : Executor φ} (inv : Executor φ → Prop)
    (initial : inv e)
    (preserved : ∀ e₁ e₂ cid, cid ∈ cids → inv e₁ → e₁.wake cid = .ok e₂ → inv e₂)
    (returned : wakeAll cids e = .ok e') : inv e' := by
  induction cids generalizing e with
  | nil => cases returned; exact initial
  | cons cid rest ih =>
    simp only [wakeAll] at returned
    cases woken : e.wake cid with
    | error p => simp [woken, Except.bind] at returned
    | ok next =>
      simp only [woken, Except.bind] at returned
      exact ih (preserved e next cid List.mem_cons_self initial woken)
        (fun e₁ e₂ c member => preserved e₁ e₂ c (List.mem_cons_of_mem _ member)) returned

/-- What one wake preserves, a flush preserves. -/
theorem actualWake_induct {e e' : Executor φ} (inv : Executor φ → Prop)
    (initial : inv { e with delayWakeCids := 0 })
    (preserved : ∀ e₁ e₂ cid, e.delayWakeCids.getLsbD cid.val = true → inv e₁ →
      e₁.wake cid = .ok e₂ → inv e₂)
    (returned : e.actualWake = .ok e') : inv e' := by
  -- the mask was read before the loop, so all that is woken stood in it
  rw [actualWake_eq] at returned
  exact wakeAll_induct inv initial
    (fun e₁ e₂ cid member => preserved e₁ e₂ cid (delayedCids_sound member)) returned

/-- A flush changes only the ready queues, their bitmap and the emptied mask. -/
theorem actualWake_same {e e' : Executor φ} (returned : e.actualWake = .ok e') :
    SameTasks e e' ∧ e'.current = e.current ∧ e'.delayWakeCids = 0 := by
  refine actualWake_induct
    (fun x => SameTasks e x ∧ x.current = e.current ∧ x.delayWakeCids = 0)
    ⟨⟨rfl, rfl, rfl⟩, rfl, rfl⟩ ?_ returned
  rintro e₁ e₂ cid - ⟨same, current, mask⟩ woken
  rcases (wake_ok woken).2 with ⟨-, rfl⟩ | ⟨task, -, grown⟩
  · exact ⟨same, current, mask⟩
  · exact ⟨same.trans grown.toSameTasks, grown.current.trans current,
      grown.delayWakeCids.trans mask⟩

/-- `e'` is `e` with further entries, each for a live coroutine of `woken` and in the queue
of its priority. -/
structure Grown (e e' : Executor φ) (woken : CoroutineId → Prop) : Prop
    extends SameTasks e e' where
  appended : ∀ p, ∃ added, e'.queue p = e.queue p ++ added ∧
    ∀ cid ∈ added, woken cid ∧ ∃ task, e.tasks cid.val = some task ∧ task.prio = p
  current : e'.current = e.current

theorem Grown.refl (e : Executor φ) (woken : CoroutineId → Prop) : Grown e e woken :=
  ⟨⟨rfl, rfl, rfl⟩, fun _ => ⟨[], by simp⟩, rfl⟩

theorem Grown.trans {a b c : Executor φ} {woken : CoroutineId → Prop} (ab : Grown a b woken)
    (bc : Grown b c woken) : Grown a c woken := by
  refine ⟨ab.toSameTasks.trans bc.toSameTasks, fun p => ?_, bc.current.trans ab.current⟩
  obtain ⟨first, isFirst, firstOk⟩ := ab.appended p
  obtain ⟨second, isSecond, secondOk⟩ := bc.appended p
  -- the second batch is about the tasks of `b`, which are those of `a`
  refine ⟨first ++ second, by rw [isSecond, isFirst, List.append_assoc], fun cid member => ?_⟩
  rcases List.mem_append.mp member with old | new
  · exact firstOk cid old
  · rw [← ab.tasks]
    exact secondOk cid new

theorem Grown.mono {e e' : Executor φ} {woken weaker : CoroutineId → Prop}
    (grown : Grown e e' woken) (imp : ∀ cid, woken cid → weaker cid) : Grown e e' weaker := by
  refine ⟨grown.toSameTasks, fun p => ?_, grown.current⟩
  obtain ⟨added, appended, addedOk⟩ := grown.appended p
  exact ⟨added, appended, fun cid member => (addedOk cid member).imp_left (imp cid)⟩

theorem wake_grown {e e' : Executor φ} {cid : CoroutineId} (returned : e.wake cid = .ok e') :
    Grown e e' (· = cid) := by
  rcases (wake_ok returned).2 with ⟨-, rfl⟩ | ⟨task, live, grown⟩
  · exact .refl _ _
  · refine ⟨grown.toSameTasks, fun p => ?_, grown.current⟩
    rw [grown.queue_eq]
    by_cases same : p = task.prio
    · subst same
      refine ⟨[cid], Function.update_self .., fun c member => ?_⟩
      obtain rfl := List.mem_singleton.mp member
      exact ⟨rfl, task, live, rfl⟩
    · exact ⟨[], by simp [Function.update_of_ne same], by simp⟩

theorem wake_delayWakeCids {e e' : Executor φ} {cid : CoroutineId}
    (returned : e.wake cid = .ok e') : e'.delayWakeCids = e.delayWakeCids := by
  rcases (wake_ok returned).2 with ⟨-, rfl⟩ | ⟨task, -, grown⟩
  · rfl
  · exact grown.delayWakeCids

/-- A flush wakes only coroutines whose delayed bit was set. -/
theorem actualWake_grown {e e' : Executor φ} (returned : e.actualWake = .ok e') :
    Grown e e' fun cid => e.delayWakeCids.getLsbD cid.val = true := by
  refine actualWake_induct (fun x => Grown e x _) ⟨⟨rfl, rfl, rfl⟩, fun _ => ⟨[], ?_⟩, rfl⟩ ?_
    returned
  · exact ⟨(List.append_nil _).symm, by simp⟩
  · intro e₁ e₂ cid set before woken
    exact before.trans ((wake_grown woken).mono fun _ same => same ▸ set)

theorem switchPossible_ok {e e' : Executor φ} {possible : Bool}
    (returned : e.switchPossible = .ok (possible, e')) :
    e.actualWake = .ok e' ∧ ∃ cid task, e'.current = some cid ∧ e'.tasks cid.val = some task ∧
      possible = decide (e'.prioBitmap.findFirstOne < task.prio) := by
  unfold switchPossible at returned
  cases flushed : e.actualWake with
  | error p => simp [flushed, Except.bind] at returned
  | ok next =>
    simp only [flushed, Except.bind] at returned
    split at returned
    · cases returned
    next cid current =>
      split at returned
      · split at returned
        · cases returned
        next task live => cases returned; exact ⟨rfl, cid, task, current, live, rfl⟩
      · cases returned

/-! ### `fetch` -/

/-- `e'` is `e` without the front entry at priority `p`. -/
structure Popped (e : Executor φ) (p : Nat) (cid : CoroutineId) (e' : Executor φ) : Prop
    extends SameTasks e e' where
  cid_lt : cid.val < maxTaskNum
  front : e.queue p = cid :: e'.queue p
  others : ∀ p' ≠ p, e'.queue p' = e.queue p'
  delayWakeCids : e'.delayWakeCids = e.delayWakeCids

/-- The four ways in which `fetch` ends, after its flush. -/
inductive FetchResult (e : Executor φ) : Option (Coroutine φ) → Executor φ → Prop
  | noBit (clear : ∀ p, e.bit p = false) : FetchResult e none e
  | noEntry (p : Nat) (bound : p < maxPrioNum) (set : e.bit p = true)
      (least : ∀ i < p, e.bit i = false) (empty : e.queue p = []) : FetchResult e none e
  | stale (p : Nat) (cid : CoroutineId) (e' : Executor φ) (bound : p < maxPrioNum)
      (set : e.bit p = true) (least : ∀ i < p, e.bit i = false) (popped : e.Popped p cid e')
      (dead : e.tasks cid.val = none) (bits : ∀ i, e'.bit i = e.bit i)
      (current : e'.current = e.current) : FetchResult e none e'
  | polled (p : Nat) (cid : CoroutineId) (task : Coroutine φ) (e' : Executor φ)
      (bound : p < maxPrioNum) (set : e.bit p = true) (least : ∀ i < p, e.bit i = false)
      (popped : e.Popped p cid e') (live : e.tasks cid.val = some task)
      (bits : ∀ i, e'.bit i = (e.bit i && !decide (e'.queue p = [] ∧ p = i)))
      (current : e'.current = some cid) : FetchResult e (some task) e'

private theorem popped_of_pop {e : Executor φ} {p : Nat} {cid : CoroutineId}
    {q : RingBuffer CoroutineId maxTaskNum} (taken : (e.readyQueue p).pop = some (cid, q))
    (bound : cid.val < maxTaskNum) :
    e.Popped p cid { e with readyQueue := Function.update e.readyQueue p q } := by
  have views := queue_update e p q
  refine ⟨⟨rfl, rfl, rfl⟩, bound, ?_, ?_, rfl⟩
  · rw [views, Function.update_self]
    exact RingBuffer.pop_some taken
  · intro p' different
    rw [views, Function.update_of_ne different]

theorem fetch_ok {e e' : Executor φ} {r : Option (Coroutine φ)}
    (returned : e.fetch = .ok (r, e')) :
    ∃ flushed, e.actualWake = .ok flushed ∧ flushed.FetchResult r e' := by
  unfold fetch at returned
  cases woken : e.actualWake with
  | error p => simp [woken, Except.bind] at returned
  | ok f =>
    refine ⟨f, rfl, ?_⟩
    simp only [woken, Except.bind] at returned
    -- the search decides between `noBit` and the other three results
    rcases f.prioBitmap.findFirstOne_cases with ⟨none_, clear⟩ | ⟨below, set, least⟩
    · rw [if_pos none_] at returned
      cases returned
      exact .noBit clear
    · rw [if_neg (by omega)] at returned
      split at returned
      next bound =>
        split at returned
        next drained =>
          cases returned
          exact .noEntry _ bound set least ((RingBuffer.pop_none_iff _).mp drained)
        next cid q taken =>
          split at returned
          next inTable =>
            have popped := popped_of_pop taken inTable
            split at returned
            next dead =>
              cases returned
              exact .stale _ cid _ bound set least popped dead (fun _ => rfl) rfl
            next task live =>
              -- the test of the code is about the ring, the result about its list
              have drained : q.empty = true ↔
                  queue { f with readyQueue :=
                    Function.update f.readyQueue f.prioBitmap.findFirstOne q }
                    f.prioBitmap.findFirstOne = [] := by
                rw [queue_update, Function.update_self, RingBuffer.empty_iff]
              split at returned
              next empty =>
                split at returned
                · cases returned
                next bitmap cleared =>
                  cases returned
                  refine .polled _ cid task _ bound set least
                    ⟨⟨rfl, rfl, rfl⟩, popped.cid_lt, popped.front, popped.others, rfl⟩ live ?_ rfl
                  intro i
                  have bits := BitMap64.clear_ok cleared i
                  simp only [bit] at bits ⊢
                  rw [bits]
                  congr 2
                  have nil : queue _ f.prioBitmap.findFirstOne = [] := drained.mp empty
                  exact decide_eq_decide.mpr ⟨fun same => ⟨nil, same⟩, fun both => both.2⟩
              next occupied =>
                cases returned
                refine .polled _ cid task _ bound set least
                  ⟨⟨rfl, rfl, rfl⟩, popped.cid_lt, popped.front, popped.others, rfl⟩ live ?_ rfl
                intro i
                have nonempty := fun nil => occupied (drained.mpr nil)
                simp only [bit]
                rw [decide_eq_false fun both => nonempty both.1]
                simp
          · cases returned
      · cases returned

theorem fetch_same {e e' : Executor φ} {r : Option (Coroutine φ)}
    (returned : e.fetch = .ok (r, e')) : SameTasks e e' ∧ e'.delayWakeCids = 0 := by
  obtain ⟨f, flushed, result⟩ := fetch_ok returned
  obtain ⟨same, -, mask⟩ := actualWake_same flushed
  cases result with
  | noBit _ => exact ⟨same, mask⟩
  | noEntry _ _ _ _ _ => exact ⟨same, mask⟩
  | stale _ _ _ _ _ _ popped _ _ _ =>
    exact ⟨same.trans popped.toSameTasks, popped.delayWakeCids.trans mask⟩
  | polled _ _ _ _ _ _ _ popped _ _ _ =>
    exact ⟨same.trans popped.toSameTasks, popped.delayWakeCids.trans mask⟩

/-! ### Counting entries -/

/-- How often an id stands in the ready queues. -/
def entries (e : Executor φ) (cid : CoroutineId) : Nat :=
  ∑ p ∈ Finset.range maxPrioNum, (e.queue p).count cid

private theorem entries_update (e e' : Executor φ) (cid : CoroutineId) {p : Nat}
    (bound : p < maxPrioNum) (others : ∀ i ≠ p, (e'.queue i).count cid = (e.queue i).count cid) :
    e'.entries cid + (e.queue p).count cid = e.entries cid + (e'.queue p).count cid := by
  -- split off the one queue that changes
  have inRange := Finset.mem_range.mpr bound
  unfold entries
  rw [← Finset.add_sum_erase _ _ inRange,
    ← Finset.add_sum_erase _ (fun i => (e.queue i).count cid) inRange,
    Finset.sum_congr rfl fun i member => others i (Finset.ne_of_mem_erase member)]
  omega

private theorem ite_beq_comm (c cid : CoroutineId) :
    (if (cid == c) = true then 1 else 0) = if c = cid then 1 else 0 := by
  by_cases same : c = cid
  · simp [same]
  · simp [same, Ne.symm same]

theorem Enqueued.entries {e e' : Executor φ} {prio : Nat} {cid : CoroutineId}
    (grown : e.Enqueued prio cid e') (c : CoroutineId) :
    e'.entries c = e.entries c + if c = cid then 1 else 0 := by
  have balance := entries_update e e' c grown.prio_lt (fun i different => by
    rw [grown.queue_eq, Function.update_of_ne different])
  rw [grown.queue_eq, Function.update_self, List.count_append, List.count_singleton,
    ite_beq_comm] at balance
  omega

theorem Popped.entries {e e' : Executor φ} {p : Nat} {cid : CoroutineId}
    (popped : e.Popped p cid e') (bound : p < maxPrioNum) (c : CoroutineId) :
    e.entries c = e'.entries c + if c = cid then 1 else 0 := by
  have balance := entries_update e e' c bound (fun i different => by
    rw [popped.others i different])
  rw [popped.front, List.count_cons, ite_beq_comm] at balance
  omega

/-- Wake-ups of other coroutines add no entry of this one. -/
theorem Grown.entries {e e' : Executor φ} {woken : CoroutineId → Prop} {c : CoroutineId}
    (grown : e.Grown e' woken) (other : ¬ woken c) : e'.entries c = e.entries c := by
  unfold Executor.entries
  refine Finset.sum_congr rfl fun p _ => ?_
  obtain ⟨added, appended, addedOk⟩ := grown.appended p
  have absent : c ∉ added := fun member => other (addedOk c member).1
  rw [appended, List.count_append, List.count_eq_zero_of_not_mem absent, Nat.add_zero]

end Executor

namespace RuntimeState

variable {φ : Type}

theorem spawn_ok {r r' : RuntimeState φ} {future : φ} {prio : Nat} {cid : CoroutineId}
    (returned : r.spawn future prio = .ok (cid, r')) :
    cid.val < maxTaskNum ∧
    r.cidAllocator.allocate = some (cid.val, r'.cidAllocator) ∧
    ∃ e, r.executor.Enqueued prio cid e ∧ r'.executor = { e with
      tasks := Function.update e.tasks cid.val (some ⟨cid, prio, future⟩)
      coroutineNum := e.coroutineNum + 1
      tasksBak := e.tasksBak ++ [⟨cid, prio, future⟩] } := by
  unfold spawn at returned
  split at returned
  · cases returned
  next index allocator generated =>
    cases queued : r.executor.enqueue prio ⟨index⟩ with
    | error p => simp [queued, Except.bind] at returned
    | ok e =>
      simp only [queued, Except.bind] at returned
      split at returned
      next bound =>
        cases returned
        exact ⟨bound, generated, e, Executor.enqueue_ok queued, rfl⟩
      · cases returned

theorem removeTask_ok {r r' : RuntimeState φ} {cid : CoroutineId}
    (returned : r.removeTask cid = .ok r') :
    cid.val < maxTaskNum ∧ 0 < r.executor.coroutineNum ∧
    r.cidAllocator.release cid.val = .ok r'.cidAllocator ∧
    r'.executor = { r.executor with
      tasks := Function.update r.executor.tasks cid.val none
      coroutineNum := r.executor.coroutineNum - 1 } := by
  unfold removeTask at returned
  split at returned
  next bound =>
    split at returned
    · cases returned
    next counted =>
      cases freed : r.cidAllocator.release cid.val with
      | error p => simp [freed, Except.bind] at returned
      | ok allocator =>
        simp only [freed, Except.bind, Except.ok.injEq] at returned
        subst returned
        exact ⟨bound, by omega, rfl, rfl⟩
  · cases returned

/-- A live task is filed under its own id, and the allocator knows the id is taken. -/
def TableOk (r : RuntimeState φ) : Prop :=
  ∀ i task, r.executor.tasks i = some task →
    task.cid.val = i ∧ r.cidAllocator.free i = false

theorem tableOk_init : (init : RuntimeState φ).TableOk := by
  simp [TableOk, init, Executor.new]

theorem TableOk.cid {r : RuntimeState φ} {cid : CoroutineId} {task : Coroutine φ}
    (ok : r.TableOk) (live : r.executor.tasks cid.val = some task) : task.cid = cid :=
  CoroutineId.ext (ok _ _ live).1

theorem TableOk.sameTasks {r : RuntimeState φ} {e : Executor φ} (ok : r.TableOk)
    (same : r.executor.SameTasks e) : TableOk { r with executor := e } :=
  fun i task live => ok i task (same.tasks ▸ live)

theorem TableOk.fetch_current {r : RuntimeState φ} {e : Executor φ} {task : Coroutine φ}
    (ok : r.TableOk) (fetched : r.executor.fetch = .ok (some task, e)) :
    e.current = some task.cid := by
  obtain ⟨f, flushed, result⟩ := Executor.fetch_ok fetched
  have tasks := (Executor.actualWake_same flushed).1.tasks
  cases result with
  | polled p cid _ _ _ _ _ _ found _ current => rw [current, ok.cid (tasks ▸ found)]

/-- A spawn gets an id that no live task has. -/
theorem TableOk.fresh {r r' : RuntimeState φ} {future : φ} {prio : Nat} {cid : CoroutineId}
    (ok : r.TableOk) (spawned : r.spawn future prio = .ok (cid, r')) :
    r.executor.tasks cid.val = none := by
  obtain ⟨-, allocated, -⟩ := spawn_ok spawned
  -- an id in the table is marked, and `allocate` returns an unmarked one
  obtain ⟨-, free, -⟩ := IndexAllocator.allocate_some allocated
  cases live : r.executor.tasks cid.val with
  | none => rfl
  | some task => simp [(ok _ _ live).2] at free

theorem spawn_tasks {r r' : RuntimeState φ} {future : φ} {prio : Nat} {cid : CoroutineId}
    (spawned : r.spawn future prio = .ok (cid, r')) :
    r'.executor.tasks = Function.update r.executor.tasks cid.val (some ⟨cid, prio, future⟩) := by
  obtain ⟨-, -, e, grown, executor⟩ := spawn_ok spawned
  simp only [executor, grown.tasks]

theorem TableOk.spawn {r r' : RuntimeState φ} {future : φ} {prio : Nat} {cid : CoroutineId}
    (ok : r.TableOk) (spawned : r.spawn future prio = .ok (cid, r')) : r'.TableOk := by
  intro i task live
  obtain ⟨-, allocated, -⟩ := spawn_ok spawned
  obtain ⟨-, -, -, marked⟩ := IndexAllocator.allocate_some allocated
  rw [spawn_tasks spawned] at live
  rw [marked]
  by_cases same : i = cid.val
  · subst same
    obtain rfl : _ = task := by simpa using live
    simp
  · rw [Function.update_of_ne same] at live
    simp [ok i task live]

theorem removeTask_tasks {r r' : RuntimeState φ} {cid : CoroutineId}
    (removed : r.removeTask cid = .ok r') :
    r'.executor.tasks = Function.update r.executor.tasks cid.val none := by
  simp only [(removeTask_ok removed).2.2.2]

theorem TableOk.removeTask {r r' : RuntimeState φ} {cid : CoroutineId} (ok : r.TableOk)
    (removed : r.removeTask cid = .ok r') : r'.TableOk := by
  intro i task live
  rw [removeTask_tasks removed] at live
  by_cases same : i = cid.val
  · simp [same] at live
  · rw [Function.update_of_ne same] at live
    obtain ⟨own, used⟩ := ok i task live
    rw [IndexAllocator.release_ok (removeTask_ok removed).2.2.1 i, used]
    exact ⟨own, by simpa using same⟩

end RuntimeState

end RootTask.Runtime
