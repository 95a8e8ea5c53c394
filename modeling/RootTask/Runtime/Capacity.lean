import RootTask.Runtime.Bookkeeping

/-!
# Capacity

A free task slot means a free id below `MAX_TASK_NUM`, so of all that `spawn` does only the
push can fail. It fails: a ring of `MAX_TASK_NUM` slots holds one entry less, and a coroutine
may be queued any number of times, so a queue can be full while most of the task table is
free. The results below say for every operation exactly when it returns.
-/
namespace RootTask.Runtime

open Transition

namespace Executor

variable {φ : Type}

theorem queue_length_lt (e : Executor φ) (p : Nat) : (e.queue p).length < maxTaskNum := by
  rw [queue, RingBuffer.length_toList]
  exact RingBuffer.size_lt _

/-- One more entry fits into the queue of priority `p`. -/
def HasRoom (e : Executor φ) (p : Nat) : Prop := (e.queue p).length + 1 < maxTaskNum

instance (e : Executor φ) (p : Nat) : Decidable (e.HasRoom p) :=
  inferInstanceAs (Decidable (_ < _))

theorem Enqueued.hasRoom {e e' : Executor φ} {prio : Nat} {cid : CoroutineId}
    (grown : e.Enqueued prio cid e') : e.HasRoom prio := by
  -- the queue after the push still has a ring's length, so there was room before it
  have after := e'.queue_length_lt prio
  rw [grown.queue_eq, Function.update_self, List.length_append] at after
  exact after

theorem enqueue_iff {e : Executor φ} {prio : Nat} (cid : CoroutineId) (bound : prio < maxPrioNum) :
    (∃ e', e.enqueue prio cid = .ok e') ↔ e.HasRoom prio := by
  constructor
  · rintro ⟨e', queued⟩
    exact (enqueue_ok queued).hasRoom
  · exact fun room => enqueue_total cid bound (Nat.ne_of_lt room)

theorem wake_iff {e : Executor φ} (cid : CoroutineId) {task : Coroutine φ} (prios : e.PriosOk)
    (inTable : cid.val < maxTaskNum) (live : e.tasks cid.val = some task) :
    (∃ e', e.wake cid = .ok e') ↔ e.HasRoom task.prio := by
  rw [← enqueue_iff cid (prios _ _ live)]
  simp only [wake, if_pos inTable, live]

/-- All the wake-ups of `cids` fit into the queues. -/
def HasRoomFor (e : Executor φ) (cids : List CoroutineId) : Prop :=
  ∀ p < maxPrioNum, (e.queue p).length + (e.admitted p cids).length < maxTaskNum

instance (e : Executor φ) (cids : List CoroutineId) : Decidable (e.HasRoomFor cids) :=
  inferInstanceAs (Decidable (∀ p < maxPrioNum, _))

theorem admitted_cons (e : Executor φ) (p : Nat) (cid : CoroutineId) (rest : List CoroutineId) :
    e.admitted p (cid :: rest) = e.admitted p [cid] ++ e.admitted p rest := by
  simp only [admitted, ← List.filter_append, List.singleton_append]

theorem wakeAll_iff {cids : List CoroutineId} {e : Executor φ} (prios : e.PriosOk)
    (inTable : ∀ cid ∈ cids, cid.val < maxTaskNum) :
    (∃ e', wakeAll cids e = .ok e') ↔ e.HasRoomFor cids := by
  constructor
  · rintro ⟨e', woken⟩ p -
    have after := e'.queue_length_lt p
    rwa [wakeAll_queue woken, List.length_append] at after
  · -- by induction: the first wake-up needs room for one, and leaves room for the others
    intro room
    induction cids generalizing e with
    | nil => exact ⟨e, rfl⟩
    | cons cid rest ih =>
      have bound := inTable cid List.mem_cons_self
      obtain ⟨next, first⟩ : ∃ next, e.wake cid = .ok next := by
        cases live : e.tasks cid.val with
        -- an id without a task is not pushed and needs no room
        | none => exact ⟨e, by simp only [wake, if_pos bound, live]⟩
        | some task =>
          refine (wake_iff cid prios bound live).mpr ?_
          have ownQueue := room task.prio (prios _ _ live)
          rw [admitted_cons, List.length_append] at ownQueue
          -- the first wake-up alone takes one of the places counted in its queue
          have admits : e.admitted task.prio [cid] = [cid] := by simp [admitted, live]
          rw [admits, List.length_singleton] at ownQueue
          simp only [HasRoom]
          omega
      -- a wake leaves the table alone, so what the others need is unchanged
      have tasks := (wake_grown first).tasks
      obtain ⟨e', later⟩ := ih (fun i task live => prios i task (tasks ▸ live))
        (fun c member => inTable c (List.mem_cons_of_mem _ member)) (by
          intro p inRange
          have before := room p inRange
          rw [admitted_cons, List.length_append] at before
          rw [wake_queue first, List.length_append]
          simp only [admitted, tasks] at before ⊢
          omega)
      exact ⟨e', bind_ok.mpr ⟨next, first, later⟩⟩

theorem delayedCids_lt {mask : BitVec 64} {cid : CoroutineId} (member : cid ∈ delayedCids mask) :
    cid.val < maxTaskNum :=
  Nat.lt_trans (BitVec.lt_of_getLsbD (delayedCids_sound member)) (by decide)

theorem actualWake_iff {e : Executor φ} (prios : e.PriosOk) :
    (∃ e', e.actualWake = .ok e') ↔ e.HasRoomFor (delayedCids e.delayWakeCids) := by
  rw [actualWake_eq]
  exact wakeAll_iff (e := { e with delayWakeCids := 0 }) prios fun _ member =>
    delayedCids_lt member

/-- Every queued id has a slot in the task table. -/
def EntriesOk (e : Executor φ) : Prop := ∀ p, ∀ cid ∈ e.queue p, cid.val < maxTaskNum

theorem actualWake_entriesOk {e e' : Executor φ} (entries : e.EntriesOk)
    (flushed : e.actualWake = .ok e') : e'.EntriesOk := by
  intro p cid member
  rw [actualWake_queue flushed, List.mem_append] at member
  rcases member with old | new
  · exact entries p cid old
  · exact delayedCids_lt (List.mem_of_mem_filter new)

/-- After its flush, `fetch` always returns. -/
theorem fetch_iff {e : Executor φ} (marked : e.Marked) (entries : e.EntriesOk) :
    (∃ r, e.fetch = .ok r) ↔ ∃ e', e.actualWake = .ok e' := by
  constructor
  · rintro ⟨⟨task, e'⟩, fetched⟩
    obtain ⟨f, flushed, -⟩ := fetch_ok fetched
    exact ⟨f, flushed⟩
  · rintro ⟨f, flushed⟩
    have marked := marked_queueInvariant.actualWake marked flushed
    have entries := actualWake_entriesOk entries flushed
    simp only [fetch, flushed, Except.bind]
    rcases f.prioBitmap.findFirstOne_cases with ⟨none_, -⟩ | ⟨below, set, -⟩
    -- no priority is marked: nothing to poll
    · exact ⟨_, if_pos none_⟩
    · rw [if_neg (Nat.ne_of_lt below), if_pos (marked.bounded _ set)]
      cases popped : (f.readyQueue f.prioBitmap.findFirstOne).pop with
      | none => exact ⟨_, rfl⟩
      | some x =>
        obtain ⟨cid, q⟩ := x
        have front : f.queue f.prioBitmap.findFirstOne = cid :: q.toList :=
          RingBuffer.pop_some popped
        -- the popped id indexes the table, and its priority the bitmap
        have inTable := entries _ cid (front ▸ List.mem_cons_self)
        simp only [if_pos inTable, BitMap64.clear, if_pos below]
        cases f.tasks cid.val with
        | none => exact ⟨_, rfl⟩
        | some task =>
          by_cases drained : q.empty = true
          · exact ⟨_, if_pos drained⟩
          · exact ⟨_, if_neg drained⟩

theorem switchPossible_iff {e : Executor φ} {cid : CoroutineId} (current : e.current = some cid)
    (inTable : cid.val < maxTaskNum) (live : e.tasks cid.val ≠ none) :
    (∃ r, e.switchPossible = .ok r) ↔ ∃ e', e.actualWake = .ok e' := by
  constructor
  · rintro ⟨⟨possible, e'⟩, tested⟩
    exact ⟨e', (switchPossible_ok tested).1⟩
  · rintro ⟨f, flushed⟩
    -- the flush changes neither `current` nor the table that the code then unwraps
    obtain ⟨same, sameCurrent, -⟩ := actualWake_same flushed
    obtain ⟨task, live⟩ := Option.ne_none_iff_exists'.mp live
    simp only [switchPossible, flushed, Except.bind, sameCurrent, current, if_pos inTable,
      same.tasks, live]
    exact ⟨_, rfl⟩

end Executor

namespace RuntimeState

open Executor

variable {φ : Type}

/-- The allocator returns the least free id, so one that is free below the number of task slots
gives an id for a slot. -/
theorem allocates {r : RuntimeState φ} {i : Nat} (inRange : i < maxTaskNum)
    (free : r.cidAllocator.free i = true) :
    ∃ index allocator, r.cidAllocator.allocate = some (index, allocator) ∧ index < maxTaskNum := by
  cases generated : r.cidAllocator.allocate with
  | none =>
    have taken := IndexAllocator.allocate_none.mp generated i (Nat.lt_trans inRange (by decide))
    simp [free] at taken
  | some x =>
    refine ⟨x.1, x.2, rfl, ?_⟩
    obtain ⟨-, -, least, -⟩ := IndexAllocator.allocate_some generated
    by_contra beyond
    simp [least i (by omega)] at free

/-- A spawn needs an id that is a task slot, and room in the queue. -/
theorem spawn_iff (r : RuntimeState φ) (future : φ) {prio : Nat} (bound : prio < maxPrioNum) :
    (∃ t, r.spawn future prio = .ok t) ↔
      (∃ i < maxTaskNum, r.cidAllocator.free i = true) ∧ r.executor.HasRoom prio := by
  constructor
  · rintro ⟨⟨cid, t⟩, spawned⟩
    obtain ⟨inTable, generated, e', grown, -⟩ := spawn_ok spawned
    obtain ⟨-, free, -⟩ := IndexAllocator.allocate_some generated
    exact ⟨⟨cid.val, inTable, free⟩, grown.hasRoom⟩
  · rintro ⟨⟨i, inRange, free⟩, room⟩
    obtain ⟨index, allocator, generated, inTable⟩ := allocates inRange free
    obtain ⟨e', queued⟩ := (enqueue_iff ⟨index⟩ bound).mpr room
    unfold RuntimeState.spawn
    rw [generated]
    exact ⟨_, bind_ok.mpr ⟨e', queued, if_pos inTable⟩⟩

/-- Fewer live coroutines than task slots leave a free id for a slot. -/
theorem Bookkept.free_id {r : RuntimeState φ} (kept : r.Bookkept)
    (few : r.executor.live.card < maxTaskNum) : ∃ i < maxTaskNum, r.cidAllocator.free i = true := by
  -- pigeonhole: some slot holds no live coroutine
  obtain ⟨i, inRange, free⟩ : ∃ i ∈ Finset.range maxTaskNum, i ∉ r.executor.live :=
    Finset.exists_mem_notMem_of_card_lt_card (by rwa [Finset.card_range])
  rw [kept.mem_live, ← kept.allocated, Bool.not_eq_false] at free
  exact ⟨i, Finset.mem_range.mp inRange, free⟩

theorem Bookkept.spawn_iff {r : RuntimeState φ} (kept : r.Bookkept) (future : φ) {prio : Nat}
    (few : r.executor.live.card < maxTaskNum) (bound : prio < maxPrioNum) :
    (∃ t, r.spawn future prio = .ok t) ↔ r.executor.HasRoom prio := by
  rw [RuntimeState.spawn_iff r future bound]
  exact ⟨And.right, fun room => ⟨kept.free_id few, room⟩⟩

theorem Called.arrivals_lt {r t : RuntimeState φ} {c : Call φ} (called : r.Called c t) {p : Nat}
    {cid : CoroutineId} (member : cid ∈ r.arrivals p c) : cid.val < maxTaskNum := by
  cases called with
  | @spawn future prio own t spawned =>
    obtain ⟨bound, generated, -⟩ := spawn_ok spawned
    simp only [arrivals, generated] at member
    split at member
    · obtain rfl : cid = own := by simpa using member
      exact bound
    · simp at member
  | @wake own e woken =>
    simp only [arrivals, admitted] at member
    obtain rfl : cid = own := List.mem_singleton.mp (List.mem_of_mem_filter member)
    exact (wake_ok woken).1
  | switchPossible flushed =>
    simp only [arrivals, admitted] at member
    exact delayedCids_lt (List.mem_of_mem_filter member)
  | fetch fetched =>
    simp only [arrivals, admitted] at member
    exact delayedCids_lt (List.mem_of_mem_filter member)
  | delayWake _ => simp [arrivals] at member
  | removeTask _ => simp [arrivals] at member

theorem Called.entriesOk {r t : RuntimeState φ} {c : Call φ} (marked : r.executor.Marked)
    (entries : r.executor.EntriesOk) (called : r.Called c t) : t.executor.EntriesOk := by
  intro p cid member
  -- what is queued afterwards was queued before or arrived in this call
  have balance := called.queue marked p
  have before : cid ∈ r.executor.queue p ++ r.arrivals p c := by
    rw [balance]
    exact List.mem_append_right _ member
  rcases List.mem_append.mp before with old | new
  · exact entries p cid old
  · exact called.arrivals_lt new

end RuntimeState

namespace Scheduler

open Executor

variable {φ : Type}

/-- What the executor's own indexing relies on. -/
structure IndicesOk (s : Scheduler φ) : Prop where
  marked : s.runtime.executor.Marked
  prios : s.runtime.executor.PriosOk
  entries : s.runtime.executor.EntriesOk

theorem IndicesOk.step {s t : Scheduler φ} {op : Op φ} (ok : s.IndicesOk)
    (moved : s.step op = some t) : t.IndicesOk := by
  obtain ⟨c, called, -⟩ := step_called moved
  have called := RuntimeState.call_cases called
  constructor
  · exact called.marked ok.marked
  · exact called.priosOk ok.prios
  · exact called.entriesOk ok.marked ok.entries

theorem reachable_indicesOk {s : Scheduler φ} (run : Reachable step init s) : s.IndicesOk := by
  refine run.invariant IndicesOk ?_ fun _ _ _ ok _ moved => ok.step moved
  constructor
  · exact marked_new
  · simp [PriosOk, init, RuntimeState.init, Executor.new]
  · simp [EntriesOk, init, RuntimeState.init, Executor.new, queue]

/-- The calls that the executor is meant to serve. -/
def Legal (s : Scheduler φ) : Op φ → Prop
  | .spawn _ prio => s.runtime.executor.live.card < maxTaskNum ∧ prio < maxPrioNum
  | .wake cid => s.runtime.executor.tasks cid.val ≠ none
  | .delayWake cid => cid.val < 64
  | .switchPossible => ∃ cid, s.runtime.executor.current = some cid ∧
      s.runtime.executor.tasks cid.val ≠ none
  | .fetch => True
  | .ready => s.polling ≠ none

/-- The ready queues take what the call pushes. -/
def Room (s : Scheduler φ) : Op φ → Prop
  | .spawn _ prio => s.runtime.executor.HasRoom prio
  | .wake cid => ∀ task, s.runtime.executor.tasks cid.val = some task →
      s.runtime.executor.HasRoom task.prio
  | .switchPossible | .fetch =>
      s.runtime.executor.HasRoomFor (delayedCids s.runtime.executor.delayWakeCids)
  | .delayWake _ | .ready => True

theorem isSome_map_toOption {ε α β : Type*} (x : Except ε α) (f : α → β) :
    (∃ t, x.toOption.map f = some t) ↔ ∃ a, x = .ok a := by
  cases x <;> simp [Except.toOption]

theorem step_iff {s : Scheduler φ} (book : s.BookkeepingOk) (indices : s.IndicesOk) {op : Op φ}
    (legal : s.Legal op) : (∃ t, s.step op = some t) ↔ s.Room op := by
  cases op with
  | spawn future prio =>
    simp only [step, isSome_map_toOption]
    exact book.kept.spawn_iff future legal.1 legal.2
  | wake cid =>
    obtain ⟨task, live⟩ := Option.ne_none_iff_exists'.mp legal
    simp only [step, isSome_map_toOption, Room, live, Option.some.injEq, forall_eq']
    exact wake_iff cid indices.prios (book.kept.inTable _ legal) live
  | delayWake cid =>
    -- only the bit is written, no queue
    simp only [step, isSome_map_toOption, Room, iff_true, delayWake]
    exact ⟨_, if_pos legal⟩
  | switchPossible =>
    obtain ⟨cid, current, live⟩ := legal
    simp only [step, isSome_map_toOption, Room]
    rw [switchPossible_iff current (book.kept.inTable _ live) live]
    exact actualWake_iff indices.prios
  | fetch =>
    simp only [step, isSome_map_toOption, Room]
    rw [fetch_iff indices.marked indices.entries]
    exact actualWake_iff indices.prios
  | ready =>
    -- the removal of the polled task pushes nothing
    obtain ⟨task, polling⟩ := Option.ne_none_iff_exists'.mp legal
    simp only [step, polling, Option.bind_some, isSome_map_toOption, Room, iff_true]
    exact book.kept.removeTask_total (by simp [book.polled task polling])

/-- In every reachable state `spawn` and `wake` return exactly when the ready queue they push
to holds fewer than `MAX_TASK_NUM - 1` entries, and no operation panics for another reason. -/
theorem returns_iff_room {s : Scheduler φ} (run : Reachable step init s) :
    (∀ future prio, s.runtime.executor.live.card < maxTaskNum → prio < maxPrioNum →
      ((∃ t, s.runtime.spawn future prio = .ok t) ↔
        (s.runtime.executor.queue prio).length + 1 < maxTaskNum)) ∧
    (∀ cid task, s.runtime.executor.tasks cid.val = some task →
      ((∃ e, s.runtime.executor.wake cid = .ok e) ↔
        (s.runtime.executor.queue task.prio).length + 1 < maxTaskNum)) ∧
    ∀ op, s.Legal op → ((∃ t, s.step op = some t) ↔ s.Room op) := by
  have book := reachable_bookkeeping run
  have indices := reachable_indicesOk run
  refine ⟨fun future prio few bound => book.kept.spawn_iff future few bound,
    fun cid task live => ?_, fun op legal => step_iff book indices legal⟩
  exact wake_iff cid indices.prios (book.kept.inTable _ (by simp [live])) live

/-- A coroutine that is woken while it waits is queued again each time. -/
theorem queued_repeatedly (n : Nat) (fits : n + 1 < maxTaskNum) :
    ∃ s : Scheduler Unit, Reachable step init s ∧ s.runtime.executor.coroutineNum = 1 ∧
      s.runtime.executor.tasks 0 = some ⟨⟨0⟩, 0, ()⟩ ∧
      (s.runtime.executor.queue 0).length = n + 1 := by
  induction n with
  | zero =>
    obtain ⟨s, run, seen⟩ := reachable_of_view step (init : Scheduler Unit) [.spawn () 0]
      (fun s => (s.runtime.executor.coroutineNum, s.runtime.executor.tasks 0,
        (s.runtime.executor.queue 0).length)) (v := (1, some ⟨⟨0⟩, 0, ()⟩, 1)) (by decide +kernel)
    obtain ⟨counted, task, length⟩ := by simpa only [Prod.mk.injEq] using seen
    exact ⟨s, run, counted, task, length⟩
  | succ n ih =>
    obtain ⟨s, run, counted, task, length⟩ := ih (by omega)
    -- one more wake of the waiting coroutine, as long as the ring has a place
    have room : s.runtime.executor.HasRoom 0 := by simp only [HasRoom, length]; exact fits
    obtain ⟨e, woken⟩ := (wake_iff ⟨0⟩ (reachable_indicesOk run).prios (by decide) task).mpr
      room
    have same := (wake_grown woken).toSameTasks
    refine ⟨s.setExecutor e, .next (a := .wake ⟨0⟩) run trivial ?_, same.coroutineNum.trans counted,
      same.tasks ▸ task, ?_⟩
    · simp [step, woken, Except.toOption]
    · simp [setExecutor, wake_queue woken, length, admitted, task]

/-- One coroutine, spawned and then woken 2046 times while it waits, fills its ready queue. The
next `wake` of it panics, and so does the `spawn` of a second coroutine. -/
theorem full_queue_panics :
    ∃ s : Scheduler Unit, Reachable step init s ∧ s.runtime.executor.live.card < maxTaskNum ∧
      s.runtime.executor.tasks 0 ≠ none ∧ (¬ ∃ t, s.runtime.spawn () 0 = .ok t) ∧
      ¬ ∃ e, s.runtime.executor.wake ⟨0⟩ = .ok e := by
  obtain ⟨s, run, counted, task, length⟩ := queued_repeatedly 2046 (by decide)
  have book := reachable_bookkeeping run
  have few : s.runtime.executor.live.card < maxTaskNum := by
    rw [← book.kept.counted, counted]
    decide
  have full : ¬ s.runtime.executor.HasRoom 0 := by simp [HasRoom, length]
  refine ⟨s, run, few, by simp [task], ?_, ?_⟩
  · rw [book.kept.spawn_iff () few (by decide)]
    exact full
  · rw [wake_iff ⟨0⟩ (reachable_indicesOk run).prios (by decide) task]
    exact full

/-- With one coroutine polled and one delayed wake-up of it, everything returns. -/
theorem returns_iff_room_one_polled :
    ∃ s : Scheduler Unit, Reachable step init s ∧ (∃ t, s.runtime.spawn () 7 = .ok t) ∧
      (∃ e, s.runtime.executor.wake ⟨0⟩ = .ok e) ∧ ∃ t, s.step .fetch = some t := by
  obtain ⟨s, run, seen⟩ := reachable_of_view step (init : Scheduler Unit)
    [.spawn () 2, .fetch, .delayWake ⟨0⟩]
    (fun s => ((s.runtime.executor.coroutineNum, s.runtime.executor.tasks 0),
      s.runtime.executor.queue 7, s.runtime.executor.queue 2,
      decide (s.runtime.executor.HasRoomFor (delayedCids s.runtime.executor.delayWakeCids))))
    (v := ((1, some ⟨⟨0⟩, 2, ()⟩), [], [], true)) (by decide +kernel)
  simp only [Prod.mk.injEq, decide_eq_true_eq] at seen
  obtain ⟨⟨counted, task⟩, empty, drained, room⟩ := seen
  have few : s.runtime.executor.live.card < maxTaskNum := by
    rw [← (reachable_bookkeeping run).kept.counted, counted]
    decide
  obtain ⟨spawns, wakes, steps⟩ := returns_iff_room run
  refine ⟨s, run, (spawns () 7 few (by decide)).mpr ?_, (wakes ⟨0⟩ _ task).mpr ?_,
    (steps .fetch trivial).mpr room⟩
  · rw [empty]; decide
  · rw [drained]; decide

end Scheduler

end RootTask.Runtime
