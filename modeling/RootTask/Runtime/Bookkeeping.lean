import Mathlib.Data.Finset.Card
import RootTask.Runtime.ReadyQueues

/-!
# Task bookkeeping

The task table, the counter of coroutines and the id allocator are three records of one
thing. Along every run of the scheduler they agree, so the removal of a completed task
always succeeds.
-/
namespace RootTask.Runtime

open Transition Executor

namespace Executor

variable {φ : Type}

/-- The ids of the live coroutines. -/
def live (e : Executor φ) : Finset Nat :=
  (Finset.range maxTaskNum).filter fun i => (e.tasks i).isSome

theorem mem_live {e : Executor φ} {i : Nat} :
    i ∈ e.live ↔ i < maxTaskNum ∧ e.tasks i ≠ none := by
  simp [live, Option.isSome_iff_ne_none]

theorem SameTasks.live {e e' : Executor φ} (same : SameTasks e e') : e'.live = e.live := by
  simp only [Executor.live, same.tasks]

theorem live_update_some {e e' : Executor φ} {i : Nat} {task : Coroutine φ}
    (bound : i < maxTaskNum) (tasks : e'.tasks = Function.update e.tasks i (some task)) :
    e'.live = insert i e.live := by
  ext j
  rw [Finset.mem_insert, mem_live, mem_live, tasks]
  by_cases same : j = i
  · subst same; simp [bound]
  · simp [same]

theorem live_update_none {e e' : Executor φ} {i : Nat}
    (tasks : e'.tasks = Function.update e.tasks i none) : e'.live = e.live.erase i := by
  ext j
  rw [Finset.mem_erase, mem_live, mem_live, tasks]
  by_cases same : j = i
  · subst same; simp
  · simp [same]

end Executor

namespace RuntimeState

variable {φ : Type}

/-- The allocator, the task table and the counter agree. -/
structure Bookkept (r : RuntimeState φ) : Prop where
  allocated : ∀ i, r.cidAllocator.free i = false ↔ r.executor.tasks i ≠ none
  own : ∀ i task, r.executor.tasks i = some task → task.cid.val = i
  inTable : ∀ i, r.executor.tasks i ≠ none → i < maxTaskNum
  counted : r.executor.coroutineNum = r.executor.live.card

theorem bookkept_init : (init : RuntimeState φ).Bookkept := by
  constructor <;>
    simp [init, Executor.new, IndexAllocator.new, IndexAllocator.free, Executor.live]

theorem Bookkept.mem_live {r : RuntimeState φ} (kept : r.Bookkept) (i : Nat) :
    i ∈ r.executor.live ↔ r.executor.tasks i ≠ none := by
  rw [Executor.mem_live]
  exact ⟨fun live => live.2, fun live => ⟨kept.inTable i live, live⟩⟩

theorem Bookkept.sameTasks {r : RuntimeState φ} {e : Executor φ} (kept : r.Bookkept)
    (same : r.executor.SameTasks e) : (r.setExecutor e).Bookkept := by
  constructor <;> simp only [setExecutor, same.tasks, same.coroutineNum, same.live]
  · exact kept.allocated
  · exact kept.own
  · exact kept.inTable
  · exact kept.counted

theorem Bookkept.spawn {r t : RuntimeState φ} {future : φ} {prio : Nat} {cid : CoroutineId}
    (kept : r.Bookkept) (spawned : r.spawn future prio = .ok (cid, t)) : t.Bookkept := by
  obtain ⟨bound, generated, e, grown, executor⟩ := spawn_ok spawned
  obtain ⟨-, free, -, marked⟩ := IndexAllocator.allocate_some generated
  have tasks := spawn_tasks spawned
  -- the allocator hands out a free id only, so the coroutine is new to the count
  have fresh : cid.val ∉ r.executor.live := by
    rw [kept.mem_live, ← kept.allocated, free]
    exact Bool.noConfusion
  constructor
  · intro i
    -- allocator and table both change at the new id and nowhere else
    rw [marked, tasks]
    by_cases same : i = cid.val
    · simp [same]
    · simpa [same, Function.update_of_ne same] using kept.allocated i
  · intro i task isLive
    rw [tasks] at isLive
    by_cases same : i = cid.val
    · subst same
      obtain rfl : _ = task := by simpa using isLive
      rfl
    · rw [Function.update_of_ne same] at isLive
      exact kept.own i task isLive
  · intro i isLive
    rw [tasks] at isLive
    by_cases same : i = cid.val
    · rw [same]; exact bound
    · rw [Function.update_of_ne same] at isLive
      exact kept.inTable i isLive
  · rw [live_update_some bound tasks, Finset.card_insert_of_notMem fresh, ← kept.counted,
      ← grown.coroutineNum, executor]

theorem Bookkept.removeTask {r t : RuntimeState φ} {cid : CoroutineId} (kept : r.Bookkept)
    (isLive : r.executor.tasks cid.val ≠ none) (removed : r.removeTask cid = .ok t) :
    t.Bookkept := by
  -- the same four facts, now with the slot cleared and the bit set free
  obtain ⟨bound, -, released, executor⟩ := removeTask_ok removed
  have tasks := removeTask_tasks removed
  constructor
  · intro i
    rw [IndexAllocator.release_ok released, tasks]
    by_cases same : i = cid.val
    · simp [same]
    · simpa [same, Function.update_of_ne same] using kept.allocated i
  · intro i task stays
    rw [tasks] at stays
    by_cases same : i = cid.val
    · simp [same] at stays
    · rw [Function.update_of_ne same] at stays
      exact kept.own i task stays
  · intro i stays
    rw [tasks] at stays
    by_cases same : i = cid.val
    · rw [same]; exact bound
    · rw [Function.update_of_ne same] at stays
      exact kept.inTable i stays
  · rw [live_update_none tasks, Finset.card_erase_of_mem ((kept.mem_live _).mpr isLive),
      ← kept.counted, executor]

/-- A live coroutine is counted, so its removal does not underflow the counter. -/
theorem Bookkept.removeTask_total {r : RuntimeState φ} {cid : CoroutineId} (kept : r.Bookkept)
    (isLive : r.executor.tasks cid.val ≠ none) : ∃ t, r.removeTask cid = .ok t := by
  have bound := kept.inTable _ isLive
  have counted : r.executor.coroutineNum ≠ 0 := by
    rw [kept.counted]
    exact (Finset.card_pos.mpr ⟨_, (kept.mem_live _).mpr isLive⟩).ne'
  -- every slot of the table has its bit in the bitmap
  have inBitmap : cid.val / 8 < (maxCidNum + 7) / 8 := by
    simp only [maxTaskNum, maxCidNum] at bound ⊢; omega
  -- all three checks of the removal pass
  simp only [RuntimeState.removeTask, if_pos bound, if_neg counted, IndexAllocator.release,
    if_pos inBitmap, Except.bind]
  exact ⟨_, rfl⟩

theorem Bookkept.isEmpty_iff {r : RuntimeState φ} (kept : r.Bookkept) :
    r.executor.isEmpty = true ↔ ∀ i, r.executor.tasks i = none := by
  rw [isEmpty, beq_iff_eq, kept.counted, Finset.card_eq_zero, Finset.eq_empty_iff_forall_notMem]
  exact forall_congr' fun i => by rw [kept.mem_live, not_not]

end RuntimeState

namespace Scheduler

variable {φ : Type}

/-- A step of the scheduler is a call; only the removal of the polled task depends on what was
fetched. -/
theorem step_called {s t : Scheduler φ} {op : Op φ} (moved : s.step op = some t) :
    ∃ c, s.runtime.call c = some t.runtime ∧
      ((∃ task, op = .ready ∧ s.polling = some task ∧ c = .removeTask task.cid ∧
          t.polling = none) ∨
        (∀ cid, c ≠ .removeTask cid) ∧
          (t.polling = s.polling ∨
            s.runtime.executor.fetch = .ok (t.polling, t.runtime.executor))) := by
  cases op with
  | spawn future prio =>
    refine ⟨.spawn future prio, ?_⟩
    simp only [step, Option.map_eq_some_iff, Prod.exists] at moved
    obtain ⟨cid, r, spawned, rfl⟩ := moved
    simp [RuntimeState.call, spawned]
  | wake cid =>
    refine ⟨.wake cid, ?_⟩
    simp only [step, Option.map_eq_some_iff] at moved
    obtain ⟨e, woken, rfl⟩ := moved
    simp [RuntimeState.call, woken, setExecutor, RuntimeState.setExecutor]
  | delayWake cid =>
    refine ⟨.delayWake cid, ?_⟩
    simp only [step, Option.map_eq_some_iff] at moved
    obtain ⟨e, delayed, rfl⟩ := moved
    simp [RuntimeState.call, delayed, setExecutor, RuntimeState.setExecutor]
  | switchPossible =>
    refine ⟨.switchPossible, ?_⟩
    simp only [step, Option.map_eq_some_iff, Prod.exists] at moved
    obtain ⟨possible, e, tested, rfl⟩ := moved
    simp [RuntimeState.call, tested, setExecutor, RuntimeState.setExecutor]
  | fetch =>
    refine ⟨.fetch, ?_⟩
    simp only [step, Option.map_eq_some_iff, Prod.exists] at moved
    obtain ⟨r, e, fetched, rfl⟩ := moved
    simp only [RuntimeState.call, fetched, setExecutor, RuntimeState.setExecutor]
    rw [toOption_eq_some] at fetched
    exact ⟨rfl, .inr ⟨by rintro cid ⟨⟩, .inr fetched⟩⟩
  | ready =>
    simp only [step, Option.bind_eq_some_iff, Option.map_eq_some_iff] at moved
    obtain ⟨task, polling, r, removed, rfl⟩ := moved
    exact ⟨.removeTask task.cid, removed, .inl ⟨task, rfl, polling, rfl, rfl⟩⟩

/-- The polled task is in the table, under its own id. -/
structure BookkeepingOk (s : Scheduler φ) : Prop where
  kept : s.runtime.Bookkept
  polled : ∀ task, s.polling = some task → s.runtime.executor.tasks task.cid.val = some task

theorem fetch_live {r : RuntimeState φ} {e : Executor φ} {task : Coroutine φ} (kept : r.Bookkept)
    (fetched : r.executor.fetch = .ok (some task, e)) : e.tasks task.cid.val = some task := by
  have same := (fetch_same fetched).1.tasks
  obtain ⟨f, flushed, result⟩ := fetch_ok fetched
  -- the delayed wakes are flushed first, which leaves the table alone
  have sameFlushed := (actualWake_same flushed).1.tasks
  cases result with
  | polled p cid task e' _ _ _ _ found _ _ =>
    rw [sameFlushed] at found
    rw [same, kept.own _ _ found, found]

theorem BookkeepingOk.step {s t : Scheduler φ} {op : Op φ} (ok : s.BookkeepingOk)
    (moved : s.step op = some t) : t.BookkeepingOk := by
  obtain ⟨c, called, ⟨task, -, polling, rfl, idle⟩ | ⟨notRemoval, polling⟩⟩ := step_called moved
  -- the polled task is the one removed, and it is live by `polled`
  · have removed : s.runtime.removeTask task.cid = .ok t.runtime := by
      simpa [RuntimeState.call] using called
    have isLive := ok.polled task polling
    constructor
    · exact ok.kept.removeTask (by simp [isLive]) removed
    · simp [idle]
  · have called := RuntimeState.call_cases called
    rcases called.bookkeeping with ⟨future, prio, cid, rfl, spawned⟩ | ⟨cid, isRemoval, -⟩ |
      ⟨e, same, runtime⟩
    · -- a spawned coroutine takes a free id, so the polled task keeps its slot
      have kept := ok.kept.spawn spawned
      refine ⟨kept, fun task isPolled => ?_⟩
      rcases polling with unchanged | fetched
      · have isLive := ok.polled task (unchanged ▸ isPolled)
        rw [RuntimeState.spawn_tasks spawned, Function.update_of_ne, isLive]
        intro same
        obtain ⟨-, generated, -⟩ := RuntimeState.spawn_ok spawned
        obtain ⟨-, free, -⟩ := IndexAllocator.allocate_some generated
        have taken := (ok.kept.allocated task.cid.val).mpr (by simp [isLive])
        simp [same, free] at taken
      · rw [isPolled] at fetched
        exact fetch_live ok.kept fetched
    -- only `ready` removes
    · exact absurd isRemoval (notRemoval cid)
    -- the other calls change queues and bitmaps, not the table
    · have kept := ok.kept.sameTasks same
      rw [← runtime] at kept
      refine ⟨kept, fun task isPolled => ?_⟩
      rcases polling with unchanged | fetched
      · rw [runtime]
        exact same.tasks ▸ ok.polled task (unchanged ▸ isPolled)
      · rw [isPolled] at fetched
        exact fetch_live ok.kept fetched

theorem reachable_bookkeeping {s : Scheduler φ} (run : Reachable step init s) : s.BookkeepingOk :=
  run.invariant BookkeepingOk ⟨RuntimeState.bookkept_init, by simp [init]⟩
    fun _ _ _ ok _ moved => ok.step moved

/-- Along every run the allocated ids are the ids of the live coroutines, each is filed under
its own id, and the counter counts them. So the task that `run_until_blocked` removes is live,
its removal succeeds, and `is_empty` says that none is left. -/
theorem bookkeeping_exact {s : Scheduler φ} (run : Reachable step init s) :
    (∀ i, s.runtime.cidAllocator.free i = false ↔ s.runtime.executor.tasks i ≠ none) ∧
    (∀ i task, s.runtime.executor.tasks i = some task → task.cid = ⟨i⟩) ∧
    (∀ i, i ∈ s.runtime.executor.live ↔ s.runtime.executor.tasks i ≠ none) ∧
    s.runtime.executor.coroutineNum = s.runtime.executor.live.card ∧
    (∀ task, s.polling = some task → s.runtime.executor.tasks task.cid.val = some task ∧
      ∃ t, s.runtime.removeTask task.cid = .ok t) ∧
    (s.runtime.executor.isEmpty = true ↔ ∀ i, s.runtime.executor.tasks i = none) ∧
    ∀ i j a b, s.runtime.executor.tasks i = some a → s.runtime.executor.tasks j = some b →
      a.cid = b.cid → i = j := by
  have ok := reachable_bookkeeping run
  refine ⟨ok.kept.allocated, fun i task found => CoroutineId.ext (ok.kept.own i task found),
    ok.kept.mem_live, ok.kept.counted, fun task polling => ?_, ok.kept.isEmpty_iff, ?_⟩
  · have isLive := ok.polled task polling
    exact ⟨isLive, ok.kept.removeTask_total (by simp [isLive])⟩
  · intro i j a b foundA foundB same
    rw [← ok.kept.own i a foundA, same, ok.kept.own j b foundB]

/-- A coroutine completes and its id is taken again, while its stale entry is still queued. -/
theorem bookkeeping_exact_reused :
    ∃ s : Scheduler Unit, Reachable step init s ∧
      (∃ task, s.polling = some task ∧ ∃ t, s.runtime.removeTask task.cid = .ok t) ∧
      s.runtime.executor.live.card = 2 := by
  obtain ⟨s, run, seen⟩ := reachable_of_view step (init : Scheduler Unit)
    [.spawn () 0, .spawn () 1, .wake ⟨0⟩, .fetch, .ready, .spawn () 1, .fetch]
    (fun s => (s.polling.isSome, s.runtime.executor.coroutineNum)) (v := (true, 2))
    (by decide +kernel)
  obtain ⟨polling, counted⟩ := Prod.mk.inj seen
  obtain ⟨task, polling⟩ := Option.isSome_iff_exists.mp polling
  obtain ⟨-, -, -, counter, removal, -⟩ := bookkeeping_exact run
  exact ⟨s, run, ⟨task, polling, (removal task polling).2⟩, counter ▸ counted⟩

end Scheduler

end RootTask.Runtime
