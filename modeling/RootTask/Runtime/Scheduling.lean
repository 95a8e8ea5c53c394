import RootTask.Lib.Transition
import RootTask.Runtime.Executor

/-!
# Runs of the executor

`run_until_blocked` fetches a task, polls it, and removes it when the poll returns
`Ready`. Between two fetches the polled future may spawn, wake and test for a switch,
and a user interrupt may leave a delayed wake-up at any time, so a run is any sequence
of these operations.

A ready-queue entry outlives its task: `remove_task` cleans the task table only. When
`fetch` meets such an entry it gives up, although other queues may hold live coroutines.
As long as no fetch meets one, the bitmap is exact and nothing ready is passed over.
-/
namespace RootTask.Runtime

open Transition

/-- The runtime and the task that `run_until_blocked` has fetched and not yet removed. -/
structure Scheduler (φ : Type) where
  runtime : RuntimeState φ
  polling : Option (Coroutine φ)

inductive Op (φ : Type) where
  | spawn (future : φ) (prio : Nat)
  | wake (cid : CoroutineId)
  | delayWake (cid : CoroutineId)
  | switchPossible
  | fetch
  /-- The polled future returned `Ready`; a future that returns `Pending` changes nothing. -/
  | ready

namespace Scheduler

variable {φ : Type}

def init : Scheduler φ := ⟨.init, none⟩

def setExecutor (s : Scheduler φ) (e : Executor φ) : Scheduler φ :=
  { s with runtime := { s.runtime with executor := e } }

def step (s : Scheduler φ) : Op φ → Option (Scheduler φ)
  | .spawn future prio =>
    (s.runtime.spawn future prio).toOption.map fun r => { s with runtime := r.2 }
  | .wake cid => (s.runtime.executor.wake cid).toOption.map s.setExecutor
  | .delayWake cid => (s.runtime.executor.delayWake cid).toOption.map s.setExecutor
  | .switchPossible =>
    -- the answer is used by the caller; the flush stays
    s.runtime.executor.switchPossible.toOption.map fun r => s.setExecutor r.2
  | .fetch =>
    s.runtime.executor.fetch.toOption.map fun r => { s.setExecutor r.2 with polling := r.1 }
  | .ready =>
    s.polling.bind fun task =>
      (s.runtime.removeTask task.cid).toOption.map fun r => ⟨r, none⟩

/-- What the executor of the next state can be. -/
theorem step_cases {s t : Scheduler φ} {op : Op φ} (moved : s.step op = some t) :
    (∃ future prio cid, op = .spawn future prio ∧
      s.runtime.spawn future prio = .ok (cid, t.runtime)) ∨
    (∃ cid, op = .wake cid ∧ s.runtime.executor.wake cid = .ok t.runtime.executor) ∨
    (∃ cid, op = .delayWake cid ∧ s.runtime.executor.delayWake cid = .ok t.runtime.executor) ∨
    (op = .switchPossible ∧ s.runtime.executor.actualWake = .ok t.runtime.executor) ∨
    (op = .fetch ∧ s.runtime.executor.fetch = .ok (t.polling, t.runtime.executor)) ∨
    (∃ task, op = .ready ∧ s.polling = some task ∧
      s.runtime.removeTask task.cid = .ok t.runtime) := by
  cases op with
  | spawn future prio =>
    simp only [step, Option.map_eq_some_iff, toOption_eq_some, Prod.exists] at moved
    obtain ⟨cid, r, spawned, rfl⟩ := moved
    exact .inl ⟨future, prio, cid, rfl, spawned⟩
  | wake cid =>
    simp only [step, Option.map_eq_some_iff, toOption_eq_some] at moved
    obtain ⟨e, woken, rfl⟩ := moved
    exact .inr (.inl ⟨cid, rfl, woken⟩)
  | delayWake cid =>
    simp only [step, Option.map_eq_some_iff, toOption_eq_some] at moved
    obtain ⟨e, delayed, rfl⟩ := moved
    exact .inr (.inr (.inl ⟨cid, rfl, delayed⟩))
  | switchPossible =>
    simp only [step, Option.map_eq_some_iff, toOption_eq_some, Prod.exists] at moved
    obtain ⟨possible, e, tested, rfl⟩ := moved
    exact .inr (.inr (.inr (.inl ⟨rfl, (Executor.switchPossible_ok tested).1⟩)))
  | fetch =>
    simp only [step, Option.map_eq_some_iff, toOption_eq_some, Prod.exists] at moved
    obtain ⟨r, e, fetched, rfl⟩ := moved
    exact .inr (.inr (.inr (.inr (.inl ⟨rfl, fetched⟩))))
  | ready =>
    simp only [step, Option.bind_eq_some_iff, Option.map_eq_some_iff, toOption_eq_some] at moved
    obtain ⟨task, polling, r, removed, rfl⟩ := moved
    exact .inr (.inr (.inr (.inr (.inr ⟨task, rfl, polling, removed⟩))))

end Scheduler

namespace Executor

variable {φ : Type}

/-- A live coroutine waits in some ready queue. -/
def Waiting (e : Executor φ) : Prop :=
  ∃ p < maxPrioNum, ∃ cid ∈ e.queue p, e.tasks cid.val ≠ none

/-- `fetch` gives up only when, after its flush, no live coroutine is queued. -/
def WorkConserving (e : Executor φ) : Prop :=
  ∀ e' flushed, e.fetch = .ok (none, e') → e.actualWake = .ok flushed → ¬ flushed.Waiting

/-- After the flush, the oldest entry of the first occupied ready queue names a live task. -/
def FrontLive (e : Executor φ) : Prop :=
  ∀ flushed, e.actualWake = .ok flushed → ∀ p < maxPrioNum, (∀ i < p, flushed.queue i = []) →
    ∀ cid ∈ (flushed.queue p).head?, flushed.tasks cid.val ≠ none

instance decidableFrontLive (e : Executor φ) : Decidable e.FrontLive :=
  match woken : e.actualWake with
  -- no flush, no entry to be stale
  | .error _ => .isTrue fun _ flushed => by cases woken.symm.trans flushed
  | .ok f =>
    decidable_of_iff (∀ p < maxPrioNum, (∀ i < p, f.queue i = []) →
        ∀ cid ∈ (f.queue p).head?, (f.tasks cid.val).isSome) <| by
      simp only [FrontLive, woken, Except.ok.injEq, forall_eq', Option.isSome_iff_ne_none]

/-- The bit of a priority is set exactly while its queue is occupied. -/
def BitsExact (e : Executor φ) : Prop := ∀ p, e.bit p = true ↔ e.queue p ≠ []

/-- A property of the ready queues and their bitmap that every push preserves. -/
structure QueueInvariant (inv : Executor φ → Prop) : Prop where
  congr : ∀ e e', e'.queue = e.queue → e'.bit = e.bit → inv e → inv e'
  enqueued : ∀ e e' prio cid, e.Enqueued prio cid e' → inv e → inv e'

section QueueInvariant

variable {inv : Executor φ → Prop}

theorem QueueInvariant.wake (queues : QueueInvariant inv) {e e' : Executor φ} {cid : CoroutineId}
    (before : inv e) (woken : e.wake cid = .ok e') : inv e' := by
  rcases (wake_ok woken).2 with ⟨-, rfl⟩ | ⟨task, -, grown⟩
  · exact before
  · exact queues.enqueued _ _ _ _ grown before

theorem QueueInvariant.actualWake (queues : QueueInvariant inv) {e e' : Executor φ}
    (before : inv e) (flushed : e.actualWake = .ok e') : inv e' :=
  actualWake_induct inv (queues.congr e _ rfl rfl before)
    (fun _ _ _ _ before woken => queues.wake before woken) flushed

theorem QueueInvariant.delayWake (queues : QueueInvariant inv) {e e' : Executor φ}
    {cid : CoroutineId} (before : inv e) (delayed : e.delayWake cid = .ok e') : inv e' := by
  rw [(delayWake_ok delayed).2]
  exact queues.congr e _ rfl rfl before

theorem QueueInvariant.spawn (queues : QueueInvariant inv) {r r' : RuntimeState φ} {future : φ}
    {prio : Nat} {cid : CoroutineId} (before : inv r.executor)
    (spawned : r.spawn future prio = .ok (cid, r')) : inv r'.executor := by
  obtain ⟨-, -, e, grown, executor⟩ := RuntimeState.spawn_ok spawned
  rw [executor]
  exact queues.congr e _ rfl rfl (queues.enqueued _ _ _ _ grown before)

theorem QueueInvariant.removeTask (queues : QueueInvariant inv) {r r' : RuntimeState φ}
    {cid : CoroutineId} (before : inv r.executor) (removed : r.removeTask cid = .ok r') :
    inv r'.executor := by
  rw [(RuntimeState.removeTask_ok removed).2.2.2]
  exact queues.congr r.executor _ rfl rfl before

end QueueInvariant

theorem bitsExact_queueInvariant : QueueInvariant fun e : Executor φ => e.BitsExact where
  congr := fun _ _ sameQueue sameBit exact_ p => by rw [sameQueue, sameBit]; exact exact_ p
  enqueued := by
    intro e e' prio cid grown exact_ p
    rw [grown.bit_eq, grown.queue_eq]
    by_cases same : prio = p
    · subst same; simp
    · simpa [same, Function.update_of_ne (Ne.symm same)] using exact_ p

theorem BitsExact.clear_iff {e : Executor φ} (exact_ : e.BitsExact) (p : Nat) :
    e.bit p = false ↔ e.queue p = [] := by
  rw [← Bool.not_eq_true, exact_ p, not_not]

/-- With an exact bitmap and a live front entry, `fetch` ends in one of two ways only. -/
theorem fetch_frontLive {e e' : Executor φ} {r : Option (Coroutine φ)} (exact_ : e.BitsExact)
    (front : e.FrontLive) (fetched : e.fetch = .ok (r, e')) :
    ∃ flushed, e.actualWake = .ok flushed ∧
      ((r = none ∧ e' = flushed ∧ ∀ p, flushed.queue p = []) ∨
       ∃ p cid task, r = some task ∧ flushed.Popped p cid e' ∧
        flushed.tasks cid.val = some task ∧
        ∀ i, e'.bit i = (flushed.bit i && !decide (e'.queue p = [] ∧ p = i))) := by
  obtain ⟨flushed, woken, result⟩ := fetch_ok fetched
  have exact_ := bitsExact_queueInvariant.actualWake exact_ woken
  refine ⟨flushed, woken, ?_⟩
  cases result with
  -- no bit is set, so by exactness all queues are empty
  | noBit clear => exact .inl ⟨rfl, rfl, fun p => (exact_.clear_iff p).mp (clear p)⟩
  -- a set bit with an empty queue contradicts exactness
  | noEntry p _ set _ empty => exact absurd empty ((exact_ p).mp set)
  -- the least set bit is the first occupied queue, whose front is live
  | stale p cid e' bound _ least popped dead =>
    exact absurd dead (front flushed woken p bound
      (fun i below => (exact_.clear_iff i).mp (least i below)) cid (by simp [popped.front]))
  | polled p cid task e' _ _ _ popped live bits =>
    exact .inr ⟨p, cid, task, rfl, popped, live, bits⟩

theorem Popped.bitsExact {e e' : Executor φ} {p : Nat} {cid : CoroutineId} (exact_ : e.BitsExact)
    (popped : e.Popped p cid e')
    (bits : ∀ i, e'.bit i = (e.bit i && !decide (e'.queue p = [] ∧ p = i))) : e'.BitsExact := by
  intro i
  rw [bits]
  by_cases same : p = i
  · subst same
    -- the queue was occupied; its bit is cleared exactly if it is drained
    have set : e.bit p = true := (exact_ p).mpr (by simp [popped.front])
    simp [set]
  · simpa [same, popped.others i (Ne.symm same)] using exact_ i

end Executor

namespace Scheduler

open Executor

variable {φ : Type}

/-- The steps under which the scheduler is work conserving: a fetch never finds the entry of
a removed coroutine at the front of the first occupied queue. -/
def NoStaleFront (s : Scheduler φ) (op : Op φ) : Prop :=
  op = .fetch → s.runtime.executor.FrontLive

theorem step_bitsExact {s t : Scheduler φ} {op : Op φ} (exact_ : s.runtime.executor.BitsExact)
    (allowed : s.NoStaleFront op) (moved : s.step op = some t) :
    t.runtime.executor.BitsExact := by
  rcases step_cases moved with ⟨future, prio, cid, -, spawned⟩ | ⟨cid, -, woken⟩ |
    ⟨cid, -, delayed⟩ | ⟨-, flushed⟩ | ⟨rfl, fetched⟩ | ⟨task, -, -, removed⟩
  · exact bitsExact_queueInvariant.spawn exact_ spawned
  · exact bitsExact_queueInvariant.wake exact_ woken
  · exact bitsExact_queueInvariant.delayWake exact_ delayed
  · exact bitsExact_queueInvariant.actualWake exact_ flushed
  -- the only step that can leave a bit without an entry
  · obtain ⟨flushed, woken, ⟨-, same, -⟩ | ⟨p, cid, task, -, popped, -, bits⟩⟩ :=
      fetch_frontLive exact_ (allowed rfl) fetched
    · rw [same]
      exact bitsExact_queueInvariant.actualWake exact_ woken
    · exact popped.bitsExact (bitsExact_queueInvariant.actualWake exact_ woken) bits
  · exact bitsExact_queueInvariant.removeTask exact_ removed

theorem bitsExact_init : (init : Scheduler φ).runtime.executor.BitsExact := by
  intro p
  simp [init, RuntimeState.init, Executor.new, bit, queue, BitMap64.new]

theorem reaches_bitsExact {s : Scheduler φ} (run : Reaches step NoStaleFront init s) :
    s.runtime.executor.BitsExact :=
  Reaches.invariant (fun s => s.runtime.executor.BitsExact) bitsExact_init
    (fun _ _ _ exact_ allowed moved => step_bitsExact exact_ allowed moved) run

/-- Along every run whose fetches meet no stale front entry, the scheduler is work
conserving. -/
theorem fetch_work_conserving {s : Scheduler φ} (run : Reaches step NoStaleFront init s)
    (front : s.NoStaleFront .fetch) : s.runtime.executor.WorkConserving := by
  -- a fetch that returns nothing found all queues empty
  intro e' flushed fetched woken
  rintro ⟨p, -, cid, member, -⟩
  obtain ⟨f, woken', ⟨-, -, drained⟩ | ⟨p, cid, task, polled, -⟩⟩ :=
    fetch_frontLive (reaches_bitsExact run) (front rfl) fetched
  · obtain rfl : flushed = f := Except.ok.inj (woken.symm.trans woken')
    simp [drained p] at member
  · cases polled

/-- A coroutine woken while it is queued leaves a second entry behind when it completes. The
next fetch pops it and returns nothing, although another coroutine is ready. -/
theorem fetch_not_work_conserving :
    ¬ ∀ s : Scheduler Unit, Reachable step init s → s.runtime.executor.WorkConserving := by
  intro conserving
  obtain ⟨s, reached, seen⟩ := reachable_of_view step (init : Scheduler Unit)
    -- coroutine 0 is queued twice, polled once and completes; 1 waits
    [.spawn () 0, .wake ⟨0⟩, .spawn () 1, .fetch, .ready]
    (fun s => (s.runtime.executor.fetch.toOption.map fun r => r.1.isNone,
      s.runtime.executor.actualWake.toOption.map fun e => (e.queue 1, (e.tasks 1).isSome)))
    (v := (some true, some ([⟨1⟩], true))) (by decide +kernel)
  simp only [Prod.mk.injEq, Option.map_eq_some_iff, toOption_eq_some, Option.isNone_iff_eq_none]
    at seen
  obtain ⟨⟨⟨r, e'⟩, fetched, rfl⟩, flushed, woken, queued, live⟩ := seen
  refine conserving s reached e' flushed fetched woken ⟨1, by decide, ⟨1⟩, ?_, ?_⟩
  · rw [queued]; exact List.mem_singleton_self _
  · exact Option.isSome_iff_ne_none.mp live

instance (s : Scheduler φ) (op : Op φ) : Decidable (s.NoStaleFront op) :=
  match op with
  | .fetch => decidable_of_iff s.runtime.executor.FrontLive ⟨fun front _ => front, fun h => h rfl⟩
  | .spawn .. | .wake _ | .delayWake _ | .switchPossible | .ready => .isTrue nofun

/-- A delayed wake-up of a completed coroutine is harmless: after two coroutines at
different priorities have run, a fetch finds nothing and nothing waits. -/
theorem fetch_work_conserving_drained :
    ∃ s : Scheduler Unit, Reaches step NoStaleFront init s ∧ s.NoStaleFront .fetch ∧
      s.runtime.executor.WorkConserving ∧ s.runtime.executor.coroutineNum = 1 := by
  obtain ⟨s, run, seen⟩ := reaches_of_view step NoStaleFront (init : Scheduler Unit)
    [.spawn () 3, .spawn () 1, .fetch, .delayWake ⟨1⟩, .ready, .fetch, .switchPossible]
    (fun s => (decide (s.NoStaleFront .fetch), s.runtime.executor.coroutineNum))
    (v := (true, 1)) (by decide +kernel)
  obtain ⟨front, counted⟩ := Prod.mk.inj seen
  have front := of_decide_eq_true front
  exact ⟨s, run, front, fetch_work_conserving run front, counted⟩

end Scheduler

end RootTask.Runtime
