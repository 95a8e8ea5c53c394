import RootTask.Runtime.Scheduling

/-!
# Order of service

Here a run is any sequence of calls of the executor's operations, `remove_task` with an
arbitrary id included, so these results do not depend on how `run_until_blocked` uses them.

A queue with an entry always has its bit set, and so `fetch` serves the first occupied
queue. The converse fails: `fetch` clears the bit only on its way out with a task, and the
pop of a stale last entry leaves the bit of an empty queue behind.
-/
namespace RootTask.Runtime

open Transition

inductive Call (φ : Type) where
  | spawn (future : φ) (prio : Nat)
  | wake (cid : CoroutineId)
  | delayWake (cid : CoroutineId)
  | switchPossible
  | fetch
  | removeTask (cid : CoroutineId)

namespace RuntimeState

variable {φ : Type}

def setExecutor (r : RuntimeState φ) (e : Executor φ) : RuntimeState φ := { r with executor := e }

def call (r : RuntimeState φ) : Call φ → Option (RuntimeState φ)
  | .spawn future prio => (r.spawn future prio).toOption.map Prod.snd
  | .wake cid => (r.executor.wake cid).toOption.map r.setExecutor
  | .delayWake cid => (r.executor.delayWake cid).toOption.map r.setExecutor
  | .switchPossible => r.executor.switchPossible.toOption.map fun x => r.setExecutor x.2
  | .fetch => r.executor.fetch.toOption.map fun x => r.setExecutor x.2
  | .removeTask cid => (r.removeTask cid).toOption

/-- The effect of a call, by the operation it makes. -/
inductive Called (r : RuntimeState φ) : Call φ → RuntimeState φ → Prop
  | spawn {future : φ} {prio : Nat} {cid : CoroutineId} {t : RuntimeState φ}
      (spawned : r.spawn future prio = .ok (cid, t)) : Called r (.spawn future prio) t
  | wake {cid : CoroutineId} {e : Executor φ} (woken : r.executor.wake cid = .ok e) :
      Called r (.wake cid) (r.setExecutor e)
  | delayWake {cid : CoroutineId} {e : Executor φ}
      (delayed : r.executor.delayWake cid = .ok e) : Called r (.delayWake cid) (r.setExecutor e)
  | switchPossible {e : Executor φ} (flushed : r.executor.actualWake = .ok e) :
      Called r .switchPossible (r.setExecutor e)
  | fetch {task : Option (Coroutine φ)} {e : Executor φ}
      (fetched : r.executor.fetch = .ok (task, e)) : Called r .fetch (r.setExecutor e)
  | removeTask {cid : CoroutineId} {t : RuntimeState φ} (removed : r.removeTask cid = .ok t) :
      Called r (.removeTask cid) t

theorem call_cases {r t : RuntimeState φ} {c : Call φ} (moved : r.call c = some t) :
    r.Called c t := by
  cases c with
  | spawn future prio =>
    simp only [call, Option.map_eq_some_iff, toOption_eq_some, Prod.exists] at moved
    obtain ⟨cid, _, spawned, rfl⟩ := moved
    exact .spawn spawned
  | wake cid =>
    simp only [call, Option.map_eq_some_iff, toOption_eq_some] at moved
    obtain ⟨e, woken, rfl⟩ := moved
    exact .wake woken
  | delayWake cid =>
    simp only [call, Option.map_eq_some_iff, toOption_eq_some] at moved
    obtain ⟨e, delayed, rfl⟩ := moved
    exact .delayWake delayed
  | switchPossible =>
    simp only [call, Option.map_eq_some_iff, toOption_eq_some, Prod.exists] at moved
    obtain ⟨possible, e, tested, rfl⟩ := moved
    exact .switchPossible (Executor.switchPossible_ok tested).1
  | fetch =>
    simp only [call, Option.map_eq_some_iff, toOption_eq_some, Prod.exists] at moved
    obtain ⟨task, e, fetched, rfl⟩ := moved
    exact .fetch fetched
  | removeTask cid =>
    simp only [call, toOption_eq_some] at moved
    exact .removeTask moved

end RuntimeState

namespace Executor

variable {φ : Type}

/-- A property of the queues that pushes preserve is preserved by every call but `fetch`. -/
theorem QueueInvariant.called {inv : Executor φ → Prop} (queues : QueueInvariant inv)
    {r t : RuntimeState φ} {c : Call φ} (before : inv r.executor) (called : r.Called c t)
    (fetches : ∀ task e, c = .fetch → r.executor.fetch = .ok (task, e) → inv e) :
    inv t.executor := by
  cases called with
  | spawn spawned => exact queues.spawn before spawned
  | wake woken => exact queues.wake before woken
  | delayWake delayed => exact queues.delayWake before delayed
  | switchPossible flushed => exact queues.actualWake before flushed
  | fetch fetched => exact fetches _ _ rfl fetched
  | removeTask removed => exact queues.removeTask before removed

/-! ### Occupied queues are marked -/

/-- The bit of every occupied queue is set, and no bit beyond the priorities is. -/
structure Marked (e : Executor φ) : Prop where
  bits : ∀ p, e.queue p ≠ [] → e.bit p = true
  bounded : ∀ p, e.bit p = true → p < maxPrioNum

theorem marked_queueInvariant : QueueInvariant fun e : Executor φ => e.Marked where
  congr := by
    intro e e' sameQueue sameBit marked
    constructor
    · rw [sameQueue, sameBit]; exact marked.bits
    · rw [sameBit]; exact marked.bounded
  enqueued := by
    intro e e' prio cid grown marked
    constructor
    · intro p occupied
      rw [grown.bit_eq]
      rw [grown.queue_eq] at occupied
      -- a push marks its own queue and touches no other
      by_cases same : prio = p
      · simp [same]
      · rw [Function.update_of_ne (Ne.symm same)] at occupied
        simp [marked.bits p occupied]
    · intro p set
      rw [grown.bit_eq, Bool.or_eq_true, decide_eq_true_eq] at set
      rcases set with old | rfl
      · exact marked.bounded p old
      · exact grown.prio_lt

theorem Marked.clear {e : Executor φ} (marked : e.Marked) {p : Nat} (clear : e.bit p = false) :
    e.queue p = [] := by
  by_contra occupied
  simp [marked.bits p occupied] at clear

/-- The popped entry was there, so only the bit of a drained queue may go. -/
theorem Popped.marked {e e' : Executor φ} {p : Nat} {cid : CoroutineId} (marked : e.Marked)
    (popped : e.Popped p cid e') (kept : ∀ i, e'.queue i ≠ [] → e'.bit i = e.bit i)
    (cleared : ∀ i, e'.bit i = true → e.bit i = true) : e'.Marked := by
  constructor
  · intro i occupied
    rw [kept i occupied]
    apply marked.bits
    by_cases same : i = p
    · subst same; simp [popped.front]
    · rw [← popped.others i same]; exact occupied
  · exact fun i set => marked.bounded i (cleared i set)

theorem fetch_marked {e e' : Executor φ} {task : Option (Coroutine φ)} (marked : e.Marked)
    (fetched : e.fetch = .ok (task, e')) : e'.Marked := by
  obtain ⟨f, flushed, result⟩ := fetch_ok fetched
  have marked := marked_queueInvariant.actualWake marked flushed
  cases result with
  | noBit _ => exact marked
  | noEntry _ _ _ _ _ => exact marked
  | stale _ _ _ _ _ _ popped _ bits _ =>
    exact popped.marked marked (fun i _ => bits i) fun i set => bits i ▸ set
  -- the exit with a task clears the bit, but of a drained queue only
  | polled p cid task _ bound set least popped live bits current =>
    refine popped.marked marked (fun i occupied => ?_) (fun i isSet => ?_)
    · rw [bits]
      have kept : ¬ (e'.queue p = [] ∧ p = i) := fun drained => occupied (drained.2 ▸ drained.1)
      simp [kept]
    · rw [bits, Bool.and_eq_true] at isSet
      exact isSet.1

theorem marked_new : (new : Executor φ).Marked := by
  constructor <;> intro p <;> simp [new, bit, queue, BitMap64.new]

/-! ### What enters and what leaves the queues -/

/-- Of these wake-ups, the ones that enter the queue of priority `p`: a dead coroutine is not
queued. -/
def admitted (e : Executor φ) (p : Nat) (cids : List CoroutineId) : List CoroutineId :=
  cids.filter fun cid => (e.tasks cid.val).any fun task => task.prio == p

theorem wake_queue {e e' : Executor φ} {cid : CoroutineId} (woken : e.wake cid = .ok e')
    (p : Nat) : e'.queue p = e.queue p ++ e.admitted p [cid] := by
  rcases (wake_ok woken).2 with ⟨dead, rfl⟩ | ⟨task, live, grown⟩
  · simp [admitted, dead]
  · rw [grown.queue_eq]
    by_cases same : task.prio = p
    · subst same; simp [admitted, live]
    · simp [admitted, live, same, Function.update_of_ne (Ne.symm same)]

theorem wakeAll_queue {cids : List CoroutineId} {e e' : Executor φ}
    (woken : wakeAll cids e = .ok e') (p : Nat) :
    e'.queue p = e.queue p ++ e.admitted p cids := by
  induction cids generalizing e with
  | nil => cases woken; simp [admitted]
  | cons cid rest ih =>
    obtain ⟨next, first, later⟩ := bind_ok.mp woken
    -- a wake leaves the task table alone, so `next` admits what `e` admits
    have same : next.admitted p rest = e.admitted p rest := by
      simp only [admitted, (wake_grown first).tasks]
    rw [ih later, wake_queue first, same, List.append_assoc]
    simp only [admitted, ← List.filter_append, List.singleton_append]

theorem actualWake_queue {e e' : Executor φ} (flushed : e.actualWake = .ok e') (p : Nat) :
    e'.queue p = e.queue p ++ e.admitted p (delayedCids e.delayWakeCids) := by
  rw [actualWake_eq] at flushed
  exact wakeAll_queue flushed p

/-- The entry that `fetch` pops after its flush, with its queue. -/
def consumes (e : Executor φ) : Option (Nat × CoroutineId) :=
  e.actualWake.toOption.bind fun f =>
    let prio := f.prioBitmap.findFirstOne
    (f.readyQueue prio).pop.map fun x => (prio, x.1)

theorem consumes_popped {e f e' : Executor φ} {p : Nat} {cid : CoroutineId}
    (flushed : e.actualWake = .ok f) (set : f.bit p = true) (least : ∀ i < p, f.bit i = false)
    (popped : f.Popped p cid e') : e.consumes = some (p, cid) := by
  -- the search finds the queue of the popped entry
  have first : f.prioBitmap.findFirstOne = p := BitMap64.findFirstOne_eq set least
  simp only [consumes, flushed, Except.toOption, Option.bind_some, first]
  cases taken : (f.readyQueue p).pop with
  | none =>
    have drained : f.queue p = [] := (RingBuffer.pop_none_iff _).mp taken
    simp [popped.front] at drained
  | some x =>
    have front : f.queue p = x.1 :: x.2.toList := RingBuffer.pop_some taken
    rw [popped.front, List.cons.injEq] at front
    simp [front.1]

theorem consumes_none {e f : Executor φ} (flushed : e.actualWake = .ok f)
    (drained : f.queue f.prioBitmap.findFirstOne = []) : e.consumes = none := by
  have taken := (RingBuffer.pop_none_iff (f.readyQueue f.prioBitmap.findFirstOne)).mpr drained
  simp [consumes, flushed, Except.toOption, taken]

/-- The popped entry, as what leaves the queue of priority `p`. -/
def consumed (e : Executor φ) (p : Nat) : List CoroutineId :=
  match e.consumes with
  | some (prio, cid) => if prio = p then [cid] else []
  | none => []

theorem Popped.queue {e e' : Executor φ} {p : Nat} {cid : CoroutineId}
    (popped : e.Popped p cid e') (i : Nat) :
    e.queue i = (if p = i then [cid] else []) ++ e'.queue i := by
  by_cases same : p = i
  · subst same; simp [popped.front]
  · simp [same, popped.others i (Ne.symm same)]

theorem fetch_queue {e e' : Executor φ} {task : Option (Coroutine φ)} (marked : e.Marked)
    (fetched : e.fetch = .ok (task, e')) (p : Nat) :
    e.queue p ++ e.admitted p (delayedCids e.delayWakeCids) = e.consumed p ++ e'.queue p := by
  obtain ⟨f, flushed, result⟩ := fetch_ok fetched
  have marked := marked_queueInvariant.actualWake marked flushed
  rw [← actualWake_queue flushed p]
  cases result with
  | noBit clear =>
    -- no bit is set, so the queue that `consumes` looks at is empty
    have none_ := consumes_none flushed (marked.clear (clear _))
    simp [consumed, none_]
  | noEntry prio _ set least empty =>
    -- a leftover bit without an entry
    have first : e'.prioBitmap.findFirstOne = prio := BitMap64.findFirstOne_eq set least
    have none_ := consumes_none flushed (by rw [first]; exact empty)
    simp [consumed, none_]
  | stale prio cid _ _ set least popped _ _ _ =>
    simp only [consumed, consumes_popped flushed set least popped]
    exact popped.queue p
  | polled prio cid _ _ _ set least popped _ _ _ =>
    simp only [consumed, consumes_popped flushed set least popped]
    exact popped.queue p

end Executor

namespace RuntimeState

variable {φ : Type}

/-- The ids that a call pushes at priority `p`, in order. -/
def arrivals (r : RuntimeState φ) (p : Nat) : Call φ → List CoroutineId
  | .spawn _ prio =>
    if prio = p then (r.cidAllocator.allocate.map fun x => ⟨x.1⟩).toList else []
  | .wake cid => r.executor.admitted p [cid]
  | .switchPossible | .fetch =>
    r.executor.admitted p (Executor.delayedCids r.executor.delayWakeCids)
  | .delayWake _ | .removeTask _ => []

/-- The ids that a call pops at priority `p`. -/
def departures (r : RuntimeState φ) (p : Nat) : Call φ → List CoroutineId
  | .fetch => r.executor.consumed p
  | .spawn .. | .wake _ | .switchPossible | .delayWake _ | .removeTask _ => []

/-- One call appends its arrivals and takes its departures off the front. -/
theorem Called.queue {r t : RuntimeState φ} {c : Call φ} (marked : r.executor.Marked)
    (called : r.Called c t) (p : Nat) :
    r.executor.queue p ++ r.arrivals p c = r.departures p c ++ t.executor.queue p := by
  cases called with
  | @spawn future prio cid t spawned =>
    -- the id that enters is the one the allocator is about to give out
    obtain ⟨-, generated, e, grown, executor⟩ := spawn_ok spawned
    have queues : t.executor.queue = e.queue := by rw [executor]; rfl
    rw [queues, grown.queue_eq]
    by_cases same : prio = p
    · subst same; simp [arrivals, departures, generated]
    · simp [arrivals, departures, same, Function.update_of_ne (Ne.symm same)]
  | wake woken => exact (Executor.wake_queue woken p).symm
  | @delayWake cid e delayed =>
    have queues : e.queue = r.executor.queue := by rw [(Executor.delayWake_ok delayed).2]; rfl
    simp [arrivals, departures, setExecutor, queues]
  | switchPossible flushed => exact (Executor.actualWake_queue flushed p).symm
  | fetch fetched => exact Executor.fetch_queue marked fetched p
  | removeTask removed =>
    have queues : t.executor.queue = r.executor.queue := by
      rw [(removeTask_ok removed).2.2.2]; rfl
    simp [arrivals, departures, queues]

theorem Called.marked {r t : RuntimeState φ} {c : Call φ} (marked : r.executor.Marked)
    (called : r.Called c t) : t.executor.Marked :=
  Executor.marked_queueInvariant.called marked called
    fun _ _ _ fetched => Executor.fetch_marked marked fetched

end RuntimeState

/-- The runtime with the record of all that was ever pushed and popped at each priority. -/
structure History (φ : Type) where
  runtime : RuntimeState φ
  arrived : Nat → List CoroutineId
  served : Nat → List CoroutineId

namespace History

variable {φ : Type}

def init : History φ := ⟨.init, fun _ => [], fun _ => []⟩

def call (h : History φ) (c : Call φ) : Option (History φ) :=
  (h.runtime.call c).map fun r =>
    { runtime := r
      arrived := fun p => h.arrived p ++ h.runtime.arrivals p c
      served := fun p => h.served p ++ h.runtime.departures p c }

/-- At each priority the entries leave in the order in which they came. -/
structure Fifo (h : History φ) : Prop where
  marked : h.runtime.executor.Marked
  order : ∀ p, h.arrived p = h.served p ++ h.runtime.executor.queue p

theorem Fifo.call {h k : History φ} {c : Call φ} (fifo : h.Fifo) (moved : h.call c = some k) :
    k.Fifo := by
  obtain ⟨r, called, rfl⟩ := Option.map_eq_some_iff.mp moved
  have called := RuntimeState.call_cases called
  constructor
  · exact called.marked fifo.marked
  · intro p
    -- what was in the queue, with the arrivals, is what leaves and what stays
    calc h.arrived p ++ h.runtime.arrivals p c
        = h.served p ++ (h.runtime.executor.queue p ++ h.runtime.arrivals p c) := by
          rw [fifo.order p, List.append_assoc]
      _ = (h.served p ++ h.runtime.departures p c) ++ r.executor.queue p := by
          rw [called.queue fifo.marked p, List.append_assoc]

theorem reachable_fifo {h : History φ} (run : Reachable call init h) : h.Fifo :=
  run.invariant Fifo ⟨Executor.marked_new, fun p => by simp [init, RuntimeState.init,
    Executor.new, Executor.queue]⟩ fun _ _ _ fifo _ moved => fifo.call moved

/-- `fetch` serves the oldest entry of the first occupied queue and nothing else, and along
every run the entries of a priority leave in the order in which they were pushed. -/
theorem fetch_oldest_first {h : History φ} (run : Reachable call init h) :
    (∀ p, h.arrived p = h.served p ++ h.runtime.executor.queue p) ∧
    ∀ task e', h.runtime.executor.fetch = .ok (some task, e') →
      ∃ flushed p cid, h.runtime.executor.actualWake = .ok flushed ∧ p < maxPrioNum ∧
        (∀ i < p, flushed.queue i = []) ∧ flushed.queue p = cid :: e'.queue p ∧
        (∀ i ≠ p, e'.queue i = flushed.queue i) ∧ e'.current = some cid ∧
        flushed.tasks cid.val = some task ∧
        ∀ i, h.runtime.departures i .fetch = if p = i then [cid] else [] := by
  have fifo := reachable_fifo run
  refine ⟨fifo.order, fun task e' fetched => ?_⟩
  -- only the last of the four results returns a task
  obtain ⟨flushed, woken, result⟩ := Executor.fetch_ok fetched
  have marked := Executor.marked_queueInvariant.actualWake fifo.marked woken
  cases result with
  | polled p cid task e' bound set least popped live bits current =>
    refine ⟨flushed, p, cid, woken, bound, fun i below => marked.clear (least i below),
      popped.front, popped.others, current, live, fun i => ?_⟩
    simp only [RuntimeState.departures, Executor.consumed,
      Executor.consumes_popped woken set least popped]

/-- Two coroutines at priority 1 and a delayed wake-up of one at priority 0: the delayed one is
served first, then the two in order. -/
theorem fetch_oldest_first_after_flush :
    ∃ h : History Unit, Reachable call init h ∧ h.arrived 1 = h.served 1 ++ [⟨2⟩] ∧
      ∃ task e' flushed p, h.runtime.executor.fetch = .ok (some task, e') ∧
        h.runtime.executor.actualWake = .ok flushed ∧ flushed.queue p = ⟨2⟩ :: e'.queue p := by
  obtain ⟨h, run, seen⟩ := reachable_of_view call (init : History Unit)
    -- coroutine 0 runs, is woken from an interrupt, and then 1 is served before 2
    [.spawn () 0, .fetch, .spawn () 1, .spawn () 1, .delayWake ⟨0⟩, .fetch, .fetch]
    (fun h => (h.runtime.executor.queue 1,
      h.runtime.executor.fetch.toOption.map fun x => (x.1.isSome, x.2.current)))
    (v := ([⟨2⟩], some (true, some ⟨2⟩))) (by decide +kernel)
  simp only [Prod.mk.injEq, Option.map_eq_some_iff, toOption_eq_some, Option.isSome_iff_exists]
    at seen
  obtain ⟨queued, ⟨task, e'⟩, fetched, ⟨task, rfl⟩, current⟩ := seen
  obtain ⟨order, serves⟩ := fetch_oldest_first run
  obtain ⟨flushed, p, cid, woken, -, -, front, -, served, -⟩ := serves task e' fetched
  obtain rfl : cid = ⟨2⟩ := Option.some.inj (served.symm.trans current)
  exact ⟨h, run, by rw [order 1, queued], task, e', flushed, p, fetched, woken, front⟩

end History

/-! ### The readiness bitmap -/

namespace Executor

variable {φ : Type}

/-- Every task has one of the priorities. -/
def PriosOk (e : Executor φ) : Prop := ∀ i task, e.tasks i = some task → task.prio < maxPrioNum

/-- `fetch` does not drain a queue with the entry of a removed coroutine: where the first
occupied queue holds one entry only, this is a live one. -/
def NoStaleLast (e : Executor φ) : Prop :=
  ∀ flushed, e.actualWake = .ok flushed → ∀ p < maxPrioNum, (∀ i < p, flushed.queue i = []) →
    ∀ cid ∈ (flushed.queue p).head?, (flushed.queue p).tail = [] → flushed.tasks cid.val ≠ none

instance decidableNoStaleLast (e : Executor φ) : Decidable e.NoStaleLast :=
  match woken : e.actualWake with
  | .error _ => .isTrue fun _ flushed => by cases woken.symm.trans flushed
  | .ok f =>
    decidable_of_iff (∀ p < maxPrioNum, (∀ i < p, f.queue i = []) →
        ∀ cid ∈ (f.queue p).head?, (f.queue p).tail = [] → (f.tasks cid.val).isSome) <| by
      simp only [NoStaleLast, woken, Except.ok.injEq, forall_eq', Option.isSome_iff_ne_none]

/-- The first occupied queue is the one with the first bit. -/
theorem BitsExact.first_unique {e : Executor φ} (exact_ : e.BitsExact) {p q : Nat}
    (set : e.bit p = true) (least : ∀ i < p, e.bit i = false) (below : ∀ i < q, e.queue i = [])
    (occupied : e.queue q ≠ []) : q = p := by
  -- neither can come before the other
  rcases Nat.lt_trichotomy q p with before | same | after
  · exact absurd ((exact_.clear_iff q).mp (least q before)) occupied
  · exact same
  · exact absurd (below p after) ((exact_ p).mp set)

/-- With an exact bitmap, a `fetch` keeps it exact unless it drains a queue with a stale
entry. -/
theorem fetch_bitsExact_iff {e e' : Executor φ} {task : Option (Coroutine φ)}
    (exact_ : e.BitsExact) (fetched : e.fetch = .ok (task, e')) :
    e'.BitsExact ↔ e.NoStaleLast := by
  obtain ⟨f, woken, result⟩ := fetch_ok fetched
  have exactFlushed := bitsExact_queueInvariant.actualWake exact_ woken
  -- the condition speaks about the flushed executor, which is `f`
  have condition : e.NoStaleLast ↔ ∀ p < maxPrioNum, (∀ i < p, f.queue i = []) →
      ∀ cid ∈ (f.queue p).head?, (f.queue p).tail = [] → f.tasks cid.val ≠ none := by
    simp only [NoStaleLast, woken, Except.ok.injEq, forall_eq']
  rw [condition]
  cases result with
  | noBit clear =>
    refine iff_of_true exactFlushed fun p _ _ cid front => ?_
    simp [(exactFlushed.clear_iff p).mp (clear p)] at front
  | noEntry p _ set _ empty => exact absurd empty ((exactFlushed p).mp set)
  | stale p cid _ bound set least popped dead bits _ =>
    constructor
    -- exact after the pop: the bit stayed, so another entry is behind
    · intro exactAfter q _ below c front last
      obtain rfl : q = p := exactFlushed.first_unique set least below fun nil => by
        simp [nil] at front
      have occupied := (exactAfter q).mp ((bits q).trans set)
      rw [popped.front, List.tail_cons] at last
      exact absurd last occupied
    -- the entry was not the last one, so the bit that stays is right
    · intro notLast i
      rw [bits]
      by_cases same : i = p
      · subst same
        have occupied : e'.queue i ≠ [] := fun drained =>
          notLast i bound (fun j below => (exactFlushed.clear_iff j).mp (least j below)) cid
            (by simp [popped.front]) (by rw [popped.front, List.tail_cons, drained]) dead
        simp [set, occupied]
      · rw [popped.others i same]
        exact exactFlushed i
  | polled p cid task _ bound set least popped live bits _ =>
    -- the front entry is live, and the bit is cleared with the last entry
    refine iff_of_true (popped.bitsExact exactFlushed bits) fun q _ below c front _ => ?_
    obtain rfl : q = p := exactFlushed.first_unique set least below fun nil => by
      simp [nil] at front
    obtain rfl : cid = c := by simpa [popped.front] using front
    simp [live]

/-- What the answer of `switch_possible` says, with an exact bitmap. -/
def SwitchExact (e : Executor φ) : Prop :=
  ∀ possible e', e.switchPossible = .ok (possible, e') →
    ∃ cid task, e.current = some cid ∧ e.tasks cid.val = some task ∧ e.actualWake = .ok e' ∧
      (possible = true ↔ ∃ p < task.prio, e'.queue p ≠ [])

theorem BitsExact.switchExact {e : Executor φ} (exact_ : e.BitsExact) (prios : e.PriosOk) :
    e.SwitchExact := by
  intro possible e' tested
  obtain ⟨flushed, cid, task, current, live, rfl⟩ := switchPossible_ok tested
  have exactFlushed := bitsExact_queueInvariant.actualWake exact_ flushed
  obtain ⟨same, sameCurrent, -⟩ := actualWake_same flushed
  rw [same.tasks] at live
  refine ⟨cid, task, sameCurrent ▸ current, live, flushed, ?_⟩
  rw [decide_eq_true_eq]
  have bound : task.prio < 8 := prios _ _ live
  -- 64, the answer without a bit, is below no priority
  rcases e'.prioBitmap.findFirstOne_cases with ⟨none_, clear⟩ | ⟨-, set, least⟩
  · refine iff_of_false (by omega) ?_
    rintro ⟨p, -, occupied⟩
    exact occupied ((exactFlushed.clear_iff p).mp (clear p))
  · constructor
    · exact fun below => ⟨_, below, (exactFlushed _).mp set⟩
    · rintro ⟨p, below, occupied⟩
      by_contra above
      exact occupied ((exactFlushed.clear_iff p).mp (least p (by omega)))

end Executor

namespace RuntimeState

open Executor

variable {φ : Type}

/-- Only `spawn` and `remove_task` touch the task table, its counter or the allocator. -/
theorem Called.bookkeeping {r t : RuntimeState φ} {c : Call φ} (called : r.Called c t) :
    (∃ future prio cid, c = .spawn future prio ∧ r.spawn future prio = .ok (cid, t)) ∨
    (∃ cid, c = .removeTask cid ∧ r.removeTask cid = .ok t) ∨
    ∃ e, r.executor.SameTasks e ∧ t = r.setExecutor e := by
  cases called with
  | spawn spawned => exact .inl ⟨_, _, _, rfl, spawned⟩
  | wake woken => exact .inr (.inr ⟨_, (wake_grown woken).toSameTasks, rfl⟩)
  | delayWake delayed =>
    refine .inr (.inr ⟨_, ?_, rfl⟩)
    rw [(delayWake_ok delayed).2]
    exact ⟨rfl, rfl, rfl⟩
  | switchPossible flushed => exact .inr (.inr ⟨_, (actualWake_same flushed).1, rfl⟩)
  | fetch fetched => exact .inr (.inr ⟨_, (fetch_same fetched).1, rfl⟩)
  | removeTask removed => exact .inr (.inl ⟨_, rfl, removed⟩)

theorem Called.priosOk {r t : RuntimeState φ} {c : Call φ} (prios : r.executor.PriosOk)
    (called : r.Called c t) : t.executor.PriosOk := by
  intro i task live
  rcases called.bookkeeping with ⟨future, prio, cid, -, spawned⟩ | ⟨cid, -, removed⟩ |
    ⟨e, same, rfl⟩
  · rw [spawn_tasks spawned] at live
    by_cases own : i = cid.val
    · subst own
      obtain rfl : _ = task := by simpa using live
      -- the push of `spawn` has checked the priority
      obtain ⟨-, -, e, grown, -⟩ := spawn_ok spawned
      exact grown.prio_lt
    · rw [Function.update_of_ne own] at live
      exact prios i task live
  · rw [removeTask_tasks removed] at live
    by_cases own : i = cid.val
    · simp [own] at live
    · rw [Function.update_of_ne own] at live
      exact prios i task live
  · exact prios i task (same.tasks ▸ live)

/-- The calls that keep the bitmap exact. -/
def KeepsExact (r : RuntimeState φ) (c : Call φ) : Prop :=
  c = .fetch → r.executor.NoStaleLast

instance (r : RuntimeState φ) (c : Call φ) : Decidable (r.KeepsExact c) :=
  match c with
  | .fetch =>
    decidable_of_iff r.executor.NoStaleLast ⟨fun notLast _ => notLast, fun h => h rfl⟩
  | .spawn .. | .wake _ | .delayWake _ | .switchPossible | .removeTask _ => .isTrue nofun

structure ReadyOk (r : RuntimeState φ) : Prop where
  exact_ : r.executor.BitsExact
  marked : r.executor.Marked
  prios : r.executor.PriosOk

theorem ReadyOk.call {r t : RuntimeState φ} {c : Call φ} (ok : r.ReadyOk)
    (allowed : r.KeepsExact c) (moved : r.call c = some t) : t.ReadyOk := by
  have called := call_cases moved
  constructor
  · exact bitsExact_queueInvariant.called ok.exact_ called fun _ _ isFetch fetched =>
      (fetch_bitsExact_iff ok.exact_ fetched).mpr (allowed isFetch)
  · exact called.marked ok.marked
  · exact called.priosOk ok.prios

theorem readyOk_init : (init : RuntimeState φ).ReadyOk := by
  constructor
  · exact Scheduler.bitsExact_init
  · exact marked_new
  · simp [PriosOk, init, Executor.new]

/-- In every run whose fetches never drain a queue with a stale entry, the bitmap is exact and
`switch_possible` tells whether a more urgent queue is occupied. One fetch against the
condition already breaks the bitmap. -/
theorem readiness_exact {r : RuntimeState φ} (run : Reaches call KeepsExact init r) :
    (∀ p, r.executor.bit p = true ↔ r.executor.queue p ≠ []) ∧
    (∀ p, maxPrioNum ≤ p → r.executor.bit p = false) ∧ r.executor.SwitchExact ∧
    ∀ task e', r.executor.fetch = .ok (task, e') → (e'.BitsExact ↔ r.KeepsExact .fetch) := by
  have ok := run.invariant ReadyOk readyOk_init fun _ _ _ ok allowed moved => ok.call allowed moved
  refine ⟨ok.exact_, fun p beyond => ?_, ok.exact_.switchExact ok.prios, fun task e' fetched => ?_⟩
  · by_contra set
    have bound := ok.marked.bounded p (by simpa using set)
    omega
  · rw [fetch_bitsExact_iff ok.exact_ fetched]
    exact ⟨fun notLast _ => notLast, fun keeps => keeps rfl⟩

/-- A coroutine woken while it runs and removed before its second turn leaves a stale entry.
Its pop empties the queue of priority 0 and keeps the bit, and then `switch_possible` reports
a more urgent coroutine to one of priority 1 although none waits. -/
theorem readiness_not_exact :
    ∃ r : RuntimeState Unit, Reachable call init r ∧ r.executor.bit 0 = true ∧
      r.executor.queue 0 = [] ∧ ¬ r.executor.SwitchExact := by
  obtain ⟨r, run, seen⟩ := reachable_of_view call (init : RuntimeState Unit)
    [.spawn () 0, .wake ⟨0⟩, .fetch, .removeTask ⟨0⟩, .fetch, .spawn () 1]
    (fun r => ((r.executor.bit 0, r.executor.queue 0),
      r.executor.switchPossible.toOption.map fun x => (x.1, x.2.queue 0),
      r.executor.current, (r.executor.tasks 0).map Coroutine.prio))
    (v := ((true, []), some (true, []), some ⟨0⟩, some 1)) (by decide +kernel)
  simp only [Prod.mk.injEq, Option.map_eq_some_iff, toOption_eq_some] at seen
  obtain ⟨⟨set, drained⟩, ⟨⟨possible, e'⟩, tested, rfl, empty⟩, current, task, live, prio⟩ := seen
  refine ⟨r, run, set, drained, fun switch => ?_⟩
  obtain ⟨cid, running, isCurrent, isLive, -, reported⟩ := switch _ _ tested
  obtain rfl : (⟨0⟩ : CoroutineId) = cid := Option.some.inj (current.symm.trans isCurrent)
  obtain rfl : task = running := Option.some.inj (live.symm.trans isLive)
  -- the answer was yes, but below priority 1 there is only the empty queue 0
  obtain ⟨p, below, occupied⟩ := reported.mp rfl
  obtain rfl : p = 0 := by omega
  exact occupied empty

/-- The same coroutine woken twice: the stale entry is followed by another one, and the bit
goes with the last of the live coroutine behind them. -/
theorem readiness_exact_drained :
    ∃ r : RuntimeState Unit, Reaches call KeepsExact init r ∧ r.executor.queue 0 = [] ∧
      r.executor.bit 0 = false := by
  obtain ⟨r, run, drained⟩ := reaches_of_view call KeepsExact (init : RuntimeState Unit)
    [.spawn () 0, .wake ⟨0⟩, .fetch, .spawn () 0, .removeTask ⟨0⟩, .fetch, .fetch,
      .switchPossible]
    (fun r => r.executor.queue 0) (v := []) (by decide +kernel)
  refine ⟨r, run, drained, ?_⟩
  by_contra set
  exact ((readiness_exact run).1 0).mp (by simpa using set) drained

end RuntimeState

end RootTask.Runtime
