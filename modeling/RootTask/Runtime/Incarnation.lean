import Mathlib.Data.List.Forall2
import RootTask.Lib.Transition
import RootTask.Runtime.AsyncLib

/-!
# Wake-ups across the reuse of coroutine ids

Ready-queue entries, delayed-wake bits, `WAKE_MAP` registrations and `IMMEDIATE_VALUE`
deposits all name a coroutine by its bare id, and `CID_ALLOCATOR` hands out the least free
id again as soon as a coroutine completes. Here every spawn is an incarnation of its own:
the future of a coroutine is its number, and next to the state of the thread stands, for
each of the four structures, the incarnation that its content was made for.

## Proof strategy

The invariant says of everything that names the id of a live coroutine that it was made for
that coroutine. A completion makes it vacuous for the freed id, so the only step that can
break it is a spawn that gets an id with something left over, or a caller that goes on using
an id after it passed to another coroutine.
-/
namespace RootTask.Runtime

open Transition Executor

/-- An id as its holder got it: together with the incarnation it stood for. -/
structure Handle where
  cid : CoroutineId
  incarnation : Nat
  deriving DecidableEq

/-- A task polled from `ready_queue[queue]`, and whom the popped entry was made for. -/
structure PollRecord where
  queue : Nat
  task : Coroutine Nat
  madeFor : List Nat
  deriving DecidableEq

/-- A value received from the mailbox, and whom it was deposited for. -/
structure TakeRecord where
  receiver : Nat
  madeFor : Nat
  deriving DecidableEq

structure Incarnations where
  thread : AsyncState Nat IPCItem
  polling : Option (Coroutine Nat)
  spawned : Nat
  entryFor : Nat → List (List Nat)
  bitFor : Nat → List Nat
  registrationFor : Nat → Nat
  depositFor : Nat → Nat
  polls : List PollRecord
  takes : List TakeRecord

inductive Event where
  | spawn (prio : Nat)
  | registerRecvCid (handle : Handle)
  | wake (handle : Handle)
  | wakeWithValue (handle : Handle) (item : IPCItem)
  | delayWake (handle : Handle)
  /-- One set bit of the word that `uintr_handler` is called with. -/
  | interrupt (vec : Nat)
  | switchPossible
  | fetch
  /-- The polled coroutine resumes from a `yield_now`. -/
  | take
  | ready

namespace Incarnations

def init : Incarnations where
  thread := .init
  polling := none
  spawned := 0
  entryFor := fun _ => []
  bitFor := fun _ => []
  registrationFor := fun _ => 0
  depositFor := fun _ => 0
  polls := []
  takes := []

/-- The entries that `after` has and `before` has not get the tag of their id. -/
def tagged (s : Incarnations) (after : Executor Nat) (tag : CoroutineId → List Nat) (p : Nat) :
    List (List Nat) :=
  s.entryFor p ++ ((after.queue p).drop (s.thread.executor.queue p).length).map tag

def spawn (s : Incarnations) (prio : Nat) : Option Incarnations :=
  (s.thread.runtime.spawn s.spawned prio).toOption.map fun r => { s with
    thread := { s.thread with runtime := r.2 }
    spawned := s.spawned + 1
    entryFor := s.tagged r.2.executor fun _ => [s.spawned] }

def registerRecvCid (s : Incarnations) (h : Handle) : Incarnations :=
  let r := s.thread.registerRecvCid h.cid
  { s with
    thread := r.2
    registrationFor := match r.1 with
      | some vec => Function.update s.registrationFor vec h.incarnation
      | none => s.registrationFor }

def wake (s : Incarnations) (h : Handle) : Option Incarnations :=
  (s.thread.wake h.cid).toOption.map fun thread => { s with
    thread := thread
    entryFor := s.tagged thread.executor fun _ => [h.incarnation] }

def wakeWithValue (s : Incarnations) (h : Handle) (item : IPCItem) : Option Incarnations :=
  (s.thread.wakeWithValue h.cid item).toOption.map fun thread => { s with
    thread := thread
    entryFor := s.tagged thread.executor fun _ => [h.incarnation]
    depositFor := Function.update s.depositFor h.cid.val h.incarnation }

def markBit (s : Incarnations) (cid : CoroutineId) (incarnation : Nat) : Nat → List Nat :=
  Function.update s.bitFor cid.val (incarnation :: s.bitFor cid.val)

def delayWake (s : Incarnations) (h : Handle) : Option Incarnations :=
  (s.thread.executor.delayWake h.cid).toOption.map fun e => { s with
    thread := s.thread.setExecutor e
    bitFor := s.markBit h.cid h.incarnation }

def interrupt (s : Incarnations) (vec : Nat) : Option Incarnations :=
  if vec < maxUintVec then
    (s.thread.wakeMap vec).bind fun cid =>
      (s.thread.wakeRecvCoroutine vec).toOption.map fun thread => { s with
        thread := thread
        bitFor := s.markBit cid (s.registrationFor vec) }
  else none

/-- The state after the flush with which `switch_possible` and `fetch` begin. -/
def flush (s : Incarnations) : Option Incarnations :=
  s.thread.executor.actualWake.toOption.map fun e => { s with
    thread := s.thread.setExecutor e
    entryFor := s.tagged e fun cid => s.bitFor cid.val
    bitFor := fun _ => [] }

def switchPossible (s : Incarnations) : Option Incarnations :=
  s.thread.executor.switchPossible.toOption.bind fun _ => s.flush

def fetch (s : Incarnations) : Option Incarnations :=
  s.flush.bind fun f =>
    s.thread.executor.fetch.toOption.map fun r => { f with
      thread := f.thread.setExecutor r.2
      polling := r.1
      entryFor := fun p =>
        (f.entryFor p).drop ((f.thread.executor.queue p).length - (r.2.queue p).length)
      polls := match r.1 with
        | none => f.polls
        | some task =>
          let queue := f.thread.executor.prioBitmap.findFirstOne
          ⟨queue, task, (f.entryFor queue).headD []⟩ :: f.polls }

def take (s : Incarnations) : Option Incarnations :=
  s.polling.bind fun task =>
    s.thread.takeValue.toOption.map fun r => { s with
      thread := r.2
      takes := match r.1 with
        | none => s.takes
        | some _ => ⟨task.future, s.depositFor task.cid.val⟩ :: s.takes }

def ready (s : Incarnations) : Option Incarnations :=
  s.polling.bind fun task =>
    (s.thread.runtime.removeTask task.cid).toOption.map fun r => { s with
      thread := { s.thread with runtime := r }
      polling := none }

def step (s : Incarnations) : Event → Option Incarnations
  | .spawn prio => s.spawn prio
  | .registerRecvCid handle => some (s.registerRecvCid handle)
  | .wake handle => s.wake handle
  | .wakeWithValue handle item => s.wakeWithValue handle item
  | .delayWake handle => s.delayWake handle
  | .interrupt vec => s.interrupt vec
  | .switchPossible => s.switchPossible
  | .fetch => s.fetch
  | .take => s.take
  | .ready => s.ready

/-- Every poll used an entry made for the polled incarnation, in the queue of its own
priority, and every value went to the incarnation it was deposited for. -/
structure Delivered (polls : List PollRecord) (takes : List TakeRecord) : Prop where
  polls : ∀ poll ∈ polls, (∀ i ∈ poll.madeFor, i = poll.task.future) ∧ poll.task.prio = poll.queue
  takes : ∀ take ∈ takes, take.madeFor = take.receiver

/-- Nothing names this id any more. -/
structure Unused (s : AsyncState Nat IPCItem) (cid : CoroutineId) : Prop where
  queued : ∀ p < maxPrioNum, cid ∉ s.executor.queue p
  delayed : s.executor.delayWakeCids.getLsbD cid.val = false
  registered : ∀ vec < maxUintVec, s.wakeMap vec ≠ some cid
  deposited : s.immediateValue cid.val = none

/-- The id did not pass on to another coroutine. -/
def Handle.Valid (s : AsyncState Nat IPCItem) (h : Handle) : Prop :=
  ∀ task ∈ s.executor.tasks h.cid.val, task.future = h.incarnation

/-- A spawn gets an id that nothing names, and no one uses an id that passed on. -/
def NoLeftover (s : Incarnations) : Event → Prop
  | .spawn _ => ∀ r ∈ s.thread.runtime.cidAllocator.allocate, Unused s.thread ⟨r.1⟩
  | .registerRecvCid h | .wake h | .wakeWithValue h _ | .delayWake h => Handle.Valid s.thread h
  | .interrupt _ | .switchPossible | .fetch | .take | .ready => True

/-! ### The invariant -/

/-- An entry of `ready_queue[p]` for a live coroutine. -/
def EntryOk (tasks : Nat → Option (Coroutine Nat)) (p : Nat) (cid : CoroutineId)
    (madeFor : List Nat) : Prop :=
  ∀ task, tasks cid.val = some task → task.prio = p ∧ ∀ i ∈ madeFor, i = task.future

structure Invariant (s : Incarnations) : Prop where
  entries : ∀ p < maxPrioNum,
    List.Forall₂ (EntryOk s.thread.executor.tasks p) (s.thread.executor.queue p) (s.entryFor p)
  bits : ∀ i task, s.thread.executor.tasks i = some task → ∀ o ∈ s.bitFor i, o = task.future
  unmarked : ∀ i, s.thread.executor.delayWakeCids.getLsbD i = false → s.bitFor i = []
  registrations : ∀ vec < maxUintVec, ∀ cid task, s.thread.wakeMap vec = some cid →
    s.thread.executor.tasks cid.val = some task → s.registrationFor vec = task.future
  deposits : ∀ i item task, s.thread.immediateValue i = some item →
    s.thread.executor.tasks i = some task → s.depositFor i = task.future
  table : s.thread.runtime.TableOk
  polled : ∀ task, s.polling = some task → s.thread.executor.current = some task.cid ∧
    s.thread.executor.tasks task.cid.val = some task
  delivered : Delivered s.polls s.takes

theorem invariant_init : init.Invariant := by
  refine ⟨fun p _ => ?_, ?_, ?_, ?_, ?_, RuntimeState.tableOk_init, ?_, ⟨?_, ?_⟩⟩ <;>
    simp [init, AsyncState.init, RuntimeState.init, Executor.new, queue]

theorem Invariant.tagged_entries {s : Incarnations} {after : Executor Nat}
    {woken : CoroutineId → Prop} {tag : CoroutineId → List Nat} (inv : s.Invariant)
    (grown : s.thread.executor.Grown after woken)
    (meant : ∀ cid task, woken cid → s.thread.executor.tasks cid.val = some task →
      ∀ i ∈ tag cid, i = task.future) (p : Nat) (bound : p < maxPrioNum) :
    List.Forall₂ (EntryOk after.tasks p) (after.queue p) (s.tagged after tag p) := by
  obtain ⟨added, appended, addedOk⟩ := grown.appended p
  rw [tagged, appended, List.drop_left, grown.tasks]
  -- the old entries keep their tags; each new one is tagged for the live task it was pushed for
  refine List.rel_append (inv.entries p bound) ?_
  rw [List.forall₂_map_right_iff, List.forall₂_same]
  intro cid member task live
  obtain ⟨isWoken, owner, owned, prio⟩ := addedOk cid member
  obtain rfl : owner = task := Option.some.inj (owned.symm.trans live)
  exact ⟨prio, meant cid owner isWoken live⟩

/-- Waking, now or by a flush, when every tag is meant for the coroutine that is woken. -/
theorem Invariant.grow {s : Incarnations} {after : Executor Nat} {woken : CoroutineId → Prop}
    {tag : CoroutineId → List Nat} {bitFor : Nat → List Nat} (inv : s.Invariant)
    (grown : s.thread.executor.Grown after woken)
    (meant : ∀ cid task, woken cid → s.thread.executor.tasks cid.val = some task →
      ∀ i ∈ tag cid, i = task.future)
    (bits : ∀ i task, s.thread.executor.tasks i = some task → ∀ o ∈ bitFor i, o = task.future)
    (unmarked : ∀ i, after.delayWakeCids.getLsbD i = false → bitFor i = []) :
    Invariant { s with
      thread := s.thread.setExecutor after
      entryFor := s.tagged after tag
      bitFor := bitFor } where
  entries := inv.tagged_entries grown meant
  bits i task live := bits i task (grown.tasks ▸ live)
  unmarked := unmarked
  registrations vec bound cid task registered live :=
    inv.registrations vec bound cid task registered (grown.tasks ▸ live)
  deposits i item task stored live := inv.deposits i item task stored (grown.tasks ▸ live)
  table := inv.table.sameTasks grown.toSameTasks
  polled task polling := by
    have before := inv.polled task polling
    exact ⟨grown.current.trans before.1, by rw [← before.2]; exact congrFun grown.tasks _⟩
  delivered := inv.delivered

theorem Invariant.wake {s t : Incarnations} {h : Handle} (inv : s.Invariant)
    (valid : Handle.Valid s.thread h) (moved : s.wake h = some t) : t.Invariant := by
  simp only [Incarnations.wake, Option.map_eq_some_iff, toOption_eq_some] at moved
  obtain ⟨thread, returned, rfl⟩ := moved
  obtain ⟨e, woken, rfl⟩ := AsyncState.wake_ok returned
  refine inv.grow (wake_grown woken) ?_ inv.bits ?_
  -- a valid handle stands for the coroutine that now has the id
  · rintro cid task rfl live i member
    rw [valid task live]
    exact List.mem_singleton.mp member
  · rw [wake_delayWakeCids woken]
    exact inv.unmarked

theorem Invariant.wakeWithValue {s t : Incarnations} {h : Handle} {item : IPCItem}
    (inv : s.Invariant) (valid : Handle.Valid s.thread h)
    (moved : s.wakeWithValue h item = some t) : t.Invariant := by
  simp only [Incarnations.wakeWithValue, Option.map_eq_some_iff, toOption_eq_some] at moved
  obtain ⟨thread, returned, rfl⟩ := moved
  obtain ⟨e, woken, rfl⟩ := AsyncState.wakeWithValue_ok returned
  -- the wake-up first, then the deposit
  have awake : Invariant { s with
      thread := s.thread.setExecutor e
      entryFor := s.tagged e fun _ => [h.incarnation] } :=
    inv.wake valid (by
      rw [Incarnations.wake, AsyncState.wake, woken]
      rfl)
  refine { awake with deposits := ?_ }
  intro i stored task isStored live
  by_cases same : i = h.cid.val
  · subst same
    rw [valid task ((wake_grown woken).tasks ▸ live)]
    simp
  · simp only [Function.update_of_ne same] at isStored ⊢
    exact awake.deposits i stored task isStored live

theorem Invariant.markBit {s : Incarnations} {e : Executor Nat} {cid : CoroutineId}
    {incarnation : Nat} (inv : s.Invariant)
    (meant : ∀ task, s.thread.executor.tasks cid.val = some task → incarnation = task.future)
    (delayed : s.thread.executor.delayWake cid = .ok e) :
    Invariant { s with
      thread := s.thread.setExecutor e
      bitFor := s.markBit cid incarnation } := by
  obtain ⟨bound, rfl⟩ := delayWake_ok delayed
  refine { inv with bits := ?_, unmarked := ?_ }
  · intro i task live o member
    by_cases same : i = cid.val
    · subst same
      simp only [Incarnations.markBit, Function.update_self] at member
      rcases List.mem_cons.mp member with rfl | old
      · exact meant task live
      · exact inv.bits _ task live o old
    · simp only [Incarnations.markBit, Function.update_of_ne same] at member
      exact inv.bits i task live o member
  · intro i clear
    simp only [AsyncState.setExecutor, getLsbD_or_bit _ _ _ bound, Bool.or_eq_false_iff,
      decide_eq_false_iff_not] at clear
    simp only [Incarnations.markBit, Function.update_of_ne (Ne.symm clear.2)]
    exact inv.unmarked i clear.1

theorem Invariant.delayWake {s t : Incarnations} {h : Handle} (inv : s.Invariant)
    (valid : Handle.Valid s.thread h) (moved : s.delayWake h = some t) : t.Invariant := by
  simp only [Incarnations.delayWake, Option.map_eq_some_iff, toOption_eq_some] at moved
  obtain ⟨e, delayed, rfl⟩ := moved
  exact inv.markBit (fun task live => (valid task live).symm) delayed

theorem Invariant.interrupt {s t : Incarnations} {vec : Nat} (inv : s.Invariant)
    (moved : s.interrupt vec = some t) : t.Invariant := by
  unfold Incarnations.interrupt at moved
  split at moved
  next bound =>
    simp only [Option.bind_eq_some_iff, Option.map_eq_some_iff, toOption_eq_some] at moved
    obtain ⟨cid, registered, thread, returned, rfl⟩ := moved
    obtain ⟨cid', e, registered', delayed, rfl⟩ := AsyncState.wakeRecvCoroutine_ok returned
    obtain rfl : cid = cid' := Option.some.inj (registered.symm.trans registered')
    exact inv.markBit (fun task live => inv.registrations vec bound cid task registered live)
      delayed
  · cases moved

theorem Invariant.registerRecvCid {s : Incarnations} {h : Handle} (inv : s.Invariant)
    (valid : Handle.Valid s.thread h) : (s.registerRecvCid h).Invariant := by
  rcases AsyncState.registerRecvCid_eq (Prod.mk.eta (p := s.thread.registerRecvCid h.cid)).symm
    with ⟨full, same⟩ | ⟨vec, allocator, granted, -, -, grown⟩
  · simp only [Incarnations.registerRecvCid, full, same]
    exact inv
  · simp only [Incarnations.registerRecvCid, granted, grown]
    refine { inv with registrations := ?_ }
    intro v bound cid task registered live
    by_cases same : v = vec
    · subst same
      simp only [Function.update_self, Option.some.injEq] at registered ⊢
      subst registered
      exact (valid task live).symm
    · simp only [Function.update_of_ne same] at registered ⊢
      exact inv.registrations v bound cid task registered live

theorem Invariant.flush {s t : Incarnations} (inv : s.Invariant) (moved : s.flush = some t) :
    t.Invariant := by
  simp only [Incarnations.flush, Option.map_eq_some_iff, toOption_eq_some] at moved
  obtain ⟨e, flushed, rfl⟩ := moved
  exact inv.grow (actualWake_grown flushed)
    (fun cid task _ live => inv.bits cid.val task live) (by simp) (by simp)

/-- Popping the front entry at priority `p` drops its tag and no other one. -/
theorem Invariant.pop_entries {s : Incarnations} {e : Executor Nat} {p : Nat} {cid : CoroutineId}
    (inv : s.Invariant) (popped : s.thread.executor.Popped p cid e) (i : Nat)
    (bound : i < maxPrioNum) :
    List.Forall₂ (EntryOk e.tasks i) (e.queue i)
      ((s.entryFor i).drop ((s.thread.executor.queue i).length - (e.queue i).length)) := by
  rw [popped.tasks]
  have entries := inv.entries i bound
  by_cases same : i = p
  · subst same
    have shrunk : (s.thread.executor.queue i).length - (e.queue i).length = 1 := by
      simp [popped.front]
    rw [shrunk]
    rw [popped.front] at entries
    obtain ⟨madeFor, others, -, rest, shape⟩ := List.forall₂_cons_left_iff.mp entries
    rw [shape]
    exact rest
  · rw [popped.others i same, Nat.sub_self]
    exact entries

/-- The state of the thread after a pop, before the poll is recorded. -/
theorem Invariant.pop {s : Incarnations} {e : Executor Nat} {p : Nat} {cid : CoroutineId}
    (inv : s.Invariant) (popped : s.thread.executor.Popped p cid e) :
    Invariant { s with
      thread := s.thread.setExecutor e
      polling := none
      entryFor := fun i =>
        (s.entryFor i).drop ((s.thread.executor.queue i).length - (e.queue i).length) } where
  entries := inv.pop_entries popped
  bits i task live := inv.bits i task (popped.tasks ▸ live)
  unmarked i clear := inv.unmarked i (popped.delayWakeCids ▸ clear)
  registrations vec bound cid task registered live :=
    inv.registrations vec bound cid task registered (popped.tasks ▸ live)
  deposits i item task stored live := inv.deposits i item task stored (popped.tasks ▸ live)
  table := inv.table.sameTasks popped.toSameTasks
  polled := nofun
  delivered := inv.delivered

/-- The front entry at priority `p` was made for the task that it polls. -/
theorem Invariant.front {s : Incarnations} {p : Nat} {cid : CoroutineId} {task : Coroutine Nat}
    {rest : List CoroutineId} (inv : s.Invariant) (bound : p < maxPrioNum)
    (front : s.thread.executor.queue p = cid :: rest)
    (live : s.thread.executor.tasks cid.val = some task) :
    (∀ i ∈ (s.entryFor p).headD [], i = task.future) ∧ task.prio = p := by
  have entries := inv.entries p bound
  rw [front] at entries
  obtain ⟨madeFor, others, ok, -, shape⟩ := List.forall₂_cons_left_iff.mp entries
  rw [shape]
  exact (ok task live).symm

theorem Invariant.fetch {s t : Incarnations} (inv : s.Invariant) (moved : s.fetch = some t) :
    t.Invariant := by
  simp only [Incarnations.fetch, Option.bind_eq_some_iff, Option.map_eq_some_iff,
    toOption_eq_some, Prod.exists] at moved
  obtain ⟨f, flushed, r, e, fetched, rfl⟩ := moved
  have inv := inv.flush flushed
  simp only [Incarnations.flush, Option.map_eq_some_iff, toOption_eq_some] at flushed
  obtain ⟨e₁, woken, same⟩ := flushed
  obtain ⟨e₂, woken', result⟩ := fetch_ok fetched
  obtain rfl : e₁ = e₂ := Except.ok.inj (woken.symm.trans woken')
  obtain rfl : f.thread.executor = e₁ := by rw [← same]; rfl
  cases result with
  | noBit _ =>
    simp only [Nat.sub_self, List.drop_zero]
    exact { inv with polled := by rintro _ ⟨⟩ }
  | noEntry _ _ _ _ _ =>
    simp only [Nat.sub_self, List.drop_zero]
    exact { inv with polled := by rintro _ ⟨⟩ }
  | stale p cid e _ _ _ popped _ _ _ => exact inv.pop popped
  | polled p cid task e bound set least popped live _ current =>
    have isFirst : f.thread.executor.prioBitmap.findFirstOne = p :=
      BitMap64.findFirstOne_eq set least
    have owner := (inv.table _ task live).1
    refine { inv.pop popped with polled := ?_, delivered := ⟨?_, inv.delivered.takes⟩ }
    · rintro _ ⟨⟩
      refine ⟨current.trans (congrArg some ?_), ?_⟩
      · exact (CoroutineId.ext owner).symm
      · rw [owner, ← live]
        exact congrFun popped.tasks _
    · intro poll member
      rcases List.mem_cons.mp member with rfl | old
      · rw [isFirst]
        exact inv.front bound popped.front live
      · exact inv.delivered.polls poll old

theorem Invariant.take {s t : Incarnations} (inv : s.Invariant) (moved : s.take = some t) :
    t.Invariant := by
  simp only [Incarnations.take, Option.bind_eq_some_iff, Option.map_eq_some_iff,
    toOption_eq_some, Prod.exists] at moved
  obtain ⟨task, polling, value, thread, taken, rfl⟩ := moved
  obtain ⟨cid, current, isValue, rfl⟩ := AsyncState.takeValue_ok taken
  obtain ⟨isCurrent, live⟩ := inv.polled task polling
  obtain rfl : cid = task.cid := Option.some.inj (current.symm.trans isCurrent)
  refine { inv with deposits := ?_, delivered := ⟨inv.delivered.polls, ?_⟩ }
  · intro i item task' stored live'
    by_cases same : i = task.cid.val
    · subst same
      simp at stored
    · simp only [Function.update_of_ne same] at stored
      exact inv.deposits i item task' stored live'
  · cases value with
    | none => exact inv.delivered.takes
    | some item =>
      intro record member
      rcases List.mem_cons.mp member with rfl | old
      · exact inv.deposits _ item task isValue.symm live
      · exact inv.delivered.takes record old

theorem Invariant.ready {s t : Incarnations} (inv : s.Invariant) (moved : s.ready = some t) :
    t.Invariant := by
  simp only [Incarnations.ready, Option.bind_eq_some_iff, Option.map_eq_some_iff,
    toOption_eq_some] at moved
  obtain ⟨task, polling, r, removed, rfl⟩ := moved
  obtain ⟨-, -, -, executor⟩ := RuntimeState.removeTask_ok removed
  -- whatever names the removed coroutine is unconstrained from now on
  have survivor : ∀ {i task'}, r.executor.tasks i = some task' →
      s.thread.executor.tasks i = some task' := by
    intro i task' live
    rw [RuntimeState.removeTask_tasks removed] at live
    by_cases same : i = task.cid.val
    · simp [same] at live
    · simpa [Function.update_of_ne same] using live
  refine ⟨fun p bound => ?_, ?_, ?_, ?_, ?_, ?_, by rintro _ ⟨⟩, inv.delivered⟩
  · have queues : r.executor.queue p = s.thread.executor.queue p := by rw [executor]; rfl
    simp only [AsyncState.executor, queues]
    refine (inv.entries p bound).imp fun cid madeFor ok task' live => ?_
    exact ok task' (survivor live)
  · exact fun i task' live => inv.bits i task' (survivor live)
  · intro i clear
    simp only [AsyncState.executor, executor] at clear
    exact inv.unmarked i clear
  · exact fun vec bound cid task' registered live =>
      inv.registrations vec bound cid task' registered (survivor live)
  · exact fun i item task' stored live => inv.deposits i item task' stored (survivor live)
  · exact inv.table.removeTask removed

theorem Invariant.spawn {s t : Incarnations} {prio : Nat} (inv : s.Invariant)
    (unused : s.NoLeftover (.spawn prio)) (moved : s.spawn prio = some t) : t.Invariant := by
  simp only [Incarnations.spawn, Option.map_eq_some_iff, toOption_eq_some, Prod.exists] at moved
  obtain ⟨cid, r, spawned, rfl⟩ := moved
  obtain ⟨-, allocated, e, grown, executor⟩ := RuntimeState.spawn_ok spawned
  have unused : Unused s.thread cid := unused _ allocated
  have owner : ∀ {i task}, r.executor.tasks i = some task →
      (i = cid.val ∧ task = ⟨cid, prio, s.spawned⟩) ∨
      (i ≠ cid.val ∧ s.thread.executor.tasks i = some task) := by
    intro i task live
    rw [RuntimeState.spawn_tasks spawned] at live
    by_cases same : i = cid.val
    · subst same
      exact .inl ⟨rfl, by simpa using live.symm⟩
    · exact .inr ⟨same, by simpa [Function.update_of_ne same] using live⟩
  have queues : r.executor.queue = Function.update s.thread.executor.queue prio
      (s.thread.executor.queue prio ++ [cid]) := by
    rw [← grown.queue_eq, executor]
    rfl
  refine ⟨fun p bound => ?_, ?_, ?_, ?_, ?_, ?_, ?_, inv.delivered⟩
  · -- the old entries are for other ids, the new one is for this incarnation
    have old : List.Forall₂ (EntryOk r.executor.tasks p) (s.thread.executor.queue p)
        (s.entryFor p) := by
      have others : ∀ c ∈ s.thread.executor.queue p, c ≠ cid :=
        fun c member same => unused.queued p bound (same ▸ member)
      refine ((List.forall₂_and_left _ _).mpr ⟨others, inv.entries p bound⟩).imp ?_
      rintro c madeFor ⟨other, ok⟩ task live
      rcases owner live with ⟨same, -⟩ | ⟨-, before⟩
      · exact absurd (CoroutineId.ext same) other
      · exact ok task before
    simp only [tagged, AsyncState.executor, queues]
    by_cases same : p = prio
    · subst same
      simp only [Function.update_self, List.drop_left, List.map_cons, List.map_nil]
      refine List.rel_append old (.cons ?_ .nil)
      intro task live
      rcases owner live with ⟨-, rfl⟩ | ⟨different, -⟩
      · exact ⟨rfl, fun i member => List.mem_singleton.mp member⟩
      · exact absurd rfl different
    · simpa [Function.update_of_ne same] using old
  · intro i task live o member
    rcases owner live with ⟨rfl, -⟩ | ⟨-, before⟩
    · simp [inv.unmarked _ unused.delayed] at member
    · exact inv.bits i task before o member
  · intro i clear
    simp only [AsyncState.executor, executor, grown.delayWakeCids] at clear
    exact inv.unmarked i clear
  · intro vec bound c task registered live
    rcases owner live with ⟨same, -⟩ | ⟨-, before⟩
    · exact absurd (CoroutineId.ext same ▸ registered) (unused.registered vec bound)
    · exact inv.registrations vec bound c task registered before
  · intro i item task stored live
    rcases owner live with ⟨rfl, -⟩ | ⟨-, before⟩
    · simp [unused.deposited] at stored
    · exact inv.deposits i item task stored before
  · exact inv.table.spawn spawned
  · intro task polling
    obtain ⟨current, live⟩ := inv.polled task polling
    refine ⟨?_, ?_⟩
    · simp only [AsyncState.executor, executor, grown.current]
      exact current
    · -- the polled coroutine holds its id, so the allocator did not return it
      have different : task.cid.val ≠ cid.val := by
        intro same
        have free : s.thread.executor.tasks cid.val = none := inv.table.fresh spawned
        rw [← same, live] at free
        cases free
      simp only [AsyncState.executor, RuntimeState.spawn_tasks spawned,
        Function.update_of_ne different]
      exact live

theorem step_invariant {s t : Incarnations} {event : Event} (inv : s.Invariant)
    (allowed : s.NoLeftover event) (moved : s.step event = some t) : t.Invariant := by
  cases event with
  | spawn prio => exact inv.spawn allowed moved
  | registerRecvCid handle => cases moved; exact inv.registerRecvCid allowed
  | wake handle => exact inv.wake allowed moved
  | wakeWithValue handle item => exact inv.wakeWithValue allowed moved
  | delayWake handle => exact inv.delayWake allowed moved
  | interrupt vec => exact inv.interrupt moved
  | switchPossible =>
    obtain ⟨-, -, flushed⟩ := Option.bind_eq_some_iff.mp moved
    exact inv.flush flushed
  | fetch => exact inv.fetch moved
  | take => exact inv.take moved
  | ready => exact inv.ready moved

/-- Along every run in which no spawn gets an id that something still names, each wake-up
and each value reaches the incarnation it was made for. -/
theorem wakeups_reach_incarnation {s : Incarnations} (run : Reaches step NoLeftover init s) :
    Delivered s.polls s.takes :=
  (Reaches.invariant Invariant invariant_init
    (fun _ _ _ inv allowed moved => step_invariant inv allowed moved) run).delivered

/-- A coroutine woken twice completes and leaves an entry behind; the next spawn gets its id
and is polled from that entry, in the queue of the other's priority. -/
theorem wakeups_reach_other_incarnation :
    ¬ ∀ s : Incarnations, Reachable step init s → Delivered s.polls s.takes := by
  intro delivered
  obtain ⟨s, reached, seen⟩ := reachable_of_view step init
    [.spawn 0, .wake ⟨⟨0⟩, 0⟩, .fetch, .ready, .spawn 5, .fetch]
    (fun s => s.polls.head?) (v := some ⟨0, ⟨⟨0⟩, 5, 1⟩, [0]⟩) (by decide +kernel)
  obtain ⟨rest, shape⟩ : ∃ rest, s.polls = ⟨0, ⟨⟨0⟩, 5, 1⟩, [0]⟩ :: rest := by
    cases polls : s.polls with
    | nil => simp [polls] at seen
    | cons first rest => exact ⟨rest, by simpa [polls] using seen⟩
  have made := (delivered s reached).polls _ (shape ▸ List.mem_cons_self)
  exact absurd made.2 (by decide)

instance (s : AsyncState Nat IPCItem) (cid : CoroutineId) : Decidable (Unused s cid) :=
  decidable_of_iff ((∀ p < maxPrioNum, cid ∉ s.executor.queue p) ∧
      s.executor.delayWakeCids.getLsbD cid.val = false ∧
      (∀ vec < maxUintVec, s.wakeMap vec ≠ some cid) ∧ s.immediateValue cid.val = none)
    ⟨fun ⟨q, d, r, v⟩ => ⟨q, d, r, v⟩, fun u => ⟨u.queued, u.delayed, u.registered, u.deposited⟩⟩

instance (s : AsyncState Nat IPCItem) (h : Handle) : Decidable (Handle.Valid s h) :=
  inferInstanceAs (Decidable (∀ task ∈ s.executor.tasks h.cid.val, task.future = h.incarnation))

instance (s : Incarnations) (event : Event) : Decidable (s.NoLeftover event) :=
  match event with
  | .spawn _ => inferInstanceAs
      (Decidable (∀ r ∈ s.thread.runtime.cidAllocator.allocate, Unused s.thread ⟨r.1⟩))
  | .registerRecvCid h | .wake h | .wakeWithValue h _ | .delayWake h =>
    inferInstanceAs (Decidable (Handle.Valid s.thread h))
  | .interrupt _ | .switchPossible | .fetch | .take | .ready => .isTrue trivial

/-- An id is reused after its entries are drained; an interrupt and a value reach their
receivers. -/
theorem wakeups_reach_incarnation_reused :
    ∃ s, Reaches step NoLeftover init s ∧ s.spawned = 3 ∧ s.takes = [⟨2, 2⟩] ∧
      s.polls.map (fun poll => (poll.task.cid.val, poll.task.future)) =
        [(1, 2), (0, 0), (1, 1), (0, 0)] ∧ Delivered s.polls s.takes := by
  obtain ⟨s, run, seen⟩ := reaches_of_view step NoLeftover init
    [.spawn 0, .registerRecvCid ⟨⟨0⟩, 0⟩, .fetch, .spawn 1, .fetch, .ready, .interrupt 0,
     .spawn 2, .fetch, .wakeWithValue ⟨⟨1⟩, 2⟩ .new, .fetch, .take]
    (fun s => (s.spawned, s.takes, s.polls.map fun poll => (poll.task.cid.val, poll.task.future)))
    (v := (3, [⟨2, 2⟩], [(1, 2), (0, 0), (1, 1), (0, 0)])) (by decide +kernel)
  simp only [Prod.mk.injEq] at seen
  exact ⟨s, run, seen.1, seen.2.1, seen.2.2, wakeups_reach_incarnation run⟩

end Incarnations

end RootTask.Runtime
