import RootTask.Lib.Transition
import RootTask.Runtime.AsyncLib

/-!
# The two threads of an IPC connection

Two threads share a `NewBuffer`. Each direction of it has a queue, a status word and a user
interrupt. The writer (`seL4_Call_with_item` for requests, the server coroutines for replies)
pushes an item, loads the status, and if it is `false` stores `true` and sends the
interrupt. The reader (`recv_req_coroutine`, `nw_recv_req_coroutine`, `recv_reply_coroutine`)
pops items, and on an empty pop stores `false` and yields. The accesses of the two threads
interleave in any order; each thread has its own executor, on which any number of other
coroutines is spawned, woken and completed.

The steps of a thread on its own executor are treated together, through what they do to the
reader and to its wake-up (`LocalEffect`).
-/
namespace RootTask.Ipc

open RootTask.Runtime RootTask.Transition

variable {φ T : Type}

/-- A wake-up of the coroutine is on its way through the executor. -/
def Awake (e : Executor φ) (cid : CoroutineId) : Prop :=
  e.delayWakeCids.getLsbD cid.val = true ∨ ∃ p, p < maxPrioNum ∧ cid ∈ e.queue p

inductive Side where
  | client
  | server
  deriving DecidableEq, Repr

namespace Side

def other : Side → Side
  | .client => .server
  | .server => .client

@[simp] theorem other_ne (side : Side) : side.other ≠ side := by cases side <;> nofun

@[simp] theorem ne_other (side : Side) : side ≠ side.other := (other_ne side).symm

theorem eq_or_other (side x : Side) : x = side ∨ x = side.other := by
  cases side <;> cases x <;> simp [other]

@[simp] theorem other_other (side : Side) : side.other.other = side := by cases side <;> rfl

end Side

/-- Where a receive coroutine stands in its loop. -/
inductive Reader where
  | unstarted
  /-- Spawned and not polled yet. -/
  | fresh
  /-- In a `yield_now` that returned `Pending`. -/
  | suspended
  | pop
  /-- Handling the item it popped. -/
  | busy
  /-- After an empty pop, before the store of `false`. -/
  | clear
  /-- After the store of `false`, before `yield_now` returns `Pending`. -/
  | yield
  | finished
  deriving DecidableEq, Repr

namespace Reader

def running : Reader → Bool
  | .pop | .busy | .clear | .yield => true
  | .unstarted | .fresh | .suspended | .finished => false

/-- Ordinary code runs on the thread: another coroutine, or the handling of an item. -/
def permitsCode : Reader → Bool
  | .pop | .clear | .yield => false
  | .unstarted | .fresh | .suspended | .busy | .finished => true

/-- Not going to pop before it is woken, with the status stored. -/
def settled : Reader → Bool
  | .fresh | .suspended | .yield => true
  | .unstarted | .pop | .busy | .clear | .finished => false

def alive : Reader → Bool
  | .unstarted | .finished => false
  | .fresh | .suspended | .pop | .busy | .clear | .yield => true

theorem alive_of_running {r : Reader} (isRunning : r.running = true) : r.alive = true := by
  cases r <;> simp_all [running, alive]

theorem alive_of_started {r : Reader} (started : r ≠ .unstarted) (unfinished : r ≠ .finished) :
    r.alive = true := by
  cases r <;> simp_all [alive]

theorem started_of_running {r : Reader} (isRunning : r.running = true) : r ≠ .unstarted := by
  rintro rfl
  cases isRunning

theorem alive_of_settled {r : Reader} (isSettled : r.settled = true) : r.alive = true := by
  cases r <;> simp_all [settled, alive]

end Reader

/-- Where the thread stands in a write; no write spans a suspension. -/
inductive Writer where
  | idle
  | load
  | store
  | send
  deriving DecidableEq, Repr

structure Thread (φ T : Type) where
  lib : AsyncState φ T
  polling : Option CoroutineId
  receiver : CoroutineId
  vec : Nat
  reader : Reader
  writer : Writer

/-- One direction of a `NewBuffer`, and whether its user interrupt is in flight. -/
structure Channel (T : Type) where
  items : ItemsQueue T
  status : Bool
  uipi : Bool

/-- `channel side` is the one that `side` reads. -/
structure System (φ T : Type) where
  thread : Side → Thread φ T
  channel : Side → Channel T

/-- The steps of a thread on its own state. -/
inductive LocalAction (φ T : Type) where
  /-- Spawn the receive coroutine and register it for user interrupts. -/
  | start (future : φ) (prio : Nat)
  | spawn (future : φ) (prio : Nat)
  | wake (cid : CoroutineId)
  | wakeWithValue (cid : CoroutineId) (item : T)
  | fetch
  /-- Another polled coroutine resumes from a `yield_now`. -/
  | take
  /-- Another polled coroutine completes. -/
  | ready
  /-- The item is handled, the loop goes on. -/
  | processed
  /-- `possible_switch` after the item, as in `nw_recv_req_coroutine`. -/
  | possibleSwitch
  /-- The `break` after the last item, as in `recv_req_coroutine`. -/
  | finish
  | yield

inductive Action (φ T : Type) where
  | thread (action : LocalAction φ T)
  | interrupt
  | pop
  | clear
  | push (item : T)
  | load
  | store
  | send

namespace Thread

def init : Thread φ T := ⟨.init, none, ⟨0⟩, 0, .unstarted, .idle⟩

def setExecutor (t : Thread φ T) (e : Executor φ) : Thread φ T :=
  { t with lib := t.lib.setExecutor e }

def start (t : Thread φ T) (future : φ) (prio : Nat) : Option (Thread φ T) :=
  if t.reader = .unstarted then
    (t.lib.runtime.spawn future prio).toOption.bind fun (cid, runtime) =>
      match { t.lib with runtime := runtime }.registerRecvCid cid with
      | (some vec, lib) => some { t with lib := lib, receiver := cid, vec := vec, reader := .fresh }
      | (none, _) => none
  else none

/-- The first poll starts at the top of the loop; a resumed `yield_now` takes its value. -/
def resume (t : Thread φ T) : Option (Thread φ T) :=
  match t.reader with
  | .fresh => some { t with reader := .pop }
  | .suspended => t.lib.takeValue.toOption.map fun r => { t with lib := r.2, reader := .pop }
  | _ => none

def fetch (t : Thread φ T) : Option (Thread φ T) :=
  if t.reader.running then none
  else
    t.lib.executor.fetch.toOption.bind fun (task, e) =>
      let t := { t.setExecutor e with polling := task.map (·.cid) }
      if t.reader.alive ∧ t.polling = some t.receiver then t.resume else some t

def take (t : Thread φ T) : Option (Thread φ T) :=
  if t.reader.running ∨ t.polling = none then none
  else t.lib.takeValue.toOption.map fun r => { t with lib := r.2 }

def ready (t : Thread φ T) : Option (Thread φ T) :=
  t.polling.bind fun cid =>
    if t.reader.running ∨ (t.reader.alive ∧ cid = t.receiver) then none
    else
      (t.lib.runtime.removeTask cid).toOption.map fun r =>
        { t with lib := { t.lib with runtime := r }, polling := none }

def possibleSwitch (t : Thread φ T) : Option (Thread φ T) :=
  t.lib.executor.switchPossible.toOption.bind fun (possible, e) =>
    let t := t.setExecutor e
    if possible then
      t.lib.executor.current.bind fun cid =>
        (t.lib.wake cid).toOption.map fun lib =>
          { t with lib := lib, polling := none, reader := .suspended }
    else some { t with reader := .pop }

def finish (t : Thread φ T) : Option (Thread φ T) :=
  (t.lib.runtime.removeTask t.receiver).toOption.map fun r =>
    { t with lib := { t.lib with runtime := r }, polling := none, reader := .finished }

def run (t : Thread φ T) : LocalAction φ T → Option (Thread φ T)
  | .start future prio => t.start future prio
  | .spawn future prio =>
    if t.reader.permitsCode then
      (t.lib.runtime.spawn future prio).toOption.map fun r =>
        { t with lib := { t.lib with runtime := r.2 } }
    else none
  | .wake cid =>
    if t.reader.permitsCode then
      (t.lib.wake cid).toOption.map fun lib => { t with lib := lib }
    else none
  | .wakeWithValue cid item =>
    if t.reader.permitsCode then
      (t.lib.wakeWithValue cid item).toOption.map fun lib => { t with lib := lib }
    else none
  | .fetch => t.fetch
  | .take => t.take
  | .ready => t.ready
  | .processed => if t.reader = .busy then some { t with reader := .pop } else none
  | .possibleSwitch => if t.reader = .busy then t.possibleSwitch else none
  | .finish => if t.reader = .busy then t.finish else none
  | .yield =>
    if t.reader = .yield then some { t with polling := none, reader := .suspended } else none

end Thread

namespace System

def init : System φ T where
  thread := fun _ => .init
  channel side :=
    let buffer : NewBuffer T := .new
    match side with
    | .server => ⟨buffer.reqItems, buffer.recvReqStatus, false⟩
    | .client => ⟨buffer.resItems, buffer.recvReplyStatus, false⟩

def setThread (s : System φ T) (side : Side) (t : Thread φ T) : System φ T :=
  { s with thread := Function.update s.thread side t }

def setChannel (s : System φ T) (side : Side) (c : Channel T) : System φ T :=
  { s with channel := Function.update s.channel side c }

section

variable (s : System φ T) (side : Side) (t : Thread φ T) (c : Channel T)

@[simp] theorem setThread_thread : (s.setThread side t).thread side = t := by simp [setThread]

@[simp] theorem setThread_other : (s.setThread side t).thread side.other = s.thread side.other := by
  simp [setThread]

@[simp] theorem setThread_channel : (s.setThread side t).channel = s.channel := rfl

@[simp] theorem setChannel_thread : (s.setChannel side c).thread = s.thread := rfl

@[simp] theorem setChannel_channel : (s.setChannel side c).channel side = c := by simp [setChannel]

@[simp] theorem setChannel_other :
    (s.setChannel side c).channel side.other = s.channel side.other := by
  simp [setChannel]

@[simp] theorem setChannel_of_other :
    (s.setChannel side.other c).channel side = s.channel side := by
  simp [setChannel]

end

def interrupt (s : System φ T) (side : Side) : Option (System φ T) :=
  let t := s.thread side
  let c := s.channel side
  if c.uipi ∧ t.reader ≠ .unstarted then
    (t.lib.wakeRecvCoroutine t.vec).toOption.map fun lib =>
      (s.setThread side { t with lib := lib }).setChannel side { c with uipi := false }
  else none

def pop (s : System φ T) (side : Side) : Option (System φ T) :=
  let t := s.thread side
  let c := s.channel side
  if t.reader = .pop then
    match c.items.getFirstItem with
    | some (_, items) =>
      some ((s.setThread side { t with reader := .busy }).setChannel side { c with items := items })
    | none => some (s.setThread side { t with reader := .clear })
  else none

def clear (s : System φ T) (side : Side) : Option (System φ T) :=
  let t := s.thread side
  if t.reader = .clear then
    some ((s.setThread side { t with reader := .yield }).setChannel side
      { s.channel side with status := false })
  else none

def push (s : System φ T) (side : Side) (item : T) : Option (System φ T) :=
  let t := s.thread side
  let c := s.channel side.other
  if t.writer = .idle ∧ t.reader.permitsCode then
    (c.items.writeFreeItem item).toOption.map fun items =>
      (s.setThread side { t with writer := .load }).setChannel side.other { c with items := items }
  else none

def load (s : System φ T) (side : Side) : Option (System φ T) :=
  let t := s.thread side
  if t.writer = .load then
    let next := if (s.channel side.other).status = false then .store else .idle
    some (s.setThread side { t with writer := next })
  else none

def store (s : System φ T) (side : Side) : Option (System φ T) :=
  let t := s.thread side
  if t.writer = .store then
    some ((s.setThread side { t with writer := .send }).setChannel side.other
      { s.channel side.other with status := true })
  else none

def send (s : System φ T) (side : Side) : Option (System φ T) :=
  let t := s.thread side
  if t.writer = .send then
    some ((s.setThread side { t with writer := .idle }).setChannel side.other
      { s.channel side.other with uipi := true })
  else none

def step (s : System φ T) : Side × Action φ T → Option (System φ T)
  | (side, .thread action) =>
    if (s.thread side).writer = .idle then
      ((s.thread side).run action).map (s.setThread side)
    else none
  | (side, .interrupt) => s.interrupt side
  | (side, .pop) => s.pop side
  | (side, .clear) => s.clear side
  | (side, .push item) => s.push side item
  | (side, .load) => s.load side
  | (side, .store) => s.store side
  | (side, .send) => s.send side

end System

/-! ### Wake-ups in the executor -/

theorem Awake.of_mem {e : Executor φ} {cid : CoroutineId} {p : Nat} (bound : p < maxPrioNum)
    (member : cid ∈ e.queue p) : Awake e cid :=
  .inr ⟨p, bound, member⟩

theorem Awake.grown {e e' : Executor φ} {woken : CoroutineId → Prop} {cid : CoroutineId}
    (awake : Awake e cid) (grown : e.Grown e' woken)
    (mask : e'.delayWakeCids = e.delayWakeCids) : Awake e' cid := by
  rcases awake with set | ⟨p, bound, member⟩
  · exact .inl (mask ▸ set)
  · obtain ⟨added, appended, -⟩ := grown.appended p
    exact .of_mem bound (appended ▸ List.mem_append_left _ member)

theorem Awake.wake {e e' : Executor φ} {cid other : CoroutineId} (awake : Awake e cid)
    (woken : e.wake other = .ok e') : Awake e' cid :=
  awake.grown (Executor.wake_grown woken) (Executor.wake_delayWakeCids woken)

/-- A live coroutine that is woken is queued. -/
theorem awake_of_wake {e e' : Executor φ} {cid : CoroutineId} (live : e.tasks cid.val ≠ none)
    (woken : e.wake cid = .ok e') : Awake e' cid := by
  rcases (Executor.wake_ok woken).2 with ⟨dead, -⟩ | ⟨task, -, grown⟩
  · exact absurd dead live
  · refine .of_mem grown.prio_lt ?_
    simp [grown.queue_eq]

theorem Awake.enqueued {e e' : Executor φ} {cid other : CoroutineId} {prio : Nat}
    (awake : Awake e cid) (grown : e.Enqueued prio other e') : Awake e' cid := by
  rcases awake with set | ⟨p, bound, member⟩
  · exact .inl (grown.delayWakeCids ▸ set)
  · refine .of_mem bound ?_
    rw [grown.queue_eq]
    by_cases same : p = prio
    · subst same
      simp [member]
    · simpa [Function.update_of_ne same] using member

/-- A flush moves the delayed wake-up of the only registered coroutine into its queue. -/
theorem Awake.actualWake {e e' : Executor φ} {cid : CoroutineId} (awake : Awake e cid)
    (live : e.tasks cid.val ≠ none) (only : ∀ i, e.delayWakeCids.getLsbD i = true → i = cid.val)
    (flushed : e.actualWake = .ok e') : ∃ p, p < maxPrioNum ∧ cid ∈ e'.queue p := by
  rcases awake with set | ⟨p, bound, member⟩
  -- with one bit set the loop makes one call of `wake`, whatever it clears;
  -- two bits could lose the one with twice the id
  · rw [Executor.actualWake_eq, Executor.delayedCids_single set only,
      Executor.wakeAll_singleton] at flushed
    have cleared : e'.delayWakeCids = 0 := Executor.wake_delayWakeCids flushed
    rcases awake_of_wake (e := { e with delayWakeCids := 0 }) live flushed with set | queued
    · simp [cleared] at set
    · exact queued
  · obtain ⟨added, appended, -⟩ := (Executor.actualWake_grown flushed).appended p
    exact ⟨p, bound, appended ▸ List.mem_append_left _ member⟩

/-- A fetch that does not poll the coroutine leaves its wake-up in place. -/
theorem Awake.fetch {e e' : Executor φ} {r : Option (Coroutine φ)} {cid : CoroutineId}
    (awake : Awake e cid) (live : e.tasks cid.val ≠ none)
    (only : ∀ i, e.delayWakeCids.getLsbD i = true → i = cid.val)
    (table : ∀ i task, e.tasks i = some task → task.cid.val = i)
    (fetched : e.fetch = .ok (r, e')) (other : r.map (·.cid) ≠ some cid) : Awake e' cid := by
  obtain ⟨f, flushed, result⟩ := Executor.fetch_ok fetched
  obtain ⟨p, bound, member⟩ := awake.actualWake live only flushed
  have tasks := (Executor.actualWake_same flushed).1.tasks
  -- the popped entry was not the coroutine's own
  have kept : ∀ q c, f.Popped q c e' → c ≠ cid → Awake e' cid := by
    intro q c popped different
    refine .of_mem bound ?_
    by_cases same : p = q
    · subst same
      rw [popped.front, List.mem_cons] at member
      exact member.resolve_left (Ne.symm different)
    · rw [popped.others p same]
      exact member
  cases result with
  | noBit _ => exact .of_mem bound member
  | noEntry _ _ _ _ _ => exact .of_mem bound member
  -- the entry of a dead coroutine is dropped, and this one is live
  | stale q c e' _ _ _ popped dead _ _ =>
    refine kept q c popped ?_
    rintro rfl
    exact live (tasks ▸ dead)
  -- a live coroutine is filed under its own id, so another one was polled
  | polled q c task e' _ _ _ popped found _ _ =>
    refine kept q c popped ?_
    rintro rfl
    have own : task.cid = c := CoroutineId.ext (table _ task (tasks ▸ found))
    exact other (by simp [own])

/-! ### Steps of one thread -/

namespace Thread

/-- What holds of a thread at any time. -/
structure Ok (t : Thread φ T) : Prop where
  table : t.lib.runtime.TableOk
  live : t.reader.alive = true → t.lib.executor.tasks t.receiver.val ≠ none
  only : ∀ i, t.lib.executor.delayWakeCids.getLsbD i = true →
    t.reader ≠ .unstarted ∧ i = t.receiver.val
  registered : t.reader ≠ .unstarted → t.lib.wakeMap t.vec = some t.receiver
  current : t.reader.running = true → t.lib.executor.current = some t.receiver

abbrev Awake (t : Thread φ T) : Prop := Ipc.Awake t.lib.executor t.receiver

/-- What a local step does to the reader: when it ends settled it is awake, or it was settled
before and its wake-up was kept. -/
structure LocalEffect (t t' : Thread φ T) : Prop where
  ok : t'.Ok
  writer : t'.writer = t.writer
  notClear : t'.reader ≠ .clear
  settled : t'.reader.settled = true → t'.Awake ∨ t.reader.settled = true ∧ (t.Awake → t'.Awake)

/-- A step on the executor that leaves tasks, mask, registration and current coroutine alone. -/
theorem Ok.executor {t : Thread φ T} {lib : AsyncState φ T} (ok : t.Ok)
    (table : lib.runtime.TableOk)
    (live : t.lib.executor.tasks t.receiver.val ≠ none →
      lib.executor.tasks t.receiver.val ≠ none)
    (mask : lib.executor.delayWakeCids = t.lib.executor.delayWakeCids)
    (current : lib.executor.current = t.lib.executor.current)
    (wakeMap : lib.wakeMap = t.lib.wakeMap) : Ok { t with lib := lib } where
  table := table
  live alive := live (ok.live alive)
  only i set := ok.only i (mask ▸ set)
  registered started := by
    simp only [wakeMap]
    exact ok.registered started
  current running := current.trans (ok.current running)

/-- A wake-up, with whatever `wake_with_value` left in the mailbox. -/
theorem Ok.wake {t : Thread φ T} {e : Executor φ} {cid : CoroutineId}
    (values : Nat → Option T) (ok : t.Ok) (woken : t.lib.executor.wake cid = .ok e) :
    Ok { t with lib := { t.lib.setExecutor e with immediateValue := values } } := by
  have grown := Executor.wake_grown woken
  refine ok.executor (ok.table.sameTasks grown.toSameTasks) (fun live => ?_)
    (Executor.wake_delayWakeCids woken) grown.current rfl
  exact fun dead => live (grown.tasks ▸ dead)

theorem Ok.spawn {t : Thread φ T} {r : RuntimeState φ} {cid : CoroutineId} {future : φ}
    {prio : Nat} (ok : t.Ok) (spawned : t.lib.runtime.spawn future prio = .ok (cid, r)) :
    Ok { t with lib := { t.lib with runtime := r } } ∧
      (t.Awake → Ipc.Awake r.executor t.receiver) ∧ Ipc.Awake r.executor cid := by
  obtain ⟨-, -, e, grown, executor⟩ := RuntimeState.spawn_ok spawned
  have mask : r.executor.delayWakeCids = t.lib.executor.delayWakeCids := by
    rw [executor]
    exact grown.delayWakeCids
  have current : r.executor.current = t.lib.executor.current := by
    rw [executor]
    exact grown.current
  refine ⟨ok.executor (ok.table.spawn spawned) ?_ mask current rfl, fun awake => ?_, ?_⟩
  · intro live
    simp only [AsyncState.executor, RuntimeState.spawn_tasks spawned]
    by_cases same : t.receiver.val = cid.val
    · simp [same]
    · rwa [Function.update_of_ne same]
  · rw [executor]
    exact (Ipc.Awake.enqueued awake grown : Ipc.Awake e t.receiver)
  · have queued : Ipc.Awake e cid := .of_mem grown.prio_lt (by simp [grown.queue_eq])
    rw [executor]
    exact queued

theorem spawn_current {r r' : RuntimeState φ} {future : φ} {prio : Nat} {cid : CoroutineId}
    (spawned : r.spawn future prio = .ok (cid, r')) : r'.executor.current = r.executor.current := by
  obtain ⟨-, -, e, grown, executor⟩ := RuntimeState.spawn_ok spawned
  rw [executor]
  exact grown.current

theorem start_ok {t t' : Thread φ T} {future : φ} {prio : Nat}
    (moved : t.start future prio = some t') :
    t.reader = .unstarted ∧ ∃ cid r vec allocator, t.lib.runtime.spawn future prio = .ok (cid, r) ∧
      t' = { t with
        lib := ⟨r, allocator, Function.update t.lib.wakeMap vec (some cid), t.lib.immediateValue⟩
        receiver := cid
        vec := vec
        reader := .fresh } := by
  unfold start at moved
  split at moved
  next unstarted =>
    simp only [Option.bind_eq_some_iff, toOption_eq_some, Prod.exists] at moved
    obtain ⟨cid, r, spawned, moved⟩ := moved
    refine ⟨unstarted, cid, r, ?_⟩
    split at moved
    next vec lib registered =>
      cases moved
      rcases AsyncState.registerRecvCid_eq registered with ⟨full, -⟩ | ⟨v, a, same, -, -, rfl⟩
      · cases full
      · obtain rfl := Option.some.inj same
        exact ⟨vec, a, spawned, rfl⟩
    · cases moved
  · cases moved

theorem Ok.start {t t' : Thread φ T} {future : φ} {prio : Nat} (ok : t.Ok)
    (moved : t.start future prio = some t') : LocalEffect t t' := by
  obtain ⟨unstarted, cid, r, vec, allocator, spawned, rfl⟩ := start_ok moved
  obtain ⟨spawnedOk, -, awake⟩ := ok.spawn spawned
  refine ⟨⟨spawnedOk.table, fun _ => ?_, fun i set => ?_, fun _ => ?_, nofun⟩, rfl, nofun,
    fun _ => .inl awake⟩
  · simp [AsyncState.executor, RuntimeState.spawn_tasks spawned]
  -- before the start no one is registered, so no bit is set
  · exact absurd unstarted (spawnedOk.only i set).1
  · simp

theorem Ok.resume {t t' : Thread φ T} (ok : t.Ok)
    (current : t.lib.executor.current = some t.receiver) (moved : t.resume = some t') :
    t'.Ok ∧ t'.writer = t.writer ∧ t'.reader = .pop := by
  unfold Thread.resume at moved
  split at moved
  next fresh =>
    cases moved
    refine ⟨⟨ok.table, fun _ => ok.live (by simp [fresh, Reader.alive]), fun i set => ?_,
      fun _ => ok.registered (by simp [fresh]), fun _ => current⟩, rfl, rfl⟩
    exact ⟨by rintro ⟨⟩, (ok.only i set).2⟩
  next suspended =>
    simp only [Option.map_eq_some_iff, toOption_eq_some, Prod.exists] at moved
    obtain ⟨value, lib, taken, rfl⟩ := moved
    obtain ⟨cid, -, -, rfl⟩ := AsyncState.takeValue_ok taken
    refine ⟨⟨ok.table, fun _ => ok.live (by simp [suspended, Reader.alive]), fun i set => ?_,
      fun _ => ok.registered (by simp [suspended]), fun _ => current⟩, rfl, rfl⟩
    exact ⟨by rintro ⟨⟩, (ok.only i set).2⟩
  · cases moved

theorem fetch_cases {t t' : Thread φ T} (moved : t.fetch = some t') :
    t.reader.running = false ∧ ∃ task e, t.lib.executor.fetch = .ok (task, e) ∧
      ((t.reader.alive = true ∧ task.map (·.cid) = some t.receiver ∧
        Thread.resume { t.setExecutor e with polling := task.map (·.cid) } = some t') ∨
       (¬ (t.reader.alive = true ∧ task.map (·.cid) = some t.receiver) ∧
        t' = { t.setExecutor e with polling := task.map (·.cid) })) := by
  unfold fetch at moved
  split at moved
  · cases moved
  next idle =>
    refine ⟨by simpa using idle, ?_⟩
    simp only [Option.bind_eq_some_iff, toOption_eq_some, Prod.exists] at moved
    obtain ⟨task, e, fetched, moved⟩ := moved
    refine ⟨task, e, fetched, ?_⟩
    split at moved
    next own => exact .inl ⟨own.1, own.2, moved⟩
    next other => exact .inr ⟨other, (Option.some.inj moved).symm⟩

theorem Ok.fetch {t t' : Thread φ T} (ok : t.Ok) (moved : t.fetch = some t') : LocalEffect t t' := by
  obtain ⟨idle, task, e, fetched, result⟩ := fetch_cases moved
  obtain ⟨same, mask⟩ := Executor.fetch_same fetched
  have fetchedOk : Ok { t.setExecutor e with polling := task.map (·.cid) } := by
    refine ⟨ok.table.sameTasks same, fun alive dead => ?_, fun i set => ?_, ok.registered,
      fun running => ?_⟩
    · exact ok.live alive (same.tasks ▸ dead)
    -- the flush took the whole mask
    · have set : e.delayWakeCids.getLsbD i = true := set
      simp [mask] at set
    · exact absurd (idle.symm.trans running) nofun
  -- the receive coroutine is polled and runs on, or another one is
  rcases result with ⟨-, own, resumed⟩ | ⟨other, rfl⟩
  · obtain ⟨polled, rfl, isReceiver⟩ := Option.map_eq_some_iff.mp own
    have current : e.current = some t.receiver :=
      (ok.table.fetch_current fetched).trans (congrArg some isReceiver)
    obtain ⟨resumedOk, writer, atPop⟩ := fetchedOk.resume current resumed
    exact ⟨resumedOk, writer, by simp [atPop], by simp [atPop, Reader.settled]⟩
  · refine ⟨fetchedOk, rfl, fun clear => ?_, fun settled => .inr ⟨settled, fun awake => ?_⟩⟩
    · have clear : t.reader = .clear := clear
      simp [clear, Reader.running] at idle
    · have alive : t.reader.alive = true := Reader.alive_of_settled settled
      exact Ipc.Awake.fetch awake (ok.live alive)
        (fun i set => (ok.only i set).2) (fun i task live => (ok.table i task live).1)
        fetched fun own => other ⟨alive, own⟩

/-- Removing a task touches neither queues nor mask nor the other tasks. -/
theorem removed_frame {r r' : RuntimeState φ} {cid : CoroutineId}
    (removed : r.removeTask cid = .ok r') :
    r'.executor.queue = r.executor.queue ∧
      r'.executor.delayWakeCids = r.executor.delayWakeCids ∧
      r'.executor.current = r.executor.current := by
  rw [(RuntimeState.removeTask_ok removed).2.2.2]
  exact ⟨rfl, rfl, rfl⟩

theorem Ok.take {t t' : Thread φ T} (ok : t.Ok) (moved : t.take = some t') : LocalEffect t t' := by
  unfold Thread.take at moved
  split at moved
  · cases moved
  next outside =>
    simp only [Option.map_eq_some_iff, toOption_eq_some, Prod.exists] at moved
    obtain ⟨value, lib, taken, rfl⟩ := moved
    obtain ⟨cid, -, -, rfl⟩ := AsyncState.takeValue_ok taken
    refine ⟨⟨ok.table, ok.live, ok.only, ok.registered, ok.current⟩, rfl, fun clear => ?_,
      fun settled => .inr ⟨settled, id⟩⟩
    have clear : t.reader = .clear := clear
    simp [clear, Reader.running] at outside

theorem Ok.ready {t t' : Thread φ T} (ok : t.Ok) (moved : t.ready = some t') : LocalEffect t t' := by
  simp only [Thread.ready, Option.bind_eq_some_iff] at moved
  obtain ⟨cid, -, moved⟩ := moved
  split at moved
  · cases moved
  next outside =>
    obtain ⟨idle, notBoth⟩ := not_or.mp outside
    simp only [Option.map_eq_some_iff, toOption_eq_some] at moved
    obtain ⟨r, removed, rfl⟩ := moved
    obtain ⟨queues, mask, current⟩ := removed_frame removed
    refine ⟨⟨ok.table.removeTask removed, fun alive dead => ?_, fun i set => ?_, ok.registered,
      fun running => absurd running idle⟩, rfl, fun clear => ?_, fun settled => .inr ⟨settled, ?_⟩⟩
    -- the completed coroutine is another one, so the receiver keeps its slot
    · have other : cid ≠ t.receiver := fun same => notBoth ⟨alive, same⟩
      have kept : r.executor.tasks t.receiver.val = none := dead
      rw [RuntimeState.removeTask_tasks removed,
        Function.update_of_ne (fun same => other (CoroutineId.ext same.symm))] at kept
      exact ok.live alive kept
    · exact ok.only i (mask ▸ set)
    · have clear : t.reader = .clear := clear
      simp [clear, Reader.running] at idle
    · rintro (set | ⟨p, bound, member⟩)
      · exact .inl (mask ▸ set)
      · exact .of_mem bound (queues ▸ member)

theorem Ok.possibleSwitch {t t' : Thread φ T} (ok : t.Ok) (busy : t.reader = .busy)
    (moved : t.possibleSwitch = some t') : LocalEffect t t' := by
  simp only [Thread.possibleSwitch, Option.bind_eq_some_iff, toOption_eq_some,
    Prod.exists] at moved
  obtain ⟨possible, e, tested, moved⟩ := moved
  obtain ⟨flushed, -⟩ := Executor.switchPossible_ok tested
  obtain ⟨same, kept, mask⟩ := Executor.actualWake_same flushed
  have live : e.tasks t.receiver.val ≠ none :=
    fun dead => ok.live (by simp [busy, Reader.alive]) (same.tasks ▸ dead)
  have table : RuntimeState.TableOk { t.lib.runtime with executor := e } :=
    ok.table.sameTasks same
  have current : e.current = some t.receiver :=
    kept.trans (ok.current (by simp [busy, Reader.running]))
  split at moved
  -- it wakes itself before it yields, so it is queued when it sleeps
  · obtain ⟨cid, isCurrent, moved⟩ := Option.bind_eq_some_iff.mp moved
    obtain rfl : t.receiver = cid := Option.some.inj (current.symm.trans isCurrent)
    obtain ⟨lib, returned, rfl⟩ := Option.map_eq_some_iff.mp moved
    obtain ⟨e', woken, rfl⟩ := AsyncState.wake_ok ((toOption_eq_some _ _).mp returned)
    have woken : e.wake t.receiver = .ok e' := woken
    have grown := Executor.wake_grown woken
    refine ⟨⟨table.sameTasks grown.toSameTasks, fun _ dead => ?_, fun i set => ?_,
      fun _ => ok.registered (by simp [busy]), by rintro ⟨⟩⟩, rfl, by rintro ⟨⟩,
      fun _ => .inl (awake_of_wake live woken)⟩
    · exact live (grown.tasks ▸ dead)
    · have set : e'.delayWakeCids.getLsbD i = true := set
      simp [Executor.wake_delayWakeCids woken, mask] at set
  · cases moved
    refine ⟨⟨table, fun _ => live, fun i set => ?_, fun _ => ok.registered (by simp [busy]),
      fun _ => current⟩, rfl, by rintro ⟨⟩, by rintro ⟨⟩⟩
    have set : e.delayWakeCids.getLsbD i = true := set
    simp [mask] at set

theorem Ok.finish {t t' : Thread φ T} (ok : t.Ok) (busy : t.reader = .busy)
    (moved : t.finish = some t') : LocalEffect t t' := by
  simp only [Thread.finish, Option.map_eq_some_iff, toOption_eq_some] at moved
  obtain ⟨r, removed, rfl⟩ := moved
  obtain ⟨-, mask, -⟩ := removed_frame removed
  refine ⟨⟨ok.table.removeTask removed, by rintro ⟨⟩, fun i set => ?_,
    fun _ => ok.registered (by simp [busy]), by rintro ⟨⟩⟩, rfl, by rintro ⟨⟩, by rintro ⟨⟩⟩
  exact ⟨by rintro ⟨⟩, (ok.only i (mask ▸ set)).2⟩

private theorem not_clear {r : Reader} (permitted : r.permitsCode = true) : r ≠ .clear := by
  rintro rfl
  cases permitted

theorem run_localEffect {t t' : Thread φ T} {action : LocalAction φ T} (ok : t.Ok)
    (moved : t.run action = some t') : LocalEffect t t' := by
  cases action with
  | start future prio => exact ok.start moved
  | spawn future prio =>
    simp only [run] at moved
    split at moved
    next permitted =>
      simp only [Option.map_eq_some_iff, toOption_eq_some, Prod.exists] at moved
      obtain ⟨cid, r, spawned, rfl⟩ := moved
      obtain ⟨spawnedOk, kept, -⟩ := ok.spawn spawned
      exact ⟨spawnedOk, rfl, not_clear permitted, fun settled => .inr ⟨settled, kept⟩⟩
    · cases moved
  | wake cid =>
    simp only [run] at moved
    split at moved
    next permitted =>
      obtain ⟨lib, returned, rfl⟩ := Option.map_eq_some_iff.mp moved
      obtain ⟨e, woken, rfl⟩ := AsyncState.wake_ok ((toOption_eq_some _ _).mp returned)
      exact ⟨ok.wake _ woken, rfl, not_clear permitted,
        fun settled => .inr ⟨settled, fun awake => Ipc.Awake.wake awake woken⟩⟩
    · cases moved
  | wakeWithValue cid item =>
    simp only [run] at moved
    split at moved
    next permitted =>
      obtain ⟨lib, returned, rfl⟩ := Option.map_eq_some_iff.mp moved
      obtain ⟨e, woken, rfl⟩ := AsyncState.wakeWithValue_ok ((toOption_eq_some _ _).mp returned)
      exact ⟨ok.wake _ woken, rfl, not_clear permitted,
        fun settled => .inr ⟨settled, fun awake => Ipc.Awake.wake awake woken⟩⟩
    · cases moved
  | fetch => exact ok.fetch moved
  | take => exact ok.take moved
  | ready => exact ok.ready moved
  | processed =>
    simp only [run] at moved
    split at moved
    next busy =>
      cases moved
      refine ⟨⟨ok.table, fun _ => ok.live (by simp [busy, Reader.alive]), fun i set => ?_,
        fun _ => ok.registered (by simp [busy]),
        fun _ => ok.current (by simp [busy, Reader.running])⟩, rfl, by rintro ⟨⟩, by rintro ⟨⟩⟩
      exact ⟨by rintro ⟨⟩, (ok.only i set).2⟩
    · cases moved
  | possibleSwitch =>
    simp only [run] at moved
    split at moved
    next busy => exact ok.possibleSwitch busy moved
    · cases moved
  | finish =>
    simp only [run] at moved
    split at moved
    next busy => exact ok.finish busy moved
    · cases moved
  | yield =>
    simp only [run] at moved
    split at moved
    next yielding =>
      cases moved
      refine ⟨⟨ok.table, fun _ => ok.live (by simp [yielding, Reader.alive]), fun i set => ?_,
        fun _ => ok.registered (by simp [yielding]), by rintro ⟨⟩⟩, rfl, by rintro ⟨⟩,
        fun _ => .inr ⟨?_, id⟩⟩
      · exact ⟨by rintro ⟨⟩, (ok.only i set).2⟩
      -- a yielding reader is settled already: it cleared the status before
      · simp [yielding, Reader.settled]
    · cases moved

theorem ok_init : (init : Thread φ T).Ok := by
  refine ⟨RuntimeState.tableOk_init, nofun, fun i set => ?_, nofun, nofun⟩
  simp [init, AsyncState.init, RuntimeState.init, Executor.new] at set

/-- The reader goes from one place in its loop to another. -/
theorem Ok.advance {t : Thread φ T} {next : Reader} (ok : t.Ok) (before : t.reader.running = true)
    (after : next.running = true) : Ok { t with reader := next } where
  table := ok.table
  live _ := ok.live (Reader.alive_of_running before)
  only i set := ⟨Reader.started_of_running after, (ok.only i set).2⟩
  registered _ := ok.registered (Reader.started_of_running before)
  current _ := ok.current before

theorem Ok.withWriter {t : Thread φ T} (ok : t.Ok) (w : Writer) : Ok { t with writer := w } :=
  ⟨ok.table, ok.live, ok.only, ok.registered, ok.current⟩

/-- The interrupt handler marks the receive coroutine. -/
theorem Ok.delayWake {t : Thread φ T} {e : Executor φ} (ok : t.Ok) (started : t.reader ≠ .unstarted)
    (delayed : t.lib.executor.delayWake t.receiver = .ok e) :
    (t.setExecutor e).Ok ∧ (t.setExecutor e).Awake := by
  obtain ⟨bound, rfl⟩ := Executor.delayWake_ok delayed
  -- the handler adds one bit, that of the receive coroutine
  have bits := getLsbD_or_bit t.lib.executor.delayWakeCids t.receiver.val
  refine ⟨⟨ok.table.sameTasks ⟨rfl, rfl, rfl⟩, ok.live, fun i set => ⟨started, ?_⟩,
    ok.registered, ok.current⟩, .inl ?_⟩
  · simp only [setExecutor, AsyncState.setExecutor, bits i bound, Bool.or_eq_true,
      decide_eq_true_eq] at set
    exact set.elim (fun old => (ok.only i old).2) Eq.symm
  · simp [setExecutor, AsyncState.setExecutor, bits _ bound]

end Thread

/-! ### Steps on a channel -/

namespace System

variable {s t : System φ T} {side : Side}

def ThreadsOk (s : System φ T) : Prop := ∀ side, (s.thread side).Ok

theorem threadsOk_init : (init : System φ T).ThreadsOk := fun _ => Thread.ok_init

theorem interrupt_ok (ok : s.ThreadsOk) (moved : s.interrupt side = some t) :
    (s.channel side).uipi = true ∧ (s.thread side).reader ≠ .unstarted ∧
    ∃ e, (s.thread side).lib.executor.delayWake (s.thread side).receiver = .ok e ∧
      t = (s.setThread side ((s.thread side).setExecutor e)).setChannel side
        { s.channel side with uipi := false } := by
  simp only [interrupt] at moved
  split at moved
  next ready =>
    obtain ⟨lib, returned, rfl⟩ := Option.map_eq_some_iff.mp moved
    obtain ⟨cid, e, registered, delayed, rfl⟩ :=
      AsyncState.wakeRecvCoroutine_ok ((toOption_eq_some _ _).mp returned)
    -- the vector of the thread leads to its own receive coroutine
    obtain rfl : (s.thread side).receiver = cid :=
      Option.some.inj (((ok side).registered ready.2).symm.trans registered)
    exact ⟨ready.1, ready.2, e, delayed, rfl⟩
  · cases moved

theorem pop_ok (moved : s.pop side = some t) :
    (s.thread side).reader = .pop ∧
    ((∃ item items, (s.channel side).items.items = item :: items.items ∧
      t = (s.setThread side { s.thread side with reader := .busy }).setChannel side
        { s.channel side with items := items }) ∨
     ((s.channel side).items.items = [] ∧
      t = s.setThread side { s.thread side with reader := .clear })) := by
  simp only [pop] at moved
  split at moved
  next atPop =>
    refine ⟨atPop, ?_⟩
    split at moved
    next item items taken =>
      cases moved
      exact .inl ⟨item, items, ItemsQueue.getFirstItem_some taken, rfl⟩
    next drained =>
      cases moved
      exact .inr ⟨(ItemsQueue.getFirstItem_none_iff _).mp drained, rfl⟩
  · cases moved

theorem clear_ok (moved : s.clear side = some t) :
    (s.thread side).reader = .clear ∧
      t = (s.setThread side { s.thread side with reader := .yield }).setChannel side
        { s.channel side with status := false } := by
  simp only [clear] at moved
  split at moved
  next atClear => exact ⟨atClear, (Option.some.inj moved).symm⟩
  · cases moved

theorem push_ok {item : T} (moved : s.push side item = some t) :
    (s.thread side).writer = .idle ∧ (s.thread side).reader.permitsCode = true ∧
    ∃ items, items.items = (s.channel side.other).items.items ++ [item] ∧
      t = (s.setThread side { s.thread side with writer := .load }).setChannel side.other
        { s.channel side.other with items := items } := by
  simp only [push] at moved
  split at moved
  next ready =>
    obtain ⟨items, returned, rfl⟩ := Option.map_eq_some_iff.mp moved
    have written := ItemsQueue.writeFreeItem_ok ((toOption_eq_some _ _).mp returned)
    exact ⟨ready.1, ready.2, items, written.2, rfl⟩
  · cases moved

theorem load_ok (moved : s.load side = some t) :
    (s.thread side).writer = .load ∧
      t = s.setThread side { s.thread side with
        writer := if (s.channel side.other).status = false then .store else .idle } := by
  simp only [load] at moved
  split at moved
  next loading => exact ⟨loading, (Option.some.inj moved).symm⟩
  · cases moved

theorem store_ok (moved : s.store side = some t) :
    (s.thread side).writer = .store ∧
      t = (s.setThread side { s.thread side with writer := .send }).setChannel side.other
        { s.channel side.other with status := true } := by
  simp only [store] at moved
  split at moved
  next storing => exact ⟨storing, (Option.some.inj moved).symm⟩
  · cases moved

theorem send_ok (moved : s.send side = some t) :
    (s.thread side).writer = .send ∧
      t = (s.setThread side { s.thread side with writer := .idle }).setChannel side.other
        { s.channel side.other with uipi := true } := by
  simp only [send] at moved
  split at moved
  next sending => exact ⟨sending, (Option.some.inj moved).symm⟩
  · cases moved

theorem thread_ok {action : LocalAction φ T} (moved : s.step (side, .thread action) = some t) :
    (s.thread side).writer = .idle ∧
    ∃ thread, (s.thread side).run action = some thread ∧ t = s.setThread side thread := by
  simp only [step] at moved
  split at moved
  next idle =>
    obtain ⟨thread, ran, rfl⟩ := Option.map_eq_some_iff.mp moved
    exact ⟨idle, thread, ran, rfl⟩
  · cases moved

/-- A step moves one thread; the thread of the other side stays as it is. -/
theorem step_thread {action : Action φ T} (ok : s.ThreadsOk)
    (moved : s.step (side, action) = some t) :
    (t.thread side).Ok ∧ t.thread side.other = s.thread side.other := by
  cases action with
  | thread action =>
    obtain ⟨-, thread, ran, rfl⟩ := thread_ok moved
    exact ⟨by simpa using (Thread.run_localEffect (ok side) ran).ok, by simp⟩
  | interrupt =>
    obtain ⟨-, started, e, delayed, rfl⟩ := interrupt_ok ok moved
    exact ⟨by simpa using ((ok side).delayWake started delayed).1, by simp⟩
  | pop =>
    obtain ⟨atPop, ⟨-, -, -, rfl⟩ | ⟨-, rfl⟩⟩ := pop_ok moved <;>
      exact ⟨by simpa using (ok side).advance (by simp [atPop, Reader.running]) rfl, by simp⟩
  | clear =>
    obtain ⟨atClear, rfl⟩ := clear_ok moved
    exact ⟨by simpa using (ok side).advance (by simp [atClear, Reader.running]) rfl, by simp⟩
  | push item =>
    obtain ⟨-, -, -, -, rfl⟩ := push_ok moved
    exact ⟨by simpa using (ok side).withWriter _, by simp⟩
  | load =>
    obtain ⟨-, rfl⟩ := load_ok moved
    exact ⟨by simpa using (ok side).withWriter _, by simp⟩
  | store =>
    obtain ⟨-, rfl⟩ := store_ok moved
    exact ⟨by simpa using (ok side).withWriter _, by simp⟩
  | send =>
    obtain ⟨-, rfl⟩ := send_ok moved
    exact ⟨by simpa using (ok side).withWriter _, by simp⟩

theorem step_threadsOk {a : Side × Action φ T} (ok : s.ThreadsOk) (moved : s.step a = some t) :
    t.ThreadsOk := by
  obtain ⟨side, action⟩ := a
  obtain ⟨moving, other⟩ := step_thread ok moved
  intro x
  rcases side.eq_or_other x with rfl | rfl
  · exact moving
  -- the thread of the other side did not move
  · exact other ▸ ok _

theorem run_finished {thread next : Thread φ T} {action : LocalAction φ T}
    (ran : thread.run action = some next) (finished : thread.reader = .finished) :
    next.reader = .finished := by
  cases action <;> simp only [Thread.run] at ran
  case start future prio =>
    rw [Thread.start, finished, if_neg nofun] at ran
    cases ran
  case fetch =>
    obtain ⟨-, task, e, -, ⟨alive, -⟩ | ⟨-, rfl⟩⟩ := Thread.fetch_cases ran
    · simp [finished, Reader.alive] at alive
    · exact finished
  case take =>
    simp only [Thread.take] at ran
    split at ran
    · cases ran
    · obtain ⟨r, -, rfl⟩ := Option.map_eq_some_iff.mp ran
      exact finished
  case ready =>
    obtain ⟨cid, -, ran⟩ := Option.bind_eq_some_iff.mp ran
    split at ran
    · cases ran
    · obtain ⟨r, -, rfl⟩ := Option.map_eq_some_iff.mp ran
      exact finished
  -- none of these touches the reader
  case spawn | wake | wakeWithValue =>
    split at ran
    · obtain ⟨r, -, rfl⟩ := Option.map_eq_some_iff.mp ran
      exact finished
    · cases ran
  all_goals
    rw [if_neg (by simp [finished])] at ran
    cases ran

/-- A receive coroutine that has finished stays so. -/
theorem step_finished {a : Side × Action φ T} {x : Side} (ok : s.ThreadsOk)
    (moved : s.step a = some t) (finished : (s.thread x).reader = .finished) :
    (t.thread x).reader = .finished := by
  obtain ⟨side, action⟩ := a
  rcases side.eq_or_other x with rfl | rfl
  · cases action with
    | thread action =>
      obtain ⟨-, thread, ran, rfl⟩ := thread_ok moved
      simpa using run_finished ran finished
    | interrupt =>
      obtain ⟨-, -, e, -, rfl⟩ := interrupt_ok ok moved
      simpa [Thread.setExecutor] using finished
    | pop => cases (pop_ok moved).1.symm.trans finished
    | clear => cases (clear_ok moved).1.symm.trans finished
    | push item =>
      obtain ⟨-, -, -, -, rfl⟩ := push_ok moved
      simpa using finished
    | load =>
      obtain ⟨-, rfl⟩ := load_ok moved
      simpa using finished
    | store =>
      obtain ⟨-, rfl⟩ := store_ok moved
      simpa using finished
    | send =>
      obtain ⟨-, rfl⟩ := send_ok moved
      simpa using finished
  · rw [(step_thread ok moved).2]
    exact finished

end System

end RootTask.Ipc
