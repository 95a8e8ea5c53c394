import RootTask.Net.AsyncServer

/-!
# The coroutines of the asynchronous server

What holds of the executor and of the points of all coroutines in every run: no coroutine
of the server ends, so ids are never reused and every ready entry is live; the accept
coroutines have priority 2; and all but them are what interrupts, the device poller and the
hand-over of requests can wake.

## Proof strategy

The invariant is stated over the components that it reads. It is preserved by the few
updates that the steps are composed of, and `Ran` lists the compositions.
-/
namespace RootTask.Net

open RootTask.Runtime RootTask.Transition

/-- In `tcp_accept_coroutine`, up to the call of `accept`. -/
def Point.acceptPhase : Point → Bool
  | .fresh (.tcpAccept _ _ _) => true
  | .acceptYield _ _ _ _ => true
  | .accepting _ _ _ _ => true
  | _ => false

/-- A live coroutine that does not wait for a connection. -/
def Unblocked (e : Executor Body) (point : Nat → Point) (i : Nat) : Prop :=
  e.tasks i ≠ none ∧ (point i).acceptPhase = false

structure CoroutinesOk (lib : AsyncState Body Request) (polling : Option CoroutineId)
    (point : Nat → Point) (socket2Cid : SocketHandle → Option CoroutineId)
    (poller : CoroutineId) : Prop where
  table : lib.runtime.TableOk
  queued : ∀ p c, c ∈ lib.executor.queue p →
    ∃ task, lib.executor.tasks c.val = some task ∧ task.prio = p
  polled : ∀ c, polling = some c →
    lib.executor.current = some c ∧ lib.executor.tasks c.val ≠ none
  dead : ∀ i, lib.executor.tasks i = none →
    point i = .fresh .netPoll ∧ lib.immediateValue i = none
  prio : ∀ i task, (point i).acceptPhase = true → lib.executor.tasks i = some task → task.prio = 2
  delayed : ∀ i, lib.executor.delayWakeCids.getLsbD i = true → Unblocked lib.executor point i
  registered : ∀ vec c, lib.wakeMap vec = some c → Unblocked lib.executor point c.val
  poller_ok : poller.val < maxTaskNum → Unblocked lib.executor point poller.val
  accepted : ∀ h c, socket2Cid h = some c → Unblocked lib.executor point c.val
  bound : ∀ i, lib.executor.tasks i ≠ none → i < maxTaskNum

namespace CoroutinesOk

variable {lib : AsyncState Body Request} {polling : Option CoroutineId} {point : Nat → Point}
  {socket2Cid : SocketHandle → Option CoroutineId} {poller : CoroutineId}

theorem live_of_acceptPhase (ok : CoroutinesOk lib polling point socket2Cid poller) {i : Nat}
    (waits : (point i).acceptPhase = true) : ∃ task, lib.executor.tasks i = some task := by
  cases live : lib.executor.tasks i with
  | some task => exact ⟨task, rfl⟩
  | none =>
    rw [(ok.dead i live).1] at waits
    cases waits

/-- Further ready entries of live coroutines. -/
theorem wakes (ok : CoroutinesOk lib polling point socket2Cid poller) {e : Executor Body}
    {woken : CoroutineId → Prop} (grown : AsyncServer.Wakes lib.executor e woken) :
    CoroutinesOk (lib.setExecutor e) polling point socket2Cid poller := by
  have tasks : (lib.setExecutor e).executor.tasks = lib.executor.tasks := grown.tasks
  have unblocked : ∀ i, Unblocked lib.executor point i →
      Unblocked (lib.setExecutor e).executor point i := by
    intro i before
    exact ⟨by rw [tasks]; exact before.1, before.2⟩
  constructor
  case table => exact ok.table.sameTasks grown.toSameTasks
  case queued =>
    intro p c member
    rw [tasks]
    -- a new entry is of a live coroutine and in the queue of its priority
    obtain ⟨added, appended, addedOk⟩ := grown.appended p
    rw [show (lib.setExecutor e).executor.queue p = e.queue p from rfl, appended] at member
    rcases List.mem_append.mp member with old | new
    · exact ok.queued p c old
    · exact (addedOk c new).2
  case polled =>
    intro c polls
    rw [tasks]
    exact ⟨grown.current.trans (ok.polled c polls).1, (ok.polled c polls).2⟩
  case dead => rw [tasks]; exact ok.dead
  case prio => rw [tasks]; exact ok.prio
  case delayed => exact fun i set => unblocked i (ok.delayed i (grown.delayed i set))
  case registered => exact fun vec c known => unblocked _ (ok.registered vec c known)
  case poller_ok => exact fun bound => unblocked _ (ok.poller_ok bound)
  case accepted => exact fun h c filed => unblocked _ (ok.accepted h c filed)
  case bound => rw [tasks]; exact ok.bound

/-- A live coroutine moves on; none enters the accept phase this way. -/
theorem goto (ok : CoroutinesOk lib polling point socket2Cid poller) {i : Nat} {p : Point}
    (live : lib.executor.tasks i ≠ none)
    (phase : p.acceptPhase = true → (point i).acceptPhase = true) :
    CoroutinesOk lib polling (Function.update point i p) socket2Cid poller := by
  have unblocked : ∀ j, Unblocked lib.executor point j →
      Unblocked lib.executor (Function.update point i p) j := by
    intro j before
    refine ⟨before.1, ?_⟩
    by_cases same : j = i
    · subst same
      rw [Function.update_self]
      cases waits : p.acceptPhase with
      | false => rfl
      -- it would have entered the accept phase from outside
      | true => rw [before.2] at phase; exact absurd (phase waits) (by simp)
    · rw [Function.update_of_ne same]
      exact before.2
  refine ⟨ok.table, ok.queued, ok.polled, ?_, ?_, fun j set => unblocked j (ok.delayed j set),
    fun vec c known => unblocked _ (ok.registered vec c known),
    fun bound => unblocked _ (ok.poller_ok bound),
    fun h c filed => unblocked _ (ok.accepted h c filed), ok.bound⟩
  · intro j none_
    have different : j ≠ i := by
      rintro rfl
      exact live none_
    rw [Function.update_of_ne different]
    exact ok.dead j none_
  · intro j task waits found
    by_cases same : j = i
    · subst same
      rw [Function.update_self] at waits
      exact ok.prio j task (phase waits) found
    · rw [Function.update_of_ne same] at waits
      exact ok.prio j task waits found

theorem leave (ok : CoroutinesOk lib polling point socket2Cid poller) {i : Nat} {p : Point}
    (live : lib.executor.tasks i ≠ none) (away : p.acceptPhase = false) :
    CoroutinesOk lib polling (Function.update point i p) socket2Cid poller := by
  apply ok.goto live
  intro waits
  rw [away] at waits
  cases waits

theorem notPolling (ok : CoroutinesOk lib polling point socket2Cid poller) :
    CoroutinesOk lib none point socket2Cid poller :=
  ⟨ok.table, ok.queued, nofun, ok.dead, ok.prio, ok.delayed, ok.registered, ok.poller_ok,
    ok.accepted, ok.bound⟩

/-- The slot of a live coroutine changes. -/
theorem setSlot (ok : CoroutinesOk lib polling point socket2Cid poller) {i : Nat}
    (live : lib.executor.tasks i ≠ none) (value : Option Request) :
    CoroutinesOk { lib with immediateValue := Function.update lib.immediateValue i value } polling
      point socket2Cid poller := by
  refine ⟨ok.table, ok.queued, ok.polled, ?_, ok.prio, ok.delayed, ok.registered, ok.poller_ok,
    ok.accepted, ok.bound⟩
  intro j none_
  have different : j ≠ i := by
    rintro rfl
    exact live none_
  exact ⟨(ok.dead j none_).1, (Function.update_of_ne different ..).trans (ok.dead j none_).2⟩

theorem fileSocket (ok : CoroutinesOk lib polling point socket2Cid poller) {self : CoroutineId}
    (unblocked : Unblocked lib.executor point self.val) (handler : SocketHandle) :
    CoroutinesOk lib polling point (Function.update socket2Cid handler (some self)) poller := by
  refine ⟨ok.table, ok.queued, ok.polled, ok.dead, ok.prio, ok.delayed, ok.registered,
    ok.poller_ok, ?_, ok.bound⟩
  intro h c filed
  by_cases same : h = handler
  · subst same
    obtain rfl : self = c := by simpa using filed
    exact unblocked
  · rw [Function.update_of_ne same] at filed
    exact ok.accepted h c filed

theorem register (ok : CoroutinesOk lib polling point socket2Cid poller) (cid : CoroutineId)
    (unblocked : Unblocked lib.executor point cid.val) (allocator : IndexAllocator maxUintVec)
    (vec : Nat) :
    CoroutinesOk { lib with
      uintVecAllocator := allocator
      wakeMap := Function.update lib.wakeMap vec (some cid) } polling point socket2Cid poller := by
  refine ⟨ok.table, ok.queued, ok.polled, ok.dead, ok.prio, ok.delayed, ?_, ok.poller_ok,
    ok.accepted, ok.bound⟩
  intro v c known
  change Function.update lib.wakeMap vec (some cid) v = some c at known
  by_cases same : v = vec
  · subst same
    obtain rfl : cid = c := by simpa using known
    exact unblocked
  · rw [Function.update_of_ne same] at known
    exact ok.registered v c known

theorem setPoller (ok : CoroutinesOk lib polling point socket2Cid poller) {cid : CoroutineId}
    (unblocked : Unblocked lib.executor point cid.val) :
    CoroutinesOk lib polling point socket2Cid cid :=
  ⟨ok.table, ok.queued, ok.polled, ok.dead, ok.prio, ok.delayed, ok.registered,
    fun _ => unblocked, ok.accepted, ok.bound⟩

/-- A new coroutine starts with its priority fixed by its body. -/
theorem spawn (ok : CoroutinesOk lib polling point socket2Cid poller)
    {runtime : RuntimeState Body} {body : Body} {prio : Nat} {cid : CoroutineId}
    (spawned : lib.runtime.spawn body prio = .ok (cid, runtime))
    (two : (Point.fresh body).acceptPhase = true → prio = 2) :
    CoroutinesOk { lib with runtime := runtime } polling
      (Function.update point cid.val (.fresh body)) socket2Cid poller := by
  -- the id was free, so nothing that is live or registered has it
  have unborn : lib.executor.tasks cid.val = none := ok.table.fresh spawned
  have tasks := RuntimeState.spawn_tasks spawned
  obtain ⟨inRange, -, e, grown, executor⟩ := RuntimeState.spawn_ok spawned
  have current : runtime.executor.current = lib.executor.current := by rw [executor]; exact grown.current
  have mask : runtime.executor.delayWakeCids = lib.executor.delayWakeCids := by
    rw [executor]; exact grown.delayWakeCids
  have queue : runtime.executor.queue = Function.update lib.executor.queue prio
      (lib.executor.queue prio ++ [cid]) := by
    rw [executor]; exact grown.queue_eq
  have unblocked : ∀ i, Unblocked lib.executor point i →
      Unblocked runtime.executor (Function.update point cid.val (.fresh body)) i := by
    intro i before
    have different : i ≠ cid.val := by
      rintro rfl
      exact before.1 unborn
    constructor
    · rw [tasks, Function.update_of_ne different]
      exact before.1
    · rw [Function.update_of_ne different]
      exact before.2
  have known : ∀ c task, lib.executor.tasks c = some task → runtime.executor.tasks c = some task := by
    intro c task found
    have different : c ≠ cid.val := by
      rintro rfl
      simp [unborn] at found
    rw [tasks, Function.update_of_ne different]
    exact found
  constructor
  case table => exact ok.table.spawn spawned
  case queued =>
    intro p c member
    change c ∈ runtime.executor.queue p at member
    rw [queue] at member
    by_cases same : p = prio
    · subst same
      rw [Function.update_self] at member
      rcases List.mem_append.mp member with old | new
      · obtain ⟨task, found, isPrio⟩ := ok.queued p c old
        exact ⟨task, known _ task found, isPrio⟩
      -- the entry of the new coroutine itself
      · obtain rfl := List.mem_singleton.mp new
        exact ⟨_, by rw [tasks]; exact Function.update_self .., rfl⟩
    · rw [Function.update_of_ne same] at member
      obtain ⟨task, found, isPrio⟩ := ok.queued p c member
      exact ⟨task, known _ task found, isPrio⟩
  case polled =>
    intro c polls
    obtain ⟨isCurrent, live⟩ := ok.polled c polls
    obtain ⟨task, found⟩ := Option.ne_none_iff_exists'.mp live
    refine ⟨current.trans isCurrent, ?_⟩
    rw [known _ task found]
    exact Option.some_ne_none task
  case dead =>
    intro i none_
    change runtime.executor.tasks i = none at none_
    have different : i ≠ cid.val := by
      rintro rfl
      rw [tasks] at none_
      simp at none_
    rw [tasks, Function.update_of_ne different] at none_
    rw [Function.update_of_ne different]
    exact ok.dead i none_
  case prio =>
    intro i task waits found
    change runtime.executor.tasks i = some task at found
    by_cases same : i = cid.val
    · subst same
      rw [Function.update_self] at waits
      rw [tasks, Function.update_self] at found
      cases found
      exact two waits
    · rw [Function.update_of_ne same] at waits
      rw [tasks, Function.update_of_ne same] at found
      exact ok.prio i task waits found
  case delayed =>
    intro i set
    change runtime.executor.delayWakeCids.getLsbD i = true at set
    rw [mask] at set
    exact unblocked i (ok.delayed i set)
  case registered => exact fun vec c isKnown => unblocked _ (ok.registered vec c isKnown)
  case poller_ok => exact fun bound => unblocked _ (ok.poller_ok bound)
  case accepted => exact fun h c filed => unblocked _ (ok.accepted h c filed)
  case bound =>
    intro i live
    change runtime.executor.tasks i ≠ none at live
    by_cases same : i = cid.val
    · rw [same]
      exact inRange
    · rw [tasks, Function.update_of_ne same] at live
      exact ok.bound i live

/-- An entry leaves its queue and its coroutine is polled. -/
theorem popped (ok : CoroutinesOk lib none point socket2Cid poller) {e : Executor Body} {p : Nat}
    {cid : CoroutineId} (popped : lib.executor.Popped p cid e) (current : e.current = some cid) :
    CoroutinesOk (lib.setExecutor e) (some cid) point socket2Cid poller := by
  have tasks : (lib.setExecutor e).executor.tasks = lib.executor.tasks := popped.tasks
  have unblocked : ∀ i, Unblocked lib.executor point i →
      Unblocked (lib.setExecutor e).executor point i := by
    intro i before
    exact ⟨by rw [tasks]; exact before.1, before.2⟩
  have front : cid ∈ lib.executor.queue p := by rw [popped.front]; exact List.mem_cons_self
  constructor
  case table => exact ok.table.sameTasks popped.toSameTasks
  case queued =>
    intro p' c member
    rw [tasks]
    apply ok.queued p' c
    change c ∈ e.queue p' at member
    by_cases same : p' = p
    · subst same
      rw [popped.front]
      exact List.mem_cons_of_mem _ member
    · rwa [popped.others p' same] at member
  case polled =>
    rintro c polls
    obtain rfl : cid = c := by simpa using polls
    obtain ⟨task, found, -⟩ := ok.queued p cid front
    refine ⟨current, ?_⟩
    rw [tasks, found]
    exact Option.some_ne_none task
  case dead => rw [tasks]; exact ok.dead
  case prio => rw [tasks]; exact ok.prio
  case delayed =>
    intro i set
    change e.delayWakeCids.getLsbD i = true at set
    rw [popped.delayWakeCids] at set
    exact unblocked i (ok.delayed i set)
  case registered => exact fun vec c known => unblocked _ (ok.registered vec c known)
  case poller_ok => exact fun bound => unblocked _ (ok.poller_ok bound)
  case accepted => exact fun h c filed => unblocked _ (ok.accepted h c filed)
  case bound => rw [tasks]; exact ok.bound

/-- A user interrupt marks the coroutine registered for it. -/
theorem interrupted (ok : CoroutinesOk lib polling point socket2Cid poller) {vec : Nat}
    {cid : CoroutineId} {e : Executor Body} (known : lib.wakeMap vec = some cid)
    (delayed : lib.executor.delayWake cid = .ok e) :
    CoroutinesOk (lib.setExecutor e) polling point socket2Cid poller := by
  obtain ⟨inWord, rfl⟩ := Executor.delayWake_ok delayed
  refine ⟨ok.table, ok.queued, ok.polled, ok.dead, ok.prio, ?_, ok.registered, ok.poller_ok,
    ok.accepted, ok.bound⟩
  intro i set
  change (lib.executor.delayWakeCids ||| (1#64 <<< cid.val)).getLsbD i = true at set
  rw [getLsbD_or_bit _ _ _ inWord, Bool.or_eq_true, decide_eq_true_eq] at set
  rcases set with before | rfl
  · exact ok.delayed i before
  · exact ok.registered vec cid known

end CoroutinesOk

namespace AsyncServer

variable {σ F : Type} (stack : Smoltcp σ F)

/-- The invariant of the coroutines, at a state of the server. -/
abbrev Ok (s : AsyncServer σ) : Prop :=
  CoroutinesOk s.net.lib s.polling s.point s.socket2Cid s.netDevicePollerCid

theorem ok_init : (init stack).Ok := by
  constructor
  case table => exact RuntimeState.tableOk_init
  case queued =>
    intro p c member
    have empty : (init stack).net.lib.executor.queue p = [] := RingBuffer.toList_new
    rw [empty] at member
    cases member
  case polled => rintro c ⟨⟩
  case dead => exact fun _ _ => ⟨rfl, rfl⟩
  case prio => exact fun _ _ waits => by cases waits
  case delayed => exact fun i set => by simp [init, AsyncState.init, RuntimeState.init, Executor.new] at set
  case registered => rintro vec c ⟨⟩
  case poller_ok => exact fun bound => absurd bound (show ¬ 65535 < maxTaskNum by decide)
  case accepted => rintro h c ⟨⟩
  case bound => exact fun i live => absurd rfl live

variable {stack} {s t : AsyncServer σ} {self : CoroutineId}

theorem Iterated.ok (iterated : s.Iterated self t) (ok : s.Ok)
    (live : s.executor.tasks self.val ≠ none) : t.Ok := by
  cases iterated with
  | again e n wakes =>
    exact (ok.wakes wakes).leave (wakes.live live) rfl
  | switched e wakes =>
    apply CoroutinesOk.notPolling
    exact (ok.wakes wakes).leave (wakes.live live) rfl

theorem Handled.ok {request : Request} (handled : Handled stack s request t) (ok : s.Ok) :
    t.Ok ∧ t.polling = s.polling ∧ ∀ i, s.executor.tasks i ≠ none →
      t.executor.tasks i ≠ none ∧ t.point i = s.point i := by
  cases handled with
  | poll e woken =>
    have wakes := Wakes.of_wake woken
    exact ⟨ok.wakes wakes, rfl, fun i live => ⟨wakes.live live, rfl⟩⟩
  | listen cid runtime body isAccept spawned =>
    refine ⟨ok.spawn spawned fun _ => rfl, rfl, fun i live => ?_⟩
    have different : i ≠ cid.val := by
      rintro rfl
      exact live (ok.table.fresh spawned)
    refine ⟨?_, Function.update_of_ne different ..⟩
    change runtime.executor.tasks i ≠ none
    rw [RuntimeState.spawn_tasks spawned, Function.update_of_ne different]
    exact live
  | dropSend _ _ => exact ⟨ok, rfl, fun i live => ⟨live, rfl⟩⟩
  | recv size s₁ _ _ received replied =>
    obtain ⟨items, -, rfl⟩ := writeReply_ok replied
    obtain ⟨len, bytes, sockets, -, rfl⟩ := recvInto_ok stack received
    exact ⟨ok, rfl, fun i live => ⟨live, rfl⟩⟩
  | dropRecv _ _ => exact ⟨ok, rfl, fun i live => ⟨live, rfl⟩⟩
  | handOver _ _ _ handed =>
    obtain ⟨cid, e, filed, queued, rfl⟩ := handOver_ok handed
    have wakes := Wakes.of_wake queued
    -- requests are handed over to coroutines that have accepted, and those never end
    have target := wakes.live (ok.accepted _ cid filed).1
    exact ⟨(ok.wakes wakes).setSlot target _, rfl, fun i live => ⟨wakes.live live, rfl⟩⟩

theorem Ok.ran (ok : s.Ok) (polls : s.polling = some self) (ran : Ran stack s self t) : t.Ok := by
  obtain ⟨current, live⟩ := ok.polled self polls
  cases ran with
  | jump p jumps =>
    apply ok.goto live
    intro waits
    generalize s.point self.val = q at jumps
    cases jumps <;> cases waits
  | resume next value lib resumes taken =>
    obtain ⟨cid, isCurrent, rfl, rfl⟩ := AsyncState.takeValue_ok taken
    -- `yield_now` reads the slot of the current coroutine, which is the polled one
    obtain rfl : self = cid := Option.some.inj (current.symm.trans isCurrent)
    apply (ok.setSlot live none).goto live
    intro waits
    generalize s.point self.val = q at resumes ⊢
    cases resumes <;> first | rfl | cases waits
  | endPoll at_ => exact (ok.leave live rfl).notPolling
  | noItem cnt at_ empty => exact (ok.leave live rfl).notPolling
  | handle cnt request items s₁ _ at_ popped handled iterated =>
    obtain ⟨ok₁, -, keeps⟩ := handled.ok ok
    exact iterated.ok ok₁ (keeps _ live).1
  | send cnt size request items sockets _ at_ popped sending =>
    obtain ⟨-, -, -, -, rfl⟩ := sending
    exact ok.leave live rfl
  | sendReply cnt size request s₁ _ at_ replied iterated =>
    obtain ⟨items, -, rfl⟩ := writeReply_ok replied
    exact iterated.ok ok live
  | listen cid port serial handler sockets table at_ opened registered =>
    apply CoroutinesOk.notPolling
    apply ok.goto live
    rw [at_]
    exact fun _ => rfl
  | accept cid port serial handler handle tuple net s₁ at_ accepted replied =>
    obtain ⟨items, -, rfl⟩ := writeReply_ok replied
    obtain ⟨en, rest, -, -, -, rfl⟩ := NetState.accept_ok stack accepted
    apply (ok.leave live rfl).fileSocket
    exact ⟨live, by simp [Point.acceptPhase]⟩
  | wait at_ => exact (ok.leave live rfl).notPolling
  | recvReply request size s₁ s₂ at_ received replied =>
    obtain ⟨items, -, rfl⟩ := writeReply_ok replied
    obtain ⟨len, bytes, sockets, -, rfl⟩ := recvInto_ok stack received
    exact ok.leave live rfl
  | recvFailed request at_ can failed => exact ok.leave live rfl
  | recvBusy request e at_ woken =>
    have wakes := Wakes.of_wake woken
    exact ((ok.wakes wakes).leave (wakes.live live) rfl).notPolling

/-- A fetch polls the front entry of a queue or nothing; there are no stale entries. -/
inductive Fetched (s : AsyncServer σ) : AsyncServer σ → Prop
  | nothing (e : Executor Body)
      (wakes : Wakes s.executor e fun c => s.executor.delayWakeCids.getLsbD c.val = true) :
      Fetched s { s.setExecutor e with polling := none }
  | polled (f e : Executor Body) (p : Nat) (cid : CoroutineId)
      (wakes : Wakes s.executor f fun c => s.executor.delayWakeCids.getLsbD c.val = true)
      (popped : f.Popped p cid e) (current : e.current = some cid) :
      Fetched s { s.setExecutor e with polling := some cid }

theorem Ok.fetched {task : Option (Coroutine Body)} {e : Executor Body} (ok : s.Ok)
    (fetched : s.executor.fetch = .ok (task, e)) :
    Fetched s { s.setExecutor e with polling := task.map (·.cid) } := by
  obtain ⟨f, flushed, result⟩ := Executor.fetch_ok fetched
  have wakes := Wakes.of_actualWake flushed
  have ok' := ok.wakes wakes
  cases result with
  | noBit _ => exact .nothing e wakes
  | noEntry _ _ _ _ _ => exact .nothing e wakes
  -- no coroutine of the server ends, so no entry is stale
  | stale p cid _ _ _ _ popped dead _ _ =>
    have front : cid ∈ f.queue p := by rw [popped.front]; exact List.mem_cons_self
    obtain ⟨task, found, -⟩ := ok'.queued p cid front
    exact absurd (dead.symm.trans found) nofun
  | polled p cid task _ _ _ _ popped live _ current =>
    obtain rfl : task.cid = cid := ok'.table.cid live
    exact .polled f e p task.cid wakes popped current

theorem Ok.fetch (ok : s.Ok) (idle : s.polling = none) (fetched : Fetched s t) : t.Ok := by
  have ok' : CoroutinesOk s.net.lib none s.point s.socket2Cid s.netDevicePollerCid := idle ▸ ok
  cases fetched with
  | nothing e wakes => exact ok'.wakes wakes
  | polled f e p cid wakes popped current => exact (ok'.wakes wakes).popped popped current

theorem Booted.ok (booted : s.Booted t) (ok : s.Ok) : t.Ok := by
  obtain ⟨poller, cid, runtime, runtime', allocator, first, second⟩ := booted
  have ok₁ := ok.spawn first nofun
  have ok₂ := ok₁.spawn second nofun
  have pollerLive : runtime.executor.tasks poller.val = some ⟨poller, 0, .netPoll⟩ := by
    rw [RuntimeState.spawn_tasks first]
    exact Function.update_self ..
  have different : poller.val ≠ cid.val := by
    intro same
    have unborn := ok₁.table.fresh second
    rw [← same, pollerLive] at unborn
    cases unborn
  -- both are live, and neither body is that of an accept coroutine
  refine (ok₂.register cid ?_ allocator 0).setPoller ?_
  · constructor
    · change runtime'.executor.tasks cid.val ≠ none
      rw [RuntimeState.spawn_tasks second, Function.update_self]
      exact Option.some_ne_none _
    · rw [Function.update_self]
      rfl
  · constructor
    · change runtime'.executor.tasks poller.val ≠ none
      rw [RuntimeState.spawn_tasks second, Function.update_of_ne different, pollerLive]
      exact Option.some_ne_none _
    · rw [Function.update_of_ne different, Function.update_self]
      rfl

theorem step_ok {a : AsyncAction F} (ok : s.Ok) (moved : s.step stack a = some t) : t.Ok := by
  cases step_moved stack moved with
  | boot _ booted => exact booted.ok ok
  | fetch task e idle fetched => exact ok.fetch idle (ok.fetched fetched)
  | run self _ polls ran => exact ok.ran polls ran
  | frame f self net polls inPoll received =>
    obtain ⟨m, snooped, rfl⟩ := NetState.receive_ok stack received
    change CoroutinesOk m.lib _ _ _ _
    -- a frame wakes at most one coroutine
    rcases snooped.lib with same | ⟨cid, e, woken, same⟩
    · rw [same]
      exact ok
    · rw [same]
      exact ok.wakes (Wakes.of_wake woken)
  | interrupt vec cid e known delayed => exact ok.interrupted known delayed
  | submit item items written => exact ok
  | tookReply reply items popped => exact ok
  | noReply empty => exact ok
  | store buffer bytes => exact ok

end AsyncServer

end RootTask.Net
