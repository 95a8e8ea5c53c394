import RootTask.Ipc.Channel
import RootTask.Ipc.Ledger

/-!
# Matching of requests and replies

`seL4_Call_with_item` against `recv_req_coroutine`, as `ipc_test.rs` runs them: callers of the
client thread are spawned and complete at any time, each makes any number of calls whose item
carries its own id, the server answers every request with the item itself, and
`recv_reply_coroutine` puts each reply into the mailbox of the id it carries. Every step here
is a step of the two threads of `Ipc.Channel` together with what it means for the caller.

## Proof strategy

The invariant is the `Ledger` over the tokens in the two queues and in the hands of the two
receive coroutines. Steps of the server and of the status words only move tokens around; each
step of the client is one of the ledger's own steps.
-/
namespace RootTask.Ipc

open RootTask.Runtime RootTask.Transition

/-- A call that returned, with the value of its `yield_now`; `none` is an `Err`. -/
structure Return where
  request : Token
  reply : Option Token
  deriving DecidableEq

structure CallReply where
  base : System Fut Token
  caller : Nat → Caller
  spawned : Nat
  calls : Nat
  serverHand : Option Token
  clientHand : Option Token
  returned : List Return

/-- Accesses of either thread that no caller takes part in. -/
inductive Access where
  | interrupt
  | clear
  | load
  | store
  | send

def Access.action : Access → Action Fut Token
  | .interrupt => .interrupt
  | .clear => .clear
  | .load => .load
  | .store => .store
  | .send => .send

inductive Act where
  | access (side : Side) (access : Access)
  | startReply (prio : Nat)
  | spawn (prio : Nat)
  | fetch
  | resume (k : Nat)
  | call (k : Nat) (item : IPCItem)
  | suspend (k : Nat)
  | complete (k : Nat)
  | popReply
  | deliver
  | nextReply
  | finishReply
  | yieldReply
  | server (action : LocalAction Fut Token)
  | popRequest
  | reply

namespace CallReply

def init : CallReply where
  base := .init
  caller := fun _ => ⟨.unborn, ⟨0⟩, default⟩
  spawned := 0
  calls := 0
  serverHand := none
  clientHand := none
  returned := []

abbrev client (s : CallReply) : Thread Fut Token := s.base.thread .client

abbrev server (s : CallReply) : Thread Fut Token := s.base.thread .server

abbrev reqItems (s : CallReply) : List Token := (s.base.channel .server).items.items

abbrev resItems (s : CallReply) : List Token := (s.base.channel .client).items.items

/-- The caller that the client thread is polling. -/
def polled (t : Thread Fut Token) : Option Nat :=
  t.polling.bind fun cid => (t.lib.executor.tasks cid.val).bind fun task =>
    match task.future with
    | .caller k => some k
    | .receiver => none

theorem polled_caller {t : Thread Fut Token} {cid : CoroutineId} {task : Coroutine Fut} {k : Nat}
    (polling : t.polling = some cid) (live : t.lib.executor.tasks cid.val = some task)
    (future : task.future = .caller k) : polled t = some k := by
  simp [polled, polling, live, future]

theorem polled_receiver {t : Thread Fut Token} {cid : CoroutineId} {task : Coroutine Fut}
    (polling : t.polling = some cid) (live : t.lib.executor.tasks cid.val = some task)
    (future : task.future = .receiver) : polled t = none := by
  simp [polled, polling, live, future]

def lift (s : CallReply) (side : Side) (action : Action Fut Token) : Option CallReply :=
  (s.base.step (side, action)).map fun base => { s with base := base }

def spawn (s : CallReply) (prio : Nat) : Option CallReply :=
  let future := Fut.caller s.spawned
  (s.client.lib.runtime.spawn future prio).toOption.bind fun r =>
    (s.lift .client (.thread (.spawn future prio))).map fun t => { t with
      caller := Function.update t.caller s.spawned ⟨.fresh, r.1, default⟩
      spawned := s.spawned + 1 }

def fetch (s : CallReply) : Option CallReply :=
  if ∀ k ∈ polled s.client, (s.caller k).pc.active = false then
    (s.lift .client (.thread .fetch)).map fun t => { t with
      caller := match polled t.client with
        | some k => Function.update t.caller k (t.caller k).poll
        | none => t.caller }
  else none

/-- The call returns `Ok` of the value in the mailbox, or `Err` without one. -/
def resume (s : CallReply) (k : Nat) : Option CallReply :=
  if (s.caller k).pc = .resuming then
    (s.lift .client (.thread .take)).map fun t => { t with
      caller := Function.update t.caller k { t.caller k with pc := .running }
      returned := ⟨(s.caller k).request, s.client.lib.immediateValue (s.caller k).cid.val⟩ ::
        t.returned }
  else none

def call (s : CallReply) (k : Nat) (item : IPCItem) : Option CallReply :=
  if (s.caller k).pc = .running then
    let token : Token := ⟨{ item with cid := (s.caller k).cid }, s.calls⟩
    (s.lift .client (.push token)).map fun t => { t with
      caller := Function.update t.caller k ⟨.calling, (s.caller k).cid, token⟩
      calls := s.calls + 1 }
  else none

def suspend (s : CallReply) (k : Nat) : Option CallReply :=
  if (s.caller k).pc = .calling ∧ s.client.writer = .idle then
    some { s with caller := Function.update s.caller k { s.caller k with pc := .waiting } }
  else none

def complete (s : CallReply) (k : Nat) : Option CallReply :=
  if (s.caller k).pc = .running then
    (s.lift .client (.thread .ready)).map fun t => { t with
      caller := Function.update t.caller k { t.caller k with pc := .finished } }
  else none

def deliver (s : CallReply) : Option CallReply :=
  s.clientHand.bind fun token =>
    (s.lift .client (.thread (.wakeWithValue token.cid token))).map fun t =>
      { t with clientHand := none }

/-- The loop of `recv_reply_coroutine` goes on with empty hands. -/
def afterReply (s : CallReply) (action : LocalAction Fut Token) : Option CallReply :=
  if s.clientHand = none then s.lift .client (.thread action) else none

def popReply (s : CallReply) : Option CallReply :=
  (s.lift .client .pop).map fun t => { t with clientHand := s.resItems.head? }

def popRequest (s : CallReply) : Option CallReply :=
  (s.lift .server .pop).map fun t => { t with serverHand := s.reqItems.head? }

def reply (s : CallReply) : Option CallReply :=
  s.serverHand.bind fun token =>
    (s.lift .server (.push token)).map fun t => { t with serverHand := none }

def step (s : CallReply) : Act → Option CallReply
  | .access side access => s.lift side access.action
  | .startReply prio => s.lift .client (.thread (.start .receiver prio))
  | .spawn prio => s.spawn prio
  | .fetch => s.fetch
  | .resume k => s.resume k
  | .call k item => s.call k item
  | .suspend k => s.suspend k
  | .complete k => s.complete k
  | .popReply => s.popReply
  | .deliver => s.deliver
  | .nextReply => s.afterReply .processed
  | .finishReply => s.afterReply .finish
  | .yieldReply => s.afterReply .yield
  | .server action => if s.serverHand = none then s.lift .server (.thread action) else none
  | .popRequest => s.popRequest
  | .reply => s.reply

/-- The tokens in the two queues and in the hands of the two receive coroutines. -/
def flight (s : CallReply) : List Token :=
  s.reqItems ++ s.serverHand.toList ++ s.resItems ++ s.clientHand.toList

def book (s : CallReply) : Book := ⟨s.client.lib.executor, s.client.lib.immediateValue, s.flight⟩

/-- The receive coroutine of a thread, while it is alive. -/
def liveReceiver (t : Thread Fut Token) : Option CoroutineId :=
  if t.reader.alive then some t.receiver else none

abbrev receiver (s : CallReply) : Option CoroutineId := liveReceiver s.client

/-- Whoever is about to write finds room. -/
def WritesSucceed (s : CallReply) : Prop :=
  (∀ k, (s.caller k).pc = .running → s.reqItems.length < maxItemNum) ∧
  (s.serverHand ≠ none → s.resItems.length < maxItemNum)

/-! ### Numbers of calls -/

/-- Every pending call has a number of its own, and every return had the reply of its call. -/
structure CallsOk (caller : Nat → Caller) (calls : Nat) (returned : List Return) : Prop where
  issued : ∀ k, (caller k).pc.pending = true → (caller k).request.call < calls
  distinct : ∀ j k, (caller j).pc.pending = true → (caller k).pc.pending = true →
    (caller j).request.call = (caller k).request.call → j = k
  open_ : ∀ k, (caller k).pc.pending = true →
    ∀ r ∈ returned, r.request.call ≠ (caller k).request.call
  closed : ∀ r ∈ returned, r.request.call < calls
  once : (returned.map fun r => r.request.call).Nodup
  matched : ∀ r ∈ returned, r.reply = some r.request

/-- A step of a caller that neither makes nor ends a call. -/
theorem CallsOk.keep {caller : Nat → Caller} {calls : Nat} {returned : List Return} {k : Nat}
    {v : Caller} (ok : CallsOk caller calls returned)
    (kept : v.pc.pending = true → (caller k).pc.pending = true ∧ v.request = (caller k).request) :
    CallsOk (Function.update caller k v) calls returned := by
  have before : ∀ j, (Function.update caller k v j).pc.pending = true →
      (caller j).pc.pending = true ∧
        (Function.update caller k v j).request = (caller j).request := by
    intro j pending
    by_cases same : j = k
    · subst same
      rw [Function.update_self] at pending ⊢
      exact kept pending
    · rw [Function.update_of_ne same] at pending ⊢
      exact ⟨pending, rfl⟩
  refine ⟨fun j pending => ?_, fun i j iPending jPending => ?_, fun j pending => ?_,
    ok.closed, ok.once, ok.matched⟩
  · obtain ⟨was, same⟩ := before j pending
    exact same ▸ ok.issued j was
  · obtain ⟨iWas, iSame⟩ := before i iPending
    obtain ⟨jWas, jSame⟩ := before j jPending
    rw [iSame, jSame]
    exact ok.distinct i j iWas jWas
  · obtain ⟨was, same⟩ := before j pending
    rw [same]
    exact ok.open_ j was

theorem CallsOk.call {caller : Nat → Caller} {calls k : Nat} {returned : List Return}
    {cid : CoroutineId} {token : Token} (ok : CallsOk caller calls returned)
    (number : token.call = calls) :
    CallsOk (Function.update caller k ⟨.calling, cid, token⟩) (calls + 1) returned := by
  refine ⟨fun j pending => ?_, fun i j iPending jPending same => ?_, fun j pending r member => ?_,
    fun r member => Nat.lt_succ_of_lt (ok.closed r member), ok.once, ok.matched⟩
  · by_cases here : j = k
    · subst here
      simp [number]
    · rw [Function.update_of_ne here] at pending ⊢
      exact Nat.lt_succ_of_lt (ok.issued j pending)
  · -- the new call has a number above all the others
    by_cases iHere : i = k <;> by_cases jHere : j = k
    · rw [iHere, jHere]
    · subst iHere
      rw [Function.update_self, Function.update_of_ne jHere] at same
      rw [Function.update_of_ne jHere] at jPending
      have older := ok.issued j jPending
      simp only at same
      omega
    · subst jHere
      rw [Function.update_self, Function.update_of_ne iHere] at same
      rw [Function.update_of_ne iHere] at iPending
      have older := ok.issued i iPending
      simp only at same
      omega
    · rw [Function.update_of_ne iHere] at iPending same
      rw [Function.update_of_ne jHere] at jPending same
      exact ok.distinct i j iPending jPending same
  · by_cases here : j = k
    · subst here
      have older := ok.closed r member
      simp only [Function.update_self]
      omega
    · rw [Function.update_of_ne here] at pending ⊢
      exact ok.open_ j pending r member

theorem CallsOk.resume {caller : Nat → Caller} {calls k : Nat} {returned : List Return}
    (ok : CallsOk caller calls returned) (pending : (caller k).pc.pending = true) :
    CallsOk (Function.update caller k { caller k with pc := .running }) calls
      (⟨(caller k).request, some (caller k).request⟩ :: returned) := by
  have others : ∀ j, (Function.update caller k { caller k with pc := .running } j).pc.pending = true →
      j ≠ k ∧ (caller j).pc.pending = true ∧
        Function.update caller k { caller k with pc := .running } j = caller j := by
    intro j isPending
    by_cases here : j = k
    · subst here
      simp [CallerPc.pending] at isPending
    · rw [Function.update_of_ne here] at isPending ⊢
      exact ⟨here, isPending, rfl⟩
  refine ⟨fun j isPending => ?_, fun i j iPending jPending => ?_, fun j isPending r member => ?_,
    fun r member => ?_, ?_, fun r member => ?_⟩
  · obtain ⟨-, was, same⟩ := others j isPending
    exact same ▸ ok.issued j was
  · obtain ⟨-, iWas, iSame⟩ := others i iPending
    obtain ⟨-, jWas, jSame⟩ := others j jPending
    rw [iSame, jSame]
    exact ok.distinct i j iWas jWas
  · obtain ⟨other, was, same⟩ := others j isPending
    rw [same]
    rcases List.mem_cons.mp member with rfl | old
    · exact fun equal => other (ok.distinct k j pending was equal).symm
    · exact ok.open_ j was r old
  · rcases List.mem_cons.mp member with rfl | old
    · exact ok.issued k pending
    · exact ok.closed r old
  · refine List.nodup_cons.mpr ⟨?_, ok.once⟩
    intro member
    obtain ⟨r, old, same⟩ := List.mem_map.mp member
    exact ok.open_ k pending r old same
  · rcases List.mem_cons.mp member with rfl | old
    · rfl
    · exact ok.matched r old

/-! ### The invariant -/

structure Invariant (s : CallReply) : Prop where
  threads : s.base.ThreadsOk
  ledger : Ledger s.book s.caller s.receiver
  calls : CallsOk s.caller s.calls s.returned
  control : ∀ k, (s.caller k).pc.active = true → s.client.polling = some (s.caller k).cid ∧
    s.client.lib.executor.current = some (s.caller k).cid ∧ s.client.reader.running = false
  unborn : ∀ k, s.spawned ≤ k → (s.caller k).pc = .unborn
  serving : s.serverHand ≠ none → s.server.reader = .busy
  receiving : s.clientHand ≠ none → s.client.reader = .busy

theorem invariant_init : init.Invariant := by
  refine ⟨System.threadsOk_init, ⟨nofun, nofun, fun _ => trivial, fun cid _ => ?_, ?_⟩,
    ⟨nofun, nofun, nofun, nofun, List.nodup_nil, nofun⟩, nofun, fun _ _ => rfl, nofun, nofun⟩
  · refine ⟨⟨nofun, rfl⟩, .inl ?_⟩
    simp [book, init, System.init, Thread.init, AsyncState.init, RuntimeState.init,
      Executor.new, Executor.entries, Executor.queue]
  · exact List.nodup_nil

theorem lift_ok {s t : CallReply} {side : Side} {action : Action Fut Token}
    (moved : s.lift side action = some t) :
    ∃ base, s.base.step (side, action) = some base ∧ t = { s with base := base } := by
  obtain ⟨base, stepped, rfl⟩ := Option.map_eq_some_iff.mp moved
  exact ⟨base, stepped, rfl⟩

/-- A step of the server thread, which moves tokens at most. -/
theorem Invariant.server_step {s : CallReply} {base : System Fut Token}
    {action : Action Fut Token} (hand : Option Token) (inv : s.Invariant)
    (stepped : s.base.step (.server, action) = some base)
    (moved : ({ s with base := base, serverHand := hand } : CallReply).flight.Perm s.flight)
    (serving : hand ≠ none → (base.thread .server).reader = .busy) :
    Invariant { s with base := base, serverHand := hand } := by
  have same : base.thread .client = s.base.thread .client :=
    (System.step_thread inv.threads stepped).2
  have ledger := inv.ledger.perm moved
  refine ⟨System.step_threadsOk inv.threads stepped, ?_, inv.calls, ?_, inv.unborn, serving, ?_⟩
  · simpa only [book, receiver, client, same] using ledger
  · simpa only [client, same] using inv.control
  · simpa only [client, same] using inv.receiving

/-- An access leaves both queues as they are. -/
theorem access_items {s t : System Fut Token} {side : Side} {access : Access}
    (ok : s.ThreadsOk) (moved : s.step (side, access.action) = some t) (x : Side) :
    (t.channel x).items = (s.channel x).items := by
  cases access <;> simp only [Access.action, System.step] at moved
  case interrupt =>
    obtain ⟨-, -, e, -, rfl⟩ := System.interrupt_ok ok moved
    rcases side.eq_or_other x with rfl | rfl <;> simp
  case clear =>
    obtain ⟨-, rfl⟩ := System.clear_ok moved
    rcases side.eq_or_other x with rfl | rfl <;> simp
  case load =>
    obtain ⟨-, rfl⟩ := System.load_ok moved
    rfl
  case store =>
    obtain ⟨-, rfl⟩ := System.store_ok moved
    rcases side.eq_or_other x with rfl | rfl <;> simp
  case send =>
    obtain ⟨-, rfl⟩ := System.send_ok moved
    rcases side.eq_or_other x with rfl | rfl <;> simp

/-- The parts of a thread that the ledger and the callers see. -/
structure SameClient (t t' : Thread Fut Token) : Prop where
  polling : t'.polling = t.polling
  receiver : t'.receiver = t.receiver
  mail : t'.lib.immediateValue = t.lib.immediateValue
  tasks : t'.lib.executor.tasks = t.lib.executor.tasks
  current : t'.lib.executor.current = t.lib.executor.current
  entries : t'.lib.executor.entries = t.lib.executor.entries

/-- What an access does to the thread that makes it. -/
theorem access_thread {s t : System Fut Token} {side : Side} {access : Access}
    (ok : s.ThreadsOk) (moved : s.step (side, access.action) = some t) :
    SameClient (s.thread side) (t.thread side) ∧
    ((t.thread side).reader = (s.thread side).reader ∨
      (s.thread side).reader = .clear ∧ (t.thread side).reader = .yield) := by
  cases access <;> simp only [Access.action, System.step] at moved
  case interrupt =>
    obtain ⟨-, -, e, delayed, rfl⟩ := System.interrupt_ok ok moved
    obtain ⟨-, rfl⟩ := Executor.delayWake_ok delayed
    rw [System.setChannel_thread, System.setThread_thread]
    exact ⟨⟨rfl, rfl, rfl, rfl, rfl, rfl⟩, .inl rfl⟩
  case clear =>
    obtain ⟨atClear, rfl⟩ := System.clear_ok moved
    rw [System.setChannel_thread, System.setThread_thread]
    exact ⟨⟨rfl, rfl, rfl, rfl, rfl, rfl⟩, .inr ⟨atClear, rfl⟩⟩
  case load =>
    obtain ⟨-, rfl⟩ := System.load_ok moved
    rw [System.setThread_thread]
    exact ⟨⟨rfl, rfl, rfl, rfl, rfl, rfl⟩, .inl rfl⟩
  case store =>
    obtain ⟨-, rfl⟩ := System.store_ok moved
    rw [System.setChannel_thread, System.setThread_thread]
    exact ⟨⟨rfl, rfl, rfl, rfl, rfl, rfl⟩, .inl rfl⟩
  case send =>
    obtain ⟨-, rfl⟩ := System.send_ok moved
    rw [System.setChannel_thread, System.setThread_thread]
    exact ⟨⟨rfl, rfl, rfl, rfl, rfl, rfl⟩, .inl rfl⟩

theorem flight_of_items {s t : CallReply}
    (items : ∀ x, (t.base.channel x).items = (s.base.channel x).items)
    (server : t.serverHand = s.serverHand) (client : t.clientHand = s.clientHand) :
    t.flight = s.flight := by
  simp only [flight, reqItems, resItems, items, server, client]

theorem Invariant.server_access {s : CallReply} {base : System Fut Token} {access : Access}
    (inv : s.Invariant) (stepped : s.base.step (.server, access.action) = some base) :
    Invariant { s with base := base } := by
  refine inv.server_step s.serverHand stepped (.of_eq ?_) fun busy => ?_
  · exact flight_of_items (access_items inv.threads stepped) rfl rfl
  · have before := inv.serving busy
    rcases (access_thread inv.threads stepped).2 with same | ⟨atClear, -⟩
    · exact same.trans before
    -- a thread with a token in its hands is busy, not at `clear`
    · cases before.symm.trans atClear

theorem Invariant.server_local {s : CallReply} {base : System Fut Token}
    {action : LocalAction Fut Token} (inv : s.Invariant) (free : s.serverHand = none)
    (stepped : s.base.step (.server, .thread action) = some base) :
    Invariant { s with base := base } := by
  refine inv.server_step s.serverHand stepped (.of_eq ?_) fun busy => absurd free busy
  obtain ⟨-, thread, -, rfl⟩ := System.thread_ok stepped
  rfl

theorem Invariant.popRequest {s t : CallReply} (inv : s.Invariant)
    (moved : s.popRequest = some t) : t.Invariant := by
  obtain ⟨u, lifted, rfl⟩ := Option.map_eq_some_iff.mp moved
  obtain ⟨base, stepped, rfl⟩ := lift_ok lifted
  obtain ⟨atPop, popped⟩ := System.pop_ok stepped
  -- whoever is about to pop has handled its last item
  have free : s.serverHand = none := by
    by_contra busy
    cases (inv.serving busy).symm.trans atPop
  refine inv.server_step _ stepped ?_ fun busy => ?_
  · rcases popped with ⟨item, items, shape, rfl⟩ | ⟨empty, rfl⟩
    · have other : ((s.base.setThread .server { s.base.thread .server with reader := .busy }).setChannel
          .server { s.base.channel .server with items := items }).channel .client =
          s.base.channel .client := System.setChannel_other _ .server _
      simp only [flight, reqItems, resItems, other, System.setChannel_channel, shape, free,
        List.head?_cons, Option.toList_some, Option.toList_none, List.append_nil]
      -- the head of the requests becomes the token in the server's hands
      refine List.Perm.append_right _ (List.Perm.append_right _ ?_)
      exact List.perm_append_comm
    · have head : s.reqItems.head? = none := by simp [reqItems, empty]
      simp only [flight, reqItems, resItems, System.setThread_channel, free]
      simp [empty]
  · rcases popped with ⟨item, items, shape, rfl⟩ | ⟨empty, rfl⟩
    · simp
    · simp [reqItems, empty] at busy

theorem Invariant.reply {s t : CallReply} (inv : s.Invariant) (moved : s.reply = some t) :
    t.Invariant := by
  obtain ⟨token, hand, moved⟩ := Option.bind_eq_some_iff.mp moved
  obtain ⟨u, lifted, rfl⟩ := Option.map_eq_some_iff.mp moved
  obtain ⟨base, stepped, rfl⟩ := lift_ok lifted
  obtain ⟨-, -, items, written, rfl⟩ := System.push_ok stepped
  refine inv.server_step _ stepped ?_ fun busy => absurd rfl busy
  -- the token goes from the server's hands to the end of the replies
  have own : ((s.base.setThread .server { s.base.thread .server with writer := .load }).setChannel
      .client { s.base.channel .client with items := items }).channel .server =
      s.base.channel .server := System.setChannel_of_other _ .server _
  have replies : ((s.base.setThread .server { s.base.thread .server with writer := .load }).setChannel
      .client { s.base.channel .client with items := items }).channel .client =
      { s.base.channel .client with items := items } := System.setChannel_channel _ _ _
  simp only [Side.other] at written ⊢
  simp only [flight, reqItems, resItems, own, replies, written, hand, Option.toList_some,
    Option.toList_none, List.append_nil, List.append_assoc]
  refine List.Perm.append_left _ ?_
  have moved : (s.resItems ++ [token]).Perm ([token] ++ s.resItems) := List.perm_append_comm
  have placed := moved.append_right s.clientHand.toList
  rwa [List.append_assoc, List.append_assoc] at placed

/-! ### Steps of the client thread -/

/-- A step of the client thread keeps what the server has in its hands. -/
theorem Invariant.of_client {s t : CallReply} {action : Action Fut Token} (inv : s.Invariant)
    (stepped : s.base.step (.client, action) = some t.base) (hand : t.serverHand = s.serverHand)
    (ledger : Ledger t.book t.caller t.receiver) (calls : CallsOk t.caller t.calls t.returned)
    (control : ∀ k, (t.caller k).pc.active = true → t.client.polling = some (t.caller k).cid ∧
      t.client.lib.executor.current = some (t.caller k).cid ∧ t.client.reader.running = false)
    (unborn : ∀ k, t.spawned ≤ k → (t.caller k).pc = .unborn)
    (receiving : t.clientHand ≠ none → t.client.reader = .busy) : t.Invariant := by
  have same : t.base.thread .server = s.base.thread .server :=
    (System.step_thread inv.threads stepped).2
  refine ⟨System.step_threadsOk inv.threads stepped, ledger, calls, control, unborn, ?_, receiving⟩
  rw [hand, server, same]
  exact inv.serving

/-- While the receive coroutine runs, no caller does. -/
theorem Invariant.inactive {s : CallReply} (inv : s.Invariant)
    (running : s.client.reader.running = true) (k : Nat) : (s.caller k).pc.active = false := by
  by_contra active
  have idle := (inv.control k (by simpa using active)).2.2
  simp [idle] at running

/-- The receive coroutine, or the interrupt handler, moves; the callers see nothing. -/
theorem Invariant.quiet {s : CallReply} {base : System Fut Token} {action : Action Fut Token}
    (hand : Option Token) (inv : s.Invariant)
    (stepped : s.base.step (.client, action) = some base)
    (moved : ({ s with base := base, clientHand := hand } : CallReply).flight.Perm s.flight)
    (mail : (base.thread .client).lib.immediateValue = s.client.lib.immediateValue)
    (tasks : (base.thread .client).lib.executor.tasks = s.client.lib.executor.tasks)
    (entries : (base.thread .client).lib.executor.entries = s.client.lib.executor.entries)
    (receiver : ({ s with base := base, clientHand := hand } : CallReply).receiver = s.receiver)
    (control : ∀ k, (s.caller k).pc.active = true →
      (base.thread .client).polling = some (s.caller k).cid ∧
      (base.thread .client).lib.executor.current = some (s.caller k).cid ∧
      (base.thread .client).reader.running = false)
    (receiving : hand ≠ none → (base.thread .client).reader = .busy) :
    Invariant { s with base := base, clientHand := hand } := by
  refine inv.of_client stepped rfl ?_ inv.calls control inv.unborn receiving
  have ledger := (inv.ledger.perm moved).executor tasks fun cid _ => congrFun entries cid
  rw [receiver]
  simpa only [book, client, mail] using ledger

private theorem alive_access {r r' : Reader} (change : r' = r ∨ r = .clear ∧ r' = .yield) :
    r'.alive = r.alive := by
  rcases change with rfl | ⟨rfl, rfl⟩ <;> rfl

theorem Invariant.client_access {s : CallReply} {base : System Fut Token} {access : Access}
    (inv : s.Invariant) (stepped : s.base.step (.client, access.action) = some base) :
    Invariant { s with base := base } := by
  obtain ⟨same, change⟩ := access_thread inv.threads stepped
  refine inv.quiet s.clientHand stepped (.of_eq ?_) same.mail same.tasks same.entries
    ?_ (fun k active => ?_) (fun busy => ?_)
  · exact flight_of_items (access_items inv.threads stepped) rfl rfl
  · simp only [receiver, liveReceiver, client, alive_access change, same.receiver]
  · obtain ⟨polling, current, idle⟩ := inv.control k active
    refine ⟨same.polling.trans polling, same.current.trans current, ?_⟩
    rcases change with unchanged | ⟨atClear, -⟩
    · rw [unchanged]
      exact idle
    · simp [client, atClear, Reader.running] at idle
  · have before := inv.receiving busy
    rcases change with unchanged | ⟨atClear, -⟩
    · exact unchanged.trans before
    · cases before.symm.trans atClear

/-- `recv_reply_coroutine` goes on to its next pop, or returns `Pending`. -/
theorem Invariant.afterReply {s t : CallReply} {action : LocalAction Fut Token}
    (inv : s.Invariant) (continues : action = .processed ∨ action = .yield)
    (moved : s.afterReply action = some t) : t.Invariant := by
  unfold CallReply.afterReply at moved
  split at moved
  next free =>
    obtain ⟨base, stepped, rfl⟩ := lift_ok moved
    obtain ⟨-, thread, ran, rfl⟩ := System.thread_ok stepped
    have loops : ∃ next polling, s.client.reader.running = true ∧ next.alive = true ∧
        thread = { s.client with reader := next, polling := polling } := by
      rcases continues with rfl | rfl <;> simp only [Thread.run] at ran <;> split at ran
      · next busy =>
        cases ran
        exact ⟨_, _, by simp [busy, Reader.running], rfl, rfl⟩
      · cases ran
      · next yielding =>
        cases ran
        exact ⟨_, _, by simp [yielding, Reader.running], rfl, rfl⟩
      · cases ran
    obtain ⟨next, polling, running, alive, rfl⟩ := loops
    refine inv.quiet s.clientHand stepped (.of_eq rfl) ?_ ?_ ?_ ?_ (fun k active => ?_)
      (fun busy => absurd free busy)
    · rw [System.setThread_thread]
    · rw [System.setThread_thread]
    · rw [System.setThread_thread]
    · simp only [receiver, liveReceiver, client, System.setThread_thread, alive,
        Reader.alive_of_running running]
    · simp [inv.inactive running k] at active
  · cases moved

/-- A step of the client thread that leaves the queues alone. -/
theorem Invariant.of_local {s t : CallReply} {thread : Thread Fut Token}
    {action : Action Fut Token} (inv : s.Invariant)
    (stepped : s.base.step (.client, action) = some t.base)
    (isBase : t.base = s.base.setThread .client thread) (hand : t.serverHand = s.serverHand)
    (ledger : Ledger ⟨thread.lib.executor, thread.lib.immediateValue,
      s.reqItems ++ s.serverHand.toList ++ s.resItems ++ t.clientHand.toList⟩ t.caller
      (liveReceiver thread))
    (calls : CallsOk t.caller t.calls t.returned)
    (control : ∀ k, (t.caller k).pc.active = true → thread.polling = some (t.caller k).cid ∧
      thread.lib.executor.current = some (t.caller k).cid ∧ thread.reader.running = false)
    (unborn : ∀ k, t.spawned ≤ k → (t.caller k).pc = .unborn)
    (receiving : t.clientHand ≠ none → thread.reader = .busy) : t.Invariant := by
  have isThread : t.base.thread .client = thread := by rw [isBase, System.setThread_thread]
  have flight : t.flight =
      s.reqItems ++ s.serverHand.toList ++ s.resItems ++ t.clientHand.toList := by
    simp only [CallReply.flight, reqItems, resItems, isBase, System.setThread_channel, hand]
  refine inv.of_client stepped hand ?_ calls ?_ unborn ?_
  · simpa only [book, receiver, client, isThread, flight] using ledger
  · simpa only [client, isThread] using control
  · simpa only [client, isThread] using receiving

theorem Invariant.startReply {s t : CallReply} {prio : Nat} (inv : s.Invariant)
    (moved : s.lift .client (.thread (.start .receiver prio)) = some t) : t.Invariant := by
  obtain ⟨base, stepped, rfl⟩ := lift_ok moved
  obtain ⟨-, thread, ran, rfl⟩ := System.thread_ok stepped
  obtain ⟨unstarted, cid, r, vec, allocator, spawned, rfl⟩ := Thread.start_ok ran
  -- before the start the ledger has no receive coroutine
  have none_ : s.receiver = none := by
    simp [receiver, liveReceiver, client, unstarted, Reader.alive]
  have ledger := inv.ledger
  rw [none_] at ledger
  refine inv.of_local stepped rfl rfl (ledger.start (inv.threads .client).table spawned) inv.calls
    (fun k active => ?_) inv.unborn (fun busy => ?_)
  · obtain ⟨polling, current, -⟩ := inv.control k active
    exact ⟨polling, (Thread.spawn_current spawned).trans current, rfl⟩
  · cases (inv.receiving busy).symm.trans unstarted

/-- Unborn callers stay unborn when another one moves. -/
theorem Invariant.unborn_update {s : CallReply} {k n : Nat} {v : Caller} (inv : s.Invariant)
    (later : s.spawned ≤ n) (born : k < n) (j : Nat) (bound : n ≤ j) :
    (Function.update s.caller k v j).pc = .unborn := by
  rw [Function.update_of_ne (by omega)]
  exact inv.unborn j (by omega)

theorem Invariant.born {s : CallReply} {k : Nat} (inv : s.Invariant)
    (live : (s.caller k).pc.live = true) : k < s.spawned := by
  by_contra late
  simp [inv.unborn k (by omega), CallerPc.live] at live

theorem Invariant.spawn {s t : CallReply} {prio : Nat} (inv : s.Invariant)
    (moved : s.spawn prio = some t) : t.Invariant := by
  simp only [CallReply.spawn, Option.bind_eq_some_iff, toOption_eq_some, Prod.exists] at moved
  obtain ⟨cid, r, spawned, moved⟩ := moved
  obtain ⟨u, lifted, rfl⟩ := Option.map_eq_some_iff.mp moved
  obtain ⟨base, stepped, rfl⟩ := lift_ok lifted
  obtain ⟨-, thread, ran, rfl⟩ := System.thread_ok stepped
  -- `run` repeats the spawn that gave `r`
  have isThread : thread = { s.client with lib := { s.client.lib with runtime := r } } := by
    simp only [Thread.run] at ran
    split at ran
    · obtain ⟨r', again, rfl⟩ := Option.map_eq_some_iff.mp ran
      rw [toOption_eq_some, spawned] at again
      cases again
      rfl
    · cases ran
  subst isThread
  -- the new caller takes the next number
  have unborn := inv.unborn s.spawned le_rfl
  refine inv.of_local stepped rfl rfl
    (inv.ledger.spawn default (inv.threads .client).table (by simp [unborn, CallerPc.live]) spawned)
    (inv.calls.keep (by rintro ⟨⟩)) (fun k active => ?_)
    (inv.unborn_update (Nat.le_succ _) (Nat.lt_succ_self _)) inv.receiving
  by_cases here : k = s.spawned
  · simp [here, CallerPc.active] at active
  · simp only [Function.update_of_ne here] at active ⊢
    obtain ⟨polling, current, idle⟩ := inv.control k active
    exact ⟨polling, (Thread.spawn_current spawned).trans current, idle⟩

/-- The polled caller goes on; the others are not polled. -/
theorem Invariant.control_update {s : CallReply} {k : Nat} {v : Caller} (inv : s.Invariant)
    (active : (s.caller k).pc.active = true) (same : v.cid = (s.caller k).cid) (j : Nat)
    (isActive : (Function.update s.caller k v j).pc.active = true) :
    s.client.polling = some (Function.update s.caller k v j).cid ∧
      s.client.lib.executor.current = some (Function.update s.caller k v j).cid ∧
      s.client.reader.running = false := by
  by_cases here : j = k
  · subst here
    rw [Function.update_self, same]
    exact inv.control j active
  · rw [Function.update_of_ne here] at isActive ⊢
    exact inv.control j isActive

theorem Invariant.resume {s t : CallReply} {k : Nat} (inv : s.Invariant)
    (moved : s.resume k = some t) : t.Invariant := by
  unfold CallReply.resume at moved
  split at moved
  next pc =>
    obtain ⟨u, lifted, rfl⟩ := Option.map_eq_some_iff.mp moved
    obtain ⟨base, stepped, rfl⟩ := lift_ok lifted
    obtain ⟨-, thread, ran, rfl⟩ := System.thread_ok stepped
    have active : (s.caller k).pc.active = true := by simp [pc, CallerPc.active]
    have current := (inv.control k active).2.1
    have isThread : thread = { s.client with lib := { s.client.lib with
        immediateValue := Function.update s.client.lib.immediateValue (s.caller k).cid.val none } } := by
      simp only [Thread.run, Thread.take] at ran
      split at ran
      · cases ran
      · obtain ⟨⟨value, lib⟩, returned, rfl⟩ := Option.map_eq_some_iff.mp ran
        obtain ⟨cid, isCurrent, -, rfl⟩ :=
          AsyncState.takeValue_ok ((toOption_eq_some _ _).mp returned)
        obtain rfl := Option.some.inj (current.symm.trans isCurrent)
        rfl
    subst isThread
    -- the mailbox of the resumed caller holds the reply to its own request
    obtain ⟨stored, ledger⟩ := inv.ledger.resume pc
    have stored : s.client.lib.immediateValue (s.caller k).cid.val = some (s.caller k).request :=
      stored
    refine inv.of_local stepped rfl rfl ledger ?_ (inv.control_update active rfl)
      (inv.unborn_update le_rfl (inv.born (by simp [pc, CallerPc.live]))) inv.receiving
    simp only [stored]
    exact inv.calls.resume (by simp [pc, CallerPc.pending])
  · cases moved

theorem Invariant.call {s t : CallReply} {k : Nat} {item : IPCItem} (inv : s.Invariant)
    (moved : s.call k item = some t) : t.Invariant := by
  unfold CallReply.call at moved
  split at moved
  next pc =>
    have isFor : Token.cid ⟨{ item with cid := (s.caller k).cid }, s.calls⟩ = (s.caller k).cid := rfl
    have number : Token.call ⟨{ item with cid := (s.caller k).cid }, s.calls⟩ = s.calls := rfl
    -- of the token only its addressee and its number matter from here on
    generalize (⟨{ item with cid := (s.caller k).cid }, s.calls⟩ : Token) = token at moved isFor number
    obtain ⟨u, lifted, rfl⟩ := Option.map_eq_some_iff.mp moved
    obtain ⟨base, stepped, rfl⟩ := lift_ok lifted
    obtain ⟨-, -, items, written, isBase⟩ := System.push_ok stepped
    have active : (s.caller k).pc.active = true := by simp [pc, CallerPc.active]
    have isThread : base.thread .client = { s.client with writer := .load } := by
      rw [isBase, System.setChannel_thread, System.setThread_thread]
    have requests : base.channel .server = { s.base.channel .server with items := items } := by
      rw [isBase]
      exact System.setChannel_channel _ _ _
    have replies : base.channel .client = s.base.channel .client := by
      rw [isBase]
      exact System.setChannel_of_other _ .client _
    refine inv.of_client stepped rfl ?_ (inv.calls.call number) ?_
      (inv.unborn_update le_rfl (inv.born (by simp [pc, CallerPc.live]))) ?_
    · have ledger := inv.ledger.call pc isFor
      -- the token stands at the end of the requests; for the ledger its place is irrelevant
      have moved : (s.reqItems ++ [token] ++ s.serverHand.toList ++ s.resItems ++
          s.clientHand.toList).Perm (token :: s.flight) := by
        simp only [flight, List.append_assoc, List.singleton_append]
        exact List.perm_middle
      have placed := ledger.perm moved
      simp only [Side.other] at written
      simpa only [book, flight, reqItems, resItems, receiver, liveReceiver, client, isThread,
        requests, replies, written] using placed
    · simp only [client, isThread]
      exact inv.control_update active rfl
    · simpa only [client, isThread] using inv.receiving
  · cases moved

theorem Invariant.suspend {s t : CallReply} {k : Nat} (inv : s.Invariant)
    (moved : s.suspend k = some t) : t.Invariant := by
  unfold CallReply.suspend at moved
  split at moved
  next ready =>
    cases moved
    have active : (s.caller k).pc.active = true := by simp [ready.1, CallerPc.active]
    refine ⟨inv.threads, inv.ledger.suspend ready.1, inv.calls.keep ?_,
      inv.control_update active rfl,
      inv.unborn_update le_rfl (inv.born (by simp [ready.1, CallerPc.live])), inv.serving,
      inv.receiving⟩
    exact fun _ => ⟨by simp [ready.1, CallerPc.pending], rfl⟩
  · cases moved

theorem Invariant.complete {s t : CallReply} {k : Nat} (inv : s.Invariant)
    (moved : s.complete k = some t) : t.Invariant := by
  unfold CallReply.complete at moved
  split at moved
  next pc =>
    obtain ⟨u, lifted, rfl⟩ := Option.map_eq_some_iff.mp moved
    obtain ⟨base, stepped, rfl⟩ := lift_ok lifted
    obtain ⟨-, thread, ran, rfl⟩ := System.thread_ok stepped
    have active : (s.caller k).pc.active = true := by simp [pc, CallerPc.active]
    have polling := (inv.control k active).1
    obtain ⟨r, removed, rfl⟩ : ∃ r, s.client.lib.runtime.removeTask (s.caller k).cid = .ok r ∧
        thread = { s.client with lib := { s.client.lib with runtime := r }, polling := none } := by
      simp only [Thread.run, Thread.ready, polling, Option.bind_some] at ran
      split at ran
      · cases ran
      · obtain ⟨r, returned, rfl⟩ := Option.map_eq_some_iff.mp ran
        exact ⟨r, (toOption_eq_some _ _).mp returned, rfl⟩
    refine inv.of_local stepped rfl rfl (inv.ledger.complete pc removed)
      (inv.calls.keep (by rintro ⟨⟩)) (fun j isActive => ?_)
      (inv.unborn_update le_rfl (inv.born (by simp [pc, CallerPc.live]))) inv.receiving
    -- the completed caller was the polled one
    by_cases here : j = k
    · simp [here, CallerPc.active] at isActive
    · simp only [Function.update_of_ne here] at isActive
      have both := (inv.control j isActive).1.symm.trans polling
      have distinct := inv.ledger.cid_ne (CallerPc.live_of_active isActive)
        (CallerPc.live_of_active active) here
      exact absurd (Option.some.inj both) distinct
  · cases moved

theorem Invariant.popReply {s t : CallReply} (inv : s.Invariant)
    (moved : s.popReply = some t) : t.Invariant := by
  obtain ⟨u, lifted, rfl⟩ := Option.map_eq_some_iff.mp moved
  obtain ⟨base, stepped, rfl⟩ := lift_ok lifted
  obtain ⟨atPop, popped⟩ := System.pop_ok stepped
  have free : s.clientHand = none := by
    by_contra busy
    cases (inv.receiving busy).symm.trans atPop
  -- with the receive coroutine running, no caller is active
  have running : s.client.reader.running = true := by simp [client, atPop, Reader.running]
  have isThread : ∃ next, base.thread .client = { s.client with reader := next } ∧
      next.alive = true ∧ (s.resItems.head? ≠ none → next = .busy) := by
    rcases popped with ⟨item, items, -, rfl⟩ | ⟨empty, rfl⟩
    · exact ⟨.busy, by simp, rfl, fun _ => rfl⟩
    · exact ⟨.clear, by simp, rfl, fun some_ => absurd (by simp [resItems, empty]) some_⟩
  obtain ⟨next, isThread, alive, busy⟩ := isThread
  refine inv.quiet _ stepped ?_ (by rw [isThread]) (by rw [isThread]) (by rw [isThread]) ?_
    (fun k active => ?_) (fun some_ => by simp only [isThread, busy some_])
  · rcases popped with ⟨item, items, shape, rfl⟩ | ⟨empty, rfl⟩
    · have other : ((s.base.setThread .client { s.base.thread .client with reader := .busy }).setChannel
          .client { s.base.channel .client with items := items }).channel .server =
          s.base.channel .server := System.setChannel_other _ .client _
      simp only [flight, reqItems, resItems, other, System.setChannel_channel, shape, free,
        List.head?_cons, Option.toList_some, Option.toList_none, List.append_nil,
        List.append_assoc]
      exact List.Perm.append_left _ (List.Perm.append_left _ List.perm_append_comm)
    · simp only [flight, reqItems, resItems, System.setThread_channel, free]
      simp [empty]
  · simp only [receiver, liveReceiver, client, isThread, alive, Reader.alive_of_running running]
  · simp [inv.inactive running k] at active

theorem Invariant.deliver {s t : CallReply} (inv : s.Invariant) (moved : s.deliver = some t) :
    t.Invariant := by
  obtain ⟨token, hand, moved⟩ := Option.bind_eq_some_iff.mp moved
  obtain ⟨u, lifted, rfl⟩ := Option.map_eq_some_iff.mp moved
  obtain ⟨base, stepped, rfl⟩ := lift_ok lifted
  obtain ⟨-, thread, ran, rfl⟩ := System.thread_ok stepped
  have busy := inv.receiving (by simp [hand])
  have inactive := inv.inactive (by simp [busy, Reader.running])
  simp only [Thread.run] at ran
  split at ran
  · obtain ⟨lib, returned, rfl⟩ := Option.map_eq_some_iff.mp ran
    obtain ⟨e, woken, rfl⟩ := AsyncState.wakeWithValue_ok ((toOption_eq_some _ _).mp returned)
    -- the token in the client's hands leaves the flight for the mailbox
    have held : (token :: (s.reqItems ++ s.serverHand.toList ++ s.resItems)).Perm s.flight := by
      simp only [flight, hand, Option.toList_some]
      exact (List.perm_append_singleton _ _).symm
    have delivered := (inv.ledger.perm held).deliver inactive woken
    refine inv.of_local stepped rfl rfl ?_ inv.calls (fun k active => ?_) inv.unborn
      (fun held => absurd rfl held)
    · simp only [Option.toList_none, List.append_nil]
      exact delivered
    · simp [inactive k] at active
  · cases ran

/-- The poll found by the guard of `fetch` is the only caller that could be active. -/
theorem Invariant.idle {s : CallReply} (inv : s.Invariant)
    (done : ∀ k ∈ polled s.client, (s.caller k).pc.active = false) (k : Nat) :
    (s.caller k).pc.active = false := by
  by_contra isActive
  have active : (s.caller k).pc.active = true := by simpa using isActive
  obtain ⟨polling, -, -⟩ := inv.control k active
  obtain ⟨-, prio, task⟩ := inv.ledger.table k (CallerPc.live_of_active active)
  have task : s.client.lib.executor.tasks (s.caller k).cid.val = some ⟨_, prio, .caller k⟩ := task
  exact isActive (done k (by simp [polled, polling, task]))

/-- The flush of a fetch wakes the receive coroutine at most. -/
theorem Invariant.flush {s : CallReply} {e : Executor Fut} (inv : s.Invariant)
    (unfinished : s.client.reader ≠ .finished)
    (flushed : s.client.lib.executor.actualWake = .ok e) :
    Ledger ⟨e, s.client.lib.immediateValue, s.flight⟩ s.caller s.receiver := by
  refine inv.ledger.executor (Executor.actualWake_same flushed).1.tasks fun cid other => ?_
  -- only the receive coroutine is registered, so only its bit can be set
  refine (Executor.actualWake_grown flushed).entries fun set => ?_
  obtain ⟨started, isReceiver⟩ := (inv.threads .client).only _ set
  have alive : s.client.reader.alive = true := Reader.alive_of_started started unfinished
  refine other ?_
  simp only [receiver, liveReceiver, alive, if_true, Option.some.injEq]
  exact (CoroutineId.ext isReceiver).symm

/-- A fetch that returns nothing popped nothing. -/
theorem fetch_none {s : CallReply} {f e : Executor Fut}
    (ledger : Ledger ⟨f, s.client.lib.immediateValue, s.flight⟩ s.caller s.receiver)
    (result : f.FetchResult none e) : e = f := by
  cases result with
  | noBit _ => rfl
  | noEntry _ _ _ _ _ => rfl
  | stale p cid e bound _ _ popped dead _ _ =>
    -- an entry of a dead coroutine would belong to a live caller or to the receive coroutine
    by_cases own : s.receiver = some cid
    · obtain ⟨prio, task⟩ := ledger.receiving cid own
      cases dead.symm.trans task
    · obtain ⟨k, prio, -, task, -⟩ := ledger.pop_caller popped bound own
      cases dead.symm.trans task

/-- What resuming the receive coroutine does; the value it takes is none. -/
theorem resume_facts {t t' : Thread Fut Token} {cid : CoroutineId}
    (moved : t.resume = some t') (current : t.lib.executor.current = some cid)
    (empty : t.lib.immediateValue cid.val = none) :
    t'.lib.executor = t.lib.executor ∧ t'.lib.immediateValue = t.lib.immediateValue ∧
      t'.polling = t.polling ∧ t'.receiver = t.receiver ∧ t'.reader = .pop := by
  unfold Thread.resume at moved
  split at moved
  · cases moved
    exact ⟨rfl, rfl, rfl, rfl, rfl⟩
  · obtain ⟨⟨value, lib⟩, returned, rfl⟩ := Option.map_eq_some_iff.mp moved
    obtain ⟨c, isCurrent, -, rfl⟩ := AsyncState.takeValue_ok ((toOption_eq_some _ _).mp returned)
    obtain rfl := Option.some.inj (current.symm.trans isCurrent)
    exact ⟨rfl, Function.update_eq_self_iff.mpr empty.symm, rfl, rfl, rfl⟩
  · cases moved

/-- The polled task is the one that the popped entry names. -/
theorem fetch_some {r : RuntimeState Fut} {f e : Executor Fut} {task : Coroutine Fut}
    (table : r.TableOk) (fetched : r.executor.fetch = .ok (some task, e))
    (result : f.FetchResult (some task) e) :
    e.current = some task.cid ∧ ∃ p, p < maxPrioNum ∧ f.Popped p task.cid e ∧
      f.tasks task.cid.val = some task := by
  have current := table.fetch_current fetched
  refine ⟨current, ?_⟩
  cases result with
  | polled p cid _ _ bound _ _ popped found _ isCurrent =>
    obtain rfl := Option.some.inj (current.symm.trans isCurrent)
    exact ⟨p, bound, popped, found⟩

theorem Invariant.fetch {s t : CallReply} (inv : s.Invariant)
    (unfinished : s.client.reader ≠ .finished) (moved : s.fetch = some t) : t.Invariant := by
  unfold CallReply.fetch at moved
  split at moved
  next done =>
    have inactive := inv.idle done
    obtain ⟨u, lifted, rfl⟩ := Option.map_eq_some_iff.mp moved
    obtain ⟨base, stepped, rfl⟩ := lift_ok lifted
    obtain ⟨-, thread, ran, rfl⟩ := System.thread_ok stepped
    obtain ⟨idle, task, e, fetched, outcome⟩ := Thread.fetch_cases ran
    obtain ⟨f, flushed, result⟩ := Executor.fetch_ok fetched
    have ledger := inv.flush unfinished flushed
    -- a thread that fetches is not in the middle of an item
    have free : s.clientHand = none := by
      by_contra busy
      simp [inv.receiving busy, Reader.running] at idle
    simp only [client, System.setThread_thread]
    cases task with
    | none =>
      -- nothing was popped: the ledger is that after the flush
      obtain rfl := fetch_none ledger result
      obtain ⟨-, rfl⟩ := outcome.resolve_left fun own => by simp at own
      refine inv.of_local stepped rfl rfl ledger inv.calls (fun k active => ?_) inv.unborn
        (fun busy => absurd free busy)
      simp [polled, inactive k] at active
    | some task =>
      obtain ⟨current, p, bound, popped, found⟩ :=
        fetch_some (inv.threads .client).table fetched result
      have live : e.tasks task.cid.val = some task := popped.tasks ▸ found
      rcases outcome with ⟨alive, own, resumed⟩ | ⟨other, isThread⟩
      · -- the receive coroutine was polled
        have isReceiver : s.receiver = some task.cid := by
          simp only [receiver, liveReceiver, alive, if_true]
          exact own.symm
        -- no value is ever deposited for the receive coroutine
        have quiet := (ledger.strays task.cid fun k kLive =>
          (ledger.receiver_ne kLive isReceiver).symm).1
        obtain ⟨executor, mail, polling, isRecv, atPop⟩ := resume_facts resumed current quiet.2
        obtain ⟨prio, isTask⟩ := ledger.receiving _ isReceiver
        have future : task.future = .receiver := by
          rw [Option.some.inj (found.symm.trans isTask)]
        have nobody : polled thread = none :=
          polled_receiver polling (executor ▸ live) future
        rw [nobody]
        refine inv.of_local stepped rfl rfl ?_ inv.calls (fun k active => ?_) inv.unborn
          (fun busy => absurd free busy)
        · have kept := ledger.executor popped.tasks fun cid foreign => by
            have counted := popped.entries bound cid
            have different : cid ≠ task.cid := fun same => foreign (same ▸ isReceiver)
            rw [if_neg different] at counted
            exact counted.symm
          have same : liveReceiver thread = s.receiver := by
            simp only [receiver, liveReceiver, atPop, isRecv, alive]
            rfl
          rw [executor, mail, same]
          exact kept
        · simp [inactive k] at active
      · -- a caller was polled
        have notReceiver : s.receiver ≠ some task.cid := by
          intro isReceiver
          simp only [receiver, liveReceiver] at isReceiver
          split at isReceiver
          next alive => exact other ⟨alive, isReceiver.symm⟩
          · cases isReceiver
        -- the popped entry is a caller's, which starts or has its reply
        obtain ⟨k, prio, owned, isTask, pc, updated⟩ := ledger.pop_caller popped bound notReceiver
        have future : task.future = .caller k := by
          rw [Option.some.inj (found.symm.trans isTask)]
        have isPolled : polled thread = some k := by
          rw [isThread]
          exact polled_caller rfl live future
        rw [isPolled]
        subst isThread
        refine inv.of_local stepped rfl rfl updated (inv.calls.keep fun pending => ?_)
          (fun j active => ?_) (inv.unborn_update le_rfl (inv.born ?_))
          (fun busy => absurd free busy)
        · rcases pc with fresh | waiting
          · simp [Caller.poll, fresh, CallerPc.pending] at pending
          · exact ⟨by simp [waiting, CallerPc.pending], rfl⟩
        · by_cases here : j = k
          · subst here
            simp only [Function.update_self]
            have cid : (s.caller j).poll.cid = task.cid := owned
            rw [cid]
            exact ⟨rfl, current, idle⟩
          · simp [Function.update_of_ne here, inactive j] at active
        · rcases pc with pc | pc <;> simp [pc, CallerPc.live]
  · cases moved

theorem step_invariant {s t : CallReply} {act : Act} (inv : s.Invariant)
    (unfinished : s.client.reader ≠ .finished) (continues : act ≠ .finishReply)
    (moved : s.step act = some t) : t.Invariant := by
  cases act with
  | access side access =>
    simp only [step] at moved
    obtain ⟨base, stepped, rfl⟩ := lift_ok moved
    cases side with
    | client => exact inv.client_access stepped
    | server => exact inv.server_access stepped
  | startReply prio => exact inv.startReply moved
  | spawn prio =>
    simp only [step] at moved
    exact inv.spawn moved
  | fetch => exact inv.fetch unfinished moved
  | resume k => exact inv.resume moved
  | call k item => exact inv.call moved
  | suspend k => exact inv.suspend moved
  | complete k => exact inv.complete moved
  | popReply => exact inv.popReply moved
  | deliver => exact inv.deliver moved
  | nextReply => exact inv.afterReply (.inl rfl) moved
  | finishReply => exact absurd rfl continues
  | yieldReply => exact inv.afterReply (.inr rfl) moved
  | server action =>
    simp only [step] at moved
    split at moved
    next free =>
      obtain ⟨base, stepped, rfl⟩ := lift_ok moved
      exact inv.server_local free stepped
    · cases moved
  | popRequest => exact inv.popRequest moved
  | reply => exact inv.reply moved

/-- A step of the two threads, and then a change to what the callers know of it. -/
theorem lift_map_base {s t : CallReply} {side : Side} {action : Action Fut Token}
    {f : CallReply → CallReply} (moved : (s.lift side action).map f = some t)
    (keeps : ∀ u, (f u).base = u.base) : ∃ a, s.base.step a = some t.base := by
  obtain ⟨u, lifted, rfl⟩ := Option.map_eq_some_iff.mp moved
  obtain ⟨base, stepped, rfl⟩ := lift_ok lifted
  rw [keeps]
  exact ⟨_, stepped⟩

/-- Every step is a step of the two threads, or none of theirs. -/
theorem step_base {s t : CallReply} {act : Act} (moved : s.step act = some t) :
    t.base = s.base ∨ ∃ a, s.base.step a = some t.base := by
  have plain : ∀ {side action}, s.lift side action = some t → ∃ a, s.base.step a = some t.base := by
    intro side action lifted
    obtain ⟨base, stepped, rfl⟩ := lift_ok lifted
    exact ⟨_, stepped⟩
  cases act <;> simp only [step] at moved
  case access side access => exact .inr (plain moved)
  case startReply prio => exact .inr (plain moved)
  case spawn prio =>
    simp only [CallReply.spawn, Option.bind_eq_some_iff] at moved
    obtain ⟨r, -, moved⟩ := moved
    exact .inr (lift_map_base moved fun _ => rfl)
  case fetch =>
    obtain ⟨-, moved⟩ := Option.ite_none_right_eq_some.mp moved
    exact .inr (lift_map_base moved fun _ => rfl)
  case resume k =>
    obtain ⟨-, moved⟩ := Option.ite_none_right_eq_some.mp moved
    exact .inr (lift_map_base moved fun _ => rfl)
  case call k item =>
    obtain ⟨-, moved⟩ := Option.ite_none_right_eq_some.mp moved
    exact .inr (lift_map_base moved fun _ => rfl)
  case suspend k =>
    -- the caller returns `Pending` with its write behind it: no access of the thread
    obtain ⟨-, moved⟩ := Option.ite_none_right_eq_some.mp moved
    cases moved
    exact .inl rfl
  case complete k =>
    obtain ⟨-, moved⟩ := Option.ite_none_right_eq_some.mp moved
    exact .inr (lift_map_base moved fun _ => rfl)
  case popReply => exact .inr (lift_map_base moved fun _ => rfl)
  case deliver =>
    obtain ⟨token, -, moved⟩ := Option.bind_eq_some_iff.mp moved
    exact .inr (lift_map_base moved fun _ => rfl)
  case popRequest => exact .inr (lift_map_base moved fun _ => rfl)
  case reply =>
    obtain ⟨token, -, moved⟩ := Option.bind_eq_some_iff.mp moved
    exact .inr (lift_map_base moved fun _ => rfl)
  all_goals
    obtain ⟨-, moved⟩ := Option.ite_none_right_eq_some.mp moved
    exact .inr (plain moved)

theorem finishReply_finished {s t : CallReply} (moved : s.step .finishReply = some t) :
    t.client.reader = .finished := by
  simp only [step, CallReply.afterReply] at moved
  split at moved
  · obtain ⟨base, stepped, rfl⟩ := lift_ok moved
    obtain ⟨-, thread, ran, rfl⟩ := System.thread_ok stepped
    simp only [Thread.run, Thread.finish] at ran
    split at ran
    · obtain ⟨r, -, rfl⟩ := Option.map_eq_some_iff.mp ran
      simp [client]
    · cases ran
  · cases moved

/-- As long as `recv_reply_coroutine` has not finished, the invariant holds. -/
theorem reachable_invariant {s : CallReply} (run : Reachable step init s)
    (unfinished : s.client.reader ≠ .finished) : s.Invariant := by
  refine Reaches.invariant (fun s => s.base.ThreadsOk ∧ (s.client.reader ≠ .finished → s.Invariant))
    ⟨System.threadsOk_init, fun _ => invariant_init⟩ ?_ run |>.2 unfinished
  rintro s act t ⟨threads, inv⟩ - moved
  -- the threads are sound along every run; the ledger only until the receiver finishes
  have based := step_base moved
  refine ⟨?_, fun going => ?_⟩
  · rcases based with same | ⟨a, stepped⟩
    · exact same ▸ threads
    · exact System.step_threadsOk threads stepped
  -- what is unfinished now was unfinished before
  · have before : s.client.reader ≠ .finished := by
      intro finished
      rcases based with same | ⟨a, stepped⟩
      · exact going (by rw [client, same]; exact finished)
      · exact going (System.step_finished threads stepped finished)
    refine step_invariant (inv before) before ?_ moved
    rintro rfl
    exact going (finishReply_finished moved)

/-- In every interleaving, as long as the receive coroutine of the client has not finished:
each live caller has at most one token outstanding, every call that returned has returned the
reply to its own request, each reply was consumed once, and whoever writes finds room. -/
theorem call_reply_matching {s : CallReply} (run : Reachable step init s)
    (unfinished : s.client.reader ≠ .finished) :
    (∀ k, (s.caller k).pc.live = true → Ledger.outstanding s.book (s.caller k).cid ≤ 1) ∧
    (∀ r ∈ s.returned, r.reply = some r.request) ∧
    (s.returned.map fun r => r.request.call).Nodup ∧ s.WritesSucceed := by
  have inv := reachable_invariant run unfinished
  -- all tokens in flight together fit into one queue, so each queue has room for one more
  have room : s.flight.length < maxItemNum := lt_of_le_of_lt inv.ledger.flight_length (by decide)
  simp only [flight, List.length_append] at room
  refine ⟨fun k live => inv.ledger.outstanding_le_one live, inv.calls.matched, inv.calls.once,
    fun _ _ => ?_, fun _ => ?_⟩
  · omega
  · omega

/-- One caller makes a call and gets its reply through both interrupts. -/
theorem call_reply_matching_one_call :
    ∃ s : CallReply, Reachable step init s ∧ s.client.reader ≠ .finished ∧
      s.returned = [⟨⟨.ofMsg ⟨1⟩ 100, 0⟩, some ⟨.ofMsg ⟨1⟩ 100, 0⟩⟩] ∧
      (∀ k, (s.caller k).pc.live = true → Ledger.outstanding s.book (s.caller k).cid ≤ 1) ∧
      s.WritesSucceed := by
  obtain ⟨s, run, seen⟩ := reachable_of_view step init
    [.startReply 0, .server (.start .receiver 1), .spawn 1,
     .server .fetch, .popRequest, .access .server .clear, .server .yield,
     .fetch, .popReply, .access .client .clear, .yieldReply, .fetch, .call 0 (.ofMsg ⟨0⟩ 100),
     .access .client .load, .access .client .store, .access .client .send, .suspend 0,
     .access .server .interrupt, .server .fetch, .popRequest, .reply, .access .server .load,
     .access .server .store, .access .server .send, .server .processed,
     .access .client .interrupt, .fetch, .popReply, .deliver, .nextReply, .popReply,
     .access .client .clear, .yieldReply, .fetch, .resume 0]
    (fun s => (s.client.reader, s.returned))
    (v := (.suspended, [⟨⟨.ofMsg ⟨1⟩ 100, 0⟩, some ⟨.ofMsg ⟨1⟩ 100, 0⟩⟩])) (by decide +kernel)
  obtain ⟨suspended, returned⟩ := Prod.mk.inj seen
  have unfinished : s.client.reader ≠ .finished := by simp [suspended]
  obtain ⟨single, -, -, room⟩ := call_reply_matching run unfinished
  exact ⟨s, run, unfinished, returned, single, room⟩

end CallReply

end RootTask.Ipc
