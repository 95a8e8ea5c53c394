import RootTask.Ipc.LastReply
import RootTask.Ipc.Matrix

/-!
# The asynchronous IPC test

`async_ipc_test` and `async_helper_thread` of `ipc_test.rs` after their start: the client thread
spawns its receive coroutine and `COROUTINE_NUM` copies of `client_call_test`, which take their
calls from one `MUTE_SEND_NUM`, and runs them until none is left. Three counters say when the test
is over, and no one compares them: the callers stop when `MUTE_SEND_NUM` is used up,
`recv_req_coroutine` ends at its `REQ_NUM`, and `recv_reply_coroutine` at its `REPLY_COUNT`.

Every step is one of `Ipc.CallReply` together with what it does to the counters. The numbers of the
test and the kind of build are parameters.

## Main result

`ipc_test_exact`: whatever the interleaving, either receive coroutine ends exactly with the last
item of the test, so that its end leaves nobody waiting; every call returns the reply to its own
request, and all of them have returned when the client thread has no coroutine left.
-/
namespace RootTask.Ipc

open RootTask.Runtime RootTask.Transition

structure IpcTest where
  calls : CallReply
  muteSendNum : Nat
  replyCount : Nat
  reqNum : Nat

inductive IpcTestAction where
  | access (side : Side) (access : Access)
  | startReply
  | spawn
  | fetch
  | resume (k : Nat)
  | call (k : Nat)
  | suspend (k : Nat)
  | complete (k : Nat)
  | popReply
  | deliver
  /-- `REPLY_COUNT += 1` and the comparison. -/
  | countReply
  | yieldReply
  | startRequest
  | serverFetch
  | popRequest
  | reply
  /-- `REQ_NUM += 1` and the comparison. -/
  | countRequest
  | yieldRequest

namespace IpcTest

section Model

variable (overflowChecks : Bool) (matrixSize sendNum coroutineNum : Nat)

def init : IpcTest := ⟨.init, sendNum, 0, 0⟩

def lift (s : IpcTest) (act : Act) : Option IpcTest :=
  (s.calls.step act).map fun calls => { s with calls := calls }

/-- The client thread has spawned everything and is in its loop. -/
def Started (s : IpcTest) : Prop :=
  s.calls.client.reader ≠ .unstarted ∧ s.calls.spawned = coroutineNum

instance (s : IpcTest) : Decidable (s.Started coroutineNum) := inferInstanceAs (Decidable (_ ∧ _))

/-- The loop of `client_call_test` goes on with its next call. -/
def call (s : IpcTest) (k : Nat) : Option IpcTest :=
  if 0 < s.muteSendNum then
    (s.lift (.call k (.ofMsg ⟨0⟩ (BitVec.ofNat 32 (100 + k))))).map fun t =>
      { t with muteSendNum := s.muteSendNum - 1 }
  else none

def countReply (s : IpcTest) : Option IpcTest :=
  let count := s.replyCount + 1
  (s.lift (if count = sendNum then .finishReply else .nextReply)).map fun t =>
    { t with replyCount := count }

def countRequest (s : IpcTest) : Option IpcTest :=
  let count := s.reqNum + 1
  (s.lift (.server (if count = sendNum then .finish else .processed))).map fun t =>
    { t with reqNum := count }

/-- A step that panics has no successor. -/
def step (s : IpcTest) : IpcTestAction → Option IpcTest
  | .access side access => s.lift (.access side access)
  | .startReply => s.lift (.startReply 0)
  | .spawn =>
    if s.calls.client.reader ≠ .unstarted ∧ s.calls.spawned < coroutineNum then s.lift (.spawn 1)
    else none
  | .fetch => if s.Started coroutineNum then s.lift .fetch else none
  | .resume k => s.lift (.resume k)
  | .call k => s.call k
  | .suspend k => s.lift (.suspend k)
  | .complete k => if s.muteSendNum = 0 then s.lift (.complete k) else none
  | .popReply => s.lift .popReply
  | .deliver => s.lift .deliver
  | .countReply => s.countReply sendNum
  | .yieldReply => s.lift .yieldReply
  | .startRequest => s.lift (.server (.start .receiver 1))
  | .serverFetch => s.lift (.server .fetch)
  | .popRequest => s.lift .popRequest
  | .reply =>
    match U64Matrix.matrixTest overflowChecks matrixSize with
    | .ok _ => s.lift .reply
    | .error _ => none
  | .countRequest => s.countRequest sendNum
  | .yieldRequest => s.lift (.server .yield)

end Model

variable {overflowChecks : Bool} {matrixSize sendNum coroutineNum : Nat}

/-! ### The counters -/

/-- 1 while a receive coroutine has an item that it has not counted. -/
def working (t : Thread Fut Token) : Nat := if t.reader = .busy then 1 else 0

/-- 1 while the server has answered an item that it has not counted. -/
def answered (c : CallReply) : Nat :=
  if c.server.reader = .busy ∧ c.serverHand = none then 1 else 0

/-- Every call is counted once on its way, and the receive coroutines go on until the last. -/
structure Counts (sendNum : Nat) (s : IpcTest) : Prop where
  made : s.calls.calls + s.muteSendNum = sendNum
  requests : s.calls.calls = s.calls.reqItems.length + s.reqNum + working s.calls.server
  replies : s.reqNum + answered s.calls =
    s.calls.resItems.length + s.replyCount + working s.calls.client
  serving : s.calls.serverHand ≠ none → s.calls.server.reader = .busy
  lastReply : if s.calls.client.reader = .finished then s.replyCount = sendNum
    else s.replyCount < sendNum
  lastRequest : if s.calls.server.reader = .finished then s.reqNum = sendNum
    else s.reqNum < sendNum

theorem counts_init (positive : 0 < sendNum) : Counts sendNum (init sendNum) := by
  refine ⟨?_, ?_, ?_, ?_, ?_, ?_⟩ <;>
    simp [init, CallReply.init, CallReply.reqItems, CallReply.resItems, CallReply.server,
      CallReply.client, System.init, NewBuffer.new, ItemsQueue.new, working, answered, Thread.init,
      positive]

/-- Where `recv_reply_coroutine` is after a reply. -/
theorem countReply_ok {s t : IpcTest} (moved : s.countReply sendNum = some t) :
    ∃ c thread, s.calls.clientHand = none ∧
      c = { s.calls with base := s.calls.base.setThread .client thread } ∧
      s.calls.client.reader = .busy ∧
      thread.reader = (if s.replyCount + 1 = sendNum then .finished else .pop) ∧
      t = { s with calls := c, replyCount := s.replyCount + 1 } := by
  obtain ⟨u, lifted, rfl⟩ := Option.map_eq_some_iff.mp moved
  obtain ⟨c, stepped, rfl⟩ := Option.map_eq_some_iff.mp lifted
  split at stepped
  next isLast =>
    obtain ⟨free, thread, ran, rfl⟩ := CallReply.afterReply_ok stepped
    obtain ⟨busy, finished⟩ := Thread.run_moves ran
    exact ⟨_, thread, free, rfl, busy, by rw [finished, if_pos isLast], rfl⟩
  next more =>
    obtain ⟨free, thread, ran, rfl⟩ := CallReply.afterReply_ok stepped
    obtain ⟨busy, atPop⟩ := Thread.run_moves ran
    exact ⟨_, thread, free, rfl, busy, by rw [atPop, if_neg more], rfl⟩

/-- Where `recv_req_coroutine` is after a request. -/
theorem countRequest_ok {s t : IpcTest} (moved : s.countRequest sendNum = some t) :
    ∃ c thread, s.calls.serverHand = none ∧
      c = { s.calls with base := s.calls.base.setThread .server thread } ∧
      s.calls.server.reader = .busy ∧
      thread.reader = (if s.reqNum + 1 = sendNum then .finished else .pop) ∧
      t = { s with calls := c, reqNum := s.reqNum + 1 } := by
  obtain ⟨u, lifted, rfl⟩ := Option.map_eq_some_iff.mp moved
  obtain ⟨c, stepped, rfl⟩ := Option.map_eq_some_iff.mp lifted
  obtain ⟨free, stepped⟩ := Option.ite_none_right_eq_some.mp stepped
  obtain ⟨thread, ran, rfl⟩ := CallReply.lift_thread stepped
  split at ran
  next isLast =>
    obtain ⟨busy, finished⟩ := Thread.run_moves ran
    exact ⟨_, thread, free, rfl, busy, by rw [finished, if_pos isLast], rfl⟩
  next more =>
    obtain ⟨busy, atPop⟩ := Thread.run_moves ran
    exact ⟨_, thread, free, rfl, busy, by rw [atPop, if_neg more], rfl⟩

namespace Counts

variable {s t : IpcTest}

theorem answered_le (c : CallReply) : answered c ≤ working c.server := by
  unfold answered working
  split
  next both => rw [if_pos both.1]
  · exact Nat.zero_le _

theorem unseen {c : CallReply} (counts : Counts sendNum s) (same : s.calls.SameTally c) :
    Counts sendNum { s with calls := c } := by
  have requests : c.reqItems = s.calls.reqItems := congrArg ItemsQueue.items (same.items .server)
  have replies : c.resItems = s.calls.resItems := congrArg ItemsQueue.items (same.items .client)
  refine ⟨?_, ?_, ?_, ?_, ?_, ?_⟩
  · simpa only [same.calls] using counts.made
  · simpa only [same.calls, requests, working, CallReply.server, same.busy] using counts.requests
  · simpa only [replies, working, answered, CallReply.server, CallReply.client, same.busy,
      same.hand] using counts.replies
  · simpa only [same.hand, CallReply.server, same.busy] using counts.serving
  · simpa only [CallReply.client, same.finished] using counts.lastReply
  · simpa only [CallReply.server, same.finished] using counts.lastRequest

theorem call {k : Nat} (counts : Counts sendNum s) (moved : s.call k = some t) :
    Counts sendNum t := by
  obtain ⟨some_, moved⟩ := Option.ite_none_right_eq_some.mp moved
  obtain ⟨u, lifted, rfl⟩ := Option.map_eq_some_iff.mp moved
  obtain ⟨c, stepped, rfl⟩ := Option.map_eq_some_iff.mp lifted
  obtain ⟨calls, requests, replies, hand, server, client⟩ := CallReply.call_ok stepped
  refine ⟨?_, ?_, ?_, ?_, ?_, ?_⟩
  · have made := counts.made
    simp only [calls]
    omega
  · have before := counts.requests
    simp only [calls, requests, server]
    omega
  · simpa only [answered, working, server, hand, client, replies] using counts.replies
  · simpa only [hand, server] using counts.serving
  · simpa only [client] using counts.lastReply
  · simpa only [server] using counts.lastRequest

theorem reply (counts : Counts sendNum s) (moved : s.lift .reply = some t) :
    Counts sendNum t := by
  obtain ⟨c, stepped, rfl⟩ := Option.map_eq_some_iff.mp moved
  obtain ⟨held, free, calls, requests, replies, server, client⟩ := CallReply.reply_ok stepped
  have busy := counts.serving held
  refine ⟨?_, ?_, ?_, ?_, ?_, ?_⟩
  · simpa only [calls] using counts.made
  · simpa only [calls, requests, working, server] using counts.requests
  · have before := counts.replies
    simp only [answered, held, and_false, if_false] at before
    simp only [answered, server, busy, free, and_self, if_true, replies, client]
    omega
  · exact fun taken => absurd free taken
  · simpa only [client] using counts.lastReply
  · simpa only [server] using counts.lastRequest

theorem popRequest (counts : Counts sendNum s) (moved : s.lift .popRequest = some t) :
    Counts sendNum t := by
  obtain ⟨c, stepped, rfl⟩ := Option.map_eq_some_iff.mp moved
  obtain ⟨atPop, calls, replies, client, outcome⟩ := CallReply.popRequest_ok stepped
  have requests := counts.requests
  have answers := counts.replies
  have last := counts.lastRequest
  simp only [working, answered, atPop, reduceCtorEq, false_and, if_false] at requests answers last
  refine ⟨by simpa only [calls] using counts.made, ?_, ?_, ?_,
    by simpa only [client] using counts.lastReply, ?_⟩
  · rcases outcome with ⟨fewer, -, reader⟩ | ⟨before, after, -, reader⟩
    · simp only [calls, working, reader, if_true]
      omega
    · simp only [calls, after, working, reader, reduceCtorEq, if_false]
      simpa [before] using requests
  · rcases outcome with ⟨-, hand, reader⟩ | ⟨-, -, -, reader⟩
    · simp only [answered, hand, and_false, if_false, replies, client]
      simpa only [working] using answers
    · simp only [answered, reader, reduceCtorEq, false_and, if_false, replies, client]
      simpa only [working] using answers
  · rcases outcome with ⟨-, -, reader⟩ | ⟨-, -, hand, -⟩
    · exact fun _ => reader
    · exact fun taken => absurd hand taken
  · rcases outcome with ⟨-, -, reader⟩ | ⟨-, -, -, reader⟩
    · simpa only [reader, reduceCtorEq, if_false] using last
    · simpa only [reader, reduceCtorEq, if_false] using last

theorem popReply (counts : Counts sendNum s) (moved : s.lift .popReply = some t) :
    Counts sendNum t := by
  obtain ⟨c, stepped, rfl⟩ := Option.map_eq_some_iff.mp moved
  obtain ⟨atPop, calls, requests, server, hand, outcome⟩ := CallReply.popReply_ok stepped
  have answers := counts.replies
  have last := counts.lastReply
  simp only [working, atPop, reduceCtorEq, if_false] at answers last
  refine ⟨by simpa only [calls] using counts.made,
    by simpa only [calls, requests, server] using counts.requests, ?_,
    by simpa only [hand, server] using counts.serving, ?_,
    by simpa only [server] using counts.lastRequest⟩
  · have same : answered c = answered s.calls := by simp only [answered, server, hand]
    rcases outcome with ⟨fewer, reader⟩ | ⟨replies, reader⟩
    · simp only [same, working, reader, if_true]
      omega
    · simp only [same, replies, working, reader, reduceCtorEq, if_false]
      exact answers
  · rcases outcome with ⟨-, reader⟩ | ⟨-, reader⟩
    · simpa only [reader, reduceCtorEq, if_false] using last
    · simpa only [reader, reduceCtorEq, if_false] using last

/-- After the comparison a receive coroutine has ended, or it turns to the next item. -/
theorem count_ended {thread : Thread Fut Token} {count : Nat} (below : count < sendNum)
    (reader : thread.reader = if count + 1 = sendNum then .finished else .pop) :
    thread.reader ≠ .busy ∧
      if thread.reader = .finished then count + 1 = sendNum else count + 1 < sendNum := by
  rw [reader]
  by_cases isLast : count + 1 = sendNum
  · simp [isLast]
  · simp only [isLast, if_false, ne_eq, reduceCtorEq, not_false_eq_true, true_and]
    omega

theorem countReply (counts : Counts sendNum s) (moved : s.countReply sendNum = some t) :
    Counts sendNum t := by
  obtain ⟨c, thread, -, stepped, busy, reader, rfl⟩ := countReply_ok moved
  have last := counts.lastReply
  rw [busy, if_neg nofun] at last
  have client : c.client = thread := by rw [stepped, CallReply.client, System.setThread_thread]
  have server : c.server = s.calls.server := by rw [stepped]; exact System.setThread_other _ .client _
  have calls : c.calls = s.calls.calls := by rw [stepped]
  have requests : c.reqItems = s.calls.reqItems := by rw [stepped]; rfl
  have replies : c.resItems = s.calls.resItems := by rw [stepped]; rfl
  have hand : c.serverHand = s.calls.serverHand := by rw [stepped]
  obtain ⟨notBusy, ended⟩ := count_ended last reader
  have idle : working thread = 0 := if_neg notBusy
  refine ⟨by simpa only [calls] using counts.made, ?_, ?_, ?_, ?_, ?_⟩
  · simpa only [calls, requests, server] using counts.requests
  · have before := counts.replies
    simp only [working, busy, if_true] at before
    simp only [answered, server, hand, replies, client, idle] at before ⊢
    omega
  · simpa only [hand, server] using counts.serving
  · simpa only [client] using ended
  · simpa only [server] using counts.lastRequest

theorem countRequest (counts : Counts sendNum s) (moved : s.countRequest sendNum = some t) :
    Counts sendNum t := by
  obtain ⟨c, thread, free, stepped, busy, reader, rfl⟩ := countRequest_ok moved
  have last := counts.lastRequest
  rw [busy, if_neg nofun] at last
  have server : c.server = thread := by rw [stepped, CallReply.server, System.setThread_thread]
  have client : c.client = s.calls.client := by rw [stepped]; exact System.setThread_other _ .server _
  obtain ⟨notBusy, ended⟩ := count_ended last reader
  have idle : working thread = 0 := if_neg notBusy
  refine ⟨by simpa [stepped] using counts.made, ?_, ?_, ?_, ?_, ?_⟩
  · have before := counts.requests
    have items : c.reqItems = s.calls.reqItems := by rw [stepped]; rfl
    have calls : c.calls = s.calls.calls := by rw [stepped]
    simp only [working, busy, if_true] at before
    simp only [calls, items, server, idle]
    omega
  · have before := counts.replies
    have items : c.resItems = s.calls.resItems := by rw [stepped]; rfl
    simp only [answered, busy, free, and_self, if_true] at before
    simp only [answered, server, notBusy, false_and, if_false, items, client]
    omega
  · exact fun taken => absurd (by rw [stepped]; exact free) taken
  · simpa only [client] using counts.lastReply
  · simpa only [server] using ended

theorem lift (ok : s.calls.base.ThreadsOk) {act : Act} (unseen : act.unseen = true)
    (counts : Counts sendNum s) (moved : s.lift act = some t) : Counts sendNum t := by
  obtain ⟨c, stepped, rfl⟩ := Option.map_eq_some_iff.mp moved
  exact counts.unseen (CallReply.step_sameTally ok unseen stepped)

theorem step {action : IpcTestAction} (ok : s.calls.base.ThreadsOk) (counts : Counts sendNum s)
    (moved : s.step overflowChecks matrixSize sendNum coroutineNum action = some t) :
    Counts sendNum t := by
  cases action <;> simp only [IpcTest.step] at moved
  case call k => exact counts.call moved
  case popReply => exact counts.popReply moved
  case countReply => exact counts.countReply moved
  case popRequest => exact counts.popRequest moved
  case countRequest => exact counts.countRequest moved
  case reply =>
    split at moved
    · exact counts.reply moved
    · cases moved
  case spawn | fetch | complete =>
    obtain ⟨-, moved⟩ := Option.ite_none_right_eq_some.mp moved
    exact counts.lift ok rfl moved
  all_goals exact counts.lift ok rfl moved

/-- With the last reply counted, all calls are made and nothing is on its way. -/
theorem empty (counts : Counts sendNum s) (finished : s.calls.client.reader = .finished) :
    s.calls.calls = sendNum ∧ s.muteSendNum = 0 ∧ s.calls.reqItems = [] ∧
      s.calls.serverHand = none ∧ s.calls.resItems = [] := by
  obtain ⟨made, requests, replies, serving, last, -⟩ := counts
  rw [if_pos finished] at last
  have below := answered_le s.calls
  have free : s.calls.serverHand = none := by
    by_contra held
    simp only [answered, working, serving held, held, and_false, if_false, if_true] at *
    omega
  refine ⟨by omega, by omega, ?_, free, ?_⟩
  · exact List.eq_nil_of_length_eq_zero (by omega)
  · exact List.eq_nil_of_length_eq_zero (by omega)

/-- With the last request counted, all calls are made and answered. -/
theorem served (counts : Counts sendNum s) (finished : s.calls.server.reader = .finished) :
    s.calls.calls = sendNum ∧ s.muteSendNum = 0 ∧ s.calls.reqItems = [] ∧
      s.calls.serverHand = none := by
  obtain ⟨made, requests, -, serving, -, last⟩ := counts
  rw [if_pos finished] at last
  refine ⟨by omega, by omega, List.eq_nil_of_length_eq_zero (by omega), ?_⟩
  by_contra held
  cases (serving held).symm.trans finished

end Counts

/-! ### Runs of the test -/

theorem step_calls {s t : IpcTest} {action : IpcTestAction}
    (moved : s.step overflowChecks matrixSize sendNum coroutineNum action = some t) :
    ∃ act, s.calls.step act = some t.calls ∧
      (∀ prio, act = .spawn prio →
        s.calls.client.reader ≠ .unstarted ∧ s.calls.spawned < coroutineNum) ∧
      (act = .fetch → s.calls.spawned = coroutineNum) ∧
      ∀ k item, act = .call k item → 0 < s.muteSendNum := by
  have plain : ∀ {act u}, s.lift act = some u → s.calls.step act = some u.calls := by
    intro act u lifted
    obtain ⟨c, stepped, rfl⟩ := Option.map_eq_some_iff.mp lifted
    exact stepped
  cases action <;> simp only [IpcTest.step] at moved
  case spawn =>
    obtain ⟨early, moved⟩ := Option.ite_none_right_eq_some.mp moved
    exact ⟨_, plain moved, fun _ _ => early, by simp, by simp⟩
  case fetch =>
    obtain ⟨started, moved⟩ := Option.ite_none_right_eq_some.mp moved
    exact ⟨_, plain moved, by simp, fun _ => started.2, by simp⟩
  case call k =>
    obtain ⟨left, moved⟩ := Option.ite_none_right_eq_some.mp moved
    obtain ⟨u, lifted, rfl⟩ := Option.map_eq_some_iff.mp moved
    have stepped := plain lifted
    exact ⟨_, stepped, by simp, by simp, fun _ _ _ => left⟩
  case complete k =>
    obtain ⟨-, moved⟩ := Option.ite_none_right_eq_some.mp moved
    exact ⟨_, plain moved, by simp, by simp, by simp⟩
  case countReply =>
    obtain ⟨u, lifted, rfl⟩ := Option.map_eq_some_iff.mp moved
    have stepped := plain lifted
    refine ⟨_, stepped, ?_, ?_, ?_⟩ <;> split <;> simp
  case countRequest =>
    obtain ⟨u, lifted, rfl⟩ := Option.map_eq_some_iff.mp moved
    have stepped := plain lifted
    exact ⟨_, stepped, by simp, by simp, by simp⟩
  case reply =>
    split at moved
    · exact ⟨_, plain moved, by simp, by simp, by simp⟩
    · cases moved
  all_goals exact ⟨_, plain moved, by simp, by simp, by simp⟩

/-- The client thread has not fetched yet, or it has spawned all its callers. -/
def Early (coroutineNum : Nat) (c : CallReply) : Prop :=
  c.client.reader = .unstarted ∨ c.client.reader = .fresh ∨ c.spawned = coroutineNum

structure Invariant (sendNum coroutineNum : Nat) (s : IpcTest) : Prop where
  run : Reachable CallReply.step .init s.calls
  threads : s.calls.base.ThreadsOk
  kept : ∀ x, (s.calls.base.thread x).Kept
  counts : Counts sendNum s
  early : Early coroutineNum s.calls
  covered : CallReply.Covered s.calls.caller s.calls.calls s.calls.returned
  drained : s.calls.client.reader = .finished → s.calls.Drained

theorem invariant_init (positive : 0 < sendNum) :
    (init sendNum).Invariant sendNum coroutineNum := by
  refine ⟨.refl, System.threadsOk_init, fun x => ?_, counts_init positive, .inl rfl, nofun, nofun⟩
  exact .idle RuntimeState.bookkept_init rfl

namespace Invariant

variable {s t : IpcTest}

/-- Callers are spawned before the receive coroutine has run. -/
theorem unfinished (inv : s.Invariant sendNum coroutineNum)
    (more : s.calls.spawned < coroutineNum) : s.calls.client.reader ≠ .finished := by
  intro finished
  rcases inv.early with unstarted | fresh | all
  · cases unstarted.symm.trans finished
  · cases fresh.symm.trans finished
  · omega

theorem early_step {c : CallReply} {act : Act} (inv : s.Invariant sendNum coroutineNum)
    (spawns : ∀ prio, act = .spawn prio →
      s.calls.client.reader ≠ .unstarted ∧ s.calls.spawned < coroutineNum)
    (fetches : act = .fetch → s.calls.spawned = coroutineNum)
    (stepped : s.calls.step act = some c) : Early coroutineNum c := by
  cases act
  case startReply prio =>
    obtain ⟨thread, ran, rfl⟩ := CallReply.lift_thread stepped
    refine .inr (.inl ?_)
    rw [CallReply.client, System.setThread_thread]
    exact (Thread.run_moves ran).2
  case spawn prio =>
    obtain ⟨started, more⟩ := spawns prio rfl
    simp only [CallReply.step, CallReply.spawn, Option.bind_eq_some_iff] at stepped
    obtain ⟨r, -, stepped⟩ := stepped
    obtain ⟨u, lifted, rfl⟩ := Option.map_eq_some_iff.mp stepped
    obtain ⟨thread, ran, rfl⟩ := CallReply.lift_thread lifted
    have fresh : s.calls.client.reader = .fresh :=
      (inv.early.resolve_left started).resolve_right (by omega)
    refine .inr (.inl ?_)
    rw [CallReply.client, System.setThread_thread]
    exact (Thread.run_moves ran).trans fresh
  case fetch =>
    refine .inr (.inr ?_)
    obtain ⟨-, stepped⟩ := Option.ite_none_right_eq_some.mp stepped
    obtain ⟨u, lifted, rfl⟩ := Option.map_eq_some_iff.mp stepped
    obtain ⟨base, -, rfl⟩ := CallReply.lift_ok lifted
    exact fetches rfl
  all_goals
    obtain ⟨spawned, reader⟩ :=
      CallReply.step_reader inv.threads (by simp) (by simp) (by simp) stepped
    have before := inv.early
    unfold Early at before ⊢
    rw [spawned]
    rcases reader with same | running
    · rwa [same]
    · refine .inr (.inr ((before.resolve_left ?_).resolve_left ?_)) <;> intro here <;>
        simp [here, Reader.running] at running

theorem step {action : IpcTestAction} (inv : s.Invariant sendNum coroutineNum)
    (moved : s.step overflowChecks matrixSize sendNum coroutineNum action = some t) :
    t.Invariant sendNum coroutineNum := by
  obtain ⟨act, stepped, spawns, fetches, calls⟩ := step_calls moved
  have counts := inv.counts.step inv.threads moved
  have based := CallReply.step_base stepped
  refine ⟨.next inv.run trivial stepped, ?_, ?_, counts, inv.early_step spawns fetches stepped, ?_,
    fun finished => ?_⟩
  · rcases based with same | ⟨a, moves⟩
    · exact same ▸ inv.threads
    · exact System.step_threadsOk inv.threads moves
  · rcases based with same | ⟨a, moves⟩
    · exact same ▸ inv.kept
    · exact System.step_kept inv.threads inv.kept moves
  · refine CallReply.step_covered inv.covered (fun prio isSpawn => ?_) stepped
    have unfinished := inv.unfinished (spawns prio isSpawn).2
    exact (CallReply.reachable_invariant inv.run unfinished).unborn _ le_rfl
  · by_cases before : s.calls.client.reader = .finished
    -- the callers that are left go on without the receive coroutine
    · refine (inv.drained before).step inv.threads before (fun k item isCall => ?_)
        (fun prio isSpawn => ?_) stepped
      · have left := calls k item isCall
        have none_ := (inv.counts.empty before).2.1
        omega
      · exact inv.unfinished (spawns prio isSpawn).2 before
    · obtain rfl := CallReply.eq_finishReply inv.threads before finished stepped
      obtain ⟨-, -, requests, held, replies⟩ := counts.empty finished
      refine .enter (CallReply.reachable_invariant inv.run before) ?_ stepped
      obtain ⟨free, thread, -, isCalls⟩ := CallReply.afterReply_ok stepped
      rw [isCalls] at requests held replies
      have requests : s.calls.reqItems = [] := requests
      have replies : s.calls.resItems = [] := replies
      have held : s.calls.serverHand = none := held
      simp only [CallReply.flight, requests, held, replies, free, Option.toList_none,
        List.append_nil]

theorem calls (inv : s.Invariant sendNum coroutineNum) :
    CallReply.CallsOk s.calls.caller s.calls.calls s.calls.returned := by
  by_cases finished : s.calls.client.reader = .finished
  · exact (inv.drained finished).calls
  · exact (CallReply.reachable_invariant inv.run finished).calls

theorem writesSucceed (inv : s.Invariant sendNum coroutineNum) : s.calls.WritesSucceed := by
  by_cases finished : s.calls.client.reader = .finished
  · obtain ⟨-, -, requests, held, -⟩ := inv.counts.empty finished
    exact ⟨fun _ _ => by simp [requests], fun busy => absurd held busy⟩
  · have ledger := (CallReply.reachable_invariant inv.run finished).ledger
    -- all tokens in flight together fit into one queue
    have room : s.calls.flight.length < maxItemNum :=
      lt_of_le_of_lt ledger.flight_length (by decide)
    simp only [CallReply.flight, List.length_append] at room
    exact ⟨fun _ _ => by omega, fun _ => by omega⟩

/-- When the receive coroutine ends, whoever still waits has its reply and is queued. -/
theorem waiting (inv : s.Invariant sendNum coroutineNum)
    (finished : s.calls.client.reader = .finished) {k : Nat}
    (pc : (s.calls.caller k).pc = .waiting) :
    s.calls.client.lib.immediateValue (s.calls.caller k).cid.val =
        some (s.calls.caller k).request ∧
      s.calls.client.lib.executor.entries (s.calls.caller k).cid = 1 := by
  have phase := (inv.drained finished).ledger.phases k
  simp only [Book.Phase, pc] at phase
  rcases phase with ⟨⟨flies, -⟩, -⟩ | ⟨⟨-, -, mail⟩, queued⟩
  · cases flies
  · exact ⟨mail, queued⟩

/-- A live caller is in the table of the client thread. -/
theorem task (inv : s.Invariant sendNum coroutineNum) {k : Nat}
    (live : (s.calls.caller k).pc.live = true) :
    s.calls.client.lib.executor.tasks (s.calls.caller k).cid.val ≠ none := by
  by_cases finished : s.calls.client.reader = .finished
  · obtain ⟨-, prio, found⟩ := (inv.drained finished).task live
    simp [found]
  · obtain ⟨-, prio, found⟩ :=
      (CallReply.reachable_invariant inv.run finished).ledger.table k live
    have found : s.calls.client.lib.executor.tasks (s.calls.caller k).cid.val = _ := found
    simp [found]

/-- A thread without coroutines has ended its receive coroutine. -/
theorem finished_of_empty (inv : s.Invariant sendNum coroutineNum) (side : Side)
    (started : (s.calls.base.thread side).reader ≠ .unstarted)
    (empty : (s.calls.base.thread side).lib.executor.isEmpty = true) :
    (s.calls.base.thread side).reader = .finished := by
  have none_ := (inv.kept side).book.isEmpty_iff.mp empty
  by_contra unfinished
  exact (inv.threads side).live (Reader.alive_of_started started unfinished) (none_ _)

theorem all_returned (inv : s.Invariant sendNum coroutineNum) (started : s.Started coroutineNum)
    (empty : s.calls.client.lib.executor.isEmpty = true) :
    ∀ n < sendNum, ∃ r ∈ s.calls.returned, r.request.call = n := by
  have finished := inv.finished_of_empty .client started.1 empty
  have none_ := (inv.kept .client).book.isEmpty_iff.mp empty
  intro n bound
  rw [← (inv.counts.empty finished).1] at bound
  refine (inv.covered n bound).resolve_right ?_
  rintro ⟨k, pending, -⟩
  have live : (s.calls.caller k).pc.live = true := by
    cases pc : (s.calls.caller k).pc <;> simp [pc, CallerPc.pending, CallerPc.live] at pending ⊢
  exact inv.task live (none_ _)

end Invariant

theorem reachable_invariant (positive : 0 < sendNum) {s : IpcTest}
    (run : Reachable (step overflowChecks matrixSize sendNum coroutineNum) (init sendNum) s) :
    s.Invariant sendNum coroutineNum :=
  Reaches.invariant _ (invariant_init positive) (fun _ _ _ inv _ moved => inv.step moved) run

/-- The three counters of the test agree, whatever the interleaving. Each call returns the reply to
its own request and no other, so that `client test fail!` is not reached, and every write finds
room. `recv_req_coroutine` ends exactly at its last request, with every request answered, and
`recv_reply_coroutine` exactly at its last reply, with nothing in flight and every caller that still
waits woken with its reply. The loops around `coroutine_is_empty` end after all of this only. -/
theorem ipc_test_exact (positive : 0 < sendNum) {s : IpcTest}
    (run : Reachable (step overflowChecks matrixSize sendNum coroutineNum) (init sendNum) s) :
    ((∀ r ∈ s.calls.returned, r.reply = some r.request) ∧
      (s.calls.returned.map fun r => r.request.call).Nodup ∧ s.calls.WritesSucceed) ∧
    (s.calls.server.reader = .finished ↔ s.reqNum = sendNum) ∧
    (s.calls.client.reader = .finished ↔ s.replyCount = sendNum) ∧
    (s.calls.server.reader = .finished →
      s.calls.calls = sendNum ∧ s.calls.reqItems = [] ∧ s.calls.serverHand = none) ∧
    (s.calls.client.reader = .finished → s.calls.calls = sendNum ∧ s.calls.flight = [] ∧
      ∀ k, (s.calls.caller k).pc = .waiting →
        s.calls.client.lib.immediateValue (s.calls.caller k).cid.val =
            some (s.calls.caller k).request ∧
          s.calls.client.lib.executor.entries (s.calls.caller k).cid = 1) ∧
    (s.calls.server.reader ≠ .unstarted → s.calls.server.lib.executor.isEmpty = true →
      s.reqNum = sendNum) ∧
    (s.Started coroutineNum → s.calls.client.lib.executor.isEmpty = true →
      ∀ n < sendNum, ∃ r ∈ s.calls.returned, r.request.call = n) := by
  have inv := reachable_invariant positive run
  have requests := inv.counts.lastRequest
  have replies := inv.counts.lastReply
  have lastRequest : s.calls.server.reader = .finished ↔ s.reqNum = sendNum := by
    split at requests
    next finished => simp [finished, requests]
    next going => simp [going, requests.ne]
  have lastReply : s.calls.client.reader = .finished ↔ s.replyCount = sendNum := by
    split at replies
    next finished => simp [finished, replies]
    next going => simp [going, replies.ne]
  refine ⟨⟨inv.calls.matched, inv.calls.once, inv.writesSucceed⟩, lastRequest, lastReply,
    fun finished => ?_, fun finished => ?_, fun started empty => ?_, inv.all_returned⟩
  · obtain ⟨calls, -, items, hand⟩ := inv.counts.served finished
    exact ⟨calls, items, hand⟩
  · obtain ⟨calls, -, requests, held, replies⟩ := inv.counts.empty finished
    refine ⟨calls, ?_, fun k pc => inv.waiting finished pc⟩
    simp only [CallReply.flight, requests, held, replies, (inv.drained finished).hand,
      Option.toList_none, List.append_nil]
  · exact lastRequest.mp (inv.finished_of_empty .server started empty)

/-- One caller, one call, to the end of both receive coroutines. -/
def oneCall : List IpcTestAction :=
  [.startRequest, .startReply, .spawn,
   .serverFetch, .popRequest, .access .server .clear, .yieldRequest,
   .fetch, .popReply, .access .client .clear, .yieldReply, .fetch, .call 0,
   .access .client .load, .access .client .store, .access .client .send, .suspend 0,
   .access .server .interrupt, .serverFetch, .popRequest, .reply, .access .server .load,
   .access .server .store, .access .server .send, .countRequest,
   .access .client .interrupt, .fetch, .popReply, .deliver, .countReply,
   .fetch, .resume 0, .complete 0]

theorem ipc_test_exact_one_call :
    ∃ s : IpcTest, Reachable (step true 1 1 1) (init 1) s ∧ s.Started 1 ∧
      s.calls.client.lib.executor.isEmpty = true ∧ s.calls.server.reader = .finished ∧
      s.calls.client.reader = .finished ∧ s.reqNum = 1 ∧ s.replyCount = 1 ∧ s.calls.flight = [] ∧
      ∀ n < 1, ∃ r ∈ s.calls.returned, r.request.call = n := by
  obtain ⟨s, run, seen⟩ := reachable_of_view (step true 1 1 1) (init 1) oneCall
    (fun s => (s.calls.client.reader, s.calls.server.reader, s.calls.spawned,
      s.calls.client.lib.executor.isEmpty))
    (v := (.finished, .finished, 1, true)) (by decide +kernel)
  simp only [Prod.mk.injEq] at seen
  obtain ⟨client, server, spawned, empty⟩ := seen
  have started : s.Started 1 := ⟨by simp [client], spawned⟩
  obtain ⟨-, lastRequest, lastReply, -, ended, -, all⟩ := ipc_test_exact (by decide) run
  exact ⟨s, run, started, empty, server, client, lastRequest.mp server, lastReply.mp client,
    (ended client).2.1, all started empty⟩

end IpcTest

end RootTask.Ipc
