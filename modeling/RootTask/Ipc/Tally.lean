import RootTask.Ipc.CallReply
import RootTask.Runtime.Bookkeeping

/-!
# Counting the messages of the call paths

Which actions move a receive coroutine, and which of them change the numbers that a test counts by:
the calls sent, the messages in flight, the requests answered and the replies delivered. A count
kept outside the library follows the few actions named here and no others.
-/
namespace RootTask.Ipc

open RootTask.Runtime RootTask.Transition

/-! ### The receive coroutines -/

/-- How a step of a thread moves its receive coroutine. -/
def LocalAction.moves : LocalAction Fut Token → Reader → Reader → Prop
  | .start _ _, r, r' => r = .unstarted ∧ r' = .fresh
  | .fetch, r, r' => r.running = false ∧ (r' = r ∨ r.alive = true ∧ r' = .pop)
  | .processed, r, r' => r = .busy ∧ r' = .pop
  | .possibleSwitch, r, r' => r = .busy ∧ (r' = .suspended ∨ r' = .pop)
  | .finish, r, r' => r = .busy ∧ r' = .finished
  | .yield, r, r' => r = .yield ∧ r' = .suspended
  | .spawn _ _, r, r' | .wake _, r, r' | .wakeWithValue _ _, r, r' | .take, r, r'
  | .ready, r, r' => r' = r

theorem Thread.run_moves {t t' : Thread Fut Token} {action : LocalAction Fut Token}
    (ran : t.run action = some t') : action.moves t.reader t'.reader := by
  cases action <;> simp only [Thread.run] at ran <;> simp only [LocalAction.moves]
  case start future prio =>
    obtain ⟨unstarted, cid, r, vec, allocator, -, rfl⟩ := Thread.start_ok ran
    exact ⟨unstarted, rfl⟩
  case fetch =>
    obtain ⟨idle, task, e, -, ⟨alive, -, resumed⟩ | ⟨-, rfl⟩⟩ := Thread.fetch_cases ran
    · refine ⟨idle, .inr ⟨alive, ?_⟩⟩
      unfold Thread.resume at resumed
      split at resumed
      · cases resumed
        rfl
      · obtain ⟨r, -, rfl⟩ := Option.map_eq_some_iff.mp resumed
        rfl
      · cases resumed
    · exact ⟨idle, .inl rfl⟩
  case take =>
    unfold Thread.take at ran
    split at ran
    · cases ran
    · obtain ⟨r, -, rfl⟩ := Option.map_eq_some_iff.mp ran
      rfl
  case ready =>
    obtain ⟨cid, -, ran⟩ := Option.bind_eq_some_iff.mp ran
    split at ran
    · cases ran
    · obtain ⟨r, -, rfl⟩ := Option.map_eq_some_iff.mp ran
      rfl
  case possibleSwitch =>
    split at ran
    next busy =>
      refine ⟨busy, ?_⟩
      simp only [Thread.possibleSwitch, Option.bind_eq_some_iff, Prod.exists] at ran
      obtain ⟨possible, e, -, ran⟩ := ran
      split at ran
      · obtain ⟨cid, -, ran⟩ := Option.bind_eq_some_iff.mp ran
        obtain ⟨lib, -, rfl⟩ := Option.map_eq_some_iff.mp ran
        exact .inl rfl
      · cases ran
        exact .inr rfl
    · cases ran
  case finish =>
    split at ran
    next busy =>
      obtain ⟨r, -, rfl⟩ := Option.map_eq_some_iff.mp ran
      exact ⟨busy, rfl⟩
    · cases ran
  case processed | yield =>
    split at ran
    next here =>
      cases ran
      exact ⟨here, rfl⟩
    · cases ran
  case spawn | wake | wakeWithValue =>
    split at ran
    · obtain ⟨r, -, rfl⟩ := Option.map_eq_some_iff.mp ran
      rfl
    · cases ran

/-- The steps that end the work on an item. -/
def LocalAction.endsItem : LocalAction Fut Token → Bool
  | .processed | .possibleSwitch | .finish => true
  | .start _ _ | .spawn _ _ | .wake _ | .wakeWithValue _ _ | .fetch | .take | .ready
  | .yield => false

/-- Only these take a receive coroutine off an item or to its end. -/
theorem LocalAction.moves_keeps {action : LocalAction Fut Token} {r r' : Reader}
    (moved : action.moves r r') (goesOn : action.endsItem = false) :
    (r' = .busy ↔ r = .busy) ∧ (r' = .finished ↔ r = .finished) := by
  cases action <;> simp only [LocalAction.moves, LocalAction.endsItem] at moved goesOn
  case start future prio =>
    obtain ⟨rfl, rfl⟩ := moved
    simp
  case fetch =>
    obtain ⟨idle, rfl | ⟨alive, rfl⟩⟩ := moved
    · simp
    · cases r <;> simp [Reader.running, Reader.alive] at idle alive ⊢
  case yield =>
    obtain ⟨rfl, rfl⟩ := moved
    simp
  case processed | possibleSwitch | finish => cases goesOn
  all_goals
    subst moved
    simp

/-! ### The table of a thread -/

/-- The records of the executor agree, and the polled coroutine is in its table. -/
structure Thread.Kept (t : Thread Fut Token) : Prop where
  book : t.lib.runtime.Bookkept
  polled : ∀ cid, t.polling = some cid → t.lib.executor.tasks cid.val ≠ none

namespace Thread.Kept

variable {t t' : Thread Fut Token}

theorem idle (book : t.lib.runtime.Bookkept) (free : t.polling = none) : t.Kept := by
  refine ⟨book, fun cid polling => ?_⟩
  simp [free] at polling

theorem spawn {future : Fut} {prio : Nat} {cid : CoroutineId} {r : RuntimeState Fut}
    (kept : t.Kept) (spawned : t.lib.runtime.spawn future prio = .ok (cid, r)) :
    r.Bookkept ∧ ∀ c, t.polling = some c → r.executor.tasks c.val ≠ none := by
  refine ⟨kept.book.spawn spawned, fun c polling => ?_⟩
  rw [RuntimeState.spawn_tasks spawned]
  by_cases same : c.val = cid.val
  · simp [same]
  · rw [Function.update_of_ne same]
    exact kept.polled c polling

theorem sameTasks {e : Executor Fut} (kept : t.Kept) (same : t.lib.executor.SameTasks e) :
    (t.setExecutor e).Kept := by
  refine ⟨kept.book.sameTasks same, fun c polling => ?_⟩
  have live := kept.polled c polling
  rwa [← same.tasks] at live

theorem fetch (ok : t.Ok) (kept : t.Kept) (moved : t.fetch = some t') : t'.Kept := by
  obtain ⟨-, task, e, fetched, outcome⟩ := Thread.fetch_cases moved
  have book := (kept.sameTasks (Executor.fetch_same fetched).1).book
  have polled : ∀ cid, task.map (·.cid) = some cid → e.tasks cid.val ≠ none := by
    intro cid isPolled
    obtain ⟨task, rfl, rfl⟩ := Option.map_eq_some_iff.mp isPolled
    obtain ⟨f, -, result⟩ := Executor.fetch_ok fetched
    obtain ⟨-, p, -, popped, live⟩ := CallReply.fetch_some ok.table fetched result
    rw [popped.tasks, live]
    simp
  rcases outcome with ⟨-, -, resumed⟩ | ⟨-, rfl⟩
  · unfold Thread.resume at resumed
    split at resumed
    · cases resumed
      exact ⟨book, polled⟩
    · obtain ⟨⟨value, lib⟩, returned, rfl⟩ := Option.map_eq_some_iff.mp resumed
      obtain ⟨cid, -, -, rfl⟩ := AsyncState.takeValue_ok ((toOption_eq_some _ _).mp returned)
      exact ⟨book, polled⟩
    · cases resumed
  · exact ⟨book, polled⟩

theorem possibleSwitch (kept : t.Kept) (moved : t.possibleSwitch = some t') : t'.Kept := by
  simp only [Thread.possibleSwitch, Option.bind_eq_some_iff, toOption_eq_some,
    Prod.exists] at moved
  obtain ⟨possible, e, tested, moved⟩ := moved
  have flushed := kept.sameTasks (Executor.actualWake_same (Executor.switchPossible_ok tested).1).1
  split at moved
  · obtain ⟨cid, -, moved⟩ := Option.bind_eq_some_iff.mp moved
    obtain ⟨lib, returned, rfl⟩ := Option.map_eq_some_iff.mp moved
    obtain ⟨e', woken, rfl⟩ := AsyncState.wake_ok ((toOption_eq_some _ _).mp returned)
    exact idle (flushed.sameTasks (Executor.wake_grown woken).toSameTasks).book rfl
  · cases moved
    exact ⟨flushed.book, flushed.polled⟩

theorem run {action : LocalAction Fut Token} (ok : t.Ok) (kept : t.Kept)
    (ran : t.run action = some t') : t'.Kept := by
  cases action <;> simp only [Thread.run] at ran
  case start future prio =>
    obtain ⟨-, cid, r, vec, allocator, spawned, rfl⟩ := Thread.start_ok ran
    obtain ⟨book, polled⟩ := kept.spawn spawned
    exact ⟨book, polled⟩
  case spawn future prio =>
    obtain ⟨-, ran⟩ := Option.ite_none_right_eq_some.mp ran
    obtain ⟨⟨cid, r⟩, spawned, rfl⟩ := Option.map_eq_some_iff.mp ran
    obtain ⟨book, polled⟩ := kept.spawn ((toOption_eq_some _ _).mp spawned)
    exact ⟨book, polled⟩
  case wake cid =>
    obtain ⟨-, ran⟩ := Option.ite_none_right_eq_some.mp ran
    obtain ⟨lib, returned, rfl⟩ := Option.map_eq_some_iff.mp ran
    obtain ⟨e, woken, rfl⟩ := AsyncState.wake_ok ((toOption_eq_some _ _).mp returned)
    exact kept.sameTasks (Executor.wake_grown woken).toSameTasks
  case wakeWithValue cid item =>
    obtain ⟨-, ran⟩ := Option.ite_none_right_eq_some.mp ran
    obtain ⟨lib, returned, rfl⟩ := Option.map_eq_some_iff.mp ran
    obtain ⟨e, woken, rfl⟩ := AsyncState.wakeWithValue_ok ((toOption_eq_some _ _).mp returned)
    have same := kept.sameTasks (Executor.wake_grown woken).toSameTasks
    exact ⟨same.book, same.polled⟩
  case fetch => exact fetch ok kept ran
  case take =>
    unfold Thread.take at ran
    split at ran
    · cases ran
    · obtain ⟨⟨value, lib⟩, returned, rfl⟩ := Option.map_eq_some_iff.mp ran
      obtain ⟨cid, -, -, rfl⟩ := AsyncState.takeValue_ok ((toOption_eq_some _ _).mp returned)
      exact ⟨kept.book, kept.polled⟩
  case ready =>
    obtain ⟨cid, polling, ran⟩ := Option.bind_eq_some_iff.mp ran
    split at ran
    · cases ran
    · obtain ⟨r, removed, rfl⟩ := Option.map_eq_some_iff.mp ran
      have removed := (toOption_eq_some _ _).mp removed
      exact idle (kept.book.removeTask (kept.polled cid polling) removed) rfl
  case processed =>
    obtain ⟨-, ran⟩ := Option.ite_none_right_eq_some.mp ran
    cases ran
    exact ⟨kept.book, kept.polled⟩
  case possibleSwitch =>
    obtain ⟨-, ran⟩ := Option.ite_none_right_eq_some.mp ran
    exact kept.possibleSwitch ran
  case finish =>
    obtain ⟨busy, ran⟩ := Option.ite_none_right_eq_some.mp ran
    obtain ⟨r, removed, rfl⟩ := Option.map_eq_some_iff.mp ran
    have removed := (toOption_eq_some _ _).mp removed
    have live := ok.live (by simp [busy, Reader.alive])
    exact idle (kept.book.removeTask live removed) rfl
  case yield =>
    obtain ⟨-, ran⟩ := Option.ite_none_right_eq_some.mp ran
    cases ran
    exact idle kept.book rfl

end Thread.Kept

theorem System.step_kept {s t : System Fut Token} {a : Side × Action Fut Token} (ok : s.ThreadsOk)
    (kept : ∀ x, (s.thread x).Kept) (moved : s.step a = some t) : ∀ x, (t.thread x).Kept := by
  obtain ⟨side, action⟩ := a
  have other := (System.step_thread ok moved).2
  have own : (t.thread side).Kept := by
    cases action with
    | thread action =>
      obtain ⟨-, thread, ran, rfl⟩ := thread_ok moved
      rw [setThread_thread]
      exact (kept side).run (ok side) ran
    | interrupt =>
      obtain ⟨-, -, e, delayed, rfl⟩ := interrupt_ok ok moved
      obtain ⟨-, rfl⟩ := Executor.delayWake_ok delayed
      rw [setChannel_thread, setThread_thread]
      exact (kept side).sameTasks ⟨rfl, rfl, rfl⟩
    | pop =>
      obtain ⟨-, ⟨-, -, -, rfl⟩ | ⟨-, rfl⟩⟩ := pop_ok moved
      · rw [setChannel_thread, setThread_thread]
        exact ⟨(kept side).book, (kept side).polled⟩
      · rw [setThread_thread]
        exact ⟨(kept side).book, (kept side).polled⟩
    | clear =>
      obtain ⟨-, rfl⟩ := clear_ok moved
      rw [setChannel_thread, setThread_thread]
      exact ⟨(kept side).book, (kept side).polled⟩
    | push item =>
      obtain ⟨-, -, -, -, rfl⟩ := push_ok moved
      rw [setChannel_thread, setThread_thread]
      exact ⟨(kept side).book, (kept side).polled⟩
    | load =>
      obtain ⟨-, rfl⟩ := load_ok moved
      rw [setThread_thread]
      exact ⟨(kept side).book, (kept side).polled⟩
    | store =>
      obtain ⟨-, rfl⟩ := store_ok moved
      rw [setChannel_thread, setThread_thread]
      exact ⟨(kept side).book, (kept side).polled⟩
    | send =>
      obtain ⟨-, rfl⟩ := send_ok moved
      rw [setChannel_thread, setThread_thread]
      exact ⟨(kept side).book, (kept side).polled⟩
  intro x
  rcases side.eq_or_other x with rfl | rfl
  · exact own
  · rw [other]
    exact kept _

/-! ### What a count sees -/

/-- The steps that the counters of the test do not see. -/
def Act.unseen : Act → Bool
  | .access _ _ | .startReply _ | .spawn _ | .fetch | .resume _ | .suspend _ | .complete _
  | .deliver | .yieldReply => true
  | .server action => !action.endsItem
  | .call _ _ | .popReply | .nextReply | .finishReply | .popRequest | .reply => false

namespace CallReply

/-- What the counters of the test see stays the same. -/
structure SameTally (c d : CallReply) : Prop where
  calls : d.calls = c.calls
  items : ∀ x, (d.base.channel x).items = (c.base.channel x).items
  hand : d.serverHand = c.serverHand
  busy : ∀ x, (d.base.thread x).reader = .busy ↔ (c.base.thread x).reader = .busy
  finished : ∀ x, (d.base.thread x).reader = .finished ↔ (c.base.thread x).reader = .finished

theorem lift_thread {c d : CallReply} {side : Side} {action : LocalAction Fut Token}
    (moved : c.lift side (.thread action) = some d) :
    ∃ thread, (c.base.thread side).run action = some thread ∧
      d = { c with base := c.base.setThread side thread } := by
  obtain ⟨base, stepped, rfl⟩ := lift_ok moved
  obtain ⟨-, thread, ran, rfl⟩ := System.thread_ok stepped
  exact ⟨thread, ran, rfl⟩

theorem SameTally.of_side {c d : CallReply} (side : Side) (calls : d.calls = c.calls)
    (items : ∀ x, (d.base.channel x).items = (c.base.channel x).items)
    (hand : d.serverHand = c.serverHand)
    (own : ((d.base.thread side).reader = .busy ↔ (c.base.thread side).reader = .busy) ∧
      ((d.base.thread side).reader = .finished ↔ (c.base.thread side).reader = .finished))
    (other : d.base.thread side.other = c.base.thread side.other) : SameTally c d := by
  refine ⟨calls, items, hand, fun x => ?_, fun x => ?_⟩
  · rcases side.eq_or_other x with rfl | rfl
    · exact own.1
    · rw [other]
  · rcases side.eq_or_other x with rfl | rfl
    · exact own.2
    · rw [other]

theorem SameTally.of_thread {c d : CallReply} {side : Side} {action : LocalAction Fut Token}
    {thread : Thread Fut Token} (goesOn : action.endsItem = false)
    (ran : (c.base.thread side).run action = some thread)
    (base : d.base = c.base.setThread side thread) (calls : d.calls = c.calls)
    (hand : d.serverHand = c.serverHand) : SameTally c d := by
  refine .of_side side calls (fun x => ?_) hand ?_ ?_
  · rw [base, System.setThread_channel]
  · rw [base, System.setThread_thread]
    exact LocalAction.moves_keeps (Thread.run_moves ran) goesOn
  · rw [base, System.setThread_other]

/-- A step of a thread, and then a change to what the counters do not see. -/
theorem SameTally.of_lift {c d : CallReply} {side : Side} {action : LocalAction Fut Token}
    {f : CallReply → CallReply} (goesOn : action.endsItem = false)
    (moved : (c.lift side (.thread action)).map f = some d)
    (keeps : ∀ u, (f u).base = u.base ∧ (f u).calls = u.calls ∧ (f u).serverHand = u.serverHand) :
    SameTally c d := by
  obtain ⟨u, lifted, rfl⟩ := Option.map_eq_some_iff.mp moved
  obtain ⟨thread, ran, rfl⟩ := lift_thread lifted
  obtain ⟨base, calls, hand⟩ := keeps { c with base := c.base.setThread side thread }
  exact .of_thread goesOn ran base calls hand

theorem SameTally.of_access {c d : CallReply} {side : Side} {access : Access}
    (ok : c.base.ThreadsOk) (moved : c.lift side access.action = some d) : SameTally c d := by
  obtain ⟨base, stepped, rfl⟩ := lift_ok moved
  refine .of_side side rfl (access_items ok stepped) rfl ?_ (System.step_thread ok stepped).2
  rcases (access_thread ok stepped).2 with same | ⟨clear, yield⟩
  · simp only [same, and_self]
  · simp [clear, yield]

theorem step_sameTally {c d : CallReply} {act : Act} (ok : c.base.ThreadsOk)
    (unseen : act.unseen = true) (moved : c.step act = some d) : SameTally c d := by
  cases act <;> simp only [step] at moved <;> simp only [Act.unseen] at unseen
  case access side access => exact .of_access ok moved
  case startReply prio =>
    obtain ⟨thread, ran, rfl⟩ := lift_thread moved
    exact .of_thread rfl ran rfl rfl rfl
  case spawn prio =>
    simp only [CallReply.spawn, Option.bind_eq_some_iff] at moved
    obtain ⟨r, -, moved⟩ := moved
    exact .of_lift rfl moved fun _ => ⟨rfl, rfl, rfl⟩
  case fetch =>
    obtain ⟨-, moved⟩ := Option.ite_none_right_eq_some.mp moved
    exact .of_lift rfl moved fun _ => ⟨rfl, rfl, rfl⟩
  case resume k =>
    obtain ⟨-, moved⟩ := Option.ite_none_right_eq_some.mp moved
    exact .of_lift rfl moved fun _ => ⟨rfl, rfl, rfl⟩
  case suspend k =>
    obtain ⟨-, moved⟩ := Option.ite_none_right_eq_some.mp moved
    cases moved
    exact ⟨rfl, fun _ => rfl, rfl, fun _ => Iff.rfl, fun _ => Iff.rfl⟩
  case complete k =>
    obtain ⟨-, moved⟩ := Option.ite_none_right_eq_some.mp moved
    exact .of_lift rfl moved fun _ => ⟨rfl, rfl, rfl⟩
  case deliver =>
    obtain ⟨token, -, moved⟩ := Option.bind_eq_some_iff.mp moved
    exact .of_lift rfl moved fun _ => ⟨rfl, rfl, rfl⟩
  case yieldReply =>
    obtain ⟨-, moved⟩ := Option.ite_none_right_eq_some.mp moved
    obtain ⟨thread, ran, rfl⟩ := lift_thread moved
    exact .of_thread rfl ran rfl rfl rfl
  case server action =>
    obtain ⟨-, moved⟩ := Option.ite_none_right_eq_some.mp moved
    obtain ⟨thread, ran, rfl⟩ := lift_thread moved
    exact .of_thread (by simpa using unseen) ran rfl rfl rfl
  all_goals cases unseen

theorem call_ok {c d : CallReply} {k : Nat} {item : IPCItem} (moved : c.call k item = some d) :
    d.calls = c.calls + 1 ∧ d.reqItems.length = c.reqItems.length + 1 ∧
      d.resItems = c.resItems ∧ d.serverHand = c.serverHand ∧ d.server = c.server ∧
      d.client.reader = c.client.reader := by
  obtain ⟨-, moved⟩ := Option.ite_none_right_eq_some.mp moved
  obtain ⟨u, lifted, rfl⟩ := Option.map_eq_some_iff.mp moved
  obtain ⟨base, stepped, rfl⟩ := lift_ok lifted
  obtain ⟨-, -, items, written, rfl⟩ := System.push_ok stepped
  simp only [Side.other] at written
  refine ⟨rfl, ?_, ?_, rfl, ?_, ?_⟩ <;>
    simp [reqItems, resItems, client, server, System.setChannel, System.setThread, Side.other,
      written]

theorem reply_ok {c d : CallReply} (moved : c.reply = some d) :
    c.serverHand ≠ none ∧ d.serverHand = none ∧ d.calls = c.calls ∧ d.reqItems = c.reqItems ∧
      d.resItems.length = c.resItems.length + 1 ∧ d.server.reader = c.server.reader ∧
      d.client = c.client := by
  obtain ⟨token, hand, moved⟩ := Option.bind_eq_some_iff.mp moved
  obtain ⟨u, lifted, rfl⟩ := Option.map_eq_some_iff.mp moved
  obtain ⟨base, stepped, rfl⟩ := lift_ok lifted
  obtain ⟨-, -, items, written, rfl⟩ := System.push_ok stepped
  simp only [Side.other] at written
  refine ⟨by simp [hand], rfl, rfl, ?_, ?_, ?_, ?_⟩ <;>
    simp [reqItems, resItems, client, server, System.setChannel, System.setThread, Side.other,
      written]

theorem popRequest_ok {c d : CallReply} (moved : c.popRequest = some d) :
    c.server.reader = .pop ∧ d.calls = c.calls ∧ d.resItems = c.resItems ∧ d.client = c.client ∧
      ((c.reqItems.length = d.reqItems.length + 1 ∧ d.serverHand ≠ none ∧
        d.server.reader = .busy) ∨
       (c.reqItems = [] ∧ d.reqItems = [] ∧ d.serverHand = none ∧ d.server.reader = .clear)) := by
  obtain ⟨u, lifted, rfl⟩ := Option.map_eq_some_iff.mp moved
  obtain ⟨base, stepped, rfl⟩ := lift_ok lifted
  obtain ⟨atPop, ⟨item, items, shape, rfl⟩ | ⟨empty, rfl⟩⟩ := System.pop_ok stepped
  · refine ⟨atPop, rfl, ?_, ?_, .inl ⟨?_, ?_, ?_⟩⟩ <;>
      simp [reqItems, resItems, client, server, System.setChannel, System.setThread, shape]
  · refine ⟨atPop, rfl, ?_, ?_, .inr ⟨?_, ?_, ?_, ?_⟩⟩ <;>
      simp [reqItems, resItems, client, server, System.setThread, empty]

/-- The end of the work on a reply. -/
theorem afterReply_ok {c d : CallReply} {action : LocalAction Fut Token}
    (moved : c.afterReply action = some d) :
    c.clientHand = none ∧ ∃ thread, c.client.run action = some thread ∧
      d = { c with base := c.base.setThread .client thread } := by
  obtain ⟨free, moved⟩ := Option.ite_none_right_eq_some.mp moved
  exact ⟨free, lift_thread moved⟩

theorem popReply_ok {c d : CallReply} (moved : c.popReply = some d) :
    c.client.reader = .pop ∧ d.calls = c.calls ∧ d.reqItems = c.reqItems ∧ d.server = c.server ∧
      d.serverHand = c.serverHand ∧
      ((c.resItems.length = d.resItems.length + 1 ∧ d.client.reader = .busy) ∨
       (d.resItems = c.resItems ∧ d.client.reader = .clear)) := by
  obtain ⟨u, lifted, rfl⟩ := Option.map_eq_some_iff.mp moved
  obtain ⟨base, stepped, rfl⟩ := lift_ok lifted
  obtain ⟨atPop, ⟨item, items, shape, rfl⟩ | ⟨empty, rfl⟩⟩ := System.pop_ok stepped
  · refine ⟨atPop, rfl, ?_, ?_, rfl, .inl ⟨?_, ?_⟩⟩ <;>
      simp [reqItems, resItems, client, server, System.setChannel, System.setThread, shape]
  · refine ⟨atPop, rfl, ?_, ?_, rfl, .inr ⟨?_, ?_⟩⟩ <;>
      simp [reqItems, resItems, client, server, System.setThread]

end CallReply

end RootTask.Ipc
