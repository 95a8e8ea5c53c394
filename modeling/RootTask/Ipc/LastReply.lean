import RootTask.Ipc.Tally

/-!
# The end of the receive coroutine

`recv_reply_coroutine` may return before the callers do. When it returns with nothing in flight,
each caller that still waits has been woken and finds its reply, and the invariant of the call paths
goes on to hold of what is left (`Drained`). Every call that was made is still waiting for its reply
or is among those that returned (`Covered`).
-/
namespace RootTask.Ipc

open RootTask.Runtime RootTask.Transition

/-! ### After the last reply -/

/-- Of the table the ledger reads the callers and the receive coroutine. -/
theorem Ledger.retask {b : Book} {caller : Nat → Caller} {r : CoroutineId} {e : Executor Fut}
    (ledger : Ledger b caller (some r)) (entries : e.entries = b.executor.entries)
    (tasks : ∀ i, i ≠ r.val → e.tasks i = b.executor.tasks i)
    (own : ∃ prio, e.tasks r.val = some ⟨r, prio, .receiver⟩) :
    Ledger { b with executor := e } caller (some r) := by
  have agree : ∀ cid ≠ r, b.Agree { b with executor := e } cid := fun cid other =>
    ⟨tasks _ fun same => other (CoroutineId.ext same), congrFun entries cid, rfl,
      fun _ _ => Iff.rfl⟩
  have different : ∀ k, (caller k).pc.live = true → (caller k).cid ≠ r :=
    fun k live => (ledger.receiver_ne live rfl).symm
  refine ⟨fun k live => ?_, fun cid isReceiver => ?_, fun k => ?_, fun cid foreign => ?_,
    ledger.single⟩
  · obtain ⟨bound, prio, task⟩ := ledger.table k live
    exact ⟨bound, prio, (agree _ (different k live)).tasks.trans task⟩
  · obtain rfl := Option.some.inj isReceiver
    exact own
  · cases live : (caller k).pc.live with
    | true => exact (agree _ (different k live)).phase (ledger.phases k)
    | false => exact Book.phase_of_dead live
  · obtain ⟨quiet, queued⟩ := ledger.strays cid foreign
    exact ⟨quiet, queued.imp_left (congrFun entries cid).trans⟩

namespace CallReply

/-- The executor with the receive coroutine still in its table. Where that has ended, some of its
entries may be left in a queue; the ledger allows them for a coroutine in the table only. -/
def withReceiver (e : Executor Fut) (cid : CoroutineId) : Executor Fut :=
  { e with tasks := Function.update e.tasks cid.val (some ⟨cid, 0, .receiver⟩) }

theorem withReceiver_tasks {e : Executor Fut} {cid other : CoroutineId} (different : other ≠ cid) :
    (withReceiver e cid).tasks other.val = e.tasks other.val :=
  Function.update_of_ne (fun same => different (CoroutineId.ext same)) _ _

theorem withReceiver_popped {e e' : Executor Fut} {p : Nat} {cid : CoroutineId} (r : CoroutineId)
    (popped : e.Popped p cid e') : (withReceiver e r).Popped p cid (withReceiver e' r) where
  tasks := by rw [withReceiver, withReceiver, popped.tasks]
  coroutineNum := popped.coroutineNum
  tasksBak := popped.tasksBak
  cid_lt := popped.cid_lt
  front := popped.front
  others := popped.others
  delayWakeCids := popped.delayWakeCids

theorem removeTask_withReceiver {r r' : RuntimeState Fut} {cid own : CoroutineId}
    (removed : r.removeTask cid = .ok r') (other : cid ≠ own) :
    RuntimeState.removeTask { r with executor := withReceiver r.executor own } cid =
      .ok { r' with executor := withReceiver r'.executor own } := by
  obtain ⟨bound, counted, released, executor⟩ := RuntimeState.removeTask_ok removed
  have different : cid.val ≠ own.val := fun same => other (CoroutineId.ext same)
  simp only [RuntimeState.removeTask, if_pos bound, withReceiver, if_neg counted.ne', released,
    Except.bind, executor, Function.update_comm different]

/-- The receive coroutine has ended and nothing is in flight. -/
structure Drained (c : CallReply) : Prop where
  ledger : Ledger ⟨withReceiver c.client.lib.executor c.client.receiver,
    c.client.lib.immediateValue, []⟩ c.caller (some c.client.receiver)
  calls : CallsOk c.caller c.calls c.returned
  control : ∀ k, (c.caller k).pc.active = true → c.client.polling = some (c.caller k).cid ∧
    c.client.lib.executor.current = some (c.caller k).cid
  hand : c.clientHand = none
  gone : c.client.lib.executor.tasks c.client.receiver.val = none

namespace Drained

variable {c d : CallReply}

theorem of_client {thread : Thread Fut Token} (isThread : d.client = thread)
    (ledger : Ledger ⟨withReceiver thread.lib.executor thread.receiver,
      thread.lib.immediateValue, []⟩ d.caller (some thread.receiver))
    (calls : CallsOk d.caller d.calls d.returned)
    (control : ∀ k, (d.caller k).pc.active = true → thread.polling = some (d.caller k).cid ∧
      thread.lib.executor.current = some (d.caller k).cid)
    (hand : d.clientHand = none)
    (gone : thread.lib.executor.tasks thread.receiver.val = none) : Drained d := by
  subst isThread
  exact ⟨ledger, calls, control, hand, gone⟩

theorem enter (inv : c.Invariant) (empty : c.flight = []) (moved : c.step .finishReply = some d) :
    Drained d := by
  obtain ⟨free, thread, ran, rfl⟩ := afterReply_ok moved
  obtain ⟨busy, ran⟩ := Option.ite_none_right_eq_some.mp ran
  obtain ⟨r, removed, rfl⟩ := Option.map_eq_some_iff.mp ran
  obtain ⟨-, -, -, executor⟩ := RuntimeState.removeTask_ok ((toOption_eq_some _ _).mp removed)
  have ledger := inv.ledger
  have alive : c.receiver = some c.client.receiver := by
    simp [receiver, liveReceiver, busy, Reader.alive]
  rw [alive] at ledger
  simp only [book, empty] at ledger
  have inactive := inv.inactive (by simp [busy, Reader.running])
  refine of_client (System.setThread_thread _ _ _) ?_ inv.calls (fun k active => ?_) free ?_
  · refine ledger.retask ?_ (fun i other => ?_) ?_
    · change (withReceiver r.executor c.client.receiver).entries = c.client.lib.executor.entries
      rw [executor]
      rfl
    · change (withReceiver r.executor c.client.receiver).tasks i = c.client.lib.executor.tasks i
      rw [executor]
      simp only [withReceiver, Function.update_of_ne other]
    · exact ⟨0, by simp [withReceiver]⟩
  · simp [inactive k] at active
  · change r.executor.tasks c.client.receiver.val = none
    rw [executor]
    simp

/-- A live caller is in the table. -/
theorem task {k : Nat} (drained : Drained c) (live : (c.caller k).pc.live = true) :
    (c.caller k).cid ≠ c.client.receiver ∧
      ∃ prio, c.client.lib.executor.tasks (c.caller k).cid.val =
        some ⟨(c.caller k).cid, prio, .caller k⟩ := by
  have other := (drained.ledger.receiver_ne live rfl).symm
  obtain ⟨-, prio, found⟩ := drained.ledger.table k live
  exact ⟨other, prio, (withReceiver_tasks other).symm.trans found⟩

/-- A step that the callers see nothing of. -/
theorem of_same {thread : Thread Fut Token} (drained : Drained c) (isThread : d.client = thread)
    (same : SameClient c.client thread) (caller : d.caller = c.caller) (calls : d.calls = c.calls)
    (returned : d.returned = c.returned) (hand : d.clientHand = c.clientHand) : Drained d := by
  refine of_client isThread ?_ ?_ (fun k active => ?_) (hand.trans drained.hand) ?_
  · rw [caller, same.receiver, same.mail]
    refine drained.ledger.executor ?_ fun cid _ => congrFun same.entries cid
    simp only [withReceiver, same.tasks]
  · rw [caller, calls, returned]
    exact drained.calls
  · rw [caller] at active ⊢
    rw [same.polling, same.current]
    exact drained.control k active
  · rw [same.tasks, same.receiver]
    exact drained.gone

/-- A step of the server thread. -/
theorem of_server (drained : Drained c) (client : d.client = c.client)
    (caller : d.caller = c.caller) (calls : d.calls = c.calls)
    (returned : d.returned = c.returned) (hand : d.clientHand = c.clientHand) : Drained d :=
  drained.of_same client ⟨rfl, rfl, rfl, rfl, rfl, rfl⟩ caller calls returned hand

theorem resume {k : Nat} (drained : Drained c) (moved : c.resume k = some d) : Drained d := by
  obtain ⟨pc, moved⟩ := Option.ite_none_right_eq_some.mp moved
  obtain ⟨u, lifted, rfl⟩ := Option.map_eq_some_iff.mp moved
  obtain ⟨thread, ran, rfl⟩ := lift_thread lifted
  have active : (c.caller k).pc.active = true := by simp [pc, CallerPc.active]
  have current := (drained.control k active).2
  have isThread : thread = { c.client with lib := { c.client.lib with
      immediateValue := Function.update c.client.lib.immediateValue (c.caller k).cid.val none } } := by
    simp only [Thread.run, Thread.take] at ran
    split at ran
    · cases ran
    · obtain ⟨⟨value, lib⟩, returned, rfl⟩ := Option.map_eq_some_iff.mp ran
      obtain ⟨cid, isCurrent, -, rfl⟩ :=
        AsyncState.takeValue_ok ((toOption_eq_some _ _).mp returned)
      obtain rfl := Option.some.inj (current.symm.trans isCurrent)
      rfl
  subst isThread
  obtain ⟨stored, ledger⟩ := drained.ledger.resume pc
  have stored : c.client.lib.immediateValue (c.caller k).cid.val = some (c.caller k).request :=
    stored
  refine of_client (System.setThread_thread _ _ _) ledger ?_ (fun j isActive => ?_) drained.hand
    drained.gone
  · simp only [stored]
    exact drained.calls.resume (by simp [pc, CallerPc.pending])
  · by_cases here : j = k
    · subst here
      simpa using drained.control j active
    · simp only [Function.update_of_ne here] at isActive ⊢
      exact drained.control j isActive

theorem complete {k : Nat} (drained : Drained c) (moved : c.complete k = some d) : Drained d := by
  obtain ⟨pc, moved⟩ := Option.ite_none_right_eq_some.mp moved
  obtain ⟨u, lifted, rfl⟩ := Option.map_eq_some_iff.mp moved
  obtain ⟨thread, ran, rfl⟩ := lift_thread lifted
  have active : (c.caller k).pc.active = true := by simp [pc, CallerPc.active]
  have live := CallerPc.live_of_active active
  have polling := (drained.control k active).1
  obtain ⟨r, removed, rfl⟩ : ∃ r, c.client.lib.runtime.removeTask (c.caller k).cid = .ok r ∧
      thread = { c.client with lib := { c.client.lib with runtime := r }, polling := none } := by
    simp only [Thread.run, Thread.ready, polling, Option.bind_some] at ran
    split at ran
    · cases ran
    · obtain ⟨r, returned, rfl⟩ := Option.map_eq_some_iff.mp ran
      exact ⟨r, (toOption_eq_some _ _).mp returned, rfl⟩
  obtain ⟨other, -⟩ := drained.task live
  refine of_client (System.setThread_thread _ _ _)
    (drained.ledger.complete pc (removeTask_withReceiver removed other))
    (drained.calls.keep (by rintro ⟨⟩)) (fun j isActive => ?_) drained.hand ?_
  -- the completed caller was the polled one
  · by_cases here : j = k
    · simp [here, CallerPc.active] at isActive
    · simp only [Function.update_of_ne here] at isActive
      have both := (drained.control j isActive).1.symm.trans polling
      have distinct := drained.ledger.cid_ne (CallerPc.live_of_active isActive) live here
      exact absurd (Option.some.inj both) distinct
  · have different : c.client.receiver.val ≠ (c.caller k).cid.val :=
      fun same => other (CoroutineId.ext same).symm
    change r.executor.tasks c.client.receiver.val = none
    rw [RuntimeState.removeTask_tasks removed, Function.update_of_ne different]
    exact drained.gone

/-- No caller is being polled when the thread fetches the next coroutine. -/
theorem idle (drained : Drained c) (done : ∀ k ∈ polled c.client, (c.caller k).pc.active = false)
    (k : Nat) : (c.caller k).pc.active = false := by
  by_contra isActive
  have active : (c.caller k).pc.active = true := by simpa using isActive
  obtain ⟨-, prio, task⟩ := drained.task (CallerPc.live_of_active active)
  exact isActive (done k (by simp [polled, (drained.control k active).1, task]))

/-- A late interrupt marks the receive coroutine, which is not woken any more. -/
theorem flush {e : Executor Fut} (ok : c.base.ThreadsOk) (drained : Drained c)
    (flushed : c.client.lib.executor.actualWake = .ok e) :
    Ledger ⟨withReceiver e c.client.receiver, c.client.lib.immediateValue, []⟩ c.caller
      (some c.client.receiver) := by
  refine drained.ledger.executor ?_ fun cid other => ?_
  · simp only [withReceiver, (Executor.actualWake_same flushed).1.tasks]
  · refine (Executor.actualWake_grown flushed).entries fun set => other ?_
    rw [CoroutineId.ext ((ok .client).only _ set).2]

/-- An entry that is left of the receive coroutine is dropped; the others are live. -/
theorem fetch_none {f e : Executor Fut} {r : CoroutineId} {mail : Nat → Option Token}
    {caller : Nat → Caller} (ledger : Ledger ⟨withReceiver f r, mail, []⟩ caller (some r))
    (result : f.FetchResult none e) :
    Ledger ⟨withReceiver e r, mail, []⟩ caller (some r) := by
  cases result with
  | noBit _ => exact ledger
  | noEntry _ _ _ _ _ => exact ledger
  | stale p cid e bound _ _ popped dead _ _ =>
    have ghost := withReceiver_popped r popped
    by_cases own : cid = r
    · subst own
      refine ledger.executor ghost.tasks fun other different => ?_
      have counted := ghost.entries bound other
      rw [if_neg (fun same => different (congrArg some same).symm)] at counted
      exact counted.symm
    · obtain ⟨k, prio, -, task, -⟩ := ledger.pop_caller ghost bound
        fun same => own (Option.some.inj same).symm
      rw [withReceiver_tasks own, dead] at task
      cases task

theorem fetch (ok : c.base.ThreadsOk) (drained : Drained c)
    (finished : c.client.reader = .finished) (moved : c.fetch = some d) : Drained d := by
  obtain ⟨done, moved⟩ := Option.ite_none_right_eq_some.mp moved
  have inactive := drained.idle done
  obtain ⟨u, lifted, rfl⟩ := Option.map_eq_some_iff.mp moved
  obtain ⟨thread, ran, rfl⟩ := lift_thread lifted
  obtain ⟨-, task, e, fetched, outcome⟩ := Thread.fetch_cases ran
  obtain ⟨-, rfl⟩ := outcome.resolve_left fun own => by simp [finished, Reader.alive] at own
  obtain ⟨f, flushed, result⟩ := Executor.fetch_ok fetched
  have ledger := drained.flush ok flushed
  have gone : e.tasks c.client.receiver.val = none := by
    rw [(Executor.fetch_same fetched).1.tasks]
    exact drained.gone
  simp only [client, System.setThread_thread]
  cases task with
  | none =>
    refine of_client (System.setThread_thread _ _ _) (fetch_none ledger result) drained.calls
      (fun k active => ?_) drained.hand gone
    simp [polled, inactive k] at active
  | some task =>
    obtain ⟨current, p, bound, popped, found⟩ :=
      fetch_some (ok .client).table fetched result
    have live : e.tasks task.cid.val = some task := popped.tasks ▸ found
    have other : task.cid ≠ c.client.receiver := by
      intro same
      rw [same, gone] at live
      cases live
    obtain ⟨k, prio, owned, isTask, pc, updated⟩ := ledger.pop_caller
      (withReceiver_popped c.client.receiver popped) bound fun same => other (Option.some.inj same).symm
    have future : task.future = .caller k := by
      rw [withReceiver_tasks other] at isTask
      rw [Option.some.inj (found.symm.trans isTask)]
    have isPolled : polled { c.client.setExecutor e with polling := some task.cid } = some k :=
      polled_caller rfl live future
    simp only [Option.map_some, isPolled]
    refine of_client (System.setThread_thread _ _ _) updated (drained.calls.keep fun pending => ?_)
      (fun j active => ?_) drained.hand gone
    · rcases pc with fresh | waiting
      · simp [Caller.poll, fresh, CallerPc.pending] at pending
      · exact ⟨by simp [waiting, CallerPc.pending], rfl⟩
    · by_cases here : j = k
      · subst here
        simp only [Function.update_self]
        have cid : (c.caller j).poll.cid = task.cid := owned
        rw [cid]
        exact ⟨rfl, current⟩
      · simp [Function.update_of_ne here, inactive j] at active

/-- Nothing but the callers' own steps is left for the client thread. -/
theorem step {act : Act} (ok : c.base.ThreadsOk) (drained : Drained c)
    (finished : c.client.reader = .finished) (noCall : ∀ k item, act ≠ .call k item)
    (noSpawn : ∀ prio, act ≠ .spawn prio) (moved : c.step act = some d) : Drained d := by
  cases act <;> simp only [CallReply.step] at moved
  case access side access =>
    obtain ⟨base, stepped, rfl⟩ := lift_ok moved
    cases side with
    | client => exact drained.of_same rfl (access_thread ok stepped).1 rfl rfl rfl rfl
    | server => exact drained.of_server (System.step_thread ok stepped).2 rfl rfl rfl rfl
  case fetch => exact drained.fetch ok finished moved
  case resume k => exact drained.resume moved
  case complete k => exact drained.complete moved
  case call k item => exact absurd rfl (noCall k item)
  case spawn prio => exact absurd rfl (noSpawn prio)
  case suspend k =>
    -- a caller in the middle of a call would have its token in flight
    obtain ⟨pc, -⟩ := Option.ite_none_right_eq_some.mp moved
    have phase := drained.ledger.phases k
    simp [Book.Phase, pc.1, Book.InFlight] at phase
  case startReply prio =>
    obtain ⟨thread, ran, rfl⟩ := lift_thread moved
    cases (Thread.run_moves ran).1.symm.trans finished
  case popReply => cases (popReply_ok moved).1.symm.trans finished
  case deliver =>
    obtain ⟨token, hand, -⟩ := Option.bind_eq_some_iff.mp moved
    cases hand.symm.trans drained.hand
  case nextReply | finishReply | yieldReply =>
    obtain ⟨-, thread, ran, rfl⟩ := afterReply_ok moved
    cases (Thread.run_moves ran).1.symm.trans finished
  case server action =>
    obtain ⟨-, moved⟩ := Option.ite_none_right_eq_some.mp moved
    obtain ⟨thread, -, rfl⟩ := lift_thread moved
    exact drained.of_server (System.setThread_other _ .server _) rfl rfl rfl rfl
  case popRequest =>
    obtain ⟨u, lifted, rfl⟩ := Option.map_eq_some_iff.mp moved
    obtain ⟨base, stepped, rfl⟩ := lift_ok lifted
    exact drained.of_server (System.step_thread ok stepped).2 rfl rfl rfl rfl
  case reply =>
    obtain ⟨token, -, moved⟩ := Option.bind_eq_some_iff.mp moved
    obtain ⟨u, lifted, rfl⟩ := Option.map_eq_some_iff.mp moved
    obtain ⟨base, stepped, rfl⟩ := lift_ok lifted
    exact drained.of_server (System.step_thread ok stepped).2 rfl rfl rfl rfl

end Drained

/-! ### Every call -/

/-- Every call that was made has returned or is pending. -/
def Covered (caller : Nat → Caller) (calls : Nat) (returned : List Return) : Prop :=
  ∀ n < calls, (∃ r ∈ returned, r.request.call = n) ∨
    ∃ k, (caller k).pc.pending = true ∧ (caller k).request.call = n

namespace Covered

variable {caller : Nat → Caller} {calls k : Nat} {returned : List Return}

theorem keep {v : Caller} (covered : Covered caller calls returned)
    (kept : (caller k).pc.pending = true → v.pc.pending = true ∧ v.request = (caller k).request) :
    Covered (Function.update caller k v) calls returned := by
  intro n bound
  rcases covered n bound with done | ⟨j, pending, number⟩
  · exact .inl done
  · refine .inr ⟨j, ?_⟩
    by_cases here : j = k
    · subst here
      obtain ⟨still, same⟩ := kept pending
      rw [Function.update_self, same]
      exact ⟨still, number⟩
    · rw [Function.update_of_ne here]
      exact ⟨pending, number⟩

theorem call {cid : CoroutineId} {token : Token} (covered : Covered caller calls returned)
    (pc : (caller k).pc = .running) (number : token.call = calls) :
    Covered (Function.update caller k ⟨.calling, cid, token⟩) (calls + 1) returned := by
  intro n bound
  by_cases isNew : n = calls
  · exact .inr ⟨k, by simp [CallerPc.pending, number, isNew]⟩
  · have kept : Covered (Function.update caller k ⟨.calling, cid, token⟩) calls returned :=
      covered.keep fun pending => by simp [pc, CallerPc.pending] at pending
    exact kept n (by omega)

theorem resume {reply : Option Token} (covered : Covered caller calls returned) :
    Covered (Function.update caller k { caller k with pc := .running }) calls
      (⟨(caller k).request, reply⟩ :: returned) := by
  intro n bound
  rcases covered n bound with ⟨r, member, number⟩ | ⟨j, pending, number⟩
  · exact .inl ⟨r, List.mem_cons_of_mem _ member, number⟩
  · by_cases here : j = k
    · subst here
      exact .inl ⟨_, List.mem_cons_self, number⟩
    · refine .inr ⟨j, ?_⟩
      rw [Function.update_of_ne here]
      exact ⟨pending, number⟩

end Covered

theorem step_covered {c d : CallReply} {act : Act} (covered : Covered c.caller c.calls c.returned)
    (unborn : ∀ prio, act = .spawn prio → (c.caller c.spawned).pc = .unborn)
    (moved : c.step act = some d) : Covered d.caller d.calls d.returned := by
  cases act <;> simp only [step] at moved
  case access side access =>
    obtain ⟨base, -, rfl⟩ := lift_ok moved
    exact covered
  case startReply prio =>
    obtain ⟨base, -, rfl⟩ := lift_ok moved
    exact covered
  case spawn prio =>
    simp only [CallReply.spawn, Option.bind_eq_some_iff] at moved
    obtain ⟨r, -, moved⟩ := moved
    obtain ⟨u, lifted, rfl⟩ := Option.map_eq_some_iff.mp moved
    obtain ⟨base, -, rfl⟩ := lift_ok lifted
    refine covered.keep fun pending => ?_
    simp [unborn prio rfl, CallerPc.pending] at pending
  case fetch =>
    obtain ⟨-, moved⟩ := Option.ite_none_right_eq_some.mp moved
    obtain ⟨u, lifted, rfl⟩ := Option.map_eq_some_iff.mp moved
    obtain ⟨base, -, rfl⟩ := lift_ok lifted
    dsimp only
    split
    next k _ =>
      refine covered.keep fun pending => ⟨?_, rfl⟩
      cases pc : (c.caller k).pc <;> simp [pc, CallerPc.pending, Caller.poll] at pending ⊢
    · exact covered
  case resume k =>
    obtain ⟨-, moved⟩ := Option.ite_none_right_eq_some.mp moved
    obtain ⟨u, lifted, rfl⟩ := Option.map_eq_some_iff.mp moved
    obtain ⟨base, -, rfl⟩ := lift_ok lifted
    exact covered.resume
  case call k item =>
    obtain ⟨pc, moved⟩ := Option.ite_none_right_eq_some.mp moved
    obtain ⟨u, lifted, rfl⟩ := Option.map_eq_some_iff.mp moved
    obtain ⟨base, -, rfl⟩ := lift_ok lifted
    exact covered.call pc rfl
  case suspend k =>
    obtain ⟨-, moved⟩ := Option.ite_none_right_eq_some.mp moved
    cases moved
    exact covered.keep fun _ => ⟨rfl, rfl⟩
  case complete k =>
    obtain ⟨pc, moved⟩ := Option.ite_none_right_eq_some.mp moved
    obtain ⟨u, lifted, rfl⟩ := Option.map_eq_some_iff.mp moved
    obtain ⟨base, -, rfl⟩ := lift_ok lifted
    refine covered.keep fun pending => ?_
    simp [pc, CallerPc.pending] at pending
  case popReply | popRequest =>
    obtain ⟨u, lifted, rfl⟩ := Option.map_eq_some_iff.mp moved
    obtain ⟨base, -, rfl⟩ := lift_ok lifted
    exact covered
  case deliver | reply =>
    obtain ⟨token, -, moved⟩ := Option.bind_eq_some_iff.mp moved
    obtain ⟨u, lifted, rfl⟩ := Option.map_eq_some_iff.mp moved
    obtain ⟨base, -, rfl⟩ := lift_ok lifted
    exact covered
  case nextReply | finishReply | yieldReply | server =>
    obtain ⟨-, moved⟩ := Option.ite_none_right_eq_some.mp moved
    obtain ⟨base, -, rfl⟩ := lift_ok moved
    exact covered

/-! ### The start and the end of the receive coroutine -/

theorem reader_of_lift {c d : CallReply} {action : LocalAction Fut Token}
    {f : CallReply → CallReply} (moved : (c.lift .client (.thread action)).map f = some d)
    (stays : ∀ r r', action.moves r r' → r' = r)
    (keeps : ∀ u, (f u).base = u.base ∧ (f u).spawned = u.spawned) :
    d.spawned = c.spawned ∧ d.client.reader = c.client.reader := by
  obtain ⟨u, lifted, rfl⟩ := Option.map_eq_some_iff.mp moved
  obtain ⟨thread, ran, rfl⟩ := lift_thread lifted
  obtain ⟨base, spawned⟩ := keeps { c with base := c.base.setThread .client thread }
  refine ⟨spawned, ?_⟩
  rw [client, base, System.setThread_thread]
  exact stays _ _ (Thread.run_moves ran)

/-- Only a fetch takes the receive coroutine of the client from its start, once it is spawned. -/
theorem step_reader {c d : CallReply} {act : Act} (ok : c.base.ThreadsOk)
    (noStart : ∀ prio, act ≠ .startReply prio) (noSpawn : ∀ prio, act ≠ .spawn prio)
    (noFetch : act ≠ .fetch) (moved : c.step act = some d) :
    d.spawned = c.spawned ∧
      (d.client.reader = c.client.reader ∨ c.client.reader.running = true) := by
  cases act <;> simp only [step] at moved
  case access side access =>
    obtain ⟨base, stepped, rfl⟩ := lift_ok moved
    cases side with
    | client =>
      refine ⟨rfl, (access_thread ok stepped).2.imp_right fun change => ?_⟩
      simp [client, change.1, Reader.running]
    | server => exact ⟨rfl, .inl (congrArg Thread.reader (System.step_thread ok stepped).2)⟩
  case startReply prio => exact absurd rfl (noStart prio)
  case spawn prio => exact absurd rfl (noSpawn prio)
  case fetch => exact absurd rfl noFetch
  case resume k | complete k =>
    obtain ⟨-, moved⟩ := Option.ite_none_right_eq_some.mp moved
    exact (reader_of_lift moved (fun _ _ moves => moves) fun _ => ⟨rfl, rfl⟩).imp_right .inl
  case deliver =>
    obtain ⟨token, -, moved⟩ := Option.bind_eq_some_iff.mp moved
    exact (reader_of_lift moved (fun _ _ moves => moves) fun _ => ⟨rfl, rfl⟩).imp_right .inl
  case call k item =>
    refine ⟨?_, .inl (call_ok moved).2.2.2.2.2⟩
    obtain ⟨-, moved⟩ := Option.ite_none_right_eq_some.mp moved
    obtain ⟨u, lifted, rfl⟩ := Option.map_eq_some_iff.mp moved
    obtain ⟨base, -, rfl⟩ := lift_ok lifted
    rfl
  case suspend k =>
    obtain ⟨-, moved⟩ := Option.ite_none_right_eq_some.mp moved
    cases moved
    exact ⟨rfl, .inl rfl⟩
  case popReply =>
    have atPop := (popReply_ok moved).1
    obtain ⟨u, lifted, rfl⟩ := Option.map_eq_some_iff.mp moved
    obtain ⟨base, -, rfl⟩ := lift_ok lifted
    exact ⟨rfl, .inr (by rw [atPop]; rfl)⟩
  case nextReply | finishReply | yieldReply =>
    obtain ⟨-, thread, ran, rfl⟩ := afterReply_ok moved
    exact ⟨rfl, .inr (by rw [(Thread.run_moves ran).1]; rfl)⟩
  case server action =>
    obtain ⟨-, moved⟩ := Option.ite_none_right_eq_some.mp moved
    obtain ⟨thread, -, rfl⟩ := lift_thread moved
    exact ⟨rfl, .inl (congrArg Thread.reader (System.setThread_other _ .server _))⟩
  case popRequest =>
    obtain ⟨u, lifted, rfl⟩ := Option.map_eq_some_iff.mp moved
    obtain ⟨base, stepped, rfl⟩ := lift_ok lifted
    exact ⟨rfl, .inl (congrArg Thread.reader (System.step_thread ok stepped).2)⟩
  case reply =>
    obtain ⟨token, -, moved⟩ := Option.bind_eq_some_iff.mp moved
    obtain ⟨u, lifted, rfl⟩ := Option.map_eq_some_iff.mp moved
    obtain ⟨base, stepped, rfl⟩ := lift_ok lifted
    exact ⟨rfl, .inl (congrArg Thread.reader (System.step_thread ok stepped).2)⟩

/-- The only way to the end. -/
theorem eq_finishReply {c d : CallReply} {act : Act} (ok : c.base.ThreadsOk)
    (before : c.client.reader ≠ .finished) (after : d.client.reader = .finished)
    (moved : c.step act = some d) : act = .finishReply := by
  by_cases unseen : act.unseen = true
  · exact absurd (((step_sameTally ok unseen moved).finished .client).mp after) before
  · cases act <;> simp only [Act.unseen, not_true_eq_false] at unseen <;>
      simp only [step] at moved
    case call k item => exact absurd ((call_ok moved).2.2.2.2.2.symm.trans after) before
    case popReply =>
      obtain ⟨-, -, -, -, -, ⟨-, reader⟩ | ⟨-, reader⟩⟩ := popReply_ok moved
      · cases reader.symm.trans after
      · cases reader.symm.trans after
    case nextReply =>
      obtain ⟨-, thread, ran, rfl⟩ := afterReply_ok moved
      rw [client, System.setThread_thread] at after
      cases (Thread.run_moves ran).2.symm.trans after
    case finishReply => rfl
    case server action =>
      obtain ⟨-, moved⟩ := Option.ite_none_right_eq_some.mp moved
      obtain ⟨thread, -, rfl⟩ := lift_thread moved
      have same : (c.base.setThread .server thread).thread .client = c.client :=
        System.setThread_other _ .server _
      rw [client, same] at after
      exact absurd after before
    case popRequest =>
      rw [(popRequest_ok moved).2.2.2.1] at after
      exact absurd after before
    case reply =>
      rw [(reply_ok moved).2.2.2.2.2.2] at after
      exact absurd after before

end CallReply

end RootTask.Ipc
