import RootTask.Net.SyncServer

/-!
# Self-deadlock of the synchronous server

The second loop keeps the guard of `POLL_EPS` for the whole `for` loop. Requests and signals
handled in this loop call `iface_poll`, which snoops every frame, and a SYN that answers a
waiting client pushes that client to `POLL_EPS`. Such a frame makes the thread spin on its
own mutex.

## Main result

`never_relocks`: this is the only way. As long as no frame answers a client during the `for`
loop, no step of any run takes a mutex that the thread holds; a frame that does is always
fatal.
-/
namespace RootTask.Net

open RootTask.Runtime RootTask.Transition RootTask.Outcome

/-- The queues of an entry that only the synchronous server uses: every waiting client has
its socket, and no coroutine waits. -/
def ListenTableEntry.Matched (en : ListenTableEntry) : Prop :=
  en.blockCids = [] ∧ en.synQueue.length = en.blockEp.length

def ListenTable.Matched (table : ListenTable) : Prop :=
  ∀ port en, table port = some en → en.Matched

theorem ListenTable.Matched.update {table : ListenTable} (matched : table.Matched) {port : Nat}
    {en : ListenTableEntry} (new : en.Matched) :
    ListenTable.Matched (Function.update table port (some en)) := by
  intro p en' found
  by_cases here : p = port
  · subst here
    rw [Function.update_self] at found
    cases found
    exact new
  · rw [Function.update_of_ne here] at found
    exact matched p en' found

theorem ListenTable.Matched.entry {table : ListenTable} (matched : table.Matched) (port : Nat) :
    (table.entry port).Matched := by
  unfold ListenTable.entry
  cases found : table port with
  | none => exact ⟨rfl, rfl⟩
  | some en => exact matched port en found

theorem ListenTable.Matched.listenWithEp {table table' : ListenTable} (matched : table.Matched)
    {port : Nat} {handle : SocketHandle} {ep : Endpoint}
    (registered : table.listenWithEp port handle ep = .ok table') : table'.Matched := by
  obtain ⟨-, rfl⟩ := ListenTable.register_ok registered
  obtain ⟨noCids, lengths⟩ := matched.entry port
  apply matched.update
  constructor
  · exact noCids
  · simpa using lengths

namespace NetState

variable {σ F φ T : Type} {stack : Smoltcp σ F} {n n' : NetState σ φ T} {held : List SpinMutex}
  {f : F}

theorem receive_matched (matched : n.listenTable.Matched)
    (received : n.receive stack held f = .ok n') : n'.listenTable.Matched := by
  obtain ⟨m, snooped, rfl⟩ := receive_ok stack received
  cases snooped with
  | ignored _ => exact matched
  | admitted seg en en' n₁ _ isTcp first found admits woke answered =>
    obtain ⟨noCids, lengths⟩ := matched _ en found
    rcases wakeBlocked_ok woke with ⟨-, rfl, rfl⟩ | ⟨cid, rest, e, shape, -⟩
    · rcases answerBlocked_ok answered with ⟨-, rfl⟩ |
        ⟨ep, eps, handler, handlers, waiting, queue, -, rfl⟩
      · exact matched
      · apply matched.update
        refine ⟨noCids, ?_⟩
        -- a client leaves the queue together with its socket
        rw [waiting, queue] at lengths
        simpa using lengths
    -- no coroutine waits in the table of the synchronous server
    · rw [noCids] at shape
      cases shape

/-- A frame that answers a waiter while `POLL_EPS` is held. -/
theorem receive_answered {held : List SpinMutex} (taken : SpinMutex.pollEps ∈ held)
    (matched : n.listenTable.Matched) (entries : ∀ port, SpinMutex.listenEntry port ∉ held)
    (answers : (n.answered stack f).isSome = true) :
    n.receive stack held f = .error (.relock .pollEps) := by
  obtain ⟨ep, answers⟩ := Option.isSome_iff_exists.mp answers
  obtain ⟨en, isAdmitting, isFirst⟩ := Option.bind_eq_some_iff.mp answers
  obtain ⟨seg, isTcp, first, found, admits⟩ := (admitting_some stack).mp isAdmitting
  obtain ⟨noCids, lengths⟩ := matched _ en found
  cases waiting : en.blockEp with
  | nil => simp [waiting] at isFirst
  | cons ep eps =>
    cases queue : en.synQueue with
    -- a waiting client has a socket registered
    | nil => simp [waiting, queue] at lengths
    | cons handler handlers =>
      have spins : lock (.listenEntry seg.dst.port :: held) .pollEps =
          .error (.relock .pollEps) := lock_held (List.mem_cons_of_mem _ taken)
      simp [receive, snoopTcpPacket, isTcp, first, incomingTcpPacket,
        lock_free (entries seg.dst.port), Except.bind, found, admits, wakeBlocked, noCids, orPanic,
        answerBlocked, waiting, queue, spins, Except.map]

end NetState

namespace SyncServer

variable {σ F : Type} {stack : Smoltcp σ F} {slot : Nat} {s t : SyncServer σ}

theorem Handled.matched {ep : Endpoint} {regs : MsgRegs} (handled : Handled stack s ep regs t)
    (matched : s.net.listenTable.Matched) : t.net.listenTable.Matched := by
  cases handled with
  | listen handler sockets table _ _ registered => exact matched.listenWithEp registered
  | recv _ _ replied => cases replied; exact matched
  | block _ => exact matched
  | send size sockets _ _ _ => exact matched
  | dropSend _ _ => exact matched
  | other _ _ => exact matched

theorem Moved.matched {a : SyncAction F} (moved : Moved stack slot s a t)
    (matched : s.net.listenTable.Matched) : t.net.listenTable.Matched := by
  have advances : ∀ {ep heard u}, s.Advanced ep heard u → u.net.listenTable.Matched := by
    intro ep heard u advanced
    cases advanced <;> exact matched
  cases moved with
  | interrupt outside at_ => exact matched
  | serve badge outside at_ => exact matched
  | nothing ep regs _ outside advanced => exact advances advanced
  | interrupted ep regs s₁ outside advanced =>
    have matched₁ := advances advanced
    exact matched₁
  | request ep badge regs s₁ _ outside advanced _ _ handled =>
    exact handled.matched (advances advanced)
  | frame caller f net inside received => exact NetState.receive_matched matched received
  | returned inside busy => exact matched
  | returnedIdle inside at_ => exact matched
  | sent ep size inside => exact matched
  | passEnd listenCnt outside at_ =>
    unfold endListenPass
    split <;> exact matched
  | served tasks t outside at_ replied => cases replied; exact matched
  | store buffer bytes => exact matched

/-- The guards follow the position of the thread, the queues of the table match. -/
structure Orderly (s : SyncServer σ) : Prop where
  locked : s.Locked
  matched : s.net.listenTable.Matched

theorem orderly_init : (init stack slot).Orderly := ⟨locked_init, fun _ _ found => by cases found⟩

theorem step_orderly {a : SyncAction F} (orderly : s.Orderly)
    (moved : s.step stack slot a = some t) : t.Orderly := by
  have moved' := step_moved orderly.locked moved
  exact ⟨moved'.locked orderly.locked, moved'.matched orderly.matched⟩

theorem Reaches.orderly {allowed : SyncServer σ → SyncAction F → Prop}
    (run : Reaches (step stack slot) allowed (init stack slot) s) : s.Orderly :=
  run.invariant Orderly orderly_init fun _ _ _ orderly _ moved => step_orderly orderly moved

theorem act_answersInLoop (orderly : s.Orderly) {a : SyncAction F}
    (answers : s.AnswersInLoop stack a) :
    s.act stack slot a = some (.error (.relock .pollEps)) := by
  cases a with
  | frame f =>
    obtain ⟨polls, inLoop, isSome⟩ := answers
    obtain ⟨caller, inside⟩ := Option.isSome_iff_exists.mp polls
    have held := orderly.locked.inside inside
    rw [inLoop] at held
    have taken : SpinMutex.pollEps ∈ s.held := by simp [held]
    have relocks := NetState.receive_answered taken orderly.matched (by simp [held]) isSome
    simp [act, inside, relocks, Except.map]
  | ntfnPoll badge => cases answers
  | nbRecv badge regs => cases answers
  | run => cases answers
  | store buffer bytes => cases answers

/-- In every run without a frame that answers a client during the `for` loop, the thread never
takes a mutex that it holds; and in every reachable state such a frame makes it spin. -/
theorem never_relocks (stack : Smoltcp σ F) (slot : Nat) :
    (∀ s, Reaches (step stack slot) (fun s a => ¬ s.AnswersInLoop stack a) (init stack slot) s →
      ∀ a, ¬ s.AnswersInLoop stack a → ∀ m, s.act stack slot a ≠ some (.error (.relock m))) ∧
    ∀ s, Reachable (step stack slot) (init stack slot) s → ∀ a, s.AnswersInLoop stack a →
      s.act stack slot a = some (.error (.relock .pollEps)) := by
  constructor
  · intro s run a quiet m acts
    have orderly := Reaches.orderly run
    -- of the faults that a step can end in, only this one is no panic
    rcases (act_meets orderly.locked acts).failure rfl with panics | ⟨-, answers⟩
    · exact panics
    · exact quiet answers
  · intro s run a answers
    exact act_answersInLoop (Reaches.orderly run) answers

instance (s : SyncServer σ) : DecidablePred (AnswersInLoop stack s)
  | .frame f => inferInstanceAs (Decidable (s.polling.isSome ∧ _ ∧ (s.net.answered stack f).isSome))
  | .ntfnPoll _ | .nbRecv _ _ | .run | .store _ _ => .isFalse nofun

/-- A peer connects while the server is idle, and its data arrive during the `for` loop. -/
theorem never_relocks_one_peer :
    ∃ s, Reaches (step mini 0) (fun s a => ¬ s.AnswersInLoop mini a) (init mini 0) s ∧
      SpinMutex.pollEps ∈ s.held ∧ s.polling = some .netInterruptHandler ∧
      ∀ m, s.act mini 0 (.frame (.data [33])) ≠ some (.error (.relock m)) := by
  obtain ⟨s, run, view⟩ := reaches_of_view (step mini 0) (fun s a => ¬ s.AnswersInLoop mini a)
    (init mini 0) (connectRun ++ [signal 1])
    (fun s => (s.held, s.polling, decide (s.AnswersInLoop mini (.frame (.data [33])))))
    (v := ([.socketSet, .interface, .pollEps], some .netInterruptHandler, false))
    (by decide +kernel)
  simp only [Prod.mk.injEq, decide_eq_false_iff_not] at view
  obtain ⟨held, polling, quiet⟩ := view
  exact ⟨s, run, by simp [held], polling, (never_relocks mini 0).1 s run _ quiet⟩

/-- A second peer's SYN is received in an `iface_poll` of the `for` loop. -/
theorem second_syn_relocks :
    ∃ s, Reachable (step mini 0) (init mini 0) s ∧
      s.act mini 0 (.frame .syn) = some (.error (.relock .pollEps)) := by
  obtain ⟨s, run, view⟩ := reachable_of_view (step mini 0) (init mini 0)
    (connectRun ++ [signal 1])
    (fun s => (s.act mini 0 (.frame .syn)).map fun r => match r with
      | .ok _ => none
      | .error e => some e)
    (v := some (some (.relock .pollEps))) (by decide +kernel)
  refine ⟨s, run, ?_⟩
  obtain ⟨r, acts, failed⟩ := Option.map_eq_some_iff.mp view
  cases r with
  | ok t => cases failed
  | error e =>
    cases failed
    exact acts

end SyncServer

end RootTask.Net
