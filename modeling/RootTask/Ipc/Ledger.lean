import RootTask.Runtime.NewBuffer

/-!
# Outstanding calls of a client thread

The book-keeping behind `seL4_Call_with_item`: which coroutine of the client waits for which
request, and where that request or its reply is. A token is an item together with the number
of the call that sent it, so that two equal items of different calls are told apart. A
coroutine has its token in flight (in one of the queues or in the hands of a receive
coroutine) or in its mailbox, where a ready-queue entry goes with it, and never both.
-/
namespace RootTask.Ipc

open RootTask.Runtime

/-- The coroutines of the client thread: its receive coroutine and numbered callers. -/
inductive Fut where
  | receiver
  | caller (k : Nat)
  deriving DecidableEq, Repr

/-- An item and the number of the call it belongs to; the server copies both. -/
structure Token where
  item : IPCItem
  call : Nat
  deriving DecidableEq, Repr, Inhabited

abbrev Token.cid (token : Token) : CoroutineId := token.item.cid

inductive CallerPc where
  | unborn
  /-- Spawned and not polled yet. -/
  | fresh
  /-- Polled, between two calls. -/
  | running
  /-- Polled, its request pushed. -/
  | calling
  /-- In the `yield_now` of its call. -/
  | waiting
  /-- Polled again, before `yield_now` takes the value. -/
  | resuming
  | finished
  deriving DecidableEq, Repr

namespace CallerPc

def live : CallerPc → Bool
  | .unborn | .finished => false
  | .fresh | .running | .calling | .waiting | .resuming => true

/-- The coroutine is being polled. -/
def active : CallerPc → Bool
  | .running | .calling | .resuming => true
  | .unborn | .fresh | .waiting | .finished => false

theorem live_of_active {pc : CallerPc} (isActive : pc.active = true) : pc.live = true := by
  cases pc <;> simp_all [active, live]

/-- A call was made and has not returned. -/
def pending : CallerPc → Bool
  | .calling | .waiting | .resuming => true
  | .unborn | .fresh | .running | .finished => false

end CallerPc

structure Caller where
  pc : CallerPc
  cid : CoroutineId
  request : Token

/-- What a poll makes of a caller. -/
def Caller.poll (v : Caller) : Caller :=
  { v with pc := match v.pc with
      | .fresh => .running
      | .waiting => .resuming
      | pc => pc }

/-- What the ledger reads: the executor, the mailbox and the tokens in flight. -/
structure Book where
  executor : Executor Fut
  mail : Nat → Option Token
  flight : List Token

namespace Book

def Absent (b : Book) (cid : CoroutineId) : Prop := ∀ token ∈ b.flight, token.cid ≠ cid

/-- Nothing is on its way to this id. -/
def Quiet (b : Book) (cid : CoroutineId) : Prop := b.Absent cid ∧ b.mail cid.val = none

def InFlight (b : Book) (v : Caller) : Prop :=
  v.request ∈ b.flight ∧ v.request.cid = v.cid ∧ b.mail v.cid.val = none

def Delivered (b : Book) (v : Caller) : Prop :=
  b.Absent v.cid ∧ v.request.cid = v.cid ∧ b.mail v.cid.val = some v.request

/-- Where the token of a caller is, and whether the caller is queued. -/
def Phase (b : Book) (v : Caller) : Prop :=
  match v.pc with
  | .unborn | .finished => True
  | .fresh => b.Quiet v.cid ∧ b.executor.entries v.cid = 1
  | .running => b.Quiet v.cid ∧ b.executor.entries v.cid = 0
  | .calling => b.InFlight v ∧ b.executor.entries v.cid = 0
  | .waiting => (b.InFlight v ∧ b.executor.entries v.cid = 0) ∨
      (b.Delivered v ∧ b.executor.entries v.cid = 1)
  | .resuming => b.Delivered v ∧ b.executor.entries v.cid = 0

theorem phase_of_dead {b : Book} {v : Caller} (dead : v.pc.live = false) : b.Phase v := by
  unfold Phase
  cases pc : v.pc <;> simp [pc, CallerPc.live] at dead ⊢

/-- The two books agree on everything that concerns an id. -/
structure Agree (b b' : Book) (cid : CoroutineId) : Prop where
  tasks : b'.executor.tasks cid.val = b.executor.tasks cid.val
  entries : b'.executor.entries cid = b.executor.entries cid
  mail : b'.mail cid.val = b.mail cid.val
  flight : ∀ token, token.cid = cid → (token ∈ b'.flight ↔ token ∈ b.flight)

theorem Agree.absent {b b' : Book} {cid : CoroutineId} (agree : b.Agree b' cid)
    (absent : b.Absent cid) : b'.Absent cid :=
  fun token member isFor => absent token ((agree.flight token isFor).mp member) isFor

theorem Agree.inFlight {b b' : Book} {v : Caller} (agree : b.Agree b' v.cid)
    (inFlight : b.InFlight v) : b'.InFlight v :=
  ⟨(agree.flight _ inFlight.2.1).mpr inFlight.1, inFlight.2.1, agree.mail.trans inFlight.2.2⟩

theorem Agree.delivered {b b' : Book} {v : Caller} (agree : b.Agree b' v.cid)
    (delivered : b.Delivered v) : b'.Delivered v :=
  ⟨agree.absent delivered.1, delivered.2.1, agree.mail.trans delivered.2.2⟩

theorem Agree.quiet {b b' : Book} {cid : CoroutineId} (agree : b.Agree b' cid)
    (quiet : b.Quiet cid) : b'.Quiet cid :=
  ⟨agree.absent quiet.1, agree.mail.trans quiet.2⟩

theorem Agree.phase {b b' : Book} {v : Caller} (agree : b.Agree b' v.cid) (phase : b.Phase v) :
    b'.Phase v := by
  unfold Phase at phase ⊢
  rw [agree.entries]
  cases pc : v.pc <;> simp only [pc] at phase ⊢
  case fresh => exact ⟨agree.quiet phase.1, phase.2⟩
  case running => exact ⟨agree.quiet phase.1, phase.2⟩
  case calling => exact ⟨agree.inFlight phase.1, phase.2⟩
  case waiting =>
    exact phase.imp (fun w => ⟨agree.inFlight w.1, w.2⟩) (fun d => ⟨agree.delivered d.1, d.2⟩)
  case resuming => exact ⟨agree.delivered phase.1, phase.2⟩

end Book

/-- Every token in flight, every deposit and every queue entry belongs to one live caller,
or is an entry of the receive coroutine. -/
structure Ledger (b : Book) (caller : Nat → Caller) (receiver : Option CoroutineId) : Prop where
  table : ∀ k, (caller k).pc.live = true → (caller k).cid.val < maxTaskNum ∧
    ∃ prio, b.executor.tasks (caller k).cid.val = some ⟨(caller k).cid, prio, .caller k⟩
  receiving : ∀ cid, receiver = some cid →
    ∃ prio, b.executor.tasks cid.val = some ⟨cid, prio, .receiver⟩
  phases : ∀ k, b.Phase (caller k)
  strays : ∀ cid, (∀ k, (caller k).pc.live = true → (caller k).cid ≠ cid) →
    b.Quiet cid ∧ (b.executor.entries cid = 0 ∨ receiver = some cid)
  single : (b.flight.map Token.cid).Nodup

namespace Ledger

variable {b b' : Book} {caller : Nat → Caller} {receiver : Option CoroutineId}

/-- No two live callers have one id, and none has that of the receive coroutine. -/
theorem cid_ne (ledger : Ledger b caller receiver) {j k : Nat} (jLive : (caller j).pc.live = true)
    (kLive : (caller k).pc.live = true) (different : j ≠ k) : (caller j).cid ≠ (caller k).cid := by
  intro same
  obtain ⟨-, p, jTask⟩ := ledger.table j jLive
  obtain ⟨-, q, kTask⟩ := ledger.table k kLive
  rw [same, kTask] at jTask
  simp only [Option.some.injEq, Coroutine.mk.injEq, Fut.caller.injEq] at jTask
  exact different jTask.2.2.symm

theorem receiver_ne (ledger : Ledger b caller receiver) {k : Nat} {cid : CoroutineId}
    (live : (caller k).pc.live = true) (isReceiver : receiver = some cid) :
    cid ≠ (caller k).cid := by
  rintro rfl
  obtain ⟨-, p, kTask⟩ := ledger.table k live
  obtain ⟨q, rTask⟩ := ledger.receiving _ isReceiver
  rw [kTask] at rTask
  simp at rTask

/-- A step that concerns one caller: the book changes at its id only. -/
theorem update (ledger : Ledger b caller receiver) {k : Nat} {v : Caller}
    (own : (caller k).pc.live = true → (caller k).cid = v.cid)
    (free : (caller k).pc.live = false → ∀ j, (caller j).pc.live = true → (caller j).cid ≠ v.cid)
    (notReceiver : receiver ≠ some v.cid)
    (agree : ∀ cid ≠ v.cid, b.Agree b' cid) (single : (b'.flight.map Token.cid).Nodup)
    (phase : b'.Phase v)
    (settled : if v.pc.live then v.cid.val < maxTaskNum ∧
        ∃ prio, b'.executor.tasks v.cid.val = some ⟨v.cid, prio, .caller k⟩
      else b'.Quiet v.cid ∧ b'.executor.entries v.cid = 0) :
    Ledger b' (Function.update caller k v) receiver := by
  -- the change is at `v.cid`, which no other live caller has
  have others : ∀ j ≠ k, (caller j).pc.live = true → (caller j).cid ≠ v.cid := by
    intro j different live
    cases kLive : (caller k).pc.live with
    | true => exact own kLive ▸ ledger.cid_ne live kLive different
    | false => exact free kLive j live
  refine ⟨fun j live => ?_, fun cid isReceiver => ?_, fun j => ?_, fun cid foreign => ?_, single⟩
  · by_cases same : j = k
    · subst same
      simp only [Function.update_self] at live ⊢
      simpa [live] using settled
    · simp only [Function.update_of_ne same] at live ⊢
      obtain ⟨bound, prio, task⟩ := ledger.table j live
      exact ⟨bound, prio, (agree _ (others j same live)).tasks.trans task⟩
  · obtain ⟨prio, task⟩ := ledger.receiving cid isReceiver
    have different : cid ≠ v.cid := fun same => notReceiver (same ▸ isReceiver)
    exact ⟨prio, (agree cid different).tasks.trans task⟩
  · by_cases same : j = k
    · subst same
      simpa using phase
    · rw [Function.update_of_ne same]
      cases live : (caller j).pc.live with
      | true => exact (agree _ (others j same live)).phase (ledger.phases j)
      | false => exact Book.phase_of_dead live
  · by_cases here : cid = v.cid
    · subst here
      cases live : v.pc.live with
      | true =>
        -- a live caller's id is not a stray one
        have owned := foreign k (by simpa using live)
        simp at owned
      | false =>
        rw [if_neg (by simp [live])] at settled
        exact ⟨settled.1, .inl settled.2⟩
    · have agree := agree cid here
      -- an id that is stray after the step was stray before it
      have before : ∀ j, (caller j).pc.live = true → (caller j).cid ≠ cid := by
        intro j live
        by_cases same : j = k
        · subst same
          exact fun isCid => here (isCid ▸ own live)
        · have kept := foreign j
          rw [Function.update_of_ne same] at kept
          exact kept live
      obtain ⟨quiet, queued⟩ := ledger.strays cid before
      exact ⟨agree.quiet quiet, queued.imp_left agree.entries.trans⟩

/-- A step of the executor on behalf of the receive coroutine only. -/
theorem executor (ledger : Ledger b caller receiver) {e : Executor Fut}
    (tasks : e.tasks = b.executor.tasks)
    (entries : ∀ cid, receiver ≠ some cid → e.entries cid = b.executor.entries cid) :
    Ledger { b with executor := e } caller receiver := by
  have agree : ∀ cid, receiver ≠ some cid → b.Agree { b with executor := e } cid :=
    fun cid other => ⟨congrFun tasks _, entries cid other, rfl, fun _ _ => Iff.rfl⟩
  refine ⟨fun k live => ?_, fun cid isReceiver => ?_, fun k => ?_, fun cid foreign => ?_,
    ledger.single⟩
  · simpa [tasks] using ledger.table k live
  · simpa [tasks] using ledger.receiving cid isReceiver
  · cases live : (caller k).pc.live with
    | true =>
      have other : receiver ≠ some (caller k).cid :=
        fun isReceiver => ledger.receiver_ne live isReceiver rfl
      exact (agree _ other).phase (ledger.phases k)
    | false => exact Book.phase_of_dead live
  · obtain ⟨quiet, queued⟩ := ledger.strays cid foreign
    refine ⟨quiet, ?_⟩
    by_cases isReceiver : receiver = some cid
    · exact .inr isReceiver
    · exact .inl ((entries cid isReceiver).trans (queued.resolve_right isReceiver))

/-- Only where a token is changes, not which tokens are in flight. -/
theorem perm (ledger : Ledger b caller receiver) {flight : List Token}
    (moved : flight.Perm b.flight) : Ledger { b with flight := flight } caller receiver := by
  have agree : ∀ cid, b.Agree { b with flight := flight } cid :=
    fun cid => ⟨rfl, rfl, rfl, fun token _ => moved.mem_iff⟩
  refine ⟨ledger.table, ledger.receiving, fun k => (agree _).phase (ledger.phases k),
    fun cid foreign => ?_, ((moved.map Token.cid).nodup_iff).mpr ledger.single⟩
  exact (ledger.strays cid foreign).imp_left (agree cid).quiet

/-! ### The steps of the client thread -/

section Steps

variable {mail : Nat → Option Token} {flight : List Token}

/-- A fresh id belongs to no one. -/
private theorem fresh_cid {r r' : RuntimeState Fut} {future : Fut} {prio : Nat}
    {cid : CoroutineId} (ledger : Ledger ⟨r.executor, mail, flight⟩ caller receiver)
    (table : r.TableOk) (spawned : r.spawn future prio = .ok (cid, r')) :
    (∀ j, (caller j).pc.live = true → (caller j).cid ≠ cid) ∧ receiver ≠ some cid := by
  have free := table.fresh spawned
  refine ⟨fun j live same => ?_, fun isReceiver => ?_⟩
  · obtain ⟨-, p, task⟩ := ledger.table j live
    simp [same, free] at task
  · obtain ⟨p, task⟩ := ledger.receiving cid isReceiver
    simp [free] at task

private theorem spawn_entries {r r' : RuntimeState Fut} {future : Fut} {prio : Nat}
    {cid : CoroutineId} (spawned : r.spawn future prio = .ok (cid, r')) (c : CoroutineId) :
    r'.executor.entries c = r.executor.entries c + if c = cid then 1 else 0 := by
  obtain ⟨-, -, e, grown, executor⟩ := RuntimeState.spawn_ok spawned
  rw [← grown.entries c, executor]
  rfl

private theorem spawn_agree {r r' : RuntimeState Fut} {future : Fut} {prio : Nat}
    {cid c : CoroutineId} (spawned : r.spawn future prio = .ok (cid, r')) (other : c ≠ cid) :
    Book.Agree ⟨r.executor, mail, flight⟩ ⟨r'.executor, mail, flight⟩ c where
  tasks := by
    have different : c.val ≠ cid.val := fun same => other (CoroutineId.ext same)
    simp only [RuntimeState.spawn_tasks spawned, Function.update_of_ne different]
  entries := by simp [spawn_entries spawned, other]
  mail := rfl
  flight _ _ := Iff.rfl

theorem spawn {r r' : RuntimeState Fut} {k prio : Nat} {cid : CoroutineId} (request : Token)
    (ledger : Ledger ⟨r.executor, mail, flight⟩ caller receiver) (table : r.TableOk)
    (unborn : (caller k).pc.live = false) (spawned : r.spawn (.caller k) prio = .ok (cid, r')) :
    Ledger ⟨r'.executor, mail, flight⟩ (Function.update caller k ⟨.fresh, cid, request⟩)
      receiver := by
  obtain ⟨foreign, notReceiver⟩ := ledger.fresh_cid table spawned
  obtain ⟨quiet, queued⟩ := ledger.strays cid foreign
  refine ledger.update (fun live => by simp [unborn] at live) (fun _ => foreign) notReceiver
    (fun c other => spawn_agree spawned other) ledger.single ?_ ?_
  · refine ⟨quiet, ?_⟩
    simp [spawn_entries spawned, queued.resolve_right notReceiver]
  · refine ⟨(RuntimeState.spawn_ok spawned).1, prio, ?_⟩
    simp [RuntimeState.spawn_tasks spawned]

theorem start {r r' : RuntimeState Fut} {prio : Nat} {cid : CoroutineId}
    (ledger : Ledger ⟨r.executor, mail, flight⟩ caller none) (table : r.TableOk)
    (spawned : r.spawn .receiver prio = .ok (cid, r')) :
    Ledger ⟨r'.executor, mail, flight⟩ caller (some cid) := by
  obtain ⟨foreign, -⟩ := ledger.fresh_cid table spawned
  refine ⟨fun k live => ?_, fun c isReceiver => ?_, fun k => ?_, fun c others => ?_, ledger.single⟩
  · obtain ⟨bound, p, task⟩ := ledger.table k live
    have agree : Book.Agree ⟨r.executor, mail, flight⟩ ⟨r'.executor, mail, flight⟩ _ :=
      spawn_agree spawned (foreign k live)
    exact ⟨bound, p, agree.tasks.trans task⟩
  · obtain rfl := Option.some.inj isReceiver
    exact ⟨prio, by simp [RuntimeState.spawn_tasks spawned]⟩
  · cases live : (caller k).pc.live with
    | true => exact (spawn_agree spawned (foreign k live)).phase (ledger.phases k)
    | false => exact Book.phase_of_dead live
  · obtain ⟨quiet, queued⟩ := ledger.strays c others
    by_cases isNew : c = cid
    -- the new id is now the receiver's, which may be queued
    · exact ⟨quiet, .inr (by rw [isNew])⟩
    · refine ⟨quiet, .inl ?_⟩
      simp [spawn_entries spawned, isNew, queued.resolve_right nofun]

/-- Whatever is not addressed to the receive coroutine is addressed to a live caller. -/
theorem owner {b : Book} (ledger : Ledger b caller receiver) (cid : CoroutineId)
    (busy : ¬ b.Quiet cid ∨ b.executor.entries cid ≠ 0 ∧ receiver ≠ some cid) :
    ∃ k, (caller k).pc.live = true ∧ (caller k).cid = cid := by
  by_contra none_
  have foreign : ∀ k, (caller k).pc.live = true → (caller k).cid ≠ cid :=
    fun k live same => none_ ⟨k, live, same⟩
  obtain ⟨quiet, queued⟩ := ledger.strays cid foreign
  rcases busy with stirred | ⟨entered, other⟩
  · exact stirred quiet
  · exact queued.elim entered other

/-- A caller is polled once for its spawn and once for each reply. -/
theorem pop_caller {f e : Executor Fut} {p : Nat} {cid : CoroutineId}
    (ledger : Ledger ⟨f, mail, flight⟩ caller receiver) (popped : f.Popped p cid e)
    (bound : p < maxPrioNum) (notReceiver : receiver ≠ some cid) :
    ∃ k prio, (caller k).cid = cid ∧ f.tasks cid.val = some ⟨cid, prio, .caller k⟩ ∧
      ((caller k).pc = .fresh ∨ (caller k).pc = .waiting) ∧
      Ledger ⟨e, mail, flight⟩ (Function.update caller k (caller k).poll) receiver := by
  -- an entry that is not the receiver's belongs to a live caller
  have counted := popped.entries bound cid
  rw [if_pos rfl] at counted
  obtain ⟨k, live, rfl⟩ := ledger.owner cid
    (.inr ⟨by show f.entries cid ≠ 0; omega, notReceiver⟩)
  obtain ⟨inTable, prio, task⟩ := ledger.table k live
  have phase := ledger.phases k
  have state : ((caller k).pc = .fresh ∨ (caller k).pc = .waiting) ∧
      Book.Phase ⟨e, mail, flight⟩ (caller k).poll := by
    unfold Book.Phase at phase
    cases pc : (caller k).pc <;> simp only [pc] at phase
    case unborn => simp [pc, CallerPc.live] at live
    case finished => simp [pc, CallerPc.live] at live
    case fresh =>
      refine ⟨.inl rfl, ?_⟩
      simp only [Book.Phase, Caller.poll, pc]
      exact ⟨phase.1, by have one := phase.2; omega⟩
    case waiting =>
      refine ⟨.inr rfl, ?_⟩
      simp only [Book.Phase, Caller.poll, pc]
      rcases phase with ⟨-, none_⟩ | ⟨delivered, one⟩
      · omega
      · exact ⟨delivered, by omega⟩
    -- a running, calling or resuming caller has no entry to pop
    all_goals
      have none_ := phase.2
      omega
  refine ⟨k, prio, rfl, task, state.1, ?_⟩
  refine ledger.update (v := (caller k).poll) (fun _ => rfl)
    (fun dead => by simp [live] at dead) notReceiver (fun c other => ?_) ledger.single state.2 ?_
  · refine ⟨congrFun popped.tasks _, ?_, rfl, fun _ _ => Iff.rfl⟩
    have others := popped.entries bound c
    rw [if_neg (show c ≠ (caller k).cid from other)] at others
    exact others.symm
  · have alive : (caller k).poll.pc.live = true := by
      rcases state.1 with pc | pc <;> simp [Caller.poll, pc, CallerPc.live]
    rw [if_pos alive]
    exact ⟨inTable, prio, (congrFun popped.tasks _).trans task⟩

variable {e : Executor Fut}

/-- A step of a live caller that keeps its id and the executor. -/
private theorem update_live {mail' : Nat → Option Token} {flight' : List Token} {k : Nat}
    {v : Caller} (ledger : Ledger ⟨e, mail, flight⟩ caller receiver)
    (live : (caller k).pc.live = true) (same : v.cid = (caller k).cid) (alive : v.pc.live = true)
    (mails : ∀ cid ≠ v.cid, mail' cid.val = mail cid.val)
    (tokens : ∀ token, token.cid ≠ v.cid → (token ∈ flight' ↔ token ∈ flight))
    (single : (flight'.map Token.cid).Nodup) (phase : Book.Phase ⟨e, mail', flight'⟩ v) :
    Ledger ⟨e, mail', flight'⟩ (Function.update caller k v) receiver := by
  obtain ⟨inTable, prio, task⟩ := ledger.table k live
  refine ledger.update (fun _ => same.symm) (fun dead => by simp [live] at dead) ?_ (fun cid other => ?_)
    single phase ?_
  · exact fun isReceiver => ledger.receiver_ne live isReceiver same
  · exact ⟨rfl, rfl, mails cid other, fun token isFor => tokens token (isFor ▸ other)⟩
  · rw [if_pos alive, same]
    exact ⟨inTable, prio, task⟩

/-- `yield_now` takes the reply out of the mailbox. -/
theorem resume {k : Nat} (ledger : Ledger ⟨e, mail, flight⟩ caller receiver)
    (pc : (caller k).pc = .resuming) :
    mail (caller k).cid.val = some (caller k).request ∧
      Ledger ⟨e, Function.update mail (caller k).cid.val none, flight⟩
        (Function.update caller k { caller k with pc := .running }) receiver := by
  have phase := ledger.phases k
  simp only [Book.Phase, pc] at phase
  -- a resumed caller has its reply in the mailbox and nothing in flight
  obtain ⟨⟨absent, -, stored⟩, queued⟩ := phase
  refine ⟨stored, ledger.update_live (by simp [pc, CallerPc.live]) rfl rfl ?_ (fun _ _ => Iff.rfl)
    ledger.single ⟨⟨absent, by simp⟩, queued⟩⟩
  exact fun cid other => Function.update_of_ne (fun same => other (CoroutineId.ext same)) _ _

/-- A caller between two calls has no token, so its new one is the only one. -/
theorem call {k : Nat} {token : Token} (ledger : Ledger ⟨e, mail, flight⟩ caller receiver)
    (pc : (caller k).pc = .running) (isFor : token.cid = (caller k).cid) :
    Ledger ⟨e, mail, token :: flight⟩
      (Function.update caller k ⟨.calling, (caller k).cid, token⟩) receiver := by
  have phase := ledger.phases k
  simp only [Book.Phase, pc] at phase
  obtain ⟨⟨absent, empty⟩, queued⟩ := phase
  refine ledger.update_live (by simp [pc, CallerPc.live]) rfl rfl (fun _ _ => rfl) ?_ ?_
    ⟨⟨List.mem_cons_self, isFor, empty⟩, queued⟩
  · intro other different
    have notNew : other ≠ token := fun same => different (same ▸ isFor)
    simp [notNew]
  -- no token in flight is for this caller
  · refine List.nodup_cons.mpr ⟨?_, ledger.single⟩
    intro member
    obtain ⟨other, inFlight, same⟩ := List.mem_map.mp member
    exact absent other inFlight (same.trans isFor)

theorem suspend {k : Nat} (ledger : Ledger ⟨e, mail, flight⟩ caller receiver)
    (pc : (caller k).pc = .calling) :
    Ledger ⟨e, mail, flight⟩ (Function.update caller k { caller k with pc := .waiting })
      receiver := by
  have phase := ledger.phases k
  simp only [Book.Phase, pc] at phase
  exact ledger.update_live (by simp [pc, CallerPc.live]) rfl rfl (fun _ _ => rfl)
    (fun _ _ => Iff.rfl) ledger.single (.inl phase)

/-- A completed caller leaves nothing behind. -/
theorem complete {r r' : RuntimeState Fut} {k : Nat}
    (ledger : Ledger ⟨r.executor, mail, flight⟩ caller receiver) (pc : (caller k).pc = .running)
    (removed : r.removeTask (caller k).cid = .ok r') :
    Ledger ⟨r'.executor, mail, flight⟩
      (Function.update caller k { caller k with pc := .finished }) receiver := by
  have live : (caller k).pc.live = true := by simp [pc, CallerPc.live]
  have phase := ledger.phases k
  simp only [Book.Phase, pc] at phase
  have entries : ∀ cid, r'.executor.entries cid = r.executor.entries cid := by
    intro cid
    rw [(RuntimeState.removeTask_ok removed).2.2.2]
    rfl
  refine ledger.update (v := { caller k with pc := .finished }) (fun _ => rfl)
    (fun dead => by simp [live] at dead)
    (fun isReceiver => ledger.receiver_ne live isReceiver rfl) (fun cid other => ?_)
    ledger.single trivial ?_
  · refine ⟨?_, entries cid, rfl, fun _ _ => Iff.rfl⟩
    have different : cid.val ≠ (caller k).cid.val := fun same => other (CoroutineId.ext same)
    simp only [RuntimeState.removeTask_tasks removed, Function.update_of_ne different]
  · exact ⟨phase.1, (entries _).trans phase.2⟩

/-- A token in flight is the request of a live caller that has not resumed. -/
theorem flight_owner {b : Book} (ledger : Ledger b caller receiver) {token : Token}
    (member : token ∈ b.flight) :
    ∃ k, (caller k).cid = token.cid ∧ (caller k).request = token ∧
      ((caller k).pc = .calling ∨ (caller k).pc = .waiting) ∧
      b.InFlight (caller k) ∧ b.executor.entries token.cid = 0 := by
  obtain ⟨k, live, owned⟩ := ledger.owner token.cid
    (.inl fun quiet => quiet.1 token member rfl)
  -- so the owner is in one of the two phases with its own token in flight
  have present : ¬ b.Absent (caller k).cid := fun absent => absent token member owned.symm
  have sole : (caller k).request ∈ b.flight → (caller k).request.cid = (caller k).cid →
      (caller k).request = token := fun inFlight isFor =>
    List.inj_on_of_nodup_map ledger.single inFlight member (isFor.trans owned)
  have phase := ledger.phases k
  unfold Book.Phase at phase
  rw [← owned]
  cases pc : (caller k).pc <;> simp only [pc] at phase
  case unborn => simp [pc, CallerPc.live] at live
  case finished => simp [pc, CallerPc.live] at live
  case fresh => exact absurd phase.1.1 present
  case running => exact absurd phase.1.1 present
  case resuming => exact absurd phase.1.1 present
  case calling =>
    exact ⟨k, rfl, sole phase.1.1 phase.1.2.1, .inl pc, phase.1, phase.2⟩
  case waiting =>
    rcases phase with ⟨inFlight, queued⟩ | ⟨delivered, -⟩
    · exact ⟨k, rfl, sole inFlight.1 inFlight.2.1, .inr pc, inFlight, queued⟩
    · exact absurd delivered.1 present

/-- A reply goes into the mailbox of the one caller that waits for it, and queues it. -/
theorem deliver {e' : Executor Fut} {token : Token}
    (ledger : Ledger ⟨e, mail, token :: flight⟩ caller receiver)
    (inactive : ∀ k, (caller k).pc.active = false) (woken : e.wake token.cid = .ok e') :
    Ledger ⟨e', Function.update mail token.cid.val (some token), flight⟩ caller receiver := by
  obtain ⟨k, owned, rfl, pc, ⟨-, -, -⟩, queued⟩ := ledger.flight_owner List.mem_cons_self
  have pc : (caller k).pc = .waiting := by
    rcases pc with calling | waiting
    · have idle := inactive k
      simp [calling, CallerPc.active] at idle
    · exact waiting
  have live : (caller k).pc.live = true := by simp [pc, CallerPc.live]
  obtain ⟨inTable, prio, task⟩ := ledger.table k live
  -- the waiting caller is live, so the wake does queue it
  have grown : e.Enqueued prio (caller k).request.cid e' := by
    rcases (Executor.wake_ok woken).2 with ⟨dead, -⟩ | ⟨found, isTask, grown⟩
    · rw [← owned, task] at dead
      cases dead
    · rw [← owned, task] at isTask
      obtain rfl := Option.some.inj isTask
      exact grown
  have nodup := ledger.single
  simp only [List.map_cons, List.nodup_cons] at nodup
  -- the delivered token was the only one for this caller
  have absent : ∀ token ∈ flight, token.cid ≠ (caller k).cid := by
    intro token member same
    exact nodup.1 (List.mem_map.mpr ⟨token, member, same.trans owned⟩)
  have updated : Ledger
      ⟨e', Function.update mail (caller k).request.cid.val (some (caller k).request), flight⟩
      (Function.update caller k (caller k)) receiver := by
    refine ledger.update (fun _ => rfl) (fun dead => by simp [live] at dead)
      (fun isReceiver => ledger.receiver_ne live isReceiver rfl) (fun cid other => ?_) nodup.2 ?_ ?_
    · refine ⟨congrFun grown.tasks _, ?_, ?_, fun token isFor => ?_⟩
      · simp [grown.entries, owned ▸ other]
      · refine Function.update_of_ne (fun same => other ?_) _ _
        exact (CoroutineId.ext same).trans owned.symm
      · have notThis : token ≠ (caller k).request := by
          rintro rfl
          exact other (isFor.symm.trans owned.symm)
        simp [notThis]
    -- from the first disjunct of `waiting` to the second
    · simp only [Book.Phase, pc]
      refine .inr ⟨⟨absent, owned.symm, ?_⟩, ?_⟩
      · simp [owned]
      · rw [grown.entries, owned, if_pos rfl]
        simpa using queued
    · rw [if_pos live]
      exact ⟨inTable, prio, (congrFun grown.tasks _).trans task⟩
  rwa [Function.update_eq_self] at updated

/-- There are never more tokens in flight than ids of coroutines. -/
theorem flight_length {b : Book} (ledger : Ledger b caller receiver) :
    b.flight.length ≤ maxTaskNum := by
  have bound : ∀ cid ∈ b.flight.map Token.cid, cid.val < maxTaskNum := by
    intro cid member
    obtain ⟨token, inFlight, rfl⟩ := List.mem_map.mp member
    obtain ⟨k, owned, -, pc, -⟩ := ledger.flight_owner inFlight
    have live : (caller k).pc.live = true := by rcases pc with pc | pc <;> simp [pc, CallerPc.live]
    exact owned ▸ (ledger.table k live).1
  simpa using length_le_maxTaskNum ledger.single bound

/-- The number of tokens for an id, wherever they are. -/
def outstanding (b : Book) (cid : CoroutineId) : Nat :=
  b.flight.countP (fun token => token.cid = cid) + (b.mail cid.val).toList.length

theorem outstanding_le_one {b : Book} (ledger : Ledger b caller receiver) {k : Nat}
    (live : (caller k).pc.live = true) : outstanding b (caller k).cid ≤ 1 := by
  have counted : b.flight.countP (fun token => token.cid = (caller k).cid) ≤ 1 := by
    have once := List.nodup_iff_count_le_one.mp ledger.single (caller k).cid
    rw [List.count, List.countP_map] at once
    refine le_trans (le_of_eq (List.countP_congr ?_)) once
    simp
  -- in flight or in the mailbox: each phase excludes one of the two
  have nothing : b.Absent (caller k).cid →
      b.flight.countP (fun token => token.cid = (caller k).cid) = 0 := fun absent =>
    List.countP_eq_zero.mpr fun token member => by simpa using absent token member
  have phase := ledger.phases k
  unfold Book.Phase at phase
  unfold outstanding
  cases pc : (caller k).pc <;> simp only [pc] at phase
  case unborn => simp [pc, CallerPc.live] at live
  case finished => simp [pc, CallerPc.live] at live
  case fresh => simpa [phase.1.2] using counted
  case running => simpa [phase.1.2] using counted
  case calling => simpa [phase.1.2.2] using counted
  case waiting =>
    rcases phase with ⟨inFlight, -⟩ | ⟨delivered, -⟩
    · simpa [inFlight.2.2] using counted
    · simp [nothing delivered.1, delivered.2.2]
  case resuming => simp [nothing phase.1.1, phase.1.2.2]

end Steps

end Ledger

end RootTask.Ipc
