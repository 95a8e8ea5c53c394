import RootTask.Lib.Outcome
import RootTask.Lib.Transition
import RootTask.Net.Smoltcp
import RootTask.Runtime.AsyncLib

/-!
# The listen table

`listen_table.rs`. Every port has an entry with the sockets registered on it and with the
waiters of the two servers: coroutine ids of the asynchronous one, endpoints of the
synchronous one. The stack calls back into the table for every frame, before it processes
the frame itself (`preprocess`). Both servers are built on the statics collected here.
-/
namespace RootTask.Net

open RootTask.Runtime RootTask.Transition RootTask.Outcome

abbrev listenQueueSize : Nat := 4096

/-- A capability to an endpoint. -/
structure Endpoint where
  cptr : Nat
  deriving DecidableEq, Repr, Inhabited

structure ListenTableEntry where
  /-- The address of `listen_endpoint`; its port is the index of the entry. -/
  listenAddr : Option IpAddress
  synQueue : List SocketHandle
  blockCids : List CoroutineId
  blockEp : List Endpoint
  deriving DecidableEq, Repr

namespace ListenTableEntry

def new (addr : Option IpAddress) : ListenTableEntry := ⟨addr, [], [], []⟩

def canAccept (e : ListenTableEntry) (dst : IpAddress) : Bool :=
  match e.listenAddr with
  | some addr => addr == dst
  | none => true

/-- A SYN to `dst` gets past the two checks of `incoming_tcp_packet`. -/
def admits (e : ListenTableEntry) (dst : IpAddress) : Bool :=
  e.canAccept dst && e.synQueue.length < listenQueueSize

end ListenTableEntry

abbrev ListenTable : Type := Nat → Option ListenTableEntry

namespace ListenTable

def new : ListenTable := fun _ => none

/-- The entry of a port, or the one that `listen` creates for it. -/
def entry (table : ListenTable) (port : Nat) : ListenTableEntry :=
  (table port).getD (.new none)

/-- `listen` and `listen_with_ep` differ in the queue of waiters they push to. The
endpoint that both callers pass has no address. -/
def register (table : ListenTable) (port : Nat) (handler : SocketHandle)
    (block : ListenTableEntry → ListenTableEntry) : Except Panic ListenTable :=
  if port = 0 then .error .assertFailed
  else
    let en := table.entry port
    .ok (Function.update table port (some (block { en with synQueue := en.synQueue ++ [handler] })))

def listen (table : ListenTable) (port : Nat) (handler : SocketHandle) (cid : CoroutineId) :
    Except Panic ListenTable :=
  table.register port handler fun en => { en with blockCids := en.blockCids ++ [cid] }

def listenWithEp (table : ListenTable) (port : Nat) (handle : SocketHandle) (ep : Endpoint) :
    Except Panic ListenTable :=
  table.register port handle fun en => { en with blockEp := en.blockEp ++ [ep] }

theorem register_ok {table table' : ListenTable} {port : Nat} {handler : SocketHandle}
    {block : ListenTableEntry → ListenTableEntry}
    (returned : table.register port handler block = .ok table') :
    port ≠ 0 ∧ table' = Function.update table port (some (block
      { table.entry port with synQueue := (table.entry port).synQueue ++ [handler] })) := by
  unfold register at returned
  split at returned
  · cases returned
  next nonzero =>
    cases returned
    exact ⟨nonzero, rfl⟩

end ListenTable

/-- The spin mutexes that the servers lock. -/
inductive SpinMutex where
  | pollEps
  | recvBlockedTasks
  | socketSet
  | interface
  | listenEntry (port : Nat)
  deriving DecidableEq, Repr

/-- How a thread can stop: a panic, or a spin on a mutex that it holds itself. -/
inductive Fault where
  | panic (p : Panic)
  | relock (m : SpinMutex)
  deriving DecidableEq, Repr

/-- Take a mutex, given those that the thread holds. -/
def lock (held : List SpinMutex) (m : SpinMutex) : Except Fault (List SpinMutex) :=
  if m ∈ held then .error (.relock m) else .ok (m :: held)

def orPanic {α : Type} : Except Panic α → Except Fault α
  | .ok a => .ok a
  | .error p => .error (.panic p)

@[simp] theorem orPanic_ok {α : Type} (x : Except Panic α) (a : α) :
    orPanic x = .ok a ↔ x = .ok a := by
  cases x <;> simp [orPanic]

@[simp] theorem orPanic_relock {α : Type} (x : Except Panic α) (m : SpinMutex) :
    orPanic x ≠ .error (.relock m) := by
  cases x <;> simp [orPanic]

/-- A fault that is not a spin on a mutex of one's own. -/
def Fault.IsPanic : Fault → Prop
  | .panic _ => True
  | .relock _ => False

theorem orPanic_meets {α : Type} (x : Except Panic α) :
    Meets Fault.IsPanic (fun a => x = .ok a) (orPanic x) := by
  cases x with
  | ok a => exact rfl
  | error p => exact trivial

theorem lock_meets {held : List SpinMutex} {m : SpinMutex} (free : m ∉ held) :
    Meets Fault.IsPanic (fun held' => held' = m :: held) (lock held m) := by
  rw [lock, if_neg free]
  exact rfl

theorem lock_ok {held held' : List SpinMutex} {m : SpinMutex} (taken : lock held m = .ok held') :
    m ∉ held ∧ held' = m :: held := by
  unfold lock at taken
  split at taken
  · cases taken
  next free =>
    cases taken
    exact ⟨free, rfl⟩

theorem lock_free {held : List SpinMutex} {m : SpinMutex} (free : m ∉ held) :
    lock held m = .ok (m :: held) := if_neg free

theorem lock_held {held : List SpinMutex} {m : SpinMutex} (taken : m ∈ held) :
    lock held m = .error (.relock m) := if_pos taken

/-- A message sent on an endpoint: `msg_regs[0]` and `msg_regs[1]`. -/
structure EpMessage where
  ep : Endpoint
  type : MessageType
  value : Nat
  deriving DecidableEq, Repr

/-- The statics of the network module that frames act on. `sent` collects what the server
sends on endpoints. -/
structure NetState (σ φ T : Type) where
  lib : AsyncState φ T
  sockets : σ
  listenTable : ListenTable
  pollEps : List Endpoint
  sent : List EpMessage

namespace NetState

variable {σ F φ T : Type} (stack : Smoltcp σ F)

def isConnected (sockets : σ) (handle : SocketHandle) : Except Panic Bool :=
  match stack.state sockets handle with
  | some state => .ok (state == .established)
  | none => .error .explicit

def getAddrTuple (sockets : σ) (handle : SocketHandle) : Except Panic (IpEndpoint × IpEndpoint) :=
  match stack.localEndpoint sockets handle, stack.remoteEndpoint sockets handle with
  | some here, some there => .ok (here, there)
  | _, _ => .error .unwrapNone

/-- `ListenTable::accept`; `none` is its `Err`. -/
def accept (n : NetState σ φ T) (port : Nat) :
    Except Panic (Option (SocketHandle × IpEndpoint × IpEndpoint) × NetState σ φ T) :=
  match n.listenTable port with
  | none => .ok (none, n)
  | some en =>
    match en.synQueue with
    | [] => .error .assertFailed
    | handle :: rest =>
      let table := Function.update n.listenTable port (some { en with synQueue := rest })
      let n : NetState σ φ T := { n with listenTable := table }
      (isConnected stack n.sockets handle).bind fun connected =>
        if connected then
          (getAddrTuple stack n.sockets handle).map fun tuple => (some (handle, tuple), n)
        else .error .assertFailed

/-- The waiter of the asynchronous server that a SYN wakes. -/
def wakeBlocked (n : NetState σ φ T) (port : Nat) (en : ListenTableEntry) :
    Except Panic (ListenTableEntry × NetState σ φ T) :=
  match en.blockCids with
  | [] => .ok (en, n)
  | cid :: rest =>
    let en := { en with blockCids := rest }
    (n.lib.wake cid).map fun lib =>
      (en, { n with lib := lib, listenTable := Function.update n.listenTable port (some en) })

/-- The waiter of the synchronous server that a SYN answers: it gets its socket and joins
`POLL_EPS`. The entry is locked all the while. -/
def answerBlocked (n : NetState σ φ T) (held : List SpinMutex) (port : Nat)
    (en : ListenTableEntry) : Except Fault (NetState σ φ T) :=
  match en.blockEp, en.synQueue with
  | [], _ => .ok n
  | _ :: _, [] => .error (.panic .unwrapNone)
  | ep :: eps, handler :: handlers =>
    let en := { en with synQueue := handlers, blockEp := eps }
    let n : NetState σ φ T := { n with
      listenTable := Function.update n.listenTable port (some en)
      sent := n.sent ++ [⟨ep, .listenReply, handler.index⟩] }
    (lock held .pollEps).map fun _ => { n with pollEps := n.pollEps ++ [ep] }

def incomingTcpPacket (n : NetState σ φ T) (held : List SpinMutex) (dst : IpEndpoint) :
    Except Fault (NetState σ φ T) :=
  (lock held (.listenEntry dst.port)).bind fun held =>
    match n.listenTable dst.port with
    | none => .ok n
    | some en =>
      if en.admits dst.addr then
        (orPanic (n.wakeBlocked dst.port en)).bind fun (en, n) =>
          n.answerBlocked held dst.port en
      else .ok n

def snoopTcpPacket (n : NetState σ φ T) (held : List SpinMutex) (f : F) :
    Except Fault (NetState σ φ T) :=
  match stack.segment f with
  | none => .ok n
  | some seg => if seg.isFirst then n.incomingTcpPacket held seg.dst else .ok n

/-- What `Interface::poll` does with one received frame. -/
def receive (n : NetState σ φ T) (held : List SpinMutex) (f : F) :
    Except Fault (NetState σ φ T) :=
  (n.snoopTcpPacket stack held f).map fun n => { n with sockets := stack.process n.sockets f }

/-- The entry whose waiters a frame is about. -/
def admitting (n : NetState σ φ T) (f : F) : Option ListenTableEntry :=
  (stack.segment f).bind fun seg =>
    if seg.isFirst then (n.listenTable seg.dst.port).filter fun en => en.admits seg.dst.addr
    else none

/-- The coroutine that a frame is going to wake. -/
def wokenBy (n : NetState σ φ T) (f : F) : Option CoroutineId :=
  (n.admitting stack f).bind fun en => en.blockCids.head?

/-- The client of the synchronous server that a frame is going to answer. -/
def answered (n : NetState σ φ T) (f : F) : Option Endpoint :=
  (n.admitting stack f).bind fun en => en.blockEp.head?

/-! ### What the calls can do -/

theorem accept_ok {n n' : NetState σ φ T} {port : Nat} {handle : SocketHandle}
    {tuple : IpEndpoint × IpEndpoint} (returned : n.accept stack port = .ok (some (handle, tuple), n')) :
    ∃ en rest, n.listenTable port = some en ∧ en.synQueue = handle :: rest ∧
      stack.state n.sockets handle = some .established ∧ n' = { n with
        listenTable := Function.update n.listenTable port (some { en with synQueue := rest }) } := by
  unfold accept at returned
  split at returned
  · cases returned
  next en found =>
    split at returned
    · cases returned
    next first rest queue =>
      obtain ⟨connected, checked, returned⟩ := bind_ok.mp returned
      split at returned
      next isConnected_ =>
        obtain ⟨addresses, -, same⟩ := map_ok.mp returned
        cases same
        -- the assertion after the pop is what says that the socket is connected
        refine ⟨en, rest, found, queue, ?_, rfl⟩
        unfold isConnected at checked
        split at checked
        next state isState =>
          cases checked
          rw [isState]
          simpa using isConnected_
        · cases checked
      · cases returned

theorem wakeBlocked_ok {n n' : NetState σ φ T} {port : Nat} {en en' : ListenTableEntry}
    (returned : n.wakeBlocked port en = .ok (en', n')) :
    (en.blockCids = [] ∧ en' = en ∧ n' = n) ∨
    ∃ cid rest e, en.blockCids = cid :: rest ∧ n.lib.executor.wake cid = .ok e ∧
      en' = { en with blockCids := rest } ∧ n' = { n with
        lib := n.lib.setExecutor e
        listenTable := Function.update n.listenTable port (some { en with blockCids := rest }) } := by
  unfold wakeBlocked at returned
  split at returned
  next none_ =>
    cases returned
    exact .inl ⟨none_, rfl, rfl⟩
  next cid rest shape =>
    obtain ⟨lib, woken, same⟩ := map_ok.mp returned
    obtain ⟨e, queued, rfl⟩ := AsyncState.wake_ok woken
    cases same
    exact .inr ⟨cid, rest, e, shape, queued, rfl, rfl⟩

theorem answerBlocked_ok {n n' : NetState σ φ T} {held : List SpinMutex} {port : Nat}
    {en : ListenTableEntry} (returned : n.answerBlocked held port en = .ok n') :
    (en.blockEp = [] ∧ n' = n) ∨
    ∃ ep eps handler handlers, en.blockEp = ep :: eps ∧ en.synQueue = handler :: handlers ∧
      SpinMutex.pollEps ∉ held ∧ n' = { n with
        listenTable := Function.update n.listenTable port
          (some { en with synQueue := handlers, blockEp := eps })
        sent := n.sent ++ [⟨ep, .listenReply, handler.index⟩]
        pollEps := n.pollEps ++ [ep] } := by
  unfold answerBlocked at returned
  split at returned
  next none_ =>
    cases returned
    exact .inl ⟨none_, rfl⟩
  · cases returned
  next ep eps handler handlers waiting queue =>
    obtain ⟨held', taken, rfl⟩ := map_ok.mp returned
    exact .inr ⟨ep, eps, handler, handlers, waiting, queue, (lock_ok taken).1, rfl⟩

/-- What a frame does before the stack processes it. -/
inductive Snooped (n : NetState σ φ T) (held : List SpinMutex) (f : F) : NetState σ φ T → Prop
  | ignored (ignores : ∀ seg en, stack.segment f = some seg → seg.isFirst = true →
      n.listenTable seg.dst.port = some en → en.admits seg.dst.addr = false) : Snooped n held f n
  | admitted (seg : TcpSegment) (en en' : ListenTableEntry) (n₁ n₂ : NetState σ φ T)
      (isTcp : stack.segment f = some seg) (first : seg.isFirst = true)
      (found : n.listenTable seg.dst.port = some en) (admits : en.admits seg.dst.addr = true)
      (woke : n.wakeBlocked seg.dst.port en = .ok (en', n₁))
      (answered : n₁.answerBlocked (.listenEntry seg.dst.port :: held) seg.dst.port en' = .ok n₂) :
      Snooped n held f n₂

theorem snoopTcpPacket_ok {n n' : NetState σ φ T} {held : List SpinMutex} {f : F}
    (returned : n.snoopTcpPacket stack held f = .ok n') : Snooped stack n held f n' := by
  unfold snoopTcpPacket at returned
  split at returned
  next none_ =>
    cases returned
    exact .ignored fun seg en is => by simp [none_] at is
  next seg isTcp =>
    split at returned
    next first =>
      unfold incomingTcpPacket at returned
      -- the entry stays locked through both answers
      obtain ⟨held', taken, returned⟩ := bind_ok.mp returned
      obtain ⟨-, rfl⟩ := lock_ok taken
      split at returned
      next unused =>
        cases returned
        refine .ignored fun seg' en is _ found => ?_
        cases isTcp.symm.trans is
        simp [unused] at found
      next en found =>
        split at returned
        next admits =>
          obtain ⟨⟨en', n₁⟩, woke, answered⟩ := bind_ok.mp returned
          exact .admitted seg en en' n₁ n' isTcp first found admits ((orPanic_ok _ _).mp woke)
            answered
        next refused =>
          cases returned
          refine .ignored fun seg' en' is _ found' => ?_
          cases isTcp.symm.trans is
          cases found.symm.trans found'
          simpa using refused
    next later =>
      cases returned
      refine .ignored fun seg' en is first => ?_
      cases isTcp.symm.trans is
      exact absurd first later

theorem receive_ok {n n' : NetState σ φ T} {held : List SpinMutex} {f : F}
    (returned : n.receive stack held f = .ok n') :
    ∃ m, Snooped stack n held f m ∧ n' = { m with sockets := stack.process m.sockets f } := by
  obtain ⟨m, snooped, rfl⟩ := map_ok.mp returned
  exact ⟨m, snoopTcpPacket_ok stack snooped, rfl⟩

theorem admitting_some {n : NetState σ φ T} {f : F} {en : ListenTableEntry} :
    n.admitting stack f = some en ↔ ∃ seg, stack.segment f = some seg ∧ seg.isFirst = true ∧
      n.listenTable seg.dst.port = some en ∧ en.admits seg.dst.addr = true := by
  unfold admitting
  cases stack.segment f with
  | none => simp
  | some seg =>
    cases first : seg.isFirst with
    | false => simp [first]
    | true => simp [first, Option.filter_eq_some_iff]

theorem admitting_none {n : NetState σ φ T} {f : F} : n.admitting stack f = none ↔
    ∀ seg en, stack.segment f = some seg → seg.isFirst = true →
      n.listenTable seg.dst.port = some en → en.admits seg.dst.addr = false := by
  constructor
  · intro none_ seg en isTcp first found
    by_contra admits
    have isAdmitting : n.admitting stack f = some en :=
      (admitting_some stack).mpr ⟨seg, isTcp, first, found, Bool.of_not_eq_false admits⟩
    rw [none_] at isAdmitting
    cases isAdmitting
  · intro ignores
    cases isAdmitting : n.admitting stack f with
    | none => rfl
    | some en =>
      obtain ⟨seg, isTcp, first, found, admits⟩ := (admitting_some stack).mp isAdmitting
      rw [ignores seg en isTcp first found] at admits
      cases admits

/-- A frame that no entry admits leaves the table and its waiters alone. -/
theorem snoopTcpPacket_ignored {n : NetState σ φ T} {held : List SpinMutex} {f : F}
    (entries : ∀ port, SpinMutex.listenEntry port ∉ held)
    (nobody : n.admitting stack f = none) : n.snoopTcpPacket stack held f = .ok n := by
  have ignores := (admitting_none stack).mp nobody
  unfold snoopTcpPacket
  split
  · rfl
  next seg isTcp =>
    split
    next first =>
      simp only [incomingTcpPacket, lock_free (entries _), Except.bind]
      split
      · rfl
      next en found => simp [ignores seg en isTcp first found]
    · rfl

/-- A frame that an entry admits is a matter of the two queues of waiters. -/
theorem snoopTcpPacket_admitted {n : NetState σ φ T} {held : List SpinMutex} {f : F}
    {en : ListenTableEntry} (entries : ∀ port, SpinMutex.listenEntry port ∉ held)
    (isAdmitting : n.admitting stack f = some en) :
    ∃ port, n.snoopTcpPacket stack held f = (orPanic (n.wakeBlocked port en)).bind fun (en, n) =>
      n.answerBlocked (.listenEntry port :: held) port en := by
  obtain ⟨seg, isTcp, first, found, admits⟩ := (admitting_some stack).mp isAdmitting
  refine ⟨seg.dst.port, ?_⟩
  simp only [snoopTcpPacket, isTcp, first, incomingTcpPacket, lock_free (entries _), found, admits,
    if_true]
  rfl

/-- The wake-up of a coroutine leaves the queues that the answer reads as they are. -/
theorem wakeBlocked_queues {n n' : NetState σ φ T} {port : Nat} {en en' : ListenTableEntry}
    (returned : n.wakeBlocked port en = .ok (en', n')) :
    en'.blockEp = en.blockEp ∧ en'.synQueue = en.synQueue := by
  rcases wakeBlocked_ok returned with ⟨-, rfl, -⟩ | ⟨_, _, _, -, -, rfl, -⟩
  · exact ⟨rfl, rfl⟩
  · exact ⟨rfl, rfl⟩

theorem wakeBlocked_total {n : NetState σ φ T} (port : Nat) {en : ListenTableEntry}
    (wakes : ∀ c ∈ en.blockCids.head?, ∃ lib, n.lib.wake c = .ok lib) :
    ∃ r, n.wakeBlocked port en = .ok r := by
  unfold wakeBlocked
  split
  · exact ⟨_, rfl⟩
  next cid rest waiting =>
    obtain ⟨lib, woken⟩ := wakes cid (by simp [waiting])
    rw [woken]
    exact ⟨_, rfl⟩

theorem answerBlocked_relock {n : NetState σ φ T} {held : List SpinMutex} {port : Nat}
    {en : ListenTableEntry} {m : SpinMutex}
    (failed : n.answerBlocked held port en = .error (.relock m)) :
    m = .pollEps ∧ SpinMutex.pollEps ∈ held ∧ en.blockEp ≠ [] := by
  unfold answerBlocked at failed
  split at failed
  · cases failed
  · cases failed
  next ep eps handler handlers waiting _ =>
    have spins := map_error.mp failed
    unfold lock at spins
    split at spins
    next taken =>
      cases spins
      exact ⟨rfl, taken, by simp [waiting]⟩
    · cases spins

theorem answerBlocked_total (n : NetState σ φ T) {held : List SpinMutex} (port : Nat)
    {en : ListenTableEntry}
    (answers : en.blockEp = [] ∨ en.synQueue ≠ [] ∧ SpinMutex.pollEps ∉ held) :
    ∃ n', n.answerBlocked held port en = .ok n' := by
  unfold answerBlocked
  split
  · exact ⟨_, rfl⟩
  next waiting queue =>
    rcases answers with nobody | ⟨present, -⟩
    · simp [nobody] at waiting
    · exact absurd queue present
  next waiting queue =>
    rcases answers with nobody | ⟨-, free⟩
    · simp [nobody] at waiting
    · rw [lock_free free]
      exact ⟨_, rfl⟩

/-- A frame makes the thread spin on its own mutex only if `POLL_EPS` is held while the frame
answers a waiter. -/
theorem receive_relock {n : NetState σ φ T} {held : List SpinMutex} {f : F} {m : SpinMutex}
    (entries : ∀ port, SpinMutex.listenEntry port ∉ held)
    (failed : n.receive stack held f = .error (.relock m)) :
    m = .pollEps ∧ SpinMutex.pollEps ∈ held ∧ (n.answered stack f).isSome = true := by
  have snooped := map_error.mp failed
  cases isAdmitting : n.admitting stack f with
  | none =>
    rw [snoopTcpPacket_ignored stack entries isAdmitting] at snooped
    cases snooped
  | some en =>
    obtain ⟨port, eq⟩ := snoopTcpPacket_admitted stack entries isAdmitting
    rw [eq] at snooped
    rcases bind_error.mp snooped with panicked | ⟨⟨en', n₁⟩, woke, unanswered⟩
    · exact absurd panicked (orPanic_relock _ _)
    · obtain ⟨isPollEps, taken, waiting⟩ := answerBlocked_relock unanswered
      obtain ⟨sameEps, -⟩ := wakeBlocked_queues ((orPanic_ok _ _).mp woke)
      refine ⟨isPollEps, by simpa using taken, ?_⟩
      rw [sameEps] at waiting
      simpa [answered, isAdmitting, List.isSome_head?] using waiting

/-- A frame is received if the wake-up that it causes succeeds and the client that it answers,
if any, has its socket and finds `POLL_EPS` free. -/
theorem receive_total {n : NetState σ φ T} {held : List SpinMutex} {f : F}
    (entries : ∀ port, SpinMutex.listenEntry port ∉ held)
    (wakes : ∀ c ∈ n.wokenBy stack f, ∃ lib, n.lib.wake c = .ok lib)
    (answers : ∀ en ∈ n.admitting stack f,
      en.blockEp = [] ∨ en.synQueue ≠ [] ∧ SpinMutex.pollEps ∉ held) :
    ∃ n', n.receive stack held f = .ok n' := by
  suffices snooped : ∃ m, n.snoopTcpPacket stack held f = .ok m by
    obtain ⟨m, snooped⟩ := snooped
    exact ⟨_, by rw [receive, snooped]; rfl⟩
  cases isAdmitting : n.admitting stack f with
  | none => exact ⟨n, snoopTcpPacket_ignored stack entries isAdmitting⟩
  | some en =>
    obtain ⟨port, eq⟩ := snoopTcpPacket_admitted stack entries isAdmitting
    have wakesFirst : ∀ c ∈ en.blockCids.head?, ∃ lib, n.lib.wake c = .ok lib := by
      intro c isFirst
      exact wakes c (by simpa [wokenBy, isAdmitting] using isFirst)
    obtain ⟨⟨en', n₁⟩, woke⟩ := wakeBlocked_total port wakesFirst
    obtain ⟨sameEps, sameSyn⟩ := wakeBlocked_queues woke
    have answersNow : en'.blockEp = [] ∨
        en'.synQueue ≠ [] ∧ SpinMutex.pollEps ∉ SpinMutex.listenEntry port :: held := by
      rw [sameEps, sameSyn]
      simpa using answers en isAdmitting
    obtain ⟨m, answered⟩ := answerBlocked_total n₁ port answersNow
    rw [eq, woke]
    exact ⟨m, answered⟩

/-- The executor is as before, or one coroutine was woken. -/
theorem Snooped.lib {n m : NetState σ φ T} {held : List SpinMutex} {f : F}
    (snooped : Snooped stack n held f m) :
    m.lib = n.lib ∨ ∃ cid e, n.lib.executor.wake cid = .ok e ∧ m.lib = n.lib.setExecutor e := by
  cases snooped with
  | ignored _ => exact .inl rfl
  | admitted seg en en' n₁ _ _ _ _ _ woke answered =>
    -- answering an endpoint does not touch the executor
    have same : m.lib = n₁.lib := by
      rcases answerBlocked_ok answered with ⟨-, rfl⟩ | ⟨_, _, _, _, -, -, -, rfl⟩ <;> rfl
    rw [same]
    rcases wakeBlocked_ok woke with ⟨-, -, rfl⟩ | ⟨cid, _, e, -, queued, -, rfl⟩
    · exact .inl rfl
    · exact .inr ⟨cid, e, queued, rfl⟩

end NetState

end RootTask.Net
