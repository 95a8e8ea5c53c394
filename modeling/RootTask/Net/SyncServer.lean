import RootTask.Lib.Outcome
import RootTask.Net.ListenTable

/-!
# The synchronous server

`sync_tcp_test.rs`: one thread serves the client threads over endpoints, in a first loop
that waits for their Listen requests and a second one that serves the connected clients.
The thread keeps a list of the spin mutexes that it holds. A step goes from one point where
it looks outside to the next: an `nb_recv`, a `poll` of the notification, a received frame.

Nothing runs the executor here, so the part of `NetState` that belongs to coroutines stays
as it is. Sending on an endpoint completes at once: the client is waiting for the message.
-/
namespace RootTask.Net

open RootTask.Runtime RootTask.Transition RootTask.Outcome

abbrev threadNum : Nat := 1 <<< 5

/-- The endpoints of `create_c_s_ipc_channel`, in consecutive slots. -/
def createEps (slot : Nat) : List Endpoint :=
  (List.range threadNum).map fun i => ⟨slot + i⟩

/-- The message registers. The first one holds a `MessageType`: clients store nothing else,
and the server transmutes it unchecked. -/
structure MsgRegs where
  type : MessageType
  r1 : BitVec 64
  r2 : BitVec 64
  r3 : BitVec 64
  deriving DecidableEq, Repr

namespace MsgRegs

/-- `as u16`. -/
def port (regs : MsgRegs) : Nat := regs.r1.toNat % 2 ^ 16

def handler (regs : MsgRegs) : SocketHandle := ⟨regs.r1.toNat⟩

def buffer (regs : MsgRegs) : BufferPtr := regs.r2

def len (regs : MsgRegs) : Nat := regs.r3.toNat

end MsgRegs

structure RecvBlockedTask where
  ep : Endpoint
  tcpBuffer : BufferPtr
  handler : SocketHandle
  complete : Bool
  deriving DecidableEq, Repr

/-- Where the thread stands in `net_stack_test`. -/
inductive Loop where
  /-- In a pass of the first loop, with the endpoints that it has still to look at. -/
  | listening (rest : List Endpoint) (listenCnt : Nat)
  /-- At the top of the second loop. -/
  | idle
  /-- In the `for` loop of the second loop. -/
  | serving (rest : List Endpoint)
  deriving DecidableEq, Repr

/-- Who called `iface_poll`. -/
inductive Caller where
  | netInterruptHandler
  /-- The Send branch of `process_req`, after `send_slice` took `size` bytes. -/
  | processReq (ep : Endpoint) (size : Nat)
  deriving DecidableEq, Repr

structure SyncServer (σ : Type) where
  net : NetState σ Unit Unit
  recvBlockedTasks : List RecvBlockedTask
  /-- The bytes of the `TcpBuffer`s. -/
  memory : BufferPtr → Nat → BitVec 8
  loop : Loop
  /-- The call of `iface_poll` that is in progress. -/
  polling : Option Caller
  held : List SpinMutex
  /-- The endpoints that delivered a request in this pass of the first loop. -/
  heard : List Endpoint
  /-- The endpoints whose Listen was processed. -/
  listened : List Endpoint
  /-- The senders of the Send requests that `process_req` took. -/
  sendsTaken : List Endpoint

inductive SyncAction (F : Type) where
  /-- `ntfn.poll()` returns a badge. -/
  | ntfnPoll (badge : Nat)
  /-- `ep.nb_recv(())` on the next endpoint returns a badge and fills the registers. -/
  | nbRecv (badge : Nat) (regs : MsgRegs)
  /-- `iface_poll` receives a frame. -/
  | frame (f : F)
  /-- The thread goes on: `iface_poll` returns, or a pass ends. -/
  | run
  /-- A client writes to its buffer. -/
  | store (buffer : BufferPtr) (bytes : List (BitVec 8))
  deriving DecidableEq, Repr

/-- The guard of a mutex is dropped. -/
def unlock (held : List SpinMutex) (m : SpinMutex) : List SpinMutex := held.erase m

namespace SyncServer

variable {σ F : Type} (stack : Smoltcp σ F) (slot : Nat)

def init : SyncServer σ where
  net := ⟨.init, stack.empty, .new, [], []⟩
  recvBlockedTasks := []
  memory := fun _ _ => 0
  loop := .listening (createEps slot) 0
  polling := none
  held := []
  heard := []
  listened := []
  sendsTaken := []

def setSockets (s : SyncServer σ) (sockets : σ) : SyncServer σ :=
  { s with net := { s.net with sockets := sockets } }

def storeBytes (s : SyncServer σ) (buffer : BufferPtr) (bytes : List (BitVec 8)) :
    SyncServer σ :=
  { s with memory := Function.update s.memory buffer fun i => bytes[i]?.getD (s.memory buffer i) }

/-- `ep.send(reply)`. -/
def send (s : SyncServer σ) (ep : Endpoint) (type : MessageType) (value : Nat) : SyncServer σ :=
  { s with net := { s.net with sent := s.net.sent ++ [⟨ep, type, value⟩] } }

/-- `iface_poll` up to where it receives frames. Both calls are urgent. -/
def beginPoll (s : SyncServer σ) (caller : Caller) : Except Fault (SyncServer σ) :=
  (lock s.held .interface).bind fun held =>
    (lock held .socketSet).map fun held => { s with held := held, polling := some caller }

/-- The end of `iface_poll`. -/
def endPoll (s : SyncServer σ) : SyncServer σ :=
  { s.setSockets (stack.egress s.net.sockets) with
    held := unlock (unlock s.held .socketSet) .interface
    polling := none }

/-! ### `process_req` -/

def processListen (s : SyncServer σ) (ep : Endpoint) (regs : MsgRegs) :
    Except Fault (SyncServer σ) :=
  match stack.listen s.net.sockets regs.port with
  | none => .error (.panic .unwrapErr)
  | some (handler, sockets) =>
    -- the guard of the socket set is a temporary
    (lock s.held .socketSet).bind fun _ =>
      (orPanic (s.net.listenTable.listenWithEp regs.port handler ep)).bind fun table =>
        (lock s.held (.listenEntry regs.port)).map fun _ =>
          { s with
            net := { s.net with sockets := sockets, listenTable := table }
            listened := s.listened ++ [ep] }

/-- `recv_slice` and the reply, as `process_req` and `process_blocked_task` both have them;
`none` if the call fails. -/
def recvReply (s : SyncServer σ) (ep : Endpoint) (handler : SocketHandle) (buffer : BufferPtr)
    (len : Nat) : Option (SyncServer σ) :=
  match stack.recvSlice s.net.sockets handler len with
  | .ok (bytes, sockets) =>
    some (((s.setSockets sockets).storeBytes buffer bytes).send ep .recvReply bytes.length)
  | .error _ => none

def processRecv (s : SyncServer σ) (ep : Endpoint) (regs : MsgRegs) :
    Except Fault (SyncServer σ) :=
  (lock s.held .socketSet).bind fun held =>
    match stack.state s.net.sockets regs.handler with
    | none => .error (.panic .explicit)
    | some _ =>
      if stack.canRecv s.net.sockets regs.handler then
        let minLen := min tcpTxBufLen regs.len
        .ok ((s.recvReply stack ep regs.handler regs.buffer minLen).getD s)
      else
        (lock held .recvBlockedTasks).map fun _ =>
          { s with recvBlockedTasks :=
              s.recvBlockedTasks ++ [⟨ep, regs.buffer, regs.handler, false⟩] }

def processSend (s : SyncServer σ) (ep : Endpoint) (regs : MsgRegs) :
    Except Fault (SyncServer σ) :=
  let s := { s with sendsTaken := s.sendsTaken ++ [ep] }
  (lock s.held .socketSet).bind fun _ =>
    match stack.state s.net.sockets regs.handler with
    | none => .error (.panic .explicit)
    | some _ =>
      if stack.canSend s.net.sockets regs.handler then
        if regs.len ≤ tcpTxBufLen then
          let data := (List.range regs.len).map (s.memory regs.buffer)
          match stack.sendSlice s.net.sockets regs.handler data with
          | .ok (size, sockets) => (s.setSockets sockets).beginPoll (.processReq ep size)
          | .error _ => .ok s
        else .error (.panic .indexOutOfBounds)
      -- no reply is made: the request is dropped
      else .ok s

def processReq (s : SyncServer σ) (ep : Endpoint) (regs : MsgRegs) :
    Except Fault (SyncServer σ) :=
  match regs.type with
  | .listen => s.processListen stack ep regs
  | .recv => s.processRecv stack ep regs
  | .send => s.processSend stack ep regs
  | _ => .ok s

/-! ### The loops -/

/-- The body of the first loop, for one endpoint. -/
def listenBody (s : SyncServer σ) (ep : Endpoint) (rest : List Endpoint) (listenCnt badge : Nat)
    (regs : MsgRegs) : Except Fault (SyncServer σ) :=
  if badge = 0 then .ok { s with loop := .listening rest listenCnt }
  else if badge = 1 then
    { s with loop := .listening rest listenCnt }.beginPoll .netInterruptHandler
  else
    { s with
      loop := .listening rest (listenCnt + 1)
      heard := s.heard ++ [ep] }.processReq stack ep regs

/-- The end of a pass of the first loop. The counter starts again with every pass. -/
def endListenPass (s : SyncServer σ) (listenCnt : Nat) : SyncServer σ :=
  if listenCnt = threadNum then { s with loop := .idle }
  else { s with loop := .listening (createEps slot) 0, heard := [] }

/-- `let eps = POLL_EPS.lock()`: the guard lives to the end of the iteration. -/
def startServing (s : SyncServer σ) : Except Fault (SyncServer σ) :=
  (lock s.held .pollEps).map fun held => { s with held := held, loop := .serving s.net.pollEps }

/-- The body of the `for` loop of the second loop. -/
def serveBody (s : SyncServer σ) (ep : Endpoint) (rest : List Endpoint) (badge : Nat)
    (regs : MsgRegs) : Except Fault (SyncServer σ) :=
  let s := { s with loop := .serving rest }
  if badge = 0 then .ok s
  else if badge = 1 then s.beginPoll .netInterruptHandler
  else s.processReq stack ep regs

def processBlockedTask (s : SyncServer σ) (task : RecvBlockedTask) :
    Except Fault (RecvBlockedTask × SyncServer σ) :=
  (lock s.held .socketSet).bind fun _ =>
    match stack.state s.net.sockets task.handler with
    | none => .error (.panic .explicit)
    | some _ =>
      if stack.canRecv s.net.sockets task.handler then
        -- the whole buffer is offered, whatever length the client asked for
        match s.recvReply stack task.ep task.handler task.tcpBuffer tcpTxBufLen with
        | some s => .ok ({ task with complete := true }, s)
        | none => .ok (task, s)
      else .ok (task, s)

def processBlockedTasks (s : SyncServer σ) :
    List RecvBlockedTask → Except Fault (List RecvBlockedTask × SyncServer σ)
  | [] => .ok ([], s)
  | task :: rest =>
    (s.processBlockedTask stack task).bind fun (task, s) =>
      (s.processBlockedTasks rest).map fun (tasks, s) => (task :: tasks, s)

/-- The rest of the iteration after the `for` loop; both guards are dropped at its end. -/
def endServing (s : SyncServer σ) : Except Fault (SyncServer σ) :=
  (lock s.held .recvBlockedTasks).bind fun held =>
    let s : SyncServer σ := { s with held := held }
    (s.processBlockedTasks stack s.recvBlockedTasks).map fun done =>
      { done.2 with
        recvBlockedTasks := done.1.filter (!·.complete)
        held := unlock (unlock done.2.held .recvBlockedTasks) .pollEps
        loop := .idle }

/-- What the caller of `iface_poll` does next. -/
def returnPoll (s : SyncServer σ) (caller : Caller) : Except Fault (SyncServer σ) :=
  let s := s.endPoll stack
  match caller with
  | .netInterruptHandler =>
    match s.loop with
    | .idle => s.startServing
    | _ => .ok s
  | .processReq ep size => .ok (s.send ep .sendReply size)

/-! ### Steps -/

/-- What an action does, if it can be taken now. -/
def act (s : SyncServer σ) : SyncAction F → Option (Except Fault (SyncServer σ))
  | .ntfnPoll badge =>
    match s.polling, s.loop with
    | none, .idle =>
      some (if badge = 1 then s.beginPoll .netInterruptHandler else s.startServing)
    | _, _ => none
  | .nbRecv badge regs =>
    match s.polling, s.loop with
    | none, .listening (ep :: rest) listenCnt =>
      some (s.listenBody stack ep rest listenCnt badge regs)
    | none, .serving (ep :: rest) => some (s.serveBody stack ep rest badge regs)
    | _, _ => none
  | .frame f =>
    match s.polling with
    | some _ => some ((s.net.receive stack s.held f).map fun net => { s with net := net })
    | none => none
  | .run =>
    match s.polling, s.loop with
    | some caller, _ => some (s.returnPoll stack caller)
    | none, .listening [] listenCnt => some (.ok (s.endListenPass slot listenCnt))
    | none, .serving [] => some (s.endServing stack)
    | none, _ => none
  | .store buffer bytes => some (.ok (s.storeBytes buffer bytes))

/-- A step that fails has no successor. -/
def step (s : SyncServer σ) (a : SyncAction F) : Option (SyncServer σ) :=
  (s.act stack slot a).bind Except.toOption

/-! ### Sample runs -/

/-- A request on the endpoint of the `i`-th client. -/
def request (i : Nat) (type : MessageType) (r1 r2 r3 : BitVec 64) : SyncAction MiniFrame :=
  .nbRecv (i + 2) ⟨type, r1, r2, r3⟩

/-- `nb_recv` returns without a message, or with the signal of the network device. -/
def signal (badge : Nat) : SyncAction MiniFrame := .nbRecv badge ⟨.reserve, 0, 0, 0⟩

/-- All clients listen in one pass, and the server starts its second loop. -/
def listenPass : List (SyncAction MiniFrame) :=
  (List.range threadNum).map (request · .listen 80 0 0) ++ [.run]

/-- A peer sends its SYN while the server is idle: the first client gets its socket. -/
def connectRun : List (SyncAction MiniFrame) := listenPass ++ [.ntfnPoll 1, .frame .syn, .run]

/-! ### What the thread holds -/

end SyncServer

/-- The guards that are alive in a loop, outside the calls that it makes. -/
def Loop.locks : Loop → List SpinMutex
  | .serving _ => [.pollEps]
  | .listening _ _ => []
  | .idle => []

theorem Loop.mem_locks {loop : Loop} {m : SpinMutex} (member : m ∈ loop.locks) :
    m = .pollEps := by
  cases loop with
  | serving rest => simpa [locks] using member
  | listening rest cnt => simp [locks] at member
  | idle => simp [locks] at member

theorem Loop.free {loop : Loop} {m : SpinMutex} (other : m ≠ .pollEps) : m ∉ loop.locks :=
  fun member => other (mem_locks member)

/-- Only the `for` loop of the second loop holds `POLL_EPS`. -/
theorem Loop.locks_of_mem {loop : Loop} (member : SpinMutex.pollEps ∈ loop.locks) :
    loop.locks = [.pollEps] := by
  cases loop with
  | serving rest => rfl
  | listening rest cnt => cases member
  | idle => cases member

namespace SyncServer

variable {σ F : Type} {stack : Smoltcp σ F} {slot : Nat} {s t : SyncServer σ}

/-- `iface_poll` was called from a loop. -/
def polls (s : SyncServer σ) (caller : Caller) : SyncServer σ :=
  { s with held := .socketSet :: .interface :: s.loop.locks, polling := some caller }

/-- The thread holds the guards of its loop, and those of `iface_poll` inside it. -/
def Locked (s : SyncServer σ) : Prop :=
  s.held = match s.polling with
    | none => s.loop.locks
    | some _ => .socketSet :: .interface :: s.loop.locks

theorem Locked.outside (locked : s.Locked) (outside : s.polling = none) :
    s.held = s.loop.locks := by
  rw [Locked, outside] at locked
  exact locked

theorem Locked.inside (locked : s.Locked) {caller : Caller} (inside : s.polling = some caller) :
    s.held = .socketSet :: .interface :: s.loop.locks := by
  rw [Locked, inside] at locked
  exact locked

/-- No entry of the listen table is locked when a frame arrives. -/
theorem Locked.entries (locked : s.Locked) {caller : Caller} (inside : s.polling = some caller)
    (port : Nat) : SpinMutex.listenEntry port ∉ s.held := by
  simp only [locked.inside inside, List.mem_cons, not_or]
  exact ⟨nofun, nofun, Loop.free nofun⟩

theorem beginPoll_eq (held : s.held = s.loop.locks) (caller : Caller) :
    s.beginPoll caller = .ok (s.polls caller) := by
  have first : SpinMutex.interface ∉ s.held := held ▸ Loop.free nofun
  -- outside its calls the thread holds `POLL_EPS` at most, so both mutexes are free
  have second : SpinMutex.socketSet ∉ SpinMutex.interface :: s.held := by
    rw [held, List.mem_cons, not_or]
    exact ⟨nofun, Loop.free nofun⟩
  rw [beginPoll, lock_free first]
  simp only [Except.bind]
  rw [lock_free second, held]
  rfl

theorem beginPoll_meets (held : s.held = s.loop.locks) (caller : Caller) :
    Meets Fault.IsPanic (fun t => t = s.polls caller) (s.beginPoll caller) := by
  rw [beginPoll_eq held]
  exact rfl

theorem startServing_eq (held : s.held = []) :
    s.startServing = .ok { s with held := [.pollEps], loop := .serving s.net.pollEps } := by
  rw [startServing, held]
  rfl

theorem endPoll_held (stack : Smoltcp σ F) (locked : s.Locked) {caller : Caller} (inside : s.polling = some caller) :
    (s.endPoll stack).held = s.loop.locks := by
  change unlock (unlock s.held .socketSet) .interface = _
  rw [locked.inside inside]
  rfl

/-! ### What the steps can do -/

/-- `t` is `s` after some RecvReplies. -/
inductive Replied (s : SyncServer σ) : SyncServer σ → Prop
  | intro (sockets : σ) (memory : BufferPtr → Nat → BitVec 8) (replies : List EpMessage)
      (types : ∀ m ∈ replies, m.type = .recvReply) :
      Replied s { s with
        net := { s.net with sockets := sockets, sent := s.net.sent ++ replies }
        memory := memory }

theorem Replied.refl (s : SyncServer σ) : s.Replied s := by
  have same := Replied.intro (s := s) s.net.sockets s.memory [] nofun
  simpa using same

theorem Replied.trans {u : SyncServer σ} (first : s.Replied t) (second : t.Replied u) :
    s.Replied u := by
  obtain ⟨sockets, memory, replies, types⟩ := first
  obtain ⟨sockets', memory', replies', types'⟩ := second
  have both := Replied.intro (s := s) sockets' memory' (replies ++ replies') (by
    intro m member
    rcases List.mem_append.mp member with old | new
    · exact types m old
    · exact types' m new)
  simpa [List.append_assoc] using both

theorem recvReply_some {ep : Endpoint} {handler : SocketHandle} {buffer : BufferPtr} {len : Nat}
    (returned : s.recvReply stack ep handler buffer len = some t) : s.Replied t := by
  unfold recvReply at returned
  split at returned
  next bytes sockets received =>
    cases returned
    exact .intro sockets _ [⟨ep, .recvReply, bytes.length⟩] (by simp)
  · cases returned

/-- What `process_req` does with a request. -/
inductive Handled (stack : Smoltcp σ F) (s : SyncServer σ) (ep : Endpoint) (regs : MsgRegs) :
    SyncServer σ → Prop
  | listen (handler : SocketHandle) (sockets : σ) (table : ListenTable)
      (type : regs.type = .listen)
      (opened : stack.listen s.net.sockets regs.port = some (handler, sockets))
      (registered : s.net.listenTable.listenWithEp regs.port handler ep = .ok table) :
      Handled stack s ep regs { s with
        net := { s.net with sockets := sockets, listenTable := table }
        listened := s.listened ++ [ep] }
  | recv (t : SyncServer σ) (type : regs.type = .recv) (replied : s.Replied t) :
      Handled stack s ep regs t
  | block (type : regs.type = .recv) :
      Handled stack s ep regs { s with recvBlockedTasks :=
        s.recvBlockedTasks ++ [⟨ep, regs.buffer, regs.handler, false⟩] }
  | send (size : Nat) (sockets : σ) (type : regs.type = .send)
      (can : stack.canSend s.net.sockets regs.handler = true)
      (fits : regs.len ≤ tcpTxBufLen) :
      Handled stack s ep regs ({ s.setSockets sockets with
        sendsTaken := s.sendsTaken ++ [ep] }.polls (.processReq ep size))
  | dropSend (type : regs.type = .send)
      (refused : stack.canSend s.net.sockets regs.handler = true →
        ∃ data, stack.sendSlice s.net.sockets regs.handler data = .error ()) :
      Handled stack s ep regs { s with sendsTaken := s.sendsTaken ++ [ep] }
  | other (noListen : regs.type ≠ .listen) (noSend : regs.type ≠ .send) :
      Handled stack s ep regs s

section

variable {ep : Endpoint} {regs : MsgRegs}

theorem processListen_meets (held : s.held = s.loop.locks) (type : regs.type = .listen) :
    Meets Fault.IsPanic (Handled stack s ep regs) (s.processListen stack ep regs) := by
  unfold processListen
  split
  · exact trivial
  next handler sockets opened =>
    apply Meets.bind (lock_meets (held ▸ Loop.free nofun))
    rintro _ -
    apply Meets.bind (orPanic_meets _)
    intro table registered
    apply Meets.map (lock_meets (held ▸ Loop.free nofun))
    rintro _ -
    exact .listen handler sockets table type opened registered

theorem processRecv_meets (held : s.held = s.loop.locks) (type : regs.type = .recv) :
    Meets Fault.IsPanic (Handled stack s ep regs) (s.processRecv stack ep regs) := by
  unfold processRecv
  apply Meets.bind (lock_meets (held ▸ Loop.free nofun))
  rintro _ rfl
  split
  · exact trivial
  · split
    next can =>
      apply Handled.recv _ type
      cases replied : s.recvReply stack ep regs.handler regs.buffer (min tcpTxBufLen regs.len) with
      -- an error of `recv_slice` is swallowed: no reply, and the task is not blocked either
      | none => exact .refl s
      | some t => exact recvReply_some replied
    next cannot =>
      have free : SpinMutex.recvBlockedTasks ∉ SpinMutex.socketSet :: s.held := by
        rw [held, List.mem_cons, not_or]
        exact ⟨nofun, Loop.free nofun⟩
      apply Meets.map (lock_meets free)
      rintro _ -
      exact .block type

theorem processSend_meets (held : s.held = s.loop.locks) (type : regs.type = .send) :
    Meets Fault.IsPanic (Handled stack s ep regs) (s.processSend stack ep regs) := by
  unfold processSend
  dsimp only
  apply Meets.bind (lock_meets (held ▸ Loop.free nofun))
  rintro _ -
  split
  · exact trivial
  · split
    next can =>
      split
      next fits =>
        split
        next size sockets sent =>
          refine Meets.mono (beginPoll_meets ?_ _) ?_
          · exact held
          · rintro _ rfl
            exact .send size sockets type can fits
        -- no reply in either case
        next failed => exact .dropSend type fun _ => ⟨_, failed⟩
      · exact trivial
    next cannot => exact .dropSend type fun can => absurd can cannot

theorem processReq_meets (held : s.held = s.loop.locks) :
    Meets Fault.IsPanic (Handled stack s ep regs) (s.processReq stack ep regs) := by
  unfold processReq
  split
  next type => exact processListen_meets held type
  next type => exact processRecv_meets held type
  next type => exact processSend_meets held type
  -- requests of any other type are ignored
  next noListen _ noSend => exact .other noListen noSend

end

theorem processBlockedTask_meets (free : SpinMutex.socketSet ∉ s.held) (task : RecvBlockedTask) :
    Meets Fault.IsPanic (fun done => s.Replied done.2) (s.processBlockedTask stack task) := by
  unfold processBlockedTask
  apply Meets.bind (lock_meets free)
  rintro _ -
  split
  · exact trivial
  · split
    · split
      next u replied => exact recvReply_some replied
      · exact .refl s
    · exact .refl s

theorem processBlockedTasks_meets (tasks : List RecvBlockedTask)
    (free : SpinMutex.socketSet ∉ s.held) :
    Meets Fault.IsPanic (fun done => s.Replied done.2) (s.processBlockedTasks stack tasks) := by
  induction tasks generalizing s with
  | nil => exact .refl s
  | cons task rest ih =>
    apply Meets.bind (processBlockedTask_meets free task)
    rintro ⟨task', t⟩ first
    -- replies leave the guards as they are
    have free' : SpinMutex.socketSet ∉ t.held := by
      cases first
      exact free
    apply Meets.map (ih free')
    rintro ⟨tasks', u⟩ second
    exact first.trans second

/-- The loop has taken its next endpoint; `heard` says whether it delivered a request. -/
inductive Advanced (s : SyncServer σ) : Endpoint → Bool → SyncServer σ → Prop
  | quiet (ep : Endpoint) (rest : List Endpoint) (listenCnt : Nat)
      (at_ : s.loop = .listening (ep :: rest) listenCnt) :
      Advanced s ep false { s with loop := .listening rest listenCnt }
  | heard (ep : Endpoint) (rest : List Endpoint) (listenCnt : Nat)
      (at_ : s.loop = .listening (ep :: rest) listenCnt) :
      Advanced s ep true { s with
        loop := .listening rest (listenCnt + 1)
        heard := s.heard ++ [ep] }
  | serving (ep : Endpoint) (rest : List Endpoint) (heard : Bool)
      (at_ : s.loop = .serving (ep :: rest)) : Advanced s ep heard { s with loop := .serving rest }

theorem Advanced.same {ep : Endpoint} {heard : Bool} (advanced : s.Advanced ep heard t) :
    t.polling = s.polling ∧ t.held = s.held ∧ t.loop.locks = s.loop.locks := by
  cases advanced with
  | quiet _ _ at_ => exact ⟨rfl, rfl, by rw [at_]; rfl⟩
  | heard _ _ at_ => exact ⟨rfl, rfl, by rw [at_]; rfl⟩
  | serving _ _ at_ => exact ⟨rfl, rfl, by rw [at_]; rfl⟩

/-- Everything that a step can do. -/
inductive Moved (stack : Smoltcp σ F) (slot : Nat) (s : SyncServer σ) :
    SyncAction F → SyncServer σ → Prop
  | interrupt (outside : s.polling = none) (at_ : s.loop = .idle) :
      Moved stack slot s (.ntfnPoll 1) (s.polls .netInterruptHandler)
  | serve (badge : Nat) (outside : s.polling = none) (at_ : s.loop = .idle) :
      Moved stack slot s (.ntfnPoll badge) { s with
        held := [.pollEps]
        loop := .serving s.net.pollEps }
  | nothing (ep : Endpoint) (regs : MsgRegs) (t : SyncServer σ) (outside : s.polling = none)
      (advanced : s.Advanced ep false t) : Moved stack slot s (.nbRecv 0 regs) t
  | interrupted (ep : Endpoint) (regs : MsgRegs) (s₁ : SyncServer σ) (outside : s.polling = none)
      (advanced : s.Advanced ep false s₁) :
      Moved stack slot s (.nbRecv 1 regs) (s₁.polls .netInterruptHandler)
  | request (ep : Endpoint) (badge : Nat) (regs : MsgRegs) (s₁ t : SyncServer σ)
      (outside : s.polling = none) (advanced : s.Advanced ep true s₁)
      (noNothing : badge ≠ 0) (noInterrupt : badge ≠ 1) (handled : Handled stack s₁ ep regs t) :
      Moved stack slot s (.nbRecv badge regs) t
  | frame (caller : Caller) (f : F) (net : NetState σ Unit Unit)
      (inside : s.polling = some caller) (received : s.net.receive stack s.held f = .ok net) :
      Moved stack slot s (.frame f) { s with net := net }
  | returned (inside : s.polling = some .netInterruptHandler) (busy : s.loop ≠ .idle) :
      Moved stack slot s .run (s.endPoll stack)
  | returnedIdle (inside : s.polling = some .netInterruptHandler) (at_ : s.loop = .idle) :
      Moved stack slot s .run { s.endPoll stack with
        held := [.pollEps]
        loop := .serving s.net.pollEps }
  | sent (ep : Endpoint) (size : Nat) (inside : s.polling = some (.processReq ep size)) :
      Moved stack slot s .run ((s.endPoll stack).send ep .sendReply size)
  | passEnd (listenCnt : Nat) (outside : s.polling = none)
      (at_ : s.loop = .listening [] listenCnt) :
      Moved stack slot s .run (s.endListenPass slot listenCnt)
  | served (tasks : List RecvBlockedTask) (t : SyncServer σ) (outside : s.polling = none)
      (at_ : s.loop = .serving []) (replied : s.Replied t) :
      Moved stack slot s .run { t with recvBlockedTasks := tasks, held := [], loop := .idle }
  | store (buffer : BufferPtr) (bytes : List (BitVec 8)) :
      Moved stack slot s (.store buffer bytes) (s.storeBytes buffer bytes)

/-- A frame answers a waiting client while the `for` loop holds the guard of `POLL_EPS`. -/
def AnswersInLoop (stack : Smoltcp σ F) (s : SyncServer σ) : SyncAction F → Prop
  | .frame f => s.polling.isSome ∧ s.loop.locks = [.pollEps] ∧ (s.net.answered stack f).isSome
  | _ => False

/-- The faults that an action can end in. -/
def Allowed (stack : Smoltcp σ F) (s : SyncServer σ) (a : SyncAction F) (e : Fault) : Prop :=
  e.IsPanic ∨ (e = .relock .pollEps ∧ s.AnswersInLoop stack a)

theorem meets_allowed {post : SyncServer σ → Prop} {a : SyncAction F}
    {r : Except Fault (SyncServer σ)} (meets : Meets Fault.IsPanic post r) :
    Meets (s.Allowed stack a) post r := by
  cases r with
  | ok t => exact meets
  | error e => exact .inl meets

/-- What both `for` loops do with the message on an endpoint. -/
theorem body_meets {ep : Endpoint} {badge : Nat} {regs : MsgRegs} {quiet heard : SyncServer σ}
    (locked : s.Locked) (outside : s.polling = none) (isQuiet : s.Advanced ep false quiet)
    (isHeard : s.Advanced ep true heard) :
    Meets Fault.IsPanic (Moved stack slot s (.nbRecv badge regs))
      (if badge = 0 then .ok quiet
      else if badge = 1 then quiet.beginPoll .netInterruptHandler
      else heard.processReq stack ep regs) := by
  -- taking an endpoint changes none of the guards
  have held : ∀ {heard u}, s.Advanced ep heard u → u.held = u.loop.locks := by
    intro heard u advanced
    obtain ⟨-, sameHeld, sameLocks⟩ := advanced.same
    rw [sameHeld, sameLocks, locked.outside outside]
  split
  next isZero =>
    subst isZero
    exact .nothing ep regs quiet outside isQuiet
  next noNothing =>
    split
    next isOne =>
      subst isOne
      rw [beginPoll_eq (held isQuiet)]
      exact .interrupted ep regs quiet outside isQuiet
    next noInterrupt =>
      refine Meets.mono (processReq_meets (held isHeard)) ?_
      intro t handled
      exact .request ep badge regs heard t outside isHeard noNothing noInterrupt handled

theorem nbRecv_meets (locked : s.Locked) {badge : Nat} {regs : MsgRegs}
    {r : Except Fault (SyncServer σ)} (acts : s.act stack slot (.nbRecv badge regs) = some r) :
    Meets Fault.IsPanic (Moved stack slot s (.nbRecv badge regs)) r := by
  simp only [act] at acts
  split at acts
  next ep rest listenCnt outside at_ =>
    cases acts
    exact body_meets locked outside (.quiet ep rest listenCnt at_) (.heard ep rest listenCnt at_)
  next ep rest outside at_ =>
    cases acts
    exact body_meets locked outside (.serving ep rest false at_) (.serving ep rest true at_)
  · cases acts

theorem returnPoll_eq (slot : Nat) (locked : s.Locked) {caller : Caller} (inside : s.polling = some caller) :
    ∃ t, s.returnPoll stack caller = .ok t ∧ Moved stack slot s (.run : SyncAction F) t := by
  have held := endPoll_held stack locked inside
  cases caller with
  | netInterruptHandler =>
    cases at_ : s.loop with
    | idle =>
      have free : (s.endPoll stack).held = [] := by rw [held, at_]; rfl
      refine ⟨_, ?_, .returnedIdle inside at_⟩
      -- the handler was called from the top of the second loop, which goes on to the guard
      change (match s.loop with | .idle => _ | _ => _) = _
      rw [at_]
      exact startServing_eq free
    | listening rest listenCnt =>
      refine ⟨_, ?_, .returned inside (by simp [at_])⟩
      change (match s.loop with | .idle => _ | _ => _) = _
      rw [at_]
    | serving rest =>
      refine ⟨_, ?_, .returned inside (by simp [at_])⟩
      change (match s.loop with | .idle => _ | _ => _) = _
      rw [at_]
  | processReq ep size => exact ⟨_, rfl, .sent ep size inside⟩

theorem endServing_meets (locked : s.Locked) (outside : s.polling = none)
    (at_ : s.loop = .serving []) :
    Meets Fault.IsPanic (Moved stack slot s (.run : SyncAction F)) (s.endServing stack) := by
  have held : s.held = [.pollEps] := by rw [locked.outside outside, at_]; rfl
  unfold endServing
  apply Meets.bind (lock_meets (by simp [held]))
  rintro _ rfl
  apply Meets.map (processBlockedTasks_meets _ (by simp [held]))
  rintro ⟨tasks, t⟩ ⟨sockets, memory, replies, types⟩
  -- both guards are dropped at the end of the iteration
  have dropped : unlock (unlock (.recvBlockedTasks :: s.held) .recvBlockedTasks) .pollEps = [] := by
    rw [held]
    rfl
  dsimp only
  rw [dropped]
  exact .served _ _ outside at_ (.intro sockets memory replies types)

theorem frame_meets (locked : s.Locked) {f : F} {r : Except Fault (SyncServer σ)}
    (acts : s.act stack slot (.frame f) = some r) :
    Meets (s.Allowed stack (.frame f)) (Moved stack slot s (.frame f)) r := by
  simp only [act] at acts
  split at acts
  next caller inside =>
    cases acts
    cases received : s.net.receive stack s.held f with
    | ok net => exact .frame caller f net inside received
    | error e =>
      cases e with
      | panic p => exact .inl trivial
      | relock m =>
        obtain ⟨rfl, taken, answers⟩ :=
          NetState.receive_relock stack (locked.entries inside) received
        have member : SpinMutex.pollEps ∈ s.loop.locks := by
          simpa [locked.inside inside] using taken
        exact .inr ⟨rfl, by simp [inside], Loop.locks_of_mem member, answers⟩
  · cases acts

/-- A step does what `Moved` says, panics, or spins on `POLL_EPS`. -/
theorem act_meets (locked : s.Locked) {a : SyncAction F} {r : Except Fault (SyncServer σ)}
    (acts : s.act stack slot a = some r) :
    Meets (s.Allowed stack a) (Moved stack slot s a) r := by
  cases a with
  | ntfnPoll badge =>
    apply meets_allowed
    simp only [act] at acts
    split at acts
    next outside at_ =>
      cases acts
      have held : s.held = [] := by rw [locked.outside outside, at_]; rfl
      split
      next isOne =>
        subst isOne
        rw [beginPoll_eq (locked.outside outside)]
        exact .interrupt outside at_
      next =>
        rw [startServing_eq held]
        exact .serve badge outside at_
    · cases acts
  | nbRecv badge regs => exact meets_allowed (nbRecv_meets locked acts)
  | frame f => exact frame_meets locked acts
  | run =>
    apply meets_allowed
    simp only [act] at acts
    split at acts
    next caller inside =>
      cases acts
      obtain ⟨t, returned, moved⟩ := returnPoll_eq slot locked inside
      rw [returned]
      exact moved
    next listenCnt outside at_ =>
      cases acts
      exact .passEnd listenCnt outside at_
    next outside at_ =>
      cases acts
      exact endServing_meets locked outside at_
    · cases acts
  | store buffer bytes =>
    cases acts
    exact .store buffer bytes

theorem step_moved (locked : s.Locked) {a : SyncAction F} (moved : s.step stack slot a = some t) :
    Moved stack slot s a t := by
  obtain ⟨r, acts, returned⟩ := Option.bind_eq_some_iff.mp moved
  -- a step with a successor did not fail
  exact (act_meets locked acts).result ((toOption_eq_some r t).mp returned)

theorem Handled.locked {ep : Endpoint} {regs : MsgRegs} (handled : Handled stack s ep regs t)
    (locked : s.Locked) : t.Locked := by
  cases handled with
  | listen handler sockets table _ _ _ => exact locked
  | recv _ _ replied => cases replied; exact locked
  | block _ => exact locked
  | send size sockets _ _ _ => exact rfl
  | dropSend _ _ => exact locked
  | other _ _ => exact locked

theorem locked_init : (init stack slot).Locked := rfl

/-- The guards that the thread holds follow its position. -/
theorem Moved.locked {a : SyncAction F} (moved : Moved stack slot s a t) (locked : s.Locked) :
    t.Locked := by
  have advances : ∀ {ep heard u}, s.Advanced ep heard u → u.Locked := by
    intro ep heard u advanced
    obtain ⟨polling, held, locks⟩ := advanced.same
    rw [Locked, polling, held, locks]
    exact locked
  cases moved with
  | interrupt outside at_ => exact rfl
  | serve badge outside at_ => rw [Locked, outside]; rfl
  | nothing ep regs _ outside advanced => exact advances advanced
  | interrupted ep regs s₁ outside advanced => exact rfl
  | request ep badge regs s₁ _ outside advanced _ _ handled =>
    exact handled.locked (advances advanced)
  | frame caller f net inside received => exact locked
  | returned inside busy => exact endPoll_held stack locked inside
  | returnedIdle inside at_ => exact rfl
  | sent ep size inside => exact endPoll_held stack locked inside
  | passEnd listenCnt outside at_ =>
    have held : s.held = [] := by rw [locked.outside outside, at_]; rfl
    -- the first loop holds no guard, whether it goes round again or ends
    unfold endListenPass
    split <;> rw [Locked, outside] <;> exact held
  | served tasks t outside at_ replied =>
    cases replied
    rw [Locked, outside]
    rfl
  | store buffer bytes => exact locked

end SyncServer

end RootTask.Net
