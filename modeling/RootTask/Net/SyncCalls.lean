import RootTask.Lib.Custody
import RootTask.Net.ListenPhase
import RootTask.Net.SelfDeadlock

/-!
# Clients of the synchronous server

The threads of `tcp_server` in `sync_tcp_test.rs` and the calls of `sync_tcp.rs` that they make.
Every thread has a capability of its own to one endpoint, which carries requests one way and
replies the other. `NET_STACK_MAP2` tells the later calls which endpoint a socket belongs to.

`ep.send` blocks until the other side takes the message. The server is the one exception: it
answers a Listen with `nb_send`, whose message is lost unless the client is already in `ep.recv`.
No client looks at the type of a reply.
-/
namespace RootTask.Net

open RootTask.Runtime RootTask.Transition RootTask.Custody RootTask.Outcome

/-! ### The client threads -/

/-- The call that `tcp_server` makes next, or is in. -/
inductive ServePoint where
  | listen
  | recv (fd : SocketHandle)
  /-- The answer in the loop. -/
  | send (fd : SocketHandle)
  /-- The answer behind the loop. -/
  | last (fd : SocketHandle)
  /-- After `tcb_suspend`. -/
  | suspended
  deriving DecidableEq, Repr

/-- How far the call is. An endpoint goes by the thread that it was made for. -/
inductive CallPhase where
  | running
  /-- In `ep.send`. -/
  | sending (ep : Nat) (regs : MsgRegs)
  /-- Between `ep.send` and `ep.recv`. -/
  | sent (ep : Nat)
  /-- In `ep.recv`. -/
  | receiving (ep : Nat)
  /-- `ep.recv` has returned with these registers. -/
  | replied (type : MessageType) (value : Nat)
  deriving DecidableEq, Repr

structure SyncClient where
  point : ServePoint
  phase : CallPhase
  deriving DecidableEq, Repr

structure SyncClients (σ : Type) where
  server : SyncServer σ
  client : Nat → SyncClient
  netStackMap2 : SocketHandle → Option Nat
  /-- The clients whose ListenReply was sent before they were in `ep.recv`. -/
  lost : List Endpoint
  /-- The clients whose Send was taken while the socket could not send. -/
  refused : List Endpoint

inductive SyncClientsAction (F : Type) where
  /-- A client thread goes on. -/
  | client (i : Nat)
  | ntfnPoll (badge : Nat)
  /-- `nb_recv` takes the message of a client. -/
  | message (i : Nat)
  /-- `nb_recv` returns the badge of the notification. -/
  | signal
  /-- `nb_recv` finds nothing. -/
  | silence
  | frame (f : F)
  | run
  deriving DecidableEq, Repr

def CallPhase.sendsOn (slot : Nat) (ep : Endpoint) : CallPhase → Bool
  | .sending j _ => ep == ⟨slot + j⟩
  | _ => false

/-- Who takes a message on an endpoint. A blocking `send` waits for a client that is on its way to
`ep.recv`, the `nb_send` of a ListenReply does not. -/
def CallPhase.hears (slot : Nat) (m : EpMessage) : CallPhase → Bool
  | .sent j => m.ep == ⟨slot + j⟩ && m.type != .listenReply
  | .receiving j => m.ep == ⟨slot + j⟩
  | _ => false

namespace SyncClients

variable {σ F : Type} (stack : Smoltcp σ F) (slot : Nat) (buffer : Nat → BufferPtr)

def init : SyncClients σ :=
  ⟨SyncServer.init stack slot, fun _ => ⟨.listen, .running⟩, fun _ => none, [], []⟩

def setClient (s : SyncClients σ) (i : Nat) (c : SyncClient) : SyncClients σ :=
  { s with client := Function.update s.client i c }

def setPhase (s : SyncClients σ) (i : Nat) (phase : CallPhase) : SyncClients σ :=
  s.setClient i { s.client i with phase := phase }

/-- `sync_listen`, up to `ep.send`. The server reads the registers of a Listen up to the port. -/
def syncListen (s : SyncClients σ) (i : Nat) (port : BitVec 16) : SyncClients σ :=
  s.setPhase i (.sending i ⟨.listen, port.zeroExtend 64, 0, 0⟩)

/-- `sync_send` and `sync_recv`, up to `ep.send`. -/
def transfer (type : MessageType) (s : SyncClients σ) (i : Nat) (handler : SocketHandle)
    (len : BitVec 64) : Except Panic (SyncClients σ) :=
  match s.netStackMap2 handler with
  | none => .error .unwrapNone
  | some ep =>
    .ok (s.setPhase i (.sending ep ⟨type, BitVec.ofNat 64 handler.index, buffer i, len⟩))

def syncSend : SyncClients σ → Nat → SocketHandle → BitVec 64 → Except Panic (SyncClients σ) :=
  transfer buffer .send

def syncRecv : SyncClients σ → Nat → SocketHandle → BitVec 64 → Except Panic (SyncClients σ) :=
  transfer buffer .recv

/-- `tcp_buffer.data[0] = byte`. -/
def fill (s : SyncClients σ) (i : Nat) (byte : BitVec 8) : SyncClients σ :=
  { s with server := s.server.storeBytes (buffer i) [byte] }

/-- `tcp_server`, from between two calls into the next one; `none` if there is none. -/
def begin (s : SyncClients σ) (i : Nat) : Option (Except Panic (SyncClients σ)) :=
  match (s.client i).point with
  | .listen => some (.ok (s.syncListen i 80))
  | .recv fd => some (s.syncRecv buffer i fd 1)
  -- "!"
  | .send fd => some ((s.fill buffer i 0x21).syncSend buffer i fd 1)
  -- "."
  | .last fd => some ((s.fill buffer i 0x2e).syncSend buffer i fd 1)
  | .suspended => none

/-- What the call does with `msg_regs()[1]`, and `tcp_server` with its result. -/
def finish (s : SyncClients σ) (i value : Nat) : SyncClients σ :=
  match (s.client i).point with
  | .listen =>
    { s.setClient i ⟨.recv ⟨value⟩, .running⟩ with
      netStackMap2 := Function.update s.netStackMap2 ⟨value⟩ (some i) }
  | .recv fd =>
    if s.server.memory (buffer i) 0 = 0x2e then s.setClient i ⟨.last fd, .running⟩
    else s.setClient i ⟨.send fd, .running⟩
  | .send fd => s.setClient i ⟨.recv fd, .running⟩
  | .last _ => s.setClient i ⟨.suspended, .running⟩
  | .suspended => s

/-- A client thread up to where it blocks or calls again; `none` while it is blocked. -/
def clientStep (s : SyncClients σ) (i : Nat) : Option (Except Panic (SyncClients σ)) :=
  match (s.client i).phase with
  | .running => s.begin buffer i
  | .sent ep => some (.ok (s.setPhase i (.receiving ep)))
  | .replied _ value => some (.ok (s.finish buffer i value))
  | .sending _ _ => none
  | .receiving _ => none

/-! ### The endpoints -/

/-- What the server sees of an action. The badge is that of the capability used. -/
def serverAction (s : SyncClients σ) : SyncClientsAction F → Option (SyncAction F)
  | .client _ => none
  | .ntfnPoll badge => some (.ntfnPoll badge)
  | .message i =>
    match (s.client i).phase with
    | .sending ep regs =>
      if i < threadNum ∧ s.server.nextEp = some ⟨slot + ep⟩ then some (.nbRecv (ep + 2) regs)
      else none
    | _ => none
  | .signal => some (.nbRecv 1 ⟨.reserve, 0, 0, 0⟩)
  | .silence =>
    if ∃ ep ∈ s.server.nextEp, ∃ i ∈ List.range threadNum, (s.client i).phase.sendsOn slot ep then
      none
    else some (.nbRecv 0 ⟨.reserve, 0, 0, 0⟩)
  | .frame f => some (.frame f)
  | .run => some .run

/-- The sender of a message that the server takes goes on. -/
def hear (s : SyncClients σ) : SyncClientsAction F → SyncClients σ
  | .message i =>
    match (s.client i).phase with
    | .sending ep regs =>
      { s.setPhase i (.sent ep) with
        refused :=
          if regs.type = .send ∧ ¬ stack.canSend s.server.net.sockets regs.handler then
            s.refused ++ [⟨slot + ep⟩]
          else s.refused }
    | _ => s
  | _ => s

/-- A message of the server; `none` if the server waits for somebody to take it. -/
def deliver (s : SyncClients σ) (m : EpMessage) : Option (SyncClients σ) :=
  match (List.range threadNum).find? fun i => (s.client i).phase.hears slot m with
  | some i => some (s.setPhase i (.replied m.type m.value))
  | none => if m.type = .listenReply then some { s with lost := s.lost ++ [m.ep] } else none

def deliverAll (s : SyncClients σ) : List EpMessage → Option (SyncClients σ)
  | [] => some s
  | m :: rest => (s.deliver slot m).bind fun s => s.deliverAll rest

/-- The server goes on, and its messages are delivered. -/
def serverStep (s : SyncClients σ) (a : SyncClientsAction F) (t : SyncServer σ) :
    Option (SyncClients σ) :=
  { s.hear stack slot a with server := t }.deliverAll slot
    (t.net.sent.drop s.server.net.sent.length)

def step (s : SyncClients σ) : SyncClientsAction F → Option (SyncClients σ)
  | .client i => if i < threadNum then (s.clientStep buffer i).bind Except.toOption else none
  | a => (s.serverAction slot a).bind fun b =>
    (s.server.step stack slot b).bind fun t => s.serverStep stack slot a t

end SyncClients

/-! ### Requests in the server -/

/-- A request that the server has taken and not answered. -/
inductive SyncToken where
  | listening (ep : Endpoint)
  | blocked (task : RecvBlockedTask)
  | sending (ep : Endpoint)
  deriving DecidableEq, Repr

def SyncToken.ep : SyncToken → Endpoint
  | .listening ep => ep
  | .blocked task => task.ep
  | .sending ep => ep

/-- Where the server keeps requests. -/
inductive SyncPlace where
  | table (port : Nat)
  | tasks
  | polling
  deriving DecidableEq, Repr

/-- `nb_recv` returned the badge of a client. -/
def SyncAction.isRequest {F : Type} : SyncAction F → Bool
  | .nbRecv badge _ => badge != 0 && badge != 1
  | _ => false

def Caller.token : Caller → Option SyncToken
  | .netInterruptHandler => none
  | .processReq ep _ => some (.sending ep)

namespace SyncServer

variable {σ F : Type} (stack : Smoltcp σ F) {s t : SyncServer σ} {ep : Endpoint} {regs : MsgRegs}

def places (s : SyncServer σ) : SyncPlace → List SyncToken
  | .table port => (s.net.listenTable.entry port).blockEp.map .listening
  | .tasks => s.recvBlockedTasks.map .blocked
  | .polling => (s.polling.bind Caller.token).toList

/-- `process_req` does not panic on a request. -/
def Accepts (s : SyncServer σ) (regs : MsgRegs) : Prop :=
  match regs.type with
  | .listen => regs.port ≠ 0 ∧ stack.listen s.net.sockets regs.port ≠ none
  | .recv => stack.state s.net.sockets regs.handler ≠ none
  | .send => stack.state s.net.sockets regs.handler ≠ none ∧ regs.len ≤ tcpTxBufLen
  | _ => True

/-- What `process_req` does with a request, and whom it answers. -/
inductive Taken (s : SyncServer σ) (ep : Endpoint) (regs : MsgRegs) : SyncServer σ → Prop
  | listen (handler : SocketHandle) (sockets : σ) (table : ListenTable)
      (type : regs.type = .listen)
      (opened : stack.listen s.net.sockets regs.port = some (handler, sockets))
      (registered : s.net.listenTable.listenWithEp regs.port handler ep = .ok table) :
      Taken s ep regs { s with
        net := { s.net with sockets := sockets, listenTable := table }
        listened := s.listened ++ [ep] }
  | recv (bytes : List (BitVec 8)) (sockets : σ) (type : regs.type = .recv)
      (received : stack.recvSlice s.net.sockets regs.handler (min tcpTxBufLen regs.len) =
        .ok (bytes, sockets)) :
      Taken s ep regs
        (((s.setSockets sockets).storeBytes regs.buffer bytes).send ep .recvReply bytes.length)
  | recvFails (type : regs.type = .recv) (can : stack.canRecv s.net.sockets regs.handler = true)
      (failed : stack.recvSlice s.net.sockets regs.handler (min tcpTxBufLen regs.len) =
        .error ()) : Taken s ep regs s
  | block (type : regs.type = .recv) :
      Taken s ep regs { s with recvBlockedTasks :=
        s.recvBlockedTasks ++ [⟨ep, regs.buffer, regs.handler, false⟩] }
  | send (size : Nat) (sockets : σ) (data : List (BitVec 8)) (type : regs.type = .send)
      (can : stack.canSend s.net.sockets regs.handler = true)
      (sliced : stack.sendSlice s.net.sockets regs.handler data = .ok (size, sockets)) :
      Taken s ep regs ({ s.setSockets sockets with
        sendsTaken := s.sendsTaken ++ [ep] }.polls (.processReq ep size))
  | refuse (type : regs.type = .send) (cannot : ¬ stack.canSend s.net.sockets regs.handler) :
      Taken s ep regs { s with sendsTaken := s.sendsTaken ++ [ep] }
  | sendFails (data : List (BitVec 8)) (type : regs.type = .send)
      (can : stack.canSend s.net.sockets regs.handler = true)
      (failed : stack.sendSlice s.net.sockets regs.handler data = .error ()) :
      Taken s ep regs { s with sendsTaken := s.sendsTaken ++ [ep] }
  | other (noListen : regs.type ≠ .listen) (noRecv : regs.type ≠ .recv)
      (noSend : regs.type ≠ .send) : Taken s ep regs s

theorem processReq_taken (held : s.held = s.loop.locks) :
    Meets (fun _ => ¬ s.Accepts stack regs) (Taken stack s ep regs)
      (s.processReq stack ep regs) := by
  have free : ∀ {m : SpinMutex}, m ≠ .pollEps → m ∉ s.held := fun other =>
    held ▸ Loop.free other
  unfold processReq
  split
  next type =>
    unfold processListen
    split
    next none_ => exact fun accepts => by simp [Accepts, type, none_] at accepts
    next handler sockets opened =>
      rw [lock_free (free (by simp)), Except.bind]
      dsimp only
      cases registered : s.net.listenTable.listenWithEp regs.port handler ep with
      | error e =>
        intro accepts
        rw [Accepts, type] at accepts
        simp [ListenTable.listenWithEp, ListenTable.register, accepts.1] at registered
      | ok table =>
        rw [orPanic, Except.bind]
        rw [lock_free (free (by simp))]
        exact .listen handler sockets table type opened registered
  next type =>
    unfold processRecv
    rw [lock_free (free (by simp)), Except.bind]
    dsimp only
    split
    next none_ => exact fun accepts => by simp [Accepts, type, none_] at accepts
    next =>
      split
      next can =>
        rw [recvReply]
        split
        next bytes sockets received => exact .recv bytes sockets type received
        next failed => exact .recvFails type can failed
      next cannot =>
        have unlocked : SpinMutex.recvBlockedTasks ∉ SpinMutex.socketSet :: s.held := by
          rw [List.mem_cons, not_or]
          exact ⟨by simp, free (by simp)⟩
        rw [lock_free unlocked]
        exact .block type
  next type =>
    unfold processSend
    dsimp only
    rw [lock_free (free (by simp)), Except.bind]
    split
    next none_ => exact fun accepts => by simp [Accepts, type, none_] at accepts
    next =>
      split
      next can =>
        split
        next fits =>
          split
          next size sockets sliced =>
            rw [beginPoll_eq]
            · exact .send size sockets _ type can sliced
            · exact held
          next failed => exact .sendFails _ type can failed
        next long => exact fun accepts => by simp [Accepts, type, long] at accepts
      next cannot => exact .refuse type cannot
  next noListen noRecv noSend => exact .other noListen noRecv noSend

/-- A pass over the blocked tasks: some are answered, the others stay. -/
inductive Swept : List RecvBlockedTask → List EpMessage → List RecvBlockedTask → Prop
  | nil : Swept [] [] []
  | answer (task : RecvBlockedTask) (size : Nat) {rest left : List RecvBlockedTask}
      {replies : List EpMessage} (swept : Swept rest replies left) :
      Swept (task :: rest) (⟨task.ep, .recvReply, size⟩ :: replies) left
  | keep (task : RecvBlockedTask) {rest left : List RecvBlockedTask} {replies : List EpMessage}
      (swept : Swept rest replies left) : Swept (task :: rest) replies (task :: left)

namespace Swept

variable {tasks left : List RecvBlockedTask} {replies : List EpMessage}

theorem sublist (swept : Swept tasks replies left) : left.Sublist tasks := by
  induction swept with
  | nil => exact .slnil
  | answer task size _ ih => exact ih.cons task
  | keep task _ ih => exact ih.cons_cons task

theorem type (swept : Swept tasks replies left) {m : EpMessage} (member : m ∈ replies) :
    m.type = .recvReply := by
  induction swept with
  | nil => cases member
  | answer task size _ ih =>
    rcases List.mem_cons.mp member with rfl | later
    · rfl
    · exact ih later
  | keep task _ ih => exact ih member

theorem perm (swept : Swept tasks replies left) :
    (replies.map EpMessage.ep ++ left.map RecvBlockedTask.ep).Perm
      (tasks.map RecvBlockedTask.ep) := by
  induction swept with
  | nil => exact .refl _
  | answer task size _ ih => exact ih.cons task.ep
  | keep task _ ih => exact List.perm_middle.trans (ih.cons task.ep)

end Swept

theorem processBlockedTask_swept (handshake : stack.Handshake) (task : RecvBlockedTask)
    (free : SpinMutex.socketSet ∉ s.held) :
    Meets (fun _ => stack.state s.net.sockets task.handler = none)
      (fun done => done = (task, s) ∨ ∃ t sockets memory size,
        done = ({ task with complete := true }, t) ∧
        stack.state sockets = stack.state s.net.sockets ∧
        t = { s with
          net := { s.net with
            sockets := sockets
            sent := s.net.sent ++ [⟨task.ep, .recvReply, size⟩] }
          memory := memory })
      (s.processBlockedTask stack task) := by
  unfold processBlockedTask
  rw [lock_free free, Except.bind]
  dsimp only
  split
  next none_ => exact none_
  next =>
    split
    next can =>
      cases received : stack.recvSlice s.net.sockets task.handler tcpTxBufLen with
      | error e =>
        simp only [recvReply, received]
        exact .inl rfl
      | ok result =>
        simp only [recvReply, received]
        exact .inr ⟨_, result.2, _, result.1.length, rfl, (handshake.recv_keeps received).1, rfl⟩
    next => exact .inl rfl

theorem processBlockedTasks_swept (handshake : stack.Handshake) (tasks : List RecvBlockedTask)
    (blocked : ∀ task ∈ tasks, task.complete = false) (free : SpinMutex.socketSet ∉ s.held) :
    Meets (fun _ => ∃ task ∈ tasks, stack.state s.net.sockets task.handler = none)
      (fun done => ∃ sockets memory replies,
        Swept tasks replies (done.1.filter (!·.complete)) ∧
        stack.state sockets = stack.state s.net.sockets ∧
        done.2 = { s with
          net := { s.net with sockets := sockets, sent := s.net.sent ++ replies }
          memory := memory })
      (s.processBlockedTasks stack tasks) := by
  induction tasks generalizing s with
  | nil =>
    refine ⟨s.net.sockets, s.memory, [], .nil, rfl, ?_⟩
    rw [List.append_nil]
  | cons task rest ih =>
    have here := blocked task List.mem_cons_self
    have later : ∀ task ∈ rest, task.complete = false :=
      fun other member => blocked other (List.mem_cons_of_mem _ member)
    have first := processBlockedTask_swept stack handshake task free
    rw [processBlockedTasks]
    cases stepped : s.processBlockedTask stack task with
    | error e => exact ⟨task, List.mem_cons_self, first.failure stepped⟩
    | ok result =>
      rcases first.result stepped with rfl | ⟨t, sockets, memory, size, rfl, same, answered⟩
      -- the task stays
      · have second := ih later free
        cases swept : s.processBlockedTasks stack rest with
        | error e =>
          obtain ⟨other, member, none_⟩ := second.failure swept
          rw [Except.bind]
          dsimp only
          rw [swept]
          exact ⟨other, List.mem_cons_of_mem _ member, none_⟩
        | ok done =>
          obtain ⟨sockets, memory, replies, isSwept, same, result⟩ := second.result swept
          rw [Except.bind]
          dsimp only
          rw [swept]
          refine ⟨sockets, memory, replies, ?_, same, result⟩
          rw [List.filter_cons_of_pos (by simp [here])]
          exact isSwept.keep task
      -- the task is answered
      · have held : t.held = s.held := by rw [answered]
        have states : stack.state t.net.sockets = stack.state s.net.sockets := by
          rw [answered]
          exact same
        have second := ih later (held ▸ free)
        cases swept : t.processBlockedTasks stack rest with
        | error e =>
          obtain ⟨other, member, none_⟩ := second.failure swept
          rw [Except.bind]
          dsimp only
          rw [swept]
          rw [states] at none_
          exact ⟨other, List.mem_cons_of_mem _ member, none_⟩
        | ok done =>
          obtain ⟨sockets', memory', replies, isSwept, same', result⟩ := second.result swept
          rw [Except.bind]
          dsimp only
          rw [swept]
          refine ⟨sockets', memory', ⟨task.ep, .recvReply, size⟩ :: replies, ?_,
            same'.trans states, ?_⟩
          · rw [List.filter_cons_of_neg (by simp)]
            exact isSwept.answer task size
          · dsimp only
            rw [result, answered]
            simp only [List.append_assoc, List.cons_append, List.nil_append]

/-- Nothing that concerns the clients is different. -/
structure SameView (s t : SyncServer σ) : Prop where
  places : t.places = s.places
  queues : ∀ port, (t.net.listenTable.entry port).synQueue = (s.net.listenTable.entry port).synQueue
  opens : ∀ h, stack.state t.net.sockets h = none ↔ stack.state s.net.sockets h = none
  listened : t.listened = s.listened
  sent : t.net.sent = s.net.sent

/-- What a step does for the clients. -/
inductive Effect (s : SyncServer σ) : SyncAction F → SyncServer σ → Prop
  | quiet {a : SyncAction F} {t : SyncServer σ} (noRequest : a.isRequest = false)
      (same : SameView stack s t) : Effect s a t
  | request {ep : Endpoint} {badge : Nat} {regs : MsgRegs} {s₁ t : SyncServer σ}
      (isRequest : (SyncAction.nbRecv badge regs : SyncAction F).isRequest = true)
      (next : s.nextEp = some ep) (same : SameView stack s s₁) (outside : s₁.polling = none)
      (sockets : s₁.net.sockets = s.net.sockets) (taken : Taken stack s₁ ep regs t) :
      Effect s (.nbRecv badge regs) t
  | answered (f : F) {port : Nat} {en : ListenTableEntry} {ep : Endpoint} {eps : List Endpoint}
      {handler : SocketHandle} {handlers : List SocketHandle}
      (found : s.net.listenTable port = some en) (waiting : en.blockEp = ep :: eps)
      (queue : en.synQueue = handler :: handlers) :
      Effect s (.frame f) { s with net := { s.net with
        sockets := stack.process s.net.sockets f
        listenTable := Function.update s.net.listenTable port
          (some { en with synQueue := handlers, blockEp := eps })
        sent := s.net.sent ++ [⟨ep, .listenReply, handler.index⟩]
        pollEps := s.net.pollEps ++ [ep] } }
  | replied {ep : Endpoint} {size : Nat} (inside : s.polling = some (.processReq ep size)) :
      Effect s .run ((s.endPoll stack).send ep .sendReply size)
  | served {sockets : σ} {memory : BufferPtr → Nat → BitVec 8} {replies : List EpMessage}
      {left : List RecvBlockedTask} {held : List SpinMutex}
      (swept : Swept s.recvBlockedTasks replies left)
      (states : stack.state sockets = stack.state s.net.sockets) :
      Effect s .run { s with
        net := { s.net with sockets := sockets, sent := s.net.sent ++ replies }
        memory := memory
        recvBlockedTasks := left
        held := held
        loop := .idle }

/-- Why a step can fail. -/
def Faulty (s : SyncServer σ) (a : SyncAction F) (e : Fault) : Prop :=
  (e = .relock .pollEps ∧ s.AnswersInLoop stack a) ∨
  (∃ task ∈ s.recvBlockedTasks, stack.state s.net.sockets task.handler = none) ∨
  ∃ badge regs, a = .nbRecv badge regs ∧ a.isRequest = true ∧ ¬ s.Accepts stack regs

variable {stack} {slot : Nat}

theorem SameView.of_eq (table : t.net.listenTable = s.net.listenTable)
    (tasks : t.recvBlockedTasks = s.recvBlockedTasks)
    (polling : t.polling.bind Caller.token = s.polling.bind Caller.token)
    (opens : ∀ h, stack.state t.net.sockets h = none ↔ stack.state s.net.sockets h = none)
    (listened : t.listened = s.listened) (sent : t.net.sent = s.net.sent) :
    SameView stack s t := by
  refine ⟨?_, fun port => by rw [table], opens, listened, sent⟩
  funext p
  cases p with
  | table port => simp only [SyncServer.places, table]
  | tasks => simp only [SyncServer.places, tasks]
  | polling => simp only [SyncServer.places, polling]

theorem Advanced.sameView {ep : Endpoint} {heard : Bool} (advanced : s.Advanced ep heard t) :
    SameView stack s t ∧ t.net = s.net ∧ t.polling = s.polling := by
  cases advanced with
  | quiet rest listenCnt at_ => exact ⟨.of_eq rfl rfl rfl (fun _ => .rfl) rfl rfl, rfl, rfl⟩
  | heard rest listenCnt at_ => exact ⟨.of_eq rfl rfl rfl (fun _ => .rfl) rfl rfl, rfl, rfl⟩
  | serving rest at_ => exact ⟨.of_eq rfl rfl rfl (fun _ => .rfl) rfl rfl, rfl, rfl⟩

theorem SameView.trans {u : SyncServer σ} (first : SameView stack s t)
    (second : SameView stack t u) : SameView stack s u where
  places := second.places.trans first.places
  queues port := (second.queues port).trans (first.queues port)
  opens h := (second.opens h).trans (first.opens h)
  listened := second.listened.trans first.listened
  sent := second.sent.trans first.sent

/-- `iface_poll` is called for an interrupt. -/
theorem SameView.polls (outside : s.polling = none) :
    SameView stack s (s.polls .netInterruptHandler) :=
  .of_eq rfl rfl (by rw [outside]; rfl) (fun _ => .rfl) rfl rfl

/-- What both `for` loops do with the message on an endpoint. -/
theorem body_effect {badge : Nat} {quiet heard : SyncServer σ} (locked : s.Locked)
    (outside : s.polling = none) (isQuiet : s.Advanced ep false quiet)
    (isHeard : s.Advanced ep true heard) :
    Meets (s.Faulty stack (.nbRecv badge regs)) (Effect stack s (.nbRecv badge regs))
      (if badge = 0 then .ok quiet
      else if badge = 1 then quiet.beginPoll .netInterruptHandler
      else heard.processReq stack ep regs) := by
  have held : ∀ {heard u}, s.Advanced ep heard u → u.held = u.loop.locks := by
    intro heard u advanced
    obtain ⟨-, sameHeld, sameLocks⟩ := advanced.same
    rw [sameHeld, sameLocks, locked.outside outside]
  obtain ⟨sameQuiet, -, polling⟩ := isQuiet.sameView
  obtain ⟨sameHeard, net, polling'⟩ := isHeard.sameView
  split
  next isZero =>
    subst isZero
    exact .quiet rfl sameQuiet
  next noNothing =>
    split
    next isOne =>
      subst isOne
      rw [beginPoll_eq (held isQuiet)]
      exact .quiet rfl (sameQuiet.trans (.polls (polling.trans outside)))
    next noInterrupt =>
      have isRequest : (SyncAction.nbRecv badge regs : SyncAction F).isRequest = true := by
        simp [SyncAction.isRequest, noNothing, noInterrupt]
      have taken : Meets (fun _ => ¬ heard.Accepts stack regs) (Taken stack heard ep regs) _ :=
        processReq_taken stack (held isHeard)
      cases returned : heard.processReq stack ep regs with
      | ok t =>
        exact .request isRequest isHeard.nextEp sameHeard (polling'.trans outside) (by rw [net])
          (taken.result returned)
      | error e =>
        refine .inr (.inr ⟨badge, regs, rfl, isRequest, fun accepts => taken.failure returned ?_⟩)
        rw [Accepts, net]
        exact accepts

theorem receive_effect (handshake : stack.Handshake) (matched : s.net.listenTable.Matched) {f : F}
    {net : NetState σ Unit Unit} (received : s.net.receive stack s.held f = .ok net) :
    Effect stack s (.frame f) { s with net := net } := by
  have silent : Effect stack s (.frame f)
      { s with net := { s.net with sockets := stack.process s.net.sockets f } } :=
    .quiet rfl (.of_eq rfl rfl rfl (handshake.process_none _ f) rfl rfl)
  obtain ⟨m, snooped, rfl⟩ := NetState.receive_ok stack received
  cases snooped with
  | ignored _ => exact silent
  | admitted seg en en' n₁ _ isTcp first found admits woke answers =>
    obtain ⟨noCids, -⟩ := matched _ en found
    rcases NetState.wakeBlocked_ok woke with ⟨-, rfl, rfl⟩ | ⟨cid, rest, e, shape, -⟩
    · rcases NetState.answerBlocked_ok answers with ⟨-, rfl⟩ |
        ⟨ep, eps, handler, handlers, waiting, queue, -, rfl⟩
      · exact silent
      · exact .answered f found waiting queue
    -- no coroutine waits in the table of the synchronous server
    · rw [noCids] at shape
      cases shape

/-- With matching queues a frame can only fail at `POLL_EPS`. -/
theorem receive_fault (locked : s.Locked) (matched : s.net.listenTable.Matched) {caller : Caller}
    (inside : s.polling = some caller) {f : F} {e : Fault}
    (failed : s.net.receive stack s.held f = .error e) :
    e = .relock .pollEps ∧ s.AnswersInLoop stack (.frame f) := by
  have entries := locked.entries inside
  cases e with
  | relock m =>
    obtain ⟨rfl, taken, answers⟩ := NetState.receive_relock stack entries failed
    have member : SpinMutex.pollEps ∈ s.loop.locks := by
      simpa [locked.inside inside] using taken
    exact ⟨rfl, by simp [inside], Loop.locks_of_mem member, answers⟩
  | panic reason =>
    exfalso
    by_cases taken : SpinMutex.pollEps ∈ s.held ∧ (s.net.answered stack f).isSome = true
    · rw [NetState.receive_answered taken.1 matched entries taken.2] at failed
      cases failed
    · obtain ⟨net, received⟩ := NetState.receive_total (n := s.net) stack entries (f := f) (by
        intro c wakes
        obtain ⟨en, isAdmitting, isFirst⟩ := Option.bind_eq_some_iff.mp wakes
        obtain ⟨seg, -, -, found, -⟩ := (NetState.admitting_some stack).mp isAdmitting
        simp [(matched _ en found).1] at isFirst) (by
        intro en isAdmitting
        obtain ⟨seg, -, -, found, -⟩ := (NetState.admitting_some stack).mp isAdmitting
        have lengths := (matched _ en found).2
        cases waiting : en.blockEp with
        | nil => exact .inl rfl
        | cons ep eps =>
          have answers : (s.net.answered stack f).isSome = true := by
            rw [Option.mem_def] at isAdmitting
            simp [NetState.answered, isAdmitting, waiting]
          refine .inr ⟨?_, fun held => taken ⟨held, answers⟩⟩
          intro empty
          simp [waiting, empty] at lengths)
      rw [received] at failed
      cases failed

theorem returnPoll_effect (handshake : stack.Handshake) {caller : Caller}
    (inside : s.polling = some caller) (moved : Moved stack slot s (.run : SyncAction F) t) :
    Effect stack s .run t := by
  cases moved with
  | returned interrupt busy =>
    exact .quiet rfl (.of_eq rfl rfl (by rw [interrupt]; rfl) (handshake.egress_none _) rfl rfl)
  | returnedIdle interrupt at_ =>
    exact .quiet rfl (.of_eq rfl rfl (by rw [interrupt]; rfl) (handshake.egress_none _) rfl rfl)
  | sent ep size inside => exact .replied inside
  | passEnd listenCnt outside at_ =>
    rw [outside] at inside
    cases inside
  | served tasks t outside at_ replied =>
    rw [outside] at inside
    cases inside

theorem endServing_effect (handshake : stack.Handshake) (locked : s.Locked)
    (outside : s.polling = none) (at_ : s.loop = .serving [])
    (blocked : ∀ task ∈ s.recvBlockedTasks, task.complete = false) :
    Meets (s.Faulty stack .run) (Effect stack s .run) (s.endServing stack) := by
  have held : s.held = [.pollEps] := by rw [locked.outside outside, at_]; rfl
  have free : SpinMutex.recvBlockedTasks ∉ s.held := by simp [held]
  have swept := processBlockedTasks_swept stack handshake s.recvBlockedTasks blocked
    (s := { s with held := .recvBlockedTasks :: s.held }) (by simp [held])
  unfold endServing
  rw [lock_free free, Except.bind]
  dsimp only
  cases done : { s with held := .recvBlockedTasks :: s.held }.processBlockedTasks stack
      s.recvBlockedTasks with
  | error e => exact .inr (.inl (swept.failure done))
  | ok result =>
    obtain ⟨sockets, memory, replies, isSwept, states, rest⟩ := swept.result done
    rw [Except.map, rest]
    exact .served isSwept states

/-- Everything that a step does for the clients, and why it can fail. -/
theorem act_effect (handshake : stack.Handshake) (orderly : s.Orderly)
    (blocked : ∀ task ∈ s.recvBlockedTasks, task.complete = false) {a : SyncAction F}
    {r : Except Fault (SyncServer σ)} (acts : s.act stack slot a = some r) :
    Meets (s.Faulty stack a) (Effect stack s a) r := by
  have locked := orderly.locked
  cases a with
  | ntfnPoll badge =>
    simp only [act] at acts
    split at acts
    next outside at_ =>
      cases acts
      have held : s.held = [] := by rw [locked.outside outside, at_]; rfl
      split
      next =>
        rw [beginPoll_eq (locked.outside outside)]
        exact .quiet rfl (.polls outside)
      next =>
        rw [startServing_eq held]
        exact .quiet rfl (.of_eq rfl rfl rfl (fun _ => .rfl) rfl rfl)
    · cases acts
  | nbRecv badge regs =>
    simp only [act] at acts
    split at acts
    next ep rest listenCnt outside at_ =>
      cases acts
      exact body_effect locked outside (.quiet ep rest listenCnt at_) (.heard ep rest listenCnt at_)
    next ep rest outside at_ =>
      cases acts
      exact body_effect locked outside (.serving ep rest false at_) (.serving ep rest true at_)
    · cases acts
  | frame f =>
    simp only [act] at acts
    split at acts
    next caller inside =>
      cases acts
      cases received : s.net.receive stack s.held f with
      | ok net => exact receive_effect handshake orderly.matched received
      | error e => exact .inl (receive_fault locked orderly.matched inside received)
    · cases acts
  | run =>
    simp only [act] at acts
    split at acts
    next caller inside =>
      cases acts
      obtain ⟨t, returned, moved⟩ := returnPoll_eq slot locked inside
      rw [returned]
      exact returnPoll_effect handshake inside moved
    next listenCnt outside at_ =>
      cases acts
      unfold endListenPass
      split
      · exact .quiet rfl (.of_eq rfl rfl rfl (fun _ => .rfl) rfl rfl)
      · exact .quiet rfl (.of_eq rfl rfl rfl (fun _ => .rfl) rfl rfl)
    next outside at_ =>
      cases acts
      exact endServing_effect handshake locked outside at_ blocked
    · cases acts
  | store buffer bytes =>
    cases acts
    exact .quiet rfl (.of_eq rfl rfl rfl (fun _ => .rfl) rfl rfl)

end SyncServer

end RootTask.Net
