import RootTask.Net.Handles
import RootTask.Runtime.Capacity

/-!
# What a client can do to the server

`net::listen`, `net::send` and `net::recv` build the items that reach `process_req`, with any port
and any length, and with handles from ListenReplies. Ports and lengths go through 16-bit words.
The server then uses them unchecked: the length as the end of a slice of the client's buffer, the
port in `listen(port).unwrap()` of the coroutine that it spawns.
-/
namespace RootTask.Net

open RootTask.Runtime RootTask.Transition

/-- What `process_req` comes to. -/
inductive ReqOutcome where
  | reply (item : IPCItem)
  | nothing
  /-- It is in `iface_poll`, after `send_slice` took `size` bytes. -/
  | polling (size : Nat)
  deriving DecidableEq, Repr

namespace AsyncServer

variable {σ F : Type} (stack : Smoltcp σ F)

/-! ### `process_req` by itself -/

def recvOutcome (s : AsyncServer σ) (request : Request) :
    Except Panic (ReqOutcome × AsyncServer σ) :=
  let handler := MessageDecoder.getSocketHandler request.item
  match stack.state s.net.sockets handler with
  | none => .error .explicit
  | some _ =>
    if stack.canRecv s.net.sockets handler then
      match s.recvInto stack request with
      | .ok (size, s) => .ok (.reply (MessageBuilder.recvReply request.item.cid size), s)
      | .error _ => .ok (.nothing, s)
    else (s.handOver request).map fun s => (.nothing, s)

/-- `process_req` up to where it returns or calls `iface_poll`. -/
def reqOutcome (s : AsyncServer σ) (request : Request) :
    Except Panic (ReqOutcome × AsyncServer σ) :=
  (MessageDecoder.getType request.item).bind fun
    | .netPollReq =>
      (s.net.lib.wake s.netDevicePollerCid).map fun lib => (.nothing, s.setLib lib)
    | .listen => (s.processListen request).map fun s => (.nothing, s)
    | .send =>
      (s.processSend stack request).map fun
        | (some size, s) => (.polling size, s)
        | (none, s) => (.nothing, s)
    | .recv => s.recvOutcome stack request
    | _ => .error .explicit

/-- What `nw_recv_req_coroutine` does with the outcome. -/
def afterReq (cid : CoroutineId) (cnt : Nat) (request : Request) :
    ReqOutcome × AsyncServer σ → Except Panic (AsyncServer σ)
  | (.reply item, s) => (s.writeReply request.serial item).bind fun s => s.afterItem cid cnt
  | (.nothing, s) => s.afterItem cid cnt
  | (.polling size, s) => .ok (s.goto cid (.reqPolling cnt request size))

/-- The two together are an iteration of the server. -/
theorem processReq_eq (s : AsyncServer σ) (cid : CoroutineId) (cnt : Nat) (request : Request) :
    s.processReq stack cid cnt request =
      (s.reqOutcome stack request).bind (afterReq cid cnt request) := by
  unfold processReq reqOutcome
  cases MessageDecoder.getType request.item with
  | error p => rfl
  | ok type =>
    cases type with
    | netPollReq =>
      simp only [Except.bind]
      cases s.net.lib.wake s.netDevicePollerCid <;> rfl
    | listen =>
      simp only [Except.bind]
      cases s.processListen request <;> rfl
    | send =>
      simp only [Except.bind]
      cases s.processSend stack request with
      | error p => rfl
      | ok sent =>
        obtain ⟨size, s₁⟩ := sent
        cases size <;> rfl
    | recv =>
      simp only [Except.bind, processRecv, recvOutcome]
      cases stack.state s.net.sockets (MessageDecoder.getSocketHandler request.item) with
      | none => rfl
      | some state =>
        cases stack.canRecv s.net.sockets (MessageDecoder.getSocketHandler request.item) with
        | true => cases s.recvInto stack request <;> rfl
        | false => cases s.handOver request <;> rfl
    | reserve => rfl
    | listenReply => rfl
    | sendReply => rfl
    | recvReply => rfl

/-! ### The coroutines that serve sockets -/

variable {stack} {s t : AsyncServer σ} {self : CoroutineId}

/-- The coroutine that accepted on a socket is live, with the priority it was spawned with. -/
def Served (s : AsyncServer σ) : Prop :=
  ∀ h c, s.socket2Cid h = some c → ∃ task, s.executor.tasks c.val = some task ∧ task.prio = 2

/-- Live coroutines stay in the table. -/
def KeepsTasks (e e' : Executor Body) : Prop :=
  ∀ i task, e.tasks i = some task → e'.tasks i = some task

theorem Served.kept (served : s.Served) (tasks : KeepsTasks s.executor t.executor)
    (same : t.socket2Cid = s.socket2Cid) : t.Served := by
  intro h c filed
  rw [same] at filed
  obtain ⟨task, live, two⟩ := served h c filed
  exact ⟨task, tasks _ task live, two⟩

theorem Wakes.keepsTasks {e e' : Executor Body} {woken : CoroutineId → Prop}
    (wakes : Wakes e e' woken) : KeepsTasks e e' := by
  intro i task live
  rw [wakes.tasks]
  exact live

theorem keepsTasks_spawn {r r' : RuntimeState Body} {body : Body} {prio : Nat} {cid : CoroutineId}
    (table : r.TableOk) (spawned : r.spawn body prio = .ok (cid, r')) :
    KeepsTasks r.executor r'.executor := by
  intro i task live
  have different : i ≠ cid.val := by
    rintro rfl
    rw [table.fresh spawned] at live
    cases live
  rw [RuntimeState.spawn_tasks spawned, Function.update_of_ne different]
  exact live

theorem Iterated.served (iterated : s.Iterated self t) (served : s.Served) : t.Served := by
  cases iterated with
  | again e n wakes => exact served.kept wakes.keepsTasks rfl
  | switched e wakes => exact served.kept wakes.keepsTasks rfl

theorem Handled.served {request : Request} (handled : Handled stack s request t) (ok : s.Ok)
    (served : s.Served) : t.Served := by
  cases handled with
  | poll e woken => exact served.kept (Wakes.of_wake woken).keepsTasks rfl
  | listen cid runtime body isAccept spawned =>
    exact served.kept (keepsTasks_spawn ok.table spawned) rfl
  | dropSend _ _ => exact served
  | recv size s₁ _ _ received replied =>
    obtain ⟨items, -, rfl⟩ := writeReply_ok replied
    obtain ⟨len, bytes, sockets, -, rfl⟩ := recvInto_ok stack received
    exact served
  | dropRecv _ _ => exact served
  | handOver _ _ _ handed =>
    obtain ⟨cid, e, filed, queued, rfl⟩ := handOver_ok handed
    exact served.kept (Wakes.of_wake queued).keepsTasks rfl

theorem Ran.served (ran : Ran stack s self t) (ok : s.Ok) (served : s.Served) : t.Served := by
  cases ran with
  | jump p jumps => exact served
  | resume next value lib resumes taken =>
    obtain ⟨cid, isCurrent, rfl, rfl⟩ := AsyncState.takeValue_ok taken
    exact served
  | endPoll at_ => exact served
  | noItem cnt at_ empty => exact served
  | handle cnt request items s₁ _ at_ popped handled iterated =>
    exact iterated.served (handled.served ok served)
  | send cnt size request items sockets _ at_ popped sending =>
    obtain ⟨-, -, -, -, rfl⟩ := sending
    exact served
  | sendReply cnt size request s₁ _ at_ replied iterated =>
    obtain ⟨items, -, rfl⟩ := writeReply_ok replied
    exact iterated.served served
  | listen cid port serial handler sockets table at_ opened registered => exact served
  | accept cid port serial handler handle tuple net s₁ at_ accepted replied =>
    obtain ⟨items, -, rfl⟩ := writeReply_ok replied
    obtain ⟨en, rest, -, -, -, rfl⟩ := NetState.accept_ok stack accepted
    -- the coroutine was spawned as an accept coroutine
    have waits : (s.point self.val).acceptPhase = true := by rw [at_]; rfl
    obtain ⟨task, live⟩ := ok.live_of_acceptPhase waits
    intro h c filed
    change Function.update s.socket2Cid handler (some self) h = some c at filed
    by_cases same : h = handler
    · subst same
      rw [Function.update_self] at filed
      obtain rfl := Option.some.inj filed
      exact ⟨task, live, ok.prio _ task waits live⟩
    · rw [Function.update_of_ne same] at filed
      exact served h c filed
  | wait at_ => exact served
  | recvReply request size s₁ s₂ at_ received replied =>
    obtain ⟨items, -, rfl⟩ := writeReply_ok replied
    obtain ⟨len, bytes, sockets, -, rfl⟩ := recvInto_ok stack received
    exact served
  | recvFailed request at_ can failed => exact served
  | recvBusy request e at_ woken => exact served.kept (Wakes.of_wake woken).keepsTasks rfl

theorem step_served {a : AsyncAction F} (ok : s.Ok) (served : s.Served)
    (moved : s.step stack a = some t) : t.Served := by
  cases step_moved stack moved with
  | boot _ booted =>
    obtain ⟨poller, cid, runtime, runtime', allocator, first, second⟩ := booted
    have table := (ok.spawn first nofun).table
    refine served.kept (fun i task live => ?_) rfl
    exact keepsTasks_spawn table second i task (keepsTasks_spawn ok.table first i task live)
  | fetch task e idle fetched =>
    refine served.kept (fun i task live => ?_) rfl
    change e.tasks i = some task
    rw [(Executor.fetch_same fetched).1.tasks]
    exact live
  | run self _ polls ran => exact ran.served ok served
  | frame f self net polls inPoll received =>
    obtain ⟨m, snooped, rfl⟩ := NetState.receive_ok stack received
    refine served.kept (fun i task live => ?_) rfl
    change m.lib.executor.tasks i = some task
    rcases snooped.lib with same | ⟨cid, e, woken, same⟩
    · rw [same]
      exact live
    · rw [same]
      exact (Wakes.of_wake woken).keepsTasks i task live
  | interrupt vec cid e known delayed =>
    obtain ⟨-, rfl⟩ := Executor.delayWake_ok delayed
    exact served
  | submit item items written => exact served
  | tookReply reply items popped => exact served
  | noReply empty => exact served
  | store buffer bytes => exact served

theorem reachable_served (run : Reachable (step stack) (init stack) s) : s.Served := by
  have both : s.Ok ∧ s.Served := by
    apply run.invariant (fun s => s.Ok ∧ s.Served) ⟨ok_init stack, by rintro h c ⟨⟩⟩
    rintro s a t ⟨ok, served⟩ - moved
    exact ⟨step_ok ok moved, step_served ok served moved⟩
  exact both.2

/-! ### When each part returns -/

/-- A coroutine of priority 2 can be woken exactly while its queue has room. -/
theorem wake_two_iff {e : Executor Body} {cid : CoroutineId} {task : Coroutine Body}
    (inTable : cid.val < maxTaskNum) (live : e.tasks cid.val = some task) (two : task.prio = 2) :
    (∃ e', e.wake cid = .ok e') ↔ e.HasRoom 2 := by
  simp only [Executor.wake, if_pos inTable, live, two]
  exact Executor.enqueue_iff cid (by decide)

/-- There is a task slot with a free id, and room in the queue of the accept coroutines. -/
def CanSpawn (s : AsyncServer σ) : Prop :=
  (∃ i < maxTaskNum, s.net.lib.runtime.cidAllocator.free i = true) ∧ s.executor.HasRoom 2

theorem listenOutcome_iff {request : Request}
    (type : MessageDecoder.getType request.item = .ok .listen) :
    (∃ r, s.reqOutcome stack request = .ok r) ↔ s.CanSpawn := by
  rw [reqOutcome, type]
  simp only [Except.bind, processListen, AsyncServer.spawn, exists_map_ok]
  exact RuntimeState.spawn_iff _ _ (by decide)

theorem sendOutcome_iff {request : Request}
    (type : MessageDecoder.getType request.item = .ok .send)
    (opened : stack.state s.net.sockets (socketOf request) ≠ none) :
    (∃ r, s.reqOutcome stack request = .ok r) ↔
      (stack.canSend s.net.sockets (socketOf request) = true →
        MessageDecoder.getLen request.item ≤ tcpTxBufLen) := by
  obtain ⟨state, opened⟩ := Option.ne_none_iff_exists'.mp opened
  rw [reqOutcome, type]
  simp only [Except.bind, processSend, exists_map_ok, opened]
  cases can : stack.canSend s.net.sockets (socketOf request) with
  | false => simp
  | true =>
    by_cases fits : MessageDecoder.getLen request.item ≤ tcpTxBufLen
    · simp only [if_true, fits, implies_true, iff_true]
      split
      · exact ⟨_, rfl⟩
      · exact ⟨_, rfl⟩
    · simp [fits]

theorem recvOutcome_iff {request : Request} {cid : CoroutineId} {task : Coroutine Body}
    (type : MessageDecoder.getType request.item = .ok .recv)
    (opened : stack.state s.net.sockets (socketOf request) ≠ none)
    (filed : s.socket2Cid (socketOf request) = some cid) (inTable : cid.val < maxTaskNum)
    (live : s.executor.tasks cid.val = some task) (two : task.prio = 2) :
    (∃ r, s.reqOutcome stack request = .ok r) ↔
      (stack.canRecv s.net.sockets (socketOf request) = false → s.executor.HasRoom 2) := by
  obtain ⟨state, opened⟩ := Option.ne_none_iff_exists'.mp opened
  rw [reqOutcome, type]
  simp only [Except.bind, recvOutcome, opened]
  cases can : stack.canRecv s.net.sockets (socketOf request) with
  | true =>
    simp only [if_true, Bool.true_eq_false, false_implies, iff_true]
    split
    · exact ⟨_, rfl⟩
    · exact ⟨_, rfl⟩
  | false =>
    simp only [Bool.false_eq_true, if_false, true_implies, exists_map_ok, handOver, filed,
      AsyncState.wakeWithValue, if_pos inTable, AsyncState.wake]
    exact wake_two_iff inTable live two

/-- `tcp_accept_coroutine` up to its first yield. -/
theorem acceptListen_iff (listens : stack.Listens) {cid : CoroutineId} {port serial : Nat}
    (at_ : s.point self.val = .fresh (.tcpAccept cid port serial)) :
    (∃ t, s.run stack self = .ok t) ↔ port ≠ 0 := by
  simp only [AsyncServer.run, at_, acceptListen]
  cases opened : stack.listen s.net.sockets port with
  | none => simp [(listens _ _).mp opened]
  | some x =>
    have nonzero : port ≠ 0 := fun zero => by simp [(listens s.net.sockets port).mpr zero] at opened
    simp [ListenTable.listen, ListenTable.register, nonzero, Except.map]

/-- The coroutine that a frame is going to wake waits in `tcp_accept_coroutine`. -/
theorem wokenBy_waits (paired : s.Paired) {f : F} {c : CoroutineId}
    (woken : s.net.wokenBy stack f = some c) : (s.point c.val).acceptPhase = true := by
  obtain ⟨en, isAdmitting, first⟩ := Option.bind_eq_some_iff.mp woken
  obtain ⟨seg, -, -, found, -⟩ := (NetState.admitting_some stack).mp isAdmitting
  have member : c ∈ (s.net.listenTable.entry seg.dst.port).blockCids := by
    rw [ListenTable.entry, found]
    exact List.mem_of_mem_head? first
  obtain ⟨-, cid, serial, h, at_⟩ := paired.blocked seg.dst.port c member
  rw [at_]
  rfl

/-- A frame inside `iface_poll`: it has to wake the accept coroutine that waits for it. -/
theorem frame_iff (ok : s.Ok) (paired : s.Paired) (f : F) :
    (∃ t, s.frame stack f = .ok t) ↔
      (s.net.wokenBy stack f ≠ none → s.executor.HasRoom 2) := by
  have wakes : ∀ c, s.net.wokenBy stack f = some c →
      ((∃ e, s.executor.wake c = .ok e) ↔ s.executor.HasRoom 2) := by
    intro c woken
    have waits := wokenBy_waits paired woken
    obtain ⟨task, live⟩ := ok.live_of_acceptPhase waits
    have inTable : c.val < maxTaskNum := ok.bound c.val (by simp [live])
    exact wake_two_iff inTable live (ok.prio _ task waits live)
  have entries : ∀ port, SpinMutex.listenEntry port ∉ ifaceLocks := by simp [ifaceLocks]
  simp only [AsyncServer.frame, exists_map_ok]
  constructor
  · rintro ⟨net, received⟩ wakesOne
    obtain ⟨c, woken⟩ := Option.ne_none_iff_exists'.mp wakesOne
    obtain ⟨en, isAdmitting, first⟩ := Option.bind_eq_some_iff.mp woken
    obtain ⟨m, snooped, -⟩ := map_ok.mp received
    obtain ⟨port, eq⟩ := NetState.snoopTcpPacket_admitted stack entries isAdmitting
    rw [eq] at snooped
    -- the wake-up comes first in what the frame causes
    obtain ⟨⟨en', n⟩, woke, -⟩ := bind_ok.mp snooped
    rcases NetState.wakeBlocked_ok ((orPanic_ok _ _).mp woke) with
      ⟨nobody, -⟩ | ⟨c', rest, e, shape, queued, -⟩
    · simp [nobody] at first
    · obtain rfl : c' = c := by simpa [shape] using first
      exact (wakes c' woken).mp ⟨e, queued⟩
  · intro room
    refine NetState.receive_total stack entries (fun c woken => ?_) fun en admits => ?_
    · obtain ⟨e, queued⟩ := (wakes c woken).mpr (room (by simp [Option.mem_def.mp woken]))
      exact ⟨_, map_ok.mpr ⟨e, queued, rfl⟩⟩
    · obtain ⟨seg, -, -, found, -⟩ := (NetState.admitting_some stack).mp admits
      exact .inl (paired.plain _ en found).2

/-! ### The calls of a client -/

/-- `process_req` gets through, and so does the coroutine of a Listen up to its first yield, in
whatever state it is polled. -/
structure Survives (stack : Smoltcp σ F) (s : AsyncServer σ) (request : Request) : Prop where
  processed : ∃ r, s.reqOutcome stack request = .ok r
  spawned : MessageDecoder.getType request.item = .ok .listen → ∀ (t : AsyncServer σ) self,
    t.point self.val = .fresh (.tcpAccept request.item.cid (MessageDecoder.getPort request.item)
      request.serial) → ∃ u, t.run stack self = .ok u

end AsyncServer

/-- A call of `net::listen`, `net::send` or `net::recv`. -/
inductive ClientCall where
  | listen (port : Nat)
  | send (handler : SocketHandle) (buffer : BufferPtr) (len : Nat)
  | recv (handler : SocketHandle) (buffer : BufferPtr) (len : Nat)
  deriving DecidableEq, Repr

namespace ClientCall

open AsyncServer

variable {σ F : Type}

def item (cid : CoroutineId) : ClientCall → IPCItem
  | .listen port => MessageBuilder.listen cid port
  | .send handler buffer len => MessageBuilder.send cid handler buffer len
  | .recv handler buffer len => MessageBuilder.recv cid handler buffer len

/-- The handle is from a ListenReply. -/
def Allowed (s : AsyncServer σ) : ClientCall → Prop
  | .listen _ => True
  | .send handler _ _ => handler ∈ s.handedOut
  | .recv handler _ _ => handler ∈ s.handedOut

/-- The port is not 0 and the length not beyond the buffer, as they come out of 16 bits, and the
executor has room for what the request starts or wakes. -/
def Harmless (stack : Smoltcp σ F) (s : AsyncServer σ) : ClientCall → Prop
  | .listen port => port % 2 ^ 16 ≠ 0 ∧ s.CanSpawn
  | .send handler _ len =>
    stack.canSend s.net.sockets handler = true → len % 2 ^ 16 ≤ tcpTxBufLen
  | .recv handler _ _ => stack.canRecv s.net.sockets handler = false → s.executor.HasRoom 2

/-- A handle that the client decoded fits into the word it came from. -/
theorem index_lt_of_handedOut {s : AsyncServer σ} {handler : SocketHandle}
    (handed : handler ∈ s.handedOut) : handler.index < 2 ^ 16 := by
  obtain ⟨reply, -, rfl⟩ := List.mem_map.mp handed
  exact BitVec.isLt _

variable {stack : Smoltcp σ F} {s : AsyncServer σ}

theorem listen_iff (listens : stack.Listens) (cid : CoroutineId) (port serial : Nat) :
    s.Survives stack ⟨serial, MessageBuilder.listen cid port⟩ ↔
      port % 2 ^ 16 ≠ 0 ∧ s.CanSpawn := by
  have type : MessageDecoder.getType (MessageBuilder.listen cid port) = .ok .listen :=
    MessageDecoder.getType_of_msgInfo rfl
  rw [← MessageBuilder.getPort_listen cid port]
  constructor
  · rintro ⟨processed, spawned⟩
    refine ⟨?_, (listenOutcome_iff type).mp processed⟩
    -- any state in which the coroutine is polled shows what its port is
    have fresh := Function.update_self 0 (Point.fresh (.tcpAccept cid
      (MessageDecoder.getPort (MessageBuilder.listen cid port)) serial)) s.point
    exact (acceptListen_iff listens fresh).mp (spawned type (s.goto ⟨0⟩ _) ⟨0⟩ fresh)
  · rintro ⟨nonzero, room⟩
    refine ⟨(listenOutcome_iff type).mpr room, fun _ t self at_ => ?_⟩
    exact (acceptListen_iff listens at_).mpr nonzero

/-- Only a Listen spawns a coroutine. -/
theorem survives_iff (request : Request) {type : MessageType}
    (isType : MessageDecoder.getType request.item = .ok type) (other : type ≠ .listen) :
    s.Survives stack request ↔ ∃ r, s.reqOutcome stack request = .ok r := by
  refine ⟨Survives.processed, fun processed => ⟨processed, fun isListen => ?_⟩⟩
  rw [isType] at isListen
  cases isListen
  exact absurd rfl other

theorem send_iff (cid : CoroutineId) {handler : SocketHandle} (buffer : BufferPtr)
    (len serial : Nat) (fits : handler.index < 2 ^ 16)
    (opened : stack.state s.net.sockets handler ≠ none) :
    s.Survives stack ⟨serial, MessageBuilder.send cid handler buffer len⟩ ↔
      (stack.canSend s.net.sockets handler = true → len % 2 ^ 16 ≤ tcpTxBufLen) := by
  have type := (labelled_transfer .send cid handler buffer len).1
  have handle : socketOf ⟨serial, MessageBuilder.send cid handler buffer len⟩ = handler :=
    MessageBuilder.getSocketHandler_transfer .send cid buffer len fits
  have size : MessageDecoder.getLen (MessageBuilder.send cid handler buffer len) = len % 2 ^ 16 :=
    MessageBuilder.getLen_transfer .send cid handler buffer len
  rw [survives_iff _ type (by decide), sendOutcome_iff type (by rw [handle]; exact opened), handle,
    size]

theorem recv_iff (cid : CoroutineId) {handler : SocketHandle} (buffer : BufferPtr)
    (len serial : Nat) (fits : handler.index < 2 ^ 16)
    (opened : stack.state s.net.sockets handler ≠ none) {c : CoroutineId} {task : Coroutine Body}
    (filed : s.socket2Cid handler = some c) (inTable : c.val < maxTaskNum)
    (live : s.executor.tasks c.val = some task) (two : task.prio = 2) :
    s.Survives stack ⟨serial, MessageBuilder.recv cid handler buffer len⟩ ↔
      (stack.canRecv s.net.sockets handler = false → s.executor.HasRoom 2) := by
  have type := (labelled_transfer .recv cid handler buffer len).1
  have handle : socketOf ⟨serial, MessageBuilder.recv cid handler buffer len⟩ = handler :=
    MessageBuilder.getSocketHandler_transfer .recv cid buffer len fits
  rw [survives_iff _ type (by decide), recvOutcome_iff type (by rw [handle]; exact opened)
    (by rw [handle]; exact filed) inTable live two, handle]

end ClientCall

/-- In every state of every run, a call of the socket API is processed without a panic exactly
if it is harmless there. Inside the `iface_poll` of a Send, a frame is received without one exactly
if it wakes nobody or the woken coroutine fits into its queue. -/
theorem client_call_iff {σ F : Type} {stack : Smoltcp σ F} {s : AsyncServer σ}
    (handshake : stack.Handshake) (listens : stack.Listens)
    (run : Reachable (AsyncServer.step stack) (AsyncServer.init stack) s) :
    (∀ (call : ClientCall) (cid : CoroutineId) (serial : Nat), call.Allowed s →
      (s.Survives stack ⟨serial, call.item cid⟩ ↔ call.Harmless stack s)) ∧
    ∀ f, (∃ t, s.frame stack f = .ok t) ↔
      (s.net.wokenBy stack f ≠ none → s.executor.HasRoom 2) := by
  obtain ⟨ok, paired, handles⟩ := AsyncServer.reachable_handles handshake run
  have served := AsyncServer.reachable_served run
  refine ⟨fun call cid serial allowed => ?_, AsyncServer.frame_iff ok paired⟩
  cases call with
  | listen port => exact ClientCall.listen_iff listens cid port serial
  | send handler buffer len =>
    have fits := ClientCall.index_lt_of_handedOut allowed
    obtain ⟨c, filed⟩ := Option.ne_none_iff_exists'.mp ((handles.keys handler).mp allowed)
    exact ClientCall.send_iff cid buffer len serial fits (handles.serving handler c filed).1
  | recv handler buffer len =>
    have fits := ClientCall.index_lt_of_handedOut allowed
    obtain ⟨c, filed⟩ := Option.ne_none_iff_exists'.mp ((handles.keys handler).mp allowed)
    obtain ⟨task, live, two⟩ := served handler c filed
    have inTable : c.val < maxTaskNum := ok.bound c.val (by simp [live])
    exact ClientCall.recv_iff cid buffer len serial fits (handles.serving handler c filed).1 filed
      inTable live two

/-- A client with a connection sends 40000 bytes: the slice is longer than the buffer. Another one
listens on port 65536, which comes out of 16 bits as 0: the `unwrap` of `listen` panics. -/
theorem client_crashes_server :
    (∃ s, Reachable (AsyncServer.step mini) (AsyncServer.init mini) s ∧
      (ClientCall.send ⟨0⟩ 5 40000).Allowed s ∧
      s.reqOutcome mini ⟨1, (ClientCall.send ⟨0⟩ 5 40000).item ⟨9⟩⟩ =
        .error .indexOutOfBounds) ∧
    ∃ s, Reachable (AsyncServer.step mini) (AsyncServer.init mini) s ∧
      s.polling = some ⟨2⟩ ∧
      s.point 2 = .fresh (.tcpAccept ⟨9⟩
        (MessageDecoder.getPort ((ClientCall.listen 65536).item ⟨9⟩)) 0) ∧
      s.run mini ⟨2⟩ = .error .unwrapErr := by
  constructor
  · obtain ⟨s, run, seen⟩ := reachable_of_view (AsyncServer.step mini) (AsyncServer.init mini)
      AsyncServer.acceptRun (fun s => (s.handedOut,
        (s.reqOutcome mini ⟨1, (ClientCall.send ⟨0⟩ 5 40000).item ⟨9⟩⟩).map fun _ => ()))
      (v := ([⟨0⟩], .error .indexOutOfBounds)) (by decide +kernel)
    obtain ⟨handed, panics⟩ := Prod.mk.inj seen
    exact ⟨s, run, by simp [ClientCall.Allowed, handed], map_error.mp panics⟩
  · obtain ⟨s, run, seen⟩ := reachable_of_view (AsyncServer.step mini) (AsyncServer.init mini)
      [.boot, .submit ((ClientCall.listen 65536).item ⟨9⟩), .fetch, .run, .run, .fetch, .run, .run,
        .run, .fetch]
      (fun s => (s.polling, s.point 2, (s.run mini ⟨2⟩).map fun _ => ()))
      (v := (some ⟨2⟩, .fresh (.tcpAccept ⟨9⟩ 0 0), .error .unwrapErr)) (by decide +kernel)
    obtain ⟨polls, seen⟩ := Prod.mk.inj seen
    obtain ⟨at_, panics⟩ := Prod.mk.inj seen
    exact ⟨s, run, polls, at_, map_error.mp panics⟩

/-- The same client sends as many bytes as the buffer holds, and receives any number. -/
theorem client_call_iff_connected :
    ∃ s, Reachable (AsyncServer.step mini) (AsyncServer.init mini) s ∧
      s.Survives mini ⟨1, (ClientCall.send ⟨0⟩ 5 32768).item ⟨9⟩⟩ ∧
      s.Survives mini ⟨2, (ClientCall.recv ⟨0⟩ 5 65535).item ⟨9⟩⟩ := by
  obtain ⟨s, run, seen⟩ := reachable_of_view (AsyncServer.step mini) (AsyncServer.init mini)
    AsyncServer.acceptRun (fun s => (s.handedOut, (s.executor.queue 2).length)) (v := ([⟨0⟩], 0))
    (by decide +kernel)
  obtain ⟨handed, empty⟩ := Prod.mk.inj seen
  have room : s.executor.HasRoom 2 := by
    rw [Executor.HasRoom, empty]
    decide
  obtain ⟨survives, -⟩ := client_call_iff mini_handshake mini_listens run
  refine ⟨s, run, (survives _ _ _ ?_).mpr fun _ => by decide, (survives _ _ _ ?_).mpr fun _ => room⟩
  · simp [ClientCall.Allowed, handed]
  · simp [ClientCall.Allowed, handed]

end RootTask.Net
