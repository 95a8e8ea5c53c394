import RootTask.Lib.Transition
import RootTask.Net.ListenTable

/-!
# The asynchronous server

`net/mod.rs`: one thread runs `net_poll`, `nw_recv_req_coroutine` and one
`tcp_accept_coroutine` per Listen request on its executor. A coroutine is polled from one
suspension to the next; the model cuts a poll into steps, each up to the next point where
the client or the network can be seen: the pop of a request, a received frame, a yield.
The client thread and user interrupts act between any two steps.

Both calls of `iface_poll` are urgent, so its counter never decides. The device part of
`net_poll` (`interrupt_handler`, the acknowledgement) has no state here.
-/
namespace RootTask.Net

open RootTask.Runtime RootTask.Transition

/-- An item in the shared buffer. The serial number identifies a request and the replies to
it; the code does not see it. -/
structure Request where
  serial : Nat
  item : IPCItem
  deriving DecidableEq, Repr

/-- The futures that the server spawns. -/
inductive Body where
  | netPoll
  | nwRecvReq
  | tcpAccept (cid : CoroutineId) (port : Nat) (serial : Nat)
  deriving DecidableEq, Repr

/-- Where a coroutine stands. A `Yield` is a suspended `yield_now`. -/
inductive Point where
  /-- Not polled yet. -/
  | fresh (body : Body)
  /-- `net_poll` inside `iface_poll`. -/
  | netPolling
  | netYield
  /-- At the top of the loop of `nw_recv_req_coroutine`. -/
  | reqLoop (cnt : Nat)
  /-- `process_req` inside `iface_poll`, after `send_slice` took `size` bytes. -/
  | reqPolling (cnt : Nat) (request : Request) (size : Nat)
  | reqYield
  /-- `tcp_accept_coroutine` after `listen`. -/
  | acceptYield (cid : CoroutineId) (port : Nat) (serial : Nat) (handler : SocketHandle)
  /-- Resumed, about to call `accept`. -/
  | accepting (cid : CoroutineId) (port : Nat) (serial : Nat) (handler : SocketHandle)
  /-- At the top of the outer loop of `tcp_recv_coroutine`. -/
  | recvLoop (item : Option Request)
  | recvYield
  /-- At the top of its inner loop, serving a request. -/
  | recvTry (request : Request)
  | recvBusyYield (request : Request)
  deriving DecidableEq, Repr

namespace Point

/-- The request that a `tcp_recv_coroutine` holds. -/
def serving : Point → Option Request
  | .recvLoop item => item
  | .recvTry request => some request
  | .recvBusyYield request => some request
  | _ => none

/-- A call of `iface_poll` is in progress. -/
def inIfacePoll : Point → Bool
  | .netPolling => true
  | .reqPolling _ _ _ => true
  | _ => false

end Point

structure AsyncServer (σ : Type) where
  net : NetState σ Body Request
  polling : Option CoroutineId
  point : Nat → Point
  buffer : NewBuffer Request
  /-- The user interrupt to the client is in flight. -/
  uipi : Bool
  /-- The bytes of the `TcpBuffer`s. -/
  memory : BufferPtr → Nat → BitVec 8
  socket2Cid : SocketHandle → Option CoroutineId
  netDevicePollerCid : CoroutineId
  booted : Bool
  /-- How many requests were submitted. -/
  submitted : Nat
  /-- The requests given to `wake_with_value`, with their target. -/
  handedOver : List (Request × CoroutineId)
  /-- The Send requests that `process_req` took. -/
  sendsTaken : List Request
  /-- Everything written to `res_items`. -/
  replies : List Request

inductive AsyncAction (F : Type) where
  | boot
  /-- The executor looks for the next coroutine to poll. -/
  | fetch
  /-- The polled coroutine goes on to its next point. -/
  | run
  /-- `iface_poll` receives a frame. -/
  | frame (f : F)
  | interrupt (vec : Nat)
  /-- The client writes a request. -/
  | submit (item : IPCItem)
  /-- The client looks for a reply. -/
  | takeReply
  /-- The client writes to one of its buffers. -/
  | store (buffer : BufferPtr) (bytes : List (BitVec 8))
  deriving DecidableEq, Repr

namespace AsyncServer

variable {σ F : Type} (stack : Smoltcp σ F)

def init : AsyncServer σ where
  net := ⟨.init, stack.empty, .new, [], []⟩
  polling := none
  point := fun _ => .fresh .netPoll
  buffer := .new
  uipi := false
  memory := fun _ _ => 0
  socket2Cid := fun _ => none
  netDevicePollerCid := ⟨65535⟩
  booted := false
  submitted := 0
  handedOver := []
  sendsTaken := []
  replies := []

/-- The executor of the server thread. -/
abbrev executor (s : AsyncServer σ) : Executor Body := s.net.lib.executor

def setLib (s : AsyncServer σ) (lib : AsyncState Body Request) : AsyncServer σ :=
  { s with net := { s.net with lib := lib } }

def setExecutor (s : AsyncServer σ) (e : Executor Body) : AsyncServer σ :=
  s.setLib (s.net.lib.setExecutor e)

def setSockets (s : AsyncServer σ) (sockets : σ) : AsyncServer σ :=
  { s with net := { s.net with sockets := sockets } }

def goto (s : AsyncServer σ) (cid : CoroutineId) (point : Point) : AsyncServer σ :=
  { s with point := Function.update s.point cid.val point }

/-- A poll that ends in `Pending`. -/
def suspend (s : AsyncServer σ) (cid : CoroutineId) (point : Point) : AsyncServer σ :=
  { s.goto cid point with polling := none }

/-- `coroutine_spawn_with_prio`. -/
def spawn (s : AsyncServer σ) (body : Body) (prio : Nat) :
    Except Panic (CoroutineId × AsyncServer σ) :=
  (s.net.lib.runtime.spawn body prio).map fun (cid, runtime) =>
    (cid, (s.setLib { s.net.lib with runtime := runtime }).goto cid (.fresh body))

/-- `net::init` and the server half of `create_c_s_ipc_channel`. -/
def boot (s : AsyncServer σ) : Except Panic (AsyncServer σ) :=
  (s.spawn .netPoll 0).bind fun (poller, s) =>
    (s.spawn .nwRecvReq 1).bind fun (cid, s) =>
      match s.net.lib.registerRecvCid cid with
      | (some 0, lib) => .ok { s.setLib lib with netDevicePollerCid := poller, booted := true }
      | (some _, _) => .error .assertFailed
      | (none, _) => .error .unwrapNone

/-- `res_items.write_free_item(..).unwrap()` and the interrupt to a client that waits. -/
def writeReply (s : AsyncServer σ) (serial : Nat) (reply : IPCItem) :
    Except Panic (AsyncServer σ) :=
  match s.buffer.resItems.writeFreeItem ⟨serial, reply⟩ with
  | .error _ => .error .unwrapErr
  | .ok items =>
    .ok { s with
      buffer := { s.buffer with resItems := items, recvReplyStatus := true }
      uipi := s.uipi || !s.buffer.recvReplyStatus
      replies := s.replies ++ [⟨serial, reply⟩] }

/-- The bytes that `recv_slice` copies into a buffer, or the client. -/
def storeBytes (s : AsyncServer σ) (buffer : BufferPtr) (bytes : List (BitVec 8)) :
    AsyncServer σ :=
  { s with memory := Function.update s.memory buffer fun i => bytes[i]?.getD (s.memory buffer i) }

/-! ### `process_req` -/

def processListen (s : AsyncServer σ) (request : Request) : Except Panic (AsyncServer σ) :=
  let port := MessageDecoder.getPort request.item
  (s.spawn (.tcpAccept request.item.cid port request.serial) 2).map Prod.snd

/-- The Send branch up to `iface_poll`; the result is the number of bytes taken, if any. -/
def processSend (s : AsyncServer σ) (request : Request) :
    Except Panic (Option Nat × AsyncServer σ) :=
  let handler := MessageDecoder.getSocketHandler request.item
  let len := MessageDecoder.getLen request.item
  let s := { s with sendsTaken := s.sendsTaken ++ [request] }
  match stack.state s.net.sockets handler with
  | none => .error .explicit
  | some _ =>
    if stack.canSend s.net.sockets handler then
      if len ≤ tcpTxBufLen then
        let data := (List.range len).map (s.memory (MessageDecoder.getBuffer request.item))
        match stack.sendSlice s.net.sockets handler data with
        | .ok (size, sockets) => .ok (some size, s.setSockets sockets)
        | .error _ => .ok (none, s)
      else .error .indexOutOfBounds
    -- no reply is made: the request is dropped
    else .ok (none, s)

/-- `recv_slice` into the buffer of a request, as `process_req` and `tcp_recv_coroutine`
both call it. -/
def recvInto (s : AsyncServer σ) (request : Request) : Except Unit (Nat × AsyncServer σ) :=
  let handler := MessageDecoder.getSocketHandler request.item
  let len := min tcpTxBufLen (MessageDecoder.getLen request.item)
  match stack.recvSlice s.net.sockets handler len with
  | .ok (bytes, sockets) =>
    .ok (bytes.length,
      (s.setSockets sockets).storeBytes (MessageDecoder.getBuffer request.item) bytes)
  | .error _ => .error ()

/-- `wake_with_value(SOCKET_2_CID.lock().get(&handler).unwrap(), item)`. -/
def handOver (s : AsyncServer σ) (request : Request) : Except Panic (AsyncServer σ) :=
  match s.socket2Cid (MessageDecoder.getSocketHandler request.item) with
  | none => .error .unwrapNone
  | some cid =>
    (s.net.lib.wakeWithValue cid request).map fun lib =>
      { s.setLib lib with handedOver := s.handedOver ++ [(request, cid)] }

def processRecv (s : AsyncServer σ) (request : Request) : Except Panic (AsyncServer σ) :=
  let handler := MessageDecoder.getSocketHandler request.item
  match stack.state s.net.sockets handler with
  | none => .error .explicit
  | some _ =>
    if stack.canRecv s.net.sockets handler then
      match s.recvInto stack request with
      | .ok (size, s) =>
        s.writeReply request.serial (MessageBuilder.recvReply request.item.cid size)
      | .error _ => .ok s
    else s.handOver request

/-- The end of an iteration of the loop: every twentieth item lets others run. -/
def afterItem (s : AsyncServer σ) (cid : CoroutineId) (cnt : Nat) : Except Panic (AsyncServer σ) :=
  if 20 ≤ cnt then
    s.executor.switchPossible.bind fun (possible, e) =>
      let s := s.setExecutor e
      if possible then
        (s.net.lib.wake cid).map fun lib => (s.setLib lib).suspend cid .reqYield
      else .ok (s.goto cid (.reqLoop 0))
  else .ok (s.goto cid (.reqLoop cnt))

/-- `process_req` on a request taken from the queue. -/
def processReq (s : AsyncServer σ) (cid : CoroutineId) (cnt : Nat) (request : Request) :
    Except Panic (AsyncServer σ) :=
  (MessageDecoder.getType request.item).bind fun
    | .netPollReq =>
      (s.net.lib.wake s.netDevicePollerCid).bind fun lib => (s.setLib lib).afterItem cid cnt
    | .listen => (s.processListen request).bind fun s => s.afterItem cid cnt
    | .send =>
      (s.processSend stack request).bind fun
        | (some size, s) => .ok (s.goto cid (.reqPolling cnt request size))
        | (none, s) => s.afterItem cid cnt
    | .recv => (s.processRecv stack request).bind fun s => s.afterItem cid cnt
    | _ => .error .explicit

/-- One iteration of `nw_recv_req_coroutine`. -/
def recvReq (s : AsyncServer σ) (cid : CoroutineId) (cnt : Nat) : Except Panic (AsyncServer σ) :=
  match s.buffer.reqItems.getFirstItem with
  | some (request, items) =>
    let s := { s with buffer := { s.buffer with reqItems := items } }
    s.processReq stack cid (cnt + 1) request
  | none =>
    let s := { s with buffer := { s.buffer with recvReqStatus := false } }
    .ok (s.suspend cid .reqYield)

/-! ### `tcp_accept_coroutine` and `tcp_recv_coroutine` -/

def acceptListen (s : AsyncServer σ) (self cid : CoroutineId) (port serial : Nat) :
    Except Panic (AsyncServer σ) :=
  match stack.listen s.net.sockets port with
  | none => .error .unwrapErr
  | some (handler, sockets) =>
    (s.net.listenTable.listen port handler self).map fun table =>
      let s := { s with net := { s.net with sockets := sockets, listenTable := table } }
      s.suspend self (.acceptYield cid port serial handler)

/-- The socket is filed under the handler that this coroutine registered, the client gets
the one that `accept` returned. -/
def acceptReply (s : AsyncServer σ) (self cid : CoroutineId) (port serial : Nat)
    (handler : SocketHandle) : Except Panic (AsyncServer σ) :=
  (s.net.accept stack port).bind fun
    | (some (handle, _), net) =>
      let s : AsyncServer σ := { s with net := net }
      (s.writeReply serial (MessageBuilder.listenReply cid handle)).map fun s =>
        let s := { s with socket2Cid := Function.update s.socket2Cid handler (some self) }
        s.goto self (.recvLoop none)
    | (none, _) => .error .explicit

/-- One round of the inner loop. -/
def recvTry (s : AsyncServer σ) (self : CoroutineId) (request : Request) :
    Except Panic (AsyncServer σ) :=
  let handler := MessageDecoder.getSocketHandler request.item
  match stack.state s.net.sockets handler with
  | none => .error .explicit
  | some _ =>
    if stack.canRecv s.net.sockets handler then
      match s.recvInto stack request with
      | .ok (size, s) =>
        (s.writeReply request.serial (MessageBuilder.recvReply request.item.cid size)).map fun s =>
          s.goto self (.recvLoop none)
      | .error _ => .ok (s.goto self (.recvLoop none))
    else (s.net.lib.wake self).map fun lib => (s.setLib lib).suspend self (.recvBusyYield request)

/-- What a resumed `yield_now` does before the coroutine goes on. -/
def resume (s : AsyncServer σ) (self : CoroutineId) (next : Option Request → Point) :
    Except Panic (AsyncServer σ) :=
  s.net.lib.takeValue.map fun (value, lib) => (s.setLib lib).goto self (next value)

/-- The end of `iface_poll`. -/
def endPoll (s : AsyncServer σ) : AsyncServer σ := s.setSockets (stack.egress s.net.sockets)

/-! ### Steps -/

/-- One step of the polled coroutine, the one that `coroutine_get_current` returns. -/
def run (s : AsyncServer σ) (self : CoroutineId) : Except Panic (AsyncServer σ) :=
  match s.point self.val with
  | .fresh .netPoll => .ok (s.goto self .netPolling)
  | .fresh .nwRecvReq => .ok (s.goto self (.reqLoop 0))
  | .fresh (.tcpAccept cid port serial) => s.acceptListen stack self cid port serial
  | .netPolling => .ok ((s.endPoll stack).suspend self .netYield)
  | .netYield => s.resume self fun _ => .netPolling
  | .reqLoop cnt => s.recvReq stack self cnt
  | .reqPolling cnt request size =>
    ((s.endPoll stack).writeReply request.serial
      (MessageBuilder.sendReply request.item.cid size)).bind fun s => s.afterItem self cnt
  | .reqYield => s.resume self fun _ => .reqLoop 0
  | .acceptYield cid port serial handler => s.resume self fun _ => .accepting cid port serial handler
  | .accepting cid port serial handler => s.acceptReply stack self cid port serial handler
  | .recvLoop none => .ok (s.suspend self .recvYield)
  | .recvLoop (some request) => .ok (s.goto self (.recvTry request))
  | .recvYield => s.resume self .recvLoop
  | .recvTry request => s.recvTry stack self request
  -- the value of the busy-wait yield is discarded
  | .recvBusyYield request => s.resume self fun _ => .recvTry request

def fetch (s : AsyncServer σ) : Except Panic (AsyncServer σ) :=
  s.executor.fetch.map fun (task, e) =>
    { s.setExecutor e with polling := task.map (·.cid) }

/-- The mutexes that `iface_poll` holds while the stack runs. -/
def ifaceLocks : List SpinMutex := [.socketSet, .interface]

def frame (s : AsyncServer σ) (f : F) : Except Fault (AsyncServer σ) :=
  (s.net.receive stack ifaceLocks f).map fun net => { s with net := net }

def submit (s : AsyncServer σ) (item : IPCItem) : Except Unit (AsyncServer σ) :=
  (s.buffer.reqItems.writeFreeItem ⟨s.submitted, item⟩).map fun items =>
    { s with
      buffer := { s.buffer with reqItems := items, recvReqStatus := true }
      submitted := s.submitted + 1 }

def takeReply (s : AsyncServer σ) : AsyncServer σ :=
  match s.buffer.resItems.getFirstItem with
  | some (_, items) => { s with buffer := { s.buffer with resItems := items } }
  | none => { s with buffer := { s.buffer with recvReplyStatus := false } }

/-- A step that panics or cannot be taken has no successor. -/
def step (s : AsyncServer σ) : AsyncAction F → Option (AsyncServer σ)
  | .boot => if s.booted then none else s.boot.toOption
  | .fetch => if s.polling = none then s.fetch.toOption else none
  | .run => s.polling.bind fun self => (s.run stack self).toOption
  | .frame f =>
    s.polling.bind fun self =>
      if (s.point self.val).inIfacePoll then (s.frame stack f).toOption else none
  | .interrupt vec => (s.net.lib.wakeRecvCoroutine vec).toOption.map s.setLib
  | .submit item => (s.submit item).toOption
  | .takeReply => some s.takeReply
  | .store buffer bytes => some (s.storeBytes buffer bytes)

/-! ### Sample runs -/

/-- The client listens on port 80, and `net_poll` runs up to where it receives frames. -/
def listenRun : List (AsyncAction MiniFrame) :=
  [.boot, .submit (MessageBuilder.listen ⟨9⟩ 80),
    -- the poller, then the request, then the accept coroutine up to its yield
    .fetch, .run, .run, .fetch, .run, .run, .run, .fetch, .run,
    .submit (IPCItem.ofMsg ⟨0⟩ MessageType.netPollReq.toBits), .interrupt 0,
    .fetch, .run, .run, .run, .fetch, .run]

/-- A peer completes its handshake before the accept coroutine is polled. -/
def acceptRun : List (AsyncAction MiniFrame) :=
  listenRun ++ [.frame .syn, .frame .ack, .run, .fetch, .run, .run, .run]

/-- The client submits requests and `nw_recv_req_coroutine` takes them all. -/
def requestRun (items : List IPCItem) : List (AsyncAction MiniFrame) :=
  items.map .submit ++ [.interrupt 0, .fetch, .run] ++ items.map (fun _ => .run) ++ [.run]

/-! ### What the steps can do -/

/-- `e'` is `e` with further entries, all of `woken`, and perhaps without delayed wake-ups. -/
structure Wakes (e e' : Executor Body) (woken : CoroutineId → Prop) : Prop
    extends e.Grown e' woken where
  delayed : ∀ i, e'.delayWakeCids.getLsbD i = true → e.delayWakeCids.getLsbD i = true

theorem Wakes.of_wake {e e' : Executor Body} {cid : CoroutineId} (returned : e.wake cid = .ok e') :
    Wakes e e' (· = cid) := by
  refine ⟨Executor.wake_grown returned, fun i set => ?_⟩
  rwa [Executor.wake_delayWakeCids returned] at set

theorem Wakes.of_actualWake {e e' : Executor Body} (returned : e.actualWake = .ok e') :
    Wakes e e' fun cid => e.delayWakeCids.getLsbD cid.val = true := by
  refine ⟨Executor.actualWake_grown returned, fun i set => ?_⟩
  rw [(Executor.actualWake_same returned).2.2] at set
  simp at set

theorem Wakes.mono {e e' : Executor Body} {woken weaker : CoroutineId → Prop}
    (wakes : Wakes e e' woken) (imp : ∀ cid, woken cid → weaker cid) : Wakes e e' weaker :=
  ⟨wakes.toGrown.mono imp, wakes.delayed⟩

theorem Wakes.trans {a b c : Executor Body} {woken : CoroutineId → Prop} (ab : Wakes a b woken)
    (bc : Wakes b c woken) : Wakes a c woken :=
  ⟨ab.toGrown.trans bc.toGrown, fun i set => ab.delayed i (bc.delayed i set)⟩

theorem Wakes.live {e e' : Executor Body} {woken : CoroutineId → Prop} {i : Nat}
    (wakes : Wakes e e' woken) (live : e.tasks i ≠ none) : e'.tasks i ≠ none := by
  rw [wakes.tasks]
  exact live

/-- The coroutines that `possible_switch` wakes. -/
def Rescheduled (s : AsyncServer σ) (self cid : CoroutineId) : Prop :=
  s.executor.delayWakeCids.getLsbD cid.val = true ∨ cid = self

theorem spawn_ok {s t : AsyncServer σ} {body : Body} {prio : Nat} {cid : CoroutineId}
    (returned : s.spawn body prio = .ok (cid, t)) :
    ∃ runtime, s.net.lib.runtime.spawn body prio = .ok (cid, runtime) ∧
      t = (s.setLib { s.net.lib with runtime := runtime }).goto cid (.fresh body) := by
  obtain ⟨⟨cid', runtime⟩, spawned, same⟩ := map_ok.mp returned
  cases same
  exact ⟨runtime, spawned, rfl⟩

/-- The two coroutines that `boot` spawns, and the interrupt it registers. -/
inductive Booted (s : AsyncServer σ) : AsyncServer σ → Prop
  | intro (poller cid : CoroutineId) (runtime runtime' : RuntimeState Body)
      (allocator : IndexAllocator maxUintVec)
      (first : s.net.lib.runtime.spawn .netPoll 0 = .ok (poller, runtime))
      (second : runtime.spawn .nwRecvReq 1 = .ok (cid, runtime')) :
      Booted s { ((s.setLib { s.net.lib with
        runtime := runtime'
        uintVecAllocator := allocator
        wakeMap := Function.update s.net.lib.wakeMap 0 (some cid) }).goto poller
          (.fresh .netPoll)).goto cid (.fresh .nwRecvReq) with
        netDevicePollerCid := poller
        booted := true }

theorem boot_ok {s t : AsyncServer σ} (returned : s.boot = .ok t) : s.Booted t := by
  unfold boot at returned
  obtain ⟨⟨poller, s₁⟩, spawned, returned⟩ := bind_ok.mp returned
  obtain ⟨⟨cid, s₂⟩, spawned', returned⟩ := bind_ok.mp returned
  obtain ⟨runtime, created, rfl⟩ := spawn_ok spawned
  obtain ⟨runtime', created', rfl⟩ := spawn_ok spawned'
  dsimp only at returned
  split at returned
  next lib registered =>
    cases returned
    rcases AsyncState.registerRecvCid_eq registered with ⟨impossible, -⟩ |
      ⟨v, allocator, same, -, -, rfl⟩
    · cases impossible
    · cases same
      exact .intro poller cid runtime runtime' allocator created created'
  · cases returned
  · cases returned

/-- The end of an iteration of `nw_recv_req_coroutine`. -/
inductive Iterated (s : AsyncServer σ) (self : CoroutineId) : AsyncServer σ → Prop
  | again (e : Executor Body) (n : Nat) (wakes : Wakes s.executor e (s.Rescheduled self)) :
      Iterated s self ((s.setExecutor e).goto self (.reqLoop n))
  | switched (e : Executor Body) (wakes : Wakes s.executor e (s.Rescheduled self)) :
      Iterated s self ((s.setExecutor e).suspend self .reqYield)

theorem afterItem_ok {s t : AsyncServer σ} {self : CoroutineId} {cnt : Nat}
    (returned : s.afterItem self cnt = .ok t) : s.Iterated self t := by
  unfold afterItem at returned
  split at returned
  next =>
    obtain ⟨⟨possible, e⟩, switched, returned⟩ := bind_ok.mp returned
    -- `possible_switch` flushes the delayed wake-ups in either case
    have flushed := (Executor.switchPossible_ok switched).1
    have wakes : Wakes s.executor e (s.Rescheduled self) :=
      (Wakes.of_actualWake flushed).mono fun _ set => .inl set
    cases possible with
    | false =>
      cases returned
      exact .again e 0 wakes
    | true =>
      obtain ⟨lib, woken, rfl⟩ := map_ok.mp returned
      obtain ⟨e', queued, rfl⟩ := AsyncState.wake_ok woken
      -- it queues itself behind those it yields to
      exact .switched e' (wakes.trans ((Wakes.of_wake queued).mono fun _ same => .inr same))
  next =>
    cases returned
    exact .again s.executor cnt ⟨.refl _ _, fun _ set => set⟩

theorem writeReply_ok {s t : AsyncServer σ} {serial : Nat} {reply : IPCItem}
    (returned : s.writeReply serial reply = .ok t) :
    ∃ items, s.buffer.resItems.writeFreeItem ⟨serial, reply⟩ = .ok items ∧ t = { s with
      buffer := { s.buffer with resItems := items, recvReplyStatus := true }
      uipi := s.uipi || !s.buffer.recvReplyStatus
      replies := s.replies ++ [⟨serial, reply⟩] } := by
  unfold writeReply at returned
  split at returned
  · cases returned
  next items written =>
    cases returned
    exact ⟨items, written, rfl⟩

theorem recvInto_ok {s t : AsyncServer σ} {request : Request} {size : Nat}
    (returned : s.recvInto stack request = .ok (size, t)) :
    ∃ len bytes sockets, stack.recvSlice s.net.sockets
        (MessageDecoder.getSocketHandler request.item) len = .ok (bytes, sockets) ∧
      t = (s.setSockets sockets).storeBytes (MessageDecoder.getBuffer request.item) bytes := by
  unfold recvInto at returned
  dsimp only at returned
  split at returned
  next bytes sockets received =>
    cases returned
    exact ⟨_, bytes, sockets, received, rfl⟩
  · cases returned

theorem handOver_ok {s t : AsyncServer σ} {request : Request} (returned : s.handOver request = .ok t) :
    ∃ cid e, s.socket2Cid (MessageDecoder.getSocketHandler request.item) = some cid ∧
      s.executor.wake cid = .ok e ∧ t = { s.setLib { s.net.lib.setExecutor e with
        immediateValue := Function.update s.net.lib.immediateValue cid.val (some request) } with
        handedOver := s.handedOver ++ [(request, cid)] } := by
  unfold handOver at returned
  split at returned
  · cases returned
  next cid filed =>
    obtain ⟨lib, woken, rfl⟩ := map_ok.mp returned
    obtain ⟨e, queued, rfl⟩ := AsyncState.wakeWithValue_ok woken
    exact ⟨cid, e, filed, queued, rfl⟩

section

variable (s : AsyncServer σ) (request : Request)

/-- The socket that a request is about. -/
abbrev socketOf (request : Request) : SocketHandle :=
  MessageDecoder.getSocketHandler request.item

/-- What `process_req` does with a request before the iteration ends. -/
inductive Handled : AsyncServer σ → Prop
  | poll (e : Executor Body) (woken : s.executor.wake s.netDevicePollerCid = .ok e) :
      Handled (s.setExecutor e)
  | listen (cid : CoroutineId) (runtime : RuntimeState Body) (body : Body)
      (isAccept : body = .tcpAccept request.item.cid (MessageDecoder.getPort request.item)
        request.serial)
      (spawned : s.net.lib.runtime.spawn body 2 = .ok (cid, runtime)) :
      Handled ((s.setLib { s.net.lib with runtime := runtime }).goto cid (.fresh body))
  | dropSend (type : MessageDecoder.getType request.item = .ok .send)
      (refused : stack.canSend s.net.sockets (socketOf request) = true →
        ∃ data, stack.sendSlice s.net.sockets (socketOf request) data = .error ()) :
      Handled { s with sendsTaken := s.sendsTaken ++ [request] }
  | recv (size : Nat) (s₁ t : AsyncServer σ) (type : MessageDecoder.getType request.item = .ok .recv)
      (received : s.recvInto stack request = .ok (size, s₁))
      (replied : s₁.writeReply request.serial
        (MessageBuilder.recvReply request.item.cid size) = .ok t) : Handled t
  | dropRecv (can : stack.canRecv s.net.sockets (socketOf request) = true)
      (failed : s.recvInto stack request = .error ()) : Handled s
  | handOver (t : AsyncServer σ) (type : MessageDecoder.getType request.item = .ok .recv)
      (cannot : stack.canRecv s.net.sockets (socketOf request) = false)
      (handed : s.handOver request = .ok t) : Handled t

/-- What `process_req` does with a Send that the socket takes. -/
structure Sending (self : CoroutineId) (cnt size : Nat) (sockets : σ) (t : AsyncServer σ) :
    Prop where
  type : MessageDecoder.getType request.item = .ok .send
  can : stack.canSend s.net.sockets (socketOf request) = true
  fits : MessageDecoder.getLen request.item ≤ tcpTxBufLen
  sent : ∃ data, stack.sendSlice s.net.sockets (socketOf request) data = .ok (size, sockets)
  next : t = ({ s with sendsTaken := s.sendsTaken ++ [request] }.setSockets sockets).goto self
    (.reqPolling cnt request size)

end

theorem processSend_ok {s t : AsyncServer σ} {request : Request} {size : Option Nat}
    (returned : s.processSend stack request = .ok (size, t)) :
    (size = none ∧ t = { s with sendsTaken := s.sendsTaken ++ [request] } ∧
      (stack.canSend s.net.sockets (socketOf request) = true →
        ∃ data, stack.sendSlice s.net.sockets (socketOf request) data = .error ())) ∨
    ∃ n sockets data, size = some n ∧
      stack.canSend s.net.sockets (socketOf request) = true ∧
      MessageDecoder.getLen request.item ≤ tcpTxBufLen ∧
      stack.sendSlice s.net.sockets (socketOf request) data = .ok (n, sockets) ∧
      t = { s with sendsTaken := s.sendsTaken ++ [request] }.setSockets sockets := by
  unfold processSend at returned
  dsimp only at returned
  split at returned
  · cases returned
  · split at returned
    next can =>
      split at returned
      next fits =>
        split at returned
        next n sockets sent =>
          cases returned
          exact .inr ⟨n, sockets, _, rfl, can, fits, sent, rfl⟩
        next failed =>
          cases returned
          exact .inl ⟨rfl, rfl, fun _ => ⟨_, failed⟩⟩
      · cases returned
    next cannot =>
      cases returned
      exact .inl ⟨rfl, rfl, fun can => absurd can cannot⟩

theorem processListen_ok {s t : AsyncServer σ} {request : Request}
    (returned : s.processListen request = .ok t) : Handled stack s request t := by
  unfold processListen at returned
  obtain ⟨⟨cid, s₁⟩, spawned, rfl⟩ := map_ok.mp returned
  obtain ⟨runtime, queued, rfl⟩ := spawn_ok spawned
  exact .listen cid runtime _ rfl queued

theorem processRecv_ok {s t : AsyncServer σ} {request : Request}
    (type : MessageDecoder.getType request.item = .ok .recv)
    (returned : s.processRecv stack request = .ok t) : Handled stack s request t := by
  unfold processRecv at returned
  dsimp only at returned
  split at returned
  · cases returned
  · split at returned
    next can =>
      split at returned
      next size s₁ received => exact .recv size s₁ t type received returned
      next failed =>
        cases returned
        -- an error of `recv_slice` is swallowed: no reply
        exact .dropRecv can failed
    next cannot => exact .handOver t type (by simpa using cannot) returned

theorem processReq_ok {s t : AsyncServer σ} {self : CoroutineId} {cnt : Nat} {request : Request}
    (returned : s.processReq stack self cnt request = .ok t) :
    (∃ s₁, Handled stack s request s₁ ∧ s₁.Iterated self t) ∨
    ∃ size sockets, Sending stack s request self cnt size sockets t := by
  unfold processReq at returned
  obtain ⟨type, isType, returned⟩ := bind_ok.mp returned
  cases type with
  | netPollReq =>
    left
    obtain ⟨lib, woken, returned⟩ := bind_ok.mp returned
    obtain ⟨e, queued, rfl⟩ := AsyncState.wake_ok woken
    exact ⟨_, .poll e queued, afterItem_ok returned⟩
  | listen =>
    left
    obtain ⟨s₁, spawned, returned⟩ := bind_ok.mp returned
    exact ⟨s₁, processListen_ok stack spawned, afterItem_ok returned⟩
  | send =>
    obtain ⟨⟨size, s₁⟩, sent, returned⟩ := bind_ok.mp returned
    rcases processSend_ok stack sent with ⟨rfl, rfl, refused⟩ |
      ⟨n, sockets, data, rfl, can, fits, sliced, rfl⟩
    · left
      exact ⟨_, .dropSend isType refused, afterItem_ok returned⟩
    · right
      cases returned
      exact ⟨n, sockets, isType, can, fits, ⟨data, sliced⟩, rfl⟩
  | recv =>
    left
    obtain ⟨s₁, handled, returned⟩ := bind_ok.mp returned
    exact ⟨s₁, processRecv_ok stack isType handled, afterItem_ok returned⟩
  | reserve => cases returned
  | listenReply => cases returned
  | sendReply => cases returned
  | recvReply => cases returned

/-- The points between which a coroutine moves without any other effect. -/
inductive Jump : Point → Point → Prop
  | netPoll : Jump (.fresh .netPoll) .netPolling
  | nwRecvReq : Jump (.fresh .nwRecvReq) (.reqLoop 0)
  | serve (request : Request) : Jump (.recvLoop (some request)) (.recvTry request)

/-- The points at which a `yield_now` returns, and what is done with its value. -/
inductive Resumes : Point → (Option Request → Point) → Prop
  | net : Resumes .netYield fun _ => .netPolling
  | req : Resumes .reqYield fun _ => .reqLoop 0
  | accept (cid : CoroutineId) (port serial : Nat) (handler : SocketHandle) :
      Resumes (.acceptYield cid port serial handler) fun _ => .accepting cid port serial handler
  | recv : Resumes .recvYield .recvLoop
  | busy (request : Request) : Resumes (.recvBusyYield request) fun _ => .recvTry request

/-- Everything that a step of the polled coroutine can do. -/
inductive Ran (s : AsyncServer σ) (self : CoroutineId) : AsyncServer σ → Prop
  | jump (p : Point) (jumps : Jump (s.point self.val) p) : Ran s self (s.goto self p)
  | resume (next : Option Request → Point) (value : Option Request)
      (lib : AsyncState Body Request) (resumes : Resumes (s.point self.val) next)
      (taken : s.net.lib.takeValue = .ok (value, lib)) :
      Ran s self ((s.setLib lib).goto self (next value))
  | endPoll (at_ : s.point self.val = .netPolling) :
      Ran s self ((s.endPoll stack).suspend self .netYield)
  | noItem (cnt : Nat) (at_ : s.point self.val = .reqLoop cnt)
      (empty : s.buffer.reqItems.getFirstItem = none) :
      Ran s self ({ s with buffer := { s.buffer with recvReqStatus := false } }.suspend self
        .reqYield)
  | handle (cnt : Nat) (request : Request) (items : ItemsQueue Request) (s₁ t : AsyncServer σ)
      (at_ : s.point self.val = .reqLoop cnt)
      (popped : s.buffer.reqItems.getFirstItem = some (request, items))
      (handled : Handled stack { s with buffer := { s.buffer with reqItems := items } } request s₁)
      (iterated : s₁.Iterated self t) : Ran s self t
  | send (cnt size : Nat) (request : Request) (items : ItemsQueue Request) (sockets : σ)
      (t : AsyncServer σ) (at_ : s.point self.val = .reqLoop cnt)
      (popped : s.buffer.reqItems.getFirstItem = some (request, items))
      (sending : Sending stack { s with buffer := { s.buffer with reqItems := items } } request self
        (cnt + 1) size sockets t) : Ran s self t
  | sendReply (cnt size : Nat) (request : Request) (s₁ t : AsyncServer σ)
      (at_ : s.point self.val = .reqPolling cnt request size)
      (replied : (s.endPoll stack).writeReply request.serial
        (MessageBuilder.sendReply request.item.cid size) = .ok s₁)
      (iterated : s₁.Iterated self t) : Ran s self t
  | listen (cid : CoroutineId) (port serial : Nat) (handler : SocketHandle) (sockets : σ)
      (table : ListenTable) (at_ : s.point self.val = .fresh (.tcpAccept cid port serial))
      (opened : stack.listen s.net.sockets port = some (handler, sockets))
      (registered : s.net.listenTable.listen port handler self = .ok table) :
      Ran s self ({ s with net := { s.net with sockets := sockets, listenTable := table } }.suspend
        self (.acceptYield cid port serial handler))
  | accept (cid : CoroutineId) (port serial : Nat) (handler handle : SocketHandle)
      (tuple : IpEndpoint × IpEndpoint) (net : NetState σ Body Request) (s₁ : AsyncServer σ)
      (at_ : s.point self.val = .accepting cid port serial handler)
      (accepted : s.net.accept stack port = .ok (some (handle, tuple), net))
      (replied : { s with net := net }.writeReply serial (MessageBuilder.listenReply cid handle) =
        .ok s₁) :
      Ran s self ({ s₁ with
        socket2Cid := Function.update s₁.socket2Cid handler (some self) }.goto self
          (.recvLoop none))
  | wait (at_ : s.point self.val = .recvLoop none) : Ran s self (s.suspend self .recvYield)
  | recvReply (request : Request) (size : Nat) (s₁ s₂ : AsyncServer σ)
      (at_ : s.point self.val = .recvTry request)
      (received : s.recvInto stack request = .ok (size, s₁))
      (replied : s₁.writeReply request.serial
        (MessageBuilder.recvReply request.item.cid size) = .ok s₂) :
      Ran s self (s₂.goto self (.recvLoop none))
  | recvFailed (request : Request) (at_ : s.point self.val = .recvTry request)
      (can : stack.canRecv s.net.sockets (socketOf request) = true)
      (failed : s.recvInto stack request = .error ()) : Ran s self (s.goto self (.recvLoop none))
  | recvBusy (request : Request) (e : Executor Body) (at_ : s.point self.val = .recvTry request)
      (woken : s.executor.wake self = .ok e) :
      Ran s self ((s.setExecutor e).suspend self (.recvBusyYield request))

theorem resume_ok {s t : AsyncServer σ} {self : CoroutineId} {next : Option Request → Point}
    (resumes : Resumes (s.point self.val) next) (returned : s.resume self next = .ok t) :
    Ran stack s self t := by
  obtain ⟨⟨value, lib⟩, taken, rfl⟩ := map_ok.mp returned
  exact .resume next value lib resumes taken

theorem recvReq_ok {s t : AsyncServer σ} {self : CoroutineId} {cnt : Nat}
    (at_ : s.point self.val = .reqLoop cnt) (returned : s.recvReq stack self cnt = .ok t) :
    Ran stack s self t := by
  unfold recvReq at returned
  split at returned
  next request items popped =>
    rcases processReq_ok stack returned with ⟨s₁, handled, iterated⟩ | ⟨size, sockets, sending⟩
    · exact .handle cnt request items s₁ t at_ popped handled iterated
    · exact .send cnt size request items sockets t at_ popped sending
  next empty =>
    cases returned
    exact .noItem cnt at_ empty

theorem acceptReply_ok {s t : AsyncServer σ} {self cid : CoroutineId} {port serial : Nat}
    {handler : SocketHandle} (at_ : s.point self.val = .accepting cid port serial handler)
    (returned : s.acceptReply stack self cid port serial handler = .ok t) : Ran stack s self t := by
  unfold acceptReply at returned
  obtain ⟨⟨result, net⟩, accepted, returned⟩ := bind_ok.mp returned
  cases result with
  -- an `Err` of `accept` panics
  | none => cases returned
  | some pair =>
    obtain ⟨handle, tuple⟩ := pair
    obtain ⟨s₁, replied, rfl⟩ := map_ok.mp returned
    exact .accept cid port serial handler handle tuple net s₁ at_ accepted replied

theorem recvTry_ok {s t : AsyncServer σ} {self : CoroutineId} {request : Request}
    (at_ : s.point self.val = .recvTry request) (returned : s.recvTry stack self request = .ok t) :
    Ran stack s self t := by
  unfold recvTry at returned
  dsimp only at returned
  split at returned
  · cases returned
  · split at returned
    next can =>
      split at returned
      next size s₁ received =>
        obtain ⟨s₂, replied, rfl⟩ := map_ok.mp returned
        exact .recvReply request size s₁ s₂ at_ received replied
      next failed =>
        cases returned
        exact .recvFailed request at_ can failed
    next cannot =>
      obtain ⟨lib, woken, rfl⟩ := map_ok.mp returned
      obtain ⟨e, queued, rfl⟩ := AsyncState.wake_ok woken
      exact .recvBusy request e at_ queued

theorem run_ok {s t : AsyncServer σ} {self : CoroutineId} (returned : s.run stack self = .ok t) :
    Ran stack s self t := by
  unfold run at returned
  split at returned
  next at_ => cases returned; exact .jump _ (at_ ▸ .netPoll)
  next at_ => cases returned; exact .jump _ (at_ ▸ .nwRecvReq)
  next cid port serial at_ =>
    unfold acceptListen at returned
    split at returned
    · cases returned
    next handler sockets opened =>
      obtain ⟨table, registered, rfl⟩ := map_ok.mp returned
      exact .listen cid port serial handler sockets table at_ opened registered
  next at_ => cases returned; exact .endPoll at_
  next at_ => exact resume_ok stack (at_ ▸ .net) returned
  next cnt at_ => exact recvReq_ok stack at_ returned
  next cnt request size at_ =>
    obtain ⟨s₁, replied, iterated⟩ := bind_ok.mp returned
    exact .sendReply cnt size request s₁ t at_ replied (afterItem_ok iterated)
  next at_ => exact resume_ok stack (at_ ▸ .req) returned
  next cid port serial handler at_ =>
    exact resume_ok stack (at_ ▸ .accept cid port serial handler) returned
  next cid port serial handler at_ => exact acceptReply_ok stack at_ returned
  next at_ => cases returned; exact .wait at_
  next request at_ => cases returned; exact .jump _ (at_ ▸ .serve request)
  next at_ => exact resume_ok stack (at_ ▸ .recv) returned
  next request at_ => exact recvTry_ok stack at_ returned
  next request at_ => exact resume_ok stack (at_ ▸ .busy request) returned

/-- Everything that a step of the server, of its client or of the network can do. -/
inductive Moved (s : AsyncServer σ) : AsyncAction F → AsyncServer σ → Prop
  | boot (t : AsyncServer σ) (booted : s.Booted t) : Moved s .boot t
  | fetch (task : Option (Coroutine Body)) (e : Executor Body) (idle : s.polling = none)
      (fetched : s.executor.fetch = .ok (task, e)) :
      Moved s .fetch { s.setExecutor e with polling := task.map (·.cid) }
  | run (self : CoroutineId) (t : AsyncServer σ) (polls : s.polling = some self)
      (ran : Ran stack s self t) : Moved s .run t
  | frame (f : F) (self : CoroutineId) (net : NetState σ Body Request)
      (polls : s.polling = some self) (inPoll : (s.point self.val).inIfacePoll = true)
      (received : s.net.receive stack ifaceLocks f = .ok net) :
      Moved s (.frame f) { s with net := net }
  | interrupt (vec : Nat) (cid : CoroutineId) (e : Executor Body)
      (known : s.net.lib.wakeMap vec = some cid) (delayed : s.executor.delayWake cid = .ok e) :
      Moved s (.interrupt vec) (s.setExecutor e)
  | submit (item : IPCItem) (items : ItemsQueue Request)
      (written : items.items = s.buffer.reqItems.items ++ [⟨s.submitted, item⟩]) :
      Moved s (.submit item) { s with
        buffer := { s.buffer with reqItems := items, recvReqStatus := true }
        submitted := s.submitted + 1 }
  | tookReply (reply : Request) (items : ItemsQueue Request)
      (popped : s.buffer.resItems.getFirstItem = some (reply, items)) :
      Moved s .takeReply { s with buffer := { s.buffer with resItems := items } }
  | noReply (empty : s.buffer.resItems.getFirstItem = none) :
      Moved s .takeReply { s with buffer := { s.buffer with recvReplyStatus := false } }
  | store (buffer : BufferPtr) (bytes : List (BitVec 8)) :
      Moved s (.store buffer bytes) (s.storeBytes buffer bytes)

theorem step_moved {s t : AsyncServer σ} {a : AsyncAction F} (moved : s.step stack a = some t) :
    Moved stack s a t := by
  cases a with
  | boot =>
    simp only [step] at moved
    split at moved
    · cases moved
    · exact .boot t (boot_ok ((toOption_eq_some _ _).mp moved))
  | fetch =>
    simp only [step] at moved
    split at moved
    next idle =>
      obtain ⟨⟨task, e⟩, fetched, rfl⟩ := map_ok.mp ((toOption_eq_some _ _).mp moved)
      exact .fetch task e idle fetched
    · cases moved
  | run =>
    obtain ⟨self, polls, moved⟩ := Option.bind_eq_some_iff.mp moved
    exact .run self t polls (run_ok stack ((toOption_eq_some _ _).mp moved))
  | frame f =>
    obtain ⟨self, polls, moved⟩ := Option.bind_eq_some_iff.mp moved
    split at moved
    next inPoll =>
      obtain ⟨net, received, rfl⟩ := map_ok.mp ((toOption_eq_some _ _).mp moved)
      exact .frame f self net polls inPoll received
    · cases moved
  | interrupt vec =>
    obtain ⟨lib, interrupted, rfl⟩ := Option.map_eq_some_iff.mp moved
    obtain ⟨cid, e, known, delayed, rfl⟩ :=
      AsyncState.wakeRecvCoroutine_ok ((toOption_eq_some _ _).mp interrupted)
    exact .interrupt vec cid e known delayed
  | submit item =>
    obtain ⟨items, written, rfl⟩ := map_ok.mp ((toOption_eq_some _ _).mp moved)
    exact .submit item items (ItemsQueue.writeFreeItem_ok written).2
  | takeReply =>
    obtain rfl : s.takeReply = t := Option.some.inj moved
    unfold takeReply
    split
    next reply items popped => exact .tookReply reply items popped
    next empty => exact .noReply empty
  | store buffer bytes =>
    cases moved
    exact .store buffer bytes

end AsyncServer

end RootTask.Net
