import RootTask.Net.AsyncServer
import RootTask.Net.SyncServer

/-!
# How much a Recv receives

Four paths answer a Recv: `process_req` of either server when data is there, and later
`tcp_recv_coroutine` or `process_blocked_task`. The coroutine keeps the request. The record that
the synchronous server keeps has the buffer and not the length, so the late answer offers the
whole buffer to `recv_slice`.
-/
namespace RootTask.Net

open RootTask.Runtime RootTask.Transition RootTask.Outcome

variable {σ F : Type} {stack : Smoltcp σ F} {rx : σ → SocketHandle → List (BitVec 8)}

/-- What a Recv takes out of a socket and what it leaves there. -/
structure RecvResult where
  bytes : List (BitVec 8)
  left : List (BitVec 8)
  deriving DecidableEq, Repr

/-- A slice of some length is filled from the front. -/
def RecvResult.ofSlice (content : List (BitVec 8)) (len : Nat) : RecvResult :=
  ⟨content.take len, content.drop len⟩

/-- Slices that both hold all of the content, or as much of it, are filled alike. -/
theorem RecvResult.ofSlice_min {content : List (BitVec 8)} {size len : Nat}
    (enough : size ≤ len ∨ content.length ≤ len) :
    ofSlice content (min size len) = ofSlice content size := by
  by_cases whole : size ≤ len
  · rw [Nat.min_eq_left whole]
  · have all : content.length ≤ len := enough.resolve_left whole
    rw [Nat.min_eq_right (by omega), ofSlice, ofSlice, List.take_of_length_le all,
      List.drop_eq_nil_of_le all, List.take_of_length_le (by omega),
      List.drop_eq_nil_of_le (by omega)]

/-! ### The synchronous server -/

namespace SyncServer

variable {s t : SyncServer σ} {ep : Endpoint} {regs : MsgRegs}

/-- The client has the bytes and their number, and the socket the rest. -/
structure Answered (rx : σ → SocketHandle → List (BitVec 8)) (s : SyncServer σ) (ep : Endpoint)
    (handler : SocketHandle) (buffer : BufferPtr) (t : SyncServer σ) (r : RecvResult) : Prop where
  memory : t.memory = (s.storeBytes buffer r.bytes).memory
  reply : t.net.sent = s.net.sent ++ [⟨ep, .recvReply, r.bytes.length⟩]
  left : rx t.net.sockets = Function.update (rx s.net.sockets) handler r.left

theorem recvReply_answered (receives : stack.Receives rx) (ep : Endpoint) {handler : SocketHandle}
    (can : stack.canRecv s.net.sockets handler = true) (buffer : BufferPtr) (len : Nat) :
    ∃ t, s.recvReply stack ep handler buffer len = some t ∧
      s.Answered rx ep handler buffer t (.ofSlice (rx s.net.sockets handler) len) := by
  obtain ⟨sockets, received, left⟩ := receives.recv_front can len
  unfold recvReply
  rw [received]
  exact ⟨_, rfl, rfl, rfl, left⟩

/-- `process_req` offers what the client asked for, up to the whole buffer. -/
theorem processRecv_answered (receives : stack.Receives rx)
    (can : stack.canRecv s.net.sockets regs.handler = true)
    (returned : s.processRecv stack ep regs = .ok t) :
    s.Answered rx ep regs.handler regs.buffer t
      (.ofSlice (rx s.net.sockets regs.handler) (min tcpTxBufLen regs.len)) := by
  obtain ⟨held, -, returned⟩ := bind_ok.mp returned
  obtain ⟨t', replied, answered⟩ := recvReply_answered receives ep can regs.buffer
    (min tcpTxBufLen regs.len)
  split at returned
  · cases returned
  · rw [if_pos can] at returned
    dsimp only at returned
    rw [replied] at returned
    cases returned
    exact answered

/-- The record of a request that has to wait. -/
theorem processRecv_filed (waits : stack.canRecv s.net.sockets regs.handler = false)
    (returned : s.processRecv stack ep regs = .ok t) :
    t.recvBlockedTasks = s.recvBlockedTasks ++ [⟨ep, regs.buffer, regs.handler, false⟩] := by
  obtain ⟨held, -, returned⟩ := bind_ok.mp returned
  split at returned
  · cases returned
  · rw [waits] at returned
    obtain ⟨-, -, rfl⟩ := map_ok.mp returned
    rfl

/-- `process_blocked_task` offers the whole buffer. -/
theorem processBlockedTask_answered (receives : stack.Receives rx) {task task' : RecvBlockedTask}
    (can : stack.canRecv s.net.sockets task.handler = true)
    (returned : s.processBlockedTask stack task = .ok (task', t)) :
    s.Answered rx task.ep task.handler task.tcpBuffer t
      (.ofSlice (rx s.net.sockets task.handler) tcpTxBufLen) := by
  obtain ⟨held, -, returned⟩ := bind_ok.mp returned
  obtain ⟨t', replied, answered⟩ := recvReply_answered receives task.ep can task.tcpBuffer
    tcpTxBufLen
  split at returned
  · cases returned
  · rw [if_pos can, replied] at returned
    cases returned
    exact answered

/-- In state `s` a Recv is answered, by `process_req` as it arrives or by `process_blocked_task`
from the record that `process_req` made of it in some earlier state. -/
inductive Serves (stack : Smoltcp σ F) (s : SyncServer σ) (ep : Endpoint) (regs : MsgRegs) :
    (deferred : Bool) → SyncServer σ → Prop
  | atOnce {t : SyncServer σ} (can : stack.canRecv s.net.sockets regs.handler = true)
      (returned : s.processRecv stack ep regs = .ok t) : Serves stack s ep regs false t
  | deferred {s₀ s₁ t : SyncServer σ} {task task' : RecvBlockedTask}
      (waits : stack.canRecv s₀.net.sockets regs.handler = false)
      (arrived : s₀.processRecv stack ep regs = .ok s₁)
      (filed : s₁.recvBlockedTasks = s₀.recvBlockedTasks ++ [task])
      (can : stack.canRecv s.net.sockets regs.handler = true)
      (returned : s.processBlockedTask stack task = .ok (task', t)) : Serves stack s ep regs true t

theorem Serves.answered (receives : stack.Receives rx) {deferred : Bool}
    (served : s.Serves stack ep regs deferred t) :
    s.Answered rx ep regs.handler regs.buffer t (.ofSlice (rx s.net.sockets regs.handler)
      (if deferred then tcpTxBufLen else min tcpTxBufLen regs.len)) := by
  cases served with
  | atOnce can returned => exact processRecv_answered receives can returned
  | deferred waits arrived filed can returned =>
    rw [processRecv_filed waits arrived] at filed
    obtain rfl := List.singleton_injective (List.append_cancel_left filed)
    exact processBlockedTask_answered receives can returned

end SyncServer

/-! ### The asynchronous server -/

namespace AsyncServer

variable {s t : AsyncServer σ} {request : Request}

structure Answered (rx : σ → SocketHandle → List (BitVec 8)) (s : AsyncServer σ)
    (request : Request) (t : AsyncServer σ) (r : RecvResult) : Prop where
  memory : t.memory = (s.storeBytes (MessageDecoder.getBuffer request.item) r.bytes).memory
  reply : ∃ item, t.replies = s.replies ++ [⟨request.serial, item⟩] ∧
    item = MessageBuilder.recvReply request.item.cid r.bytes.length ∧
    MessageDecoder.getLen item = r.bytes.length
  left : rx t.net.sockets = Function.update (rx s.net.sockets)
    (MessageDecoder.getSocketHandler request.item) r.left

/-- In state `s` a Recv is answered, by `process_req` or by `tcp_recv_coroutine`. -/
inductive Serves (stack : Smoltcp σ F) (s : AsyncServer σ) (request : Request) :
    AsyncServer σ → Prop
  | processReq {t : AsyncServer σ}
      (can : stack.canRecv s.net.sockets (MessageDecoder.getSocketHandler request.item) = true)
      (returned : s.processRecv stack request = .ok t) : Serves stack s request t
  | tcpRecvCoroutine {self : CoroutineId} {t : AsyncServer σ}
      (can : stack.canRecv s.net.sockets (MessageDecoder.getSocketHandler request.item) = true)
      (returned : s.recvTry stack self request = .ok t) : Serves stack s request t

/-- The copy and the reply, as both paths make them. -/
theorem recvInto_answered (receives : stack.Receives rx)
    (can : stack.canRecv s.net.sockets (MessageDecoder.getSocketHandler request.item) = true) :
    ∃ size s₁, s.recvInto stack request = .ok (size, s₁) ∧
      ∀ t, s₁.writeReply request.serial (MessageBuilder.recvReply request.item.cid size) = .ok t →
        s.Answered rx request t
          (.ofSlice (rx s.net.sockets (MessageDecoder.getSocketHandler request.item))
            (min tcpTxBufLen (MessageDecoder.getLen request.item))) := by
  obtain ⟨sockets, received, left⟩ :=
    receives.recv_front can (min tcpTxBufLen (MessageDecoder.getLen request.item))
  unfold recvInto
  dsimp only
  rw [received]
  refine ⟨_, _, rfl, fun t written => ?_⟩
  unfold writeReply at written
  split at written
  · cases written
  · cases written
    refine ⟨rfl, ⟨_, rfl, rfl, ?_⟩, left⟩
    refine MessageBuilder.getElem_setWord _ 1 ?_
    simp only [List.length_take, tcpTxBufLen]
    omega

theorem Serves.answered (receives : stack.Receives rx) (served : s.Serves stack request t) :
    s.Answered rx request t
      (.ofSlice (rx s.net.sockets (MessageDecoder.getSocketHandler request.item))
        (min tcpTxBufLen (MessageDecoder.getLen request.item))) := by
  cases served with
  | processReq can returned =>
    obtain ⟨size, s₁, received, answered⟩ := recvInto_answered receives can
    unfold processRecv at returned
    dsimp only at returned
    split at returned
    · cases returned
    · rw [if_pos can, received] at returned
      exact answered t returned
  | tcpRecvCoroutine can returned =>
    obtain ⟨size, s₁, received, answered⟩ := recvInto_answered receives can
    unfold recvTry at returned
    dsimp only at returned
    split at returned
    · cases returned
    · rw [if_pos can, received] at returned
      obtain ⟨t', written, rfl⟩ := map_ok.mp returned
      obtain ⟨memory, reply, left⟩ := answered t' written
      exact ⟨memory, reply, left⟩

end AsyncServer

/-! ### The two servers together -/

/-- The item of a request that the synchronous server gets in its registers. -/
structure SameRequest (regs : MsgRegs) (item : IPCItem) : Prop where
  handler : MessageDecoder.getSocketHandler item = regs.handler
  buffer : MessageDecoder.getBuffer item = regs.buffer
  len : MessageDecoder.getLen item = regs.len

/-- A Recv is answered within its length and the buffer, the rest stays in the socket, and the
asynchronous server gives the same for the same content, exactly when it is answered as it
arrives, or asks for the whole buffer, or the socket holds no more than it asked for. -/
theorem recv_limit_iff (receives : stack.Receives rx) {s t : SyncServer σ} {ep : Endpoint}
    {regs : MsgRegs} {deferred : Bool} (served : s.Serves stack ep regs deferred t) :
    (∃ r, s.Answered rx ep regs.handler regs.buffer t r ∧
      r.bytes.length ≤ min regs.len tcpTxBufLen ∧
      r.bytes ++ r.left = rx s.net.sockets regs.handler ∧
      ∀ (request : Request) (a b : AsyncServer σ), SameRequest regs request.item →
        rx a.net.sockets regs.handler = rx s.net.sockets regs.handler →
        a.Serves stack request b → a.Answered rx request b r) ↔
    (deferred = true → tcpTxBufLen ≤ regs.len ∨
      (rx s.net.sockets regs.handler).length ≤ regs.len) := by
  have answered := served.answered receives
  constructor
  · rintro ⟨r, given, within, -⟩ rfl
    -- the reply says how many bytes were taken
    have replies := given.reply.symm.trans answered.reply
    simp only [List.append_cancel_left_eq, List.cons.injEq, EpMessage.mk.injEq, and_true, true_and,
      RecvResult.ofSlice, if_true, List.length_take] at replies
    omega
  · intro enough
    have slice : s.Answered rx ep regs.handler regs.buffer t
        (.ofSlice (rx s.net.sockets regs.handler) (min tcpTxBufLen regs.len)) := by
      cases deferred with
      | false => exact answered
      | true =>
        rw [RecvResult.ofSlice_min (enough rfl)]
        exact answered
    refine ⟨_, slice, ?_, List.take_append_drop _ _, ?_⟩
    · simp only [RecvResult.ofSlice, List.length_take]
      omega
    · intro request a b same content servedAsync
      have answeredAsync := servedAsync.answered receives
      rwa [same.handler, same.len, content] at answeredAsync

/-- A connected client asks for some bytes, waits, and two of them arrive. -/
def lateDataRun (len : BitVec 64) : List (SyncAction MiniFrame) :=
  SyncServer.listenPass ++ [.ntfnPoll 1, .frame .syn, .frame .ack, .run,
    SyncServer.request 0 .recv 0 5 len, .run, .ntfnPoll 1, .frame (.data [1, 2]), .run,
    SyncServer.signal 0, .run]

/-- A client that asked for one byte gets two in its buffer, and none is left for its next
Recv. -/
theorem deferred_recv_exceeds :
    ∃ s, exec (SyncServer.step mini 100) (SyncServer.init mini 100) (lateDataRun 1) = some s ∧
      s.net.sent.getLast? = some ⟨⟨100⟩, .recvReply, 2⟩ ∧ s.memory 5 1 = 2 ∧
      miniRx s.net.sockets ⟨0⟩ = [] := by
  have run : (exec (SyncServer.step mini 100) (SyncServer.init mini 100) (lateDataRun 1)).map
      (fun s => (s.net.sent.getLast?, s.memory 5 1, miniRx s.net.sockets ⟨0⟩)) =
        some (some ⟨⟨100⟩, .recvReply, 2⟩, 2, []) := by decide +kernel
  obtain ⟨s, reached, seen⟩ := Option.map_eq_some_iff.mp run
  obtain ⟨reply, seen⟩ := Prod.mk.inj seen
  exact ⟨s, reached, reply, Prod.mk.inj seen⟩

/-- One connected socket with some bytes. -/
def oneSocket (bytes : List (BitVec 8)) : SyncServer (List MiniSocket) :=
  (SyncServer.init mini 100).setSockets [⟨80, .established, some ⟨7, 4000⟩, bytes⟩]

/-- The same request for two bytes. -/
theorem recv_limit_iff_fits :
    ∃ t r, (oneSocket [1, 2]).Serves mini ⟨100⟩ ⟨.recv, 0, 5, 2⟩ true t ∧
      (oneSocket [1, 2]).Answered miniRx ⟨100⟩ ⟨0⟩ 5 t r ∧ r.bytes.length ≤ 2 := by
  have arrived : (oneSocket []).processRecv mini ⟨100⟩ ⟨.recv, 0, 5, 2⟩ = .ok _ := rfl
  have served : (oneSocket [1, 2]).Serves mini ⟨100⟩ ⟨.recv, 0, 5, 2⟩ true _ :=
    .deferred (by rfl) arrived (by rfl) (by rfl) (by rfl)
  obtain ⟨r, answered, within, -⟩ := (recv_limit_iff mini_receives served).mpr fun _ => by decide
  exact ⟨_, r, served, answered, Nat.le_trans within (Nat.min_le_left _ _)⟩

end RootTask.Net
