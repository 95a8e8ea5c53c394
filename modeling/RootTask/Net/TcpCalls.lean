import RootTask.Lib.Custody
import RootTask.Net.AsyncServer

/-!
# The socket API and its clients

`tcp.rs`: `listen`, `send` and `recv` build a message, call the server with it and assert the type
of the reply. Any number of coroutines of the client thread do so side by side, as the
`tcp_server`s of `async_tcp_test.rs` do. The server is the one of `AsyncServer`.

The client's executor polls a coroutine in a call only if `recv_reply_coroutine` has queued it,
and may do so in any order. That the wake-ups of the client thread are no others, and reach the
coroutine that called, is `call_reply_matching`.

A call leaves a trace wherever it is: in the queue of requests, with a coroutine of the server, in
a mailbox, among the replies. These places, and what a call looks like in each of them, are defined
here; that they are kept in order is proved in `CallOrder` for the server and in `TcpClients` for
the client.
-/
namespace RootTask.Net

open RootTask.Runtime RootTask.Transition RootTask.Custody

/-- A call of the socket API, with the `SenderID` of the network server for `listen`. -/
inductive TcpCall where
  | listen (port : Nat) (nwSenderId : Nat)
  | send (handler : SocketHandle) (buffer : BufferPtr) (len : Nat)
  | recv (handler : SocketHandle) (buffer : BufferPtr) (len : Nat)
  deriving DecidableEq, Repr

/-- Bytes that went from a buffer into a socket, or the other way. -/
structure Transfer where
  handler : SocketHandle
  bytes : List (BitVec 8)
  deriving DecidableEq, Repr

/-- The first bytes of a buffer. -/
def bytesIn (memory : BufferPtr → Nat → BitVec 8) (buffer : BufferPtr) (size : Nat) :
    List (BitVec 8) :=
  (List.range size).map (memory buffer)

namespace TcpCall

def message (cid : CoroutineId) : TcpCall → IPCItem
  | .listen port _ => MessageBuilder.listen cid port
  | .send handler buffer len => MessageBuilder.send cid handler buffer len
  | .recv handler buffer len => MessageBuilder.recv cid handler buffer len

/-- The type that the reply is asserted to have. -/
def replyType : TcpCall → MessageType
  | .listen _ _ => .listenReply
  | .send _ _ _ => .sendReply
  | .recv _ _ _ => .recvReply

def handler : TcpCall → Option SocketHandle
  | .listen _ _ => none
  | .send handler _ _ => some handler
  | .recv handler _ _ => some handler

def buffer : TcpCall → Option BufferPtr
  | .listen _ _ => none
  | .send _ buffer _ => some buffer
  | .recv _ buffer _ => some buffer

/-- The buffer that a call borrows mutably. -/
def written : TcpCall → Option BufferPtr
  | .recv _ buffer _ => some buffer
  | _ => none

/-- What the caller believes to have been moved when the reply says `size`. -/
def moved (memory : BufferPtr → Nat → BitVec 8) (size : Nat) : TcpCall → List Transfer
  | .listen _ _ => []
  | .send handler buffer _ => [⟨handler, bytesIn memory buffer size⟩]
  | .recv handler buffer _ => [⟨handler, bytesIn memory buffer size⟩]

/-- Two calls in progress may not borrow one buffer if either of them writes to it. -/
def Compatible (call other : TcpCall) : Prop :=
  (∀ buffer ∈ call.written, other.buffer ≠ some buffer) ∧
    ∀ buffer ∈ other.written, call.buffer ≠ some buffer

instance (call other : TcpCall) : Decidable (call.Compatible other) :=
  inferInstanceAs (Decidable (_ ∧ _))

end TcpCall

/-- What a call returns in its `Ok`. -/
inductive TcpResult where
  | handler (handler : SocketHandle)
  | size (size : Nat)
  deriving DecidableEq, Repr

/-! ### What the server moves -/

namespace AsyncServer

variable {σ F : Type} (stack : Smoltcp σ F) (s : AsyncServer σ)

/-- What `send_slice` takes of a request. -/
def sendTransfer (item : IPCItem) : Option Transfer :=
  let handler := MessageDecoder.getSocketHandler item
  let data := bytesIn s.memory (MessageDecoder.getBuffer item) (MessageDecoder.getLen item)
  if stack.canSend s.net.sockets handler then
    match stack.sendSlice s.net.sockets handler data with
    | .ok (size, _) => some ⟨handler, data.take size⟩
    | .error _ => none
  else none

/-- What `recv_slice` hands out to a request. -/
def recvTransfer (item : IPCItem) : Option Transfer :=
  let handler := MessageDecoder.getSocketHandler item
  let len := min tcpTxBufLen (MessageDecoder.getLen item)
  if stack.canRecv s.net.sockets handler then
    match stack.recvSlice s.net.sockets handler len with
    | .ok (bytes, _) => some ⟨handler, bytes⟩
    | .error _ => none
  else none

def itemTransfer (item : IPCItem) : Option Transfer :=
  match MessageDecoder.getType item with
  | .ok .send => s.sendTransfer stack item
  | .ok .recv => s.recvTransfer stack item
  | _ => none

/-- What the next step of a coroutine moves, and for whom. -/
def transferring (self : CoroutineId) : Option (CoroutineId × Transfer) :=
  match s.point self.val with
  | .reqLoop _ =>
    s.buffer.reqItems.getFirstItem.bind fun (request, _) =>
      (s.itemTransfer stack request.item).map fun moved => (request.item.cid, moved)
  | .recvTry request =>
    (s.recvTransfer stack request.item).map fun moved => (request.item.cid, moved)
  | _ => none

def moving : AsyncAction F → Option (CoroutineId × Transfer)
  | .run => s.polling.bind (s.transferring stack)
  | _ => none

end AsyncServer

/-- The transfers of each coroutine with one more. -/
def note (transfers : CoroutineId → List Transfer) :
    Option (CoroutineId × Transfer) → CoroutineId → List Transfer
  | some (cid, moved) => Function.update transfers cid (transfers cid ++ [moved])
  | none => transfers

/-! ### The system -/

structure TcpClients (σ : Type) where
  server : AsyncServer σ
  /-- The calls that coroutines of the client are suspended in. -/
  pending : List (CoroutineId × TcpCall)
  immediateValue : CoroutineId → Option IPCItem
  /-- The entries in the ready queues of the client. -/
  ready : List CoroutineId
  netStackMap : SocketHandle → Option Nat
  /-- What the server moved for a coroutine, oldest first. -/
  transfers : CoroutineId → List Transfer
  /-- What the coroutine found to have been moved when its calls returned. -/
  returned : CoroutineId → List Transfer

inductive ClientAction (F : Type) where
  /-- A step of the server thread, of its executor or of the network. -/
  | server (a : AsyncAction F)
  /-- The kernel reports an interrupt of the network device. -/
  | pollRequest (cid : CoroutineId)
  | call (cid : CoroutineId) (call : TcpCall)
  /-- An iteration of `recv_reply_coroutine`. -/
  | deliver
  /-- The client's executor polls a coroutine. -/
  | resume (cid : CoroutineId)
  /-- The client writes to a buffer that no call has borrowed. -/
  | store (buffer : BufferPtr) (bytes : List (BitVec 8))
  deriving DecidableEq, Repr

/-- The steps of the server side. -/
def AsyncAction.ofServer {F : Type} : AsyncAction F → Bool
  | .submit _ => false
  | .takeReply => false
  | .store _ _ => false
  | _ => true

namespace TcpClients

variable {σ F : Type} (stack : Smoltcp σ F) (senderMap : Nat → Bool)

def init : TcpClients σ where
  server := .init stack
  pending := []
  immediateValue := fun _ => none
  ready := []
  netStackMap := fun _ => none
  transfers := fun _ => []
  returned := fun _ => []

/-- The call that a coroutine is suspended in. -/
def calls (s : TcpClients σ) (cid : CoroutineId) : Option TcpCall :=
  (s.pending.find? (·.1 == cid)).map (·.2)

/-- `NET_STACK_MAP.get(&handler).unwrap()`, for the calls that have a handler. -/
def senderOf (s : TcpClients σ) : TcpCall → Except Panic Nat
  | .listen _ nwSenderId => .ok nwSenderId
  | .send handler _ _ => (s.netStackMap handler).elim (.error .unwrapNone) .ok
  | .recv handler _ _ => (s.netStackMap handler).elim (.error .unwrapNone) .ok

/-- A call up to its `yield_now`; without a buffer in `SENDER_MAP` it returns `Err` at once. -/
def begin (s : TcpClients σ) (cid : CoroutineId) (call : TcpCall) :
    Except Panic (Option (TcpClients σ)) :=
  (s.senderOf call).bind fun sender =>
    if senderMap sender then
      match s.server.submit (call.message cid) with
      | .ok server => .ok (some { s with server := server, pending := (cid, call) :: s.pending })
      | .error _ => .error .unwrapErr
    else .ok none

/-- A reply goes to the mailbox of the coroutine it is for, and wakes it. -/
def deliver (s : TcpClients σ) : Except Panic (TcpClients σ) :=
  let t := { s with server := s.server.takeReply }
  match s.server.buffer.resItems.getFirstItem with
  | some (reply, _) =>
    if reply.item.cid.val < maxTaskNum then
      .ok { t with
        immediateValue := Function.update s.immediateValue reply.item.cid (some reply.item)
        ready := s.ready ++ [reply.item.cid] }
    else .error .indexOutOfBounds
  | none => .ok t

/-- The rest of a call, from the return of its `yield_now`. Without a value it is `Err`. -/
def finish (s : TcpClients σ) (cid : CoroutineId) (call : TcpCall) :
    Except Panic (Option TcpResult × TcpClients σ) :=
  let t := { s with
    pending := s.pending.filter (·.1 != cid)
    immediateValue := Function.update s.immediateValue cid none
    ready := s.ready.erase cid }
  match s.immediateValue cid with
  | none => .ok (none, t)
  | some reply =>
    (MessageDecoder.getType reply).bind fun type =>
      if type = call.replyType then
        let moved := call.moved s.server.memory (MessageDecoder.getLen reply)
        let t := { t with returned := Function.update s.returned cid (s.returned cid ++ moved) }
        match call with
        | .listen _ nwSenderId =>
          let handler := MessageDecoder.getSocketHandler reply
          .ok (some (.handler handler),
            { t with netStackMap := Function.update s.netStackMap handler (some nwSenderId) })
        | _ => .ok (some (.size (MessageDecoder.getLen reply)), t)
      else .error .assertFailed

/-- A step that panics or cannot be taken has no successor. -/
def step (s : TcpClients σ) : ClientAction F → Option (TcpClients σ)
  | .server a =>
    if a.ofServer then
      (s.server.step stack a).map fun server =>
        { s with server := server, transfers := note s.transfers (s.server.moving stack a) }
    else none
  | .pollRequest cid =>
    (s.server.submit (IPCItem.ofMsg cid MessageType.netPollReq.toBits)).toOption.map fun server =>
      { s with server := server }
  | .call cid call =>
    -- a coroutine is in one call at a time, and the borrow checker has looked at its buffer
    if cid.val < maxTaskNum ∧ s.calls cid = none ∧ ∀ p ∈ s.pending, call.Compatible p.2 then
      (s.begin senderMap cid call).toOption.map fun begun => begun.getD s
    else none
  | .deliver => s.deliver.toOption
  | .resume cid =>
    if cid ∈ s.ready then
      (s.calls cid).bind fun call => (s.finish cid call).toOption.map Prod.snd
    else none
  | .store buffer bytes =>
    if ∀ p ∈ s.pending, p.2.buffer ≠ some buffer then
      some { s with server := s.server.storeBytes buffer bytes }
    else none

end TcpClients

/-! ### Where a call is -/

/-- What stands for a call on its way through the server and back. -/
inductive Token where
  | request (item : IPCItem)
  /-- A `tcp_accept_coroutine` waits for a peer. -/
  | listening (cid : CoroutineId)
  /-- A Recv that was handed over. -/
  | receiving (item : IPCItem)
  /-- A Send after `send_slice`, before its reply. -/
  | sent (cid : CoroutineId) (size : Nat)
  | reply (item : IPCItem)

/-- The coroutine whose call it is. -/
def Token.cid : Token → CoroutineId
  | .request item => item.cid
  | .listening cid => cid
  | .receiving item => item.cid
  | .sent cid _ => cid
  | .reply item => item.cid

inductive Place where
  | queued
  | point (i : Nat)
  | slot (i : Nat)
  | replies
  | mailbox (cid : CoroutineId)
  deriving DecidableEq

def Request.token (request : Request) : Option Token :=
  match MessageDecoder.getType request.item with
  | .ok .netPollReq => none
  | _ => some (.request request.item)

theorem Request.token_of_poll {request : Request}
    (type : MessageDecoder.getType request.item = .ok .netPollReq) : request.token = none := by
  unfold Request.token
  rw [type]

theorem Request.token_of_type {request : Request} {type : MessageType}
    (isType : MessageDecoder.getType request.item = .ok type) (other : type ≠ .netPollReq) :
    request.token = some (.request request.item) := by
  unfold Request.token
  rw [isType]
  cases type <;> first | rfl | exact absurd rfl other

def Point.token : Point → Option Token
  | .fresh (.tcpAccept cid _ _) => some (.listening cid)
  | .acceptYield cid _ _ _ => some (.listening cid)
  | .accepting cid _ _ _ => some (.listening cid)
  | .reqPolling _ request size => some (.sent request.item.cid size)
  | point => point.serving.map fun request => .receiving request.item

def tokens (queued : List Request) (point : Nat → Point) (slot : Nat → Option Request)
    (replies : List Request) (mail : CoroutineId → Option IPCItem) : Place → List Token
  | .queued => queued.filterMap Request.token
  | .point i => (point i).token.toList
  | .slot i => ((slot i).map fun request => .receiving request.item).toList
  | .replies => replies.map fun reply => .reply reply.item
  | .mailbox cid => ((mail cid).map .reply).toList

section

variable {queued replies : List Request} {point : Nat → Point} {slot : Nat → Option Request}
  {mail : CoroutineId → Option IPCItem}

theorem tokens_queued (queued' : List Request) :
    tokens queued' point slot replies mail =
      Function.update (tokens queued point slot replies mail) .queued
        (queued'.filterMap Request.token) := by
  funext place
  cases place <;> rfl

theorem tokens_replies (replies' : List Request) :
    tokens queued point slot replies' mail =
      Function.update (tokens queued point slot replies mail) .replies
        (replies'.map fun reply => .reply reply.item) := by
  funext place
  cases place <;> rfl

theorem tokens_point (i : Nat) (p : Point) :
    tokens queued (Function.update point i p) slot replies mail =
      Function.update (tokens queued point slot replies mail) (.point i) p.token.toList := by
  funext place
  cases place with
  | point j => by_cases here : j = i <;> simp [tokens, here]
  | _ => rfl

theorem tokens_slot (i : Nat) (value : Option Request) :
    tokens queued point (Function.update slot i value) replies mail =
      Function.update (tokens queued point slot replies mail) (.slot i)
        (value.map fun request => .receiving request.item).toList := by
  funext place
  cases place with
  | slot j => by_cases here : j = i <;> simp [tokens, here]
  | _ => rfl

theorem tokens_mailbox (cid : CoroutineId) (value : Option IPCItem) :
    tokens queued point slot replies (Function.update mail cid value) =
      Function.update (tokens queued point slot replies mail) (.mailbox cid)
        (value.map .reply).toList := by
  funext place
  cases place with
  | mailbox c => by_cases here : c = cid <;> simp [tokens, here]
  | _ => rfl

end

/-! ### Calls in good order -/

/-- A call that stands where the token says, with what was moved for it so far. -/
def Good (calls : CoroutineId → Option TcpCall) (memory : BufferPtr → Nat → BitVec 8)
    (transfers returned : CoroutineId → List Transfer) : Token → Prop
  | .request item => ∃ call, calls item.cid = some call ∧ item = call.message item.cid ∧
      transfers item.cid = returned item.cid
  | .listening cid => ∃ port sender, calls cid = some (.listen port sender) ∧
      transfers cid = returned cid
  | .receiving item => ∃ h b len, calls item.cid = some (.recv h b len) ∧
      item = MessageBuilder.recv item.cid h b len ∧ transfers item.cid = returned item.cid
  | .sent cid size => ∃ h b len, calls cid = some (.send h b len) ∧ size < 2 ^ 16 ∧
      transfers cid = returned cid ++ [⟨h, bytesIn memory b size⟩]
  | .reply item => ∃ call, calls item.cid = some call ∧ item.msgInfo = call.replyType.toBits ∧
      transfers item.cid = returned item.cid ++ call.moved memory (MessageDecoder.getLen item)

/-- Handles fit their word of a message, and calls that write to a buffer have it to themselves. -/
structure CallsOk (calls : CoroutineId → Option TcpCall) : Prop where
  small : ∀ c call h, calls c = some call → call.handler = some h → h.index < 2 ^ 16
  apart : ∀ c d call other, c ≠ d → calls c = some call → calls d = some other →
    call.Compatible other

theorem TcpCall.moved_congr {memory memory' : BufferPtr → Nat → BitVec 8} {call : TcpCall}
    {size : Nat} (same : ∀ b, call.buffer = some b → memory' b = memory b) :
    call.moved memory' size = call.moved memory size := by
  cases call with
  | listen port sender => rfl
  | send h b len => simp only [moved, bytesIn, same b rfl]
  | recv h b len => simp only [moved, bytesIn, same b rfl]

theorem TcpCall.message_cid (call : TcpCall) (cid : CoroutineId) : (call.message cid).cid = cid := by
  cases call <;> rfl

theorem TcpCall.Compatible.symm {call other : TcpCall} (apart : call.Compatible other) :
    other.Compatible call :=
  And.symm apart

/-- The type that the server reads from the message of a call. -/
theorem TcpCall.getType_message (call : TcpCall) (cid : CoroutineId) :
    MessageDecoder.getType (call.message cid) = .ok (match call with
      | .listen _ _ => .listen
      | .send _ _ _ => .send
      | .recv _ _ _ => .recv) := by
  cases call <;> exact MessageDecoder.getType_of_msgInfo rfl

theorem MessageBuilder.getLen_transferReply (type : MessageType) (cid : CoroutineId) {size : Nat}
    (small : size < 2 ^ 16) : MessageDecoder.getLen (transferReply type cid size) = size :=
  getElem_setWord _ 1 small

namespace Good

variable {calls calls' : CoroutineId → Option TcpCall}
  {memory memory' : BufferPtr → Nat → BitVec 8}
  {transfers transfers' returned returned' : CoroutineId → List Transfer} {token : Token}
  {item : IPCItem}

/-- Every token stands for a call in progress. -/
theorem calling (good : Good calls memory transfers returned token) :
    ∃ call, calls token.cid = some call := by
  cases token with
  | request item =>
    obtain ⟨call, calling, -⟩ := good
    exact ⟨call, calling⟩
  | listening cid =>
    obtain ⟨port, sender, calling, -⟩ := good
    exact ⟨_, calling⟩
  | receiving item =>
    obtain ⟨h, b, len, calling, -⟩ := good
    exact ⟨_, calling⟩
  | sent cid size =>
    obtain ⟨h, b, len, calling, -⟩ := good
    exact ⟨_, calling⟩
  | reply item =>
    obtain ⟨call, calling, -⟩ := good
    exact ⟨call, calling⟩

/-- What happens to other coroutines and in buffers that are not its own is nothing to a call. -/
theorem congr (good : Good calls memory transfers returned token)
    (same : calls' token.cid = calls token.cid) (moved : transfers' token.cid = transfers token.cid)
    (got : returned' token.cid = returned token.cid)
    (stored : ∀ call b, calls token.cid = some call → call.buffer = some b →
      memory' b = memory b) :
    Good calls' memory' transfers' returned' token := by
  cases token with
  | request item =>
    obtain ⟨call, calling, message, even⟩ := good
    exact ⟨call, same.trans calling, message, (moved.trans even).trans got.symm⟩
  | listening cid =>
    obtain ⟨port, sender, calling, even⟩ := good
    exact ⟨port, sender, same.trans calling, (moved.trans even).trans got.symm⟩
  | receiving item =>
    obtain ⟨h, b, len, calling, message, even⟩ := good
    exact ⟨h, b, len, same.trans calling, message, (moved.trans even).trans got.symm⟩
  | sent cid size =>
    obtain ⟨h, b, len, calling, small, ahead⟩ := good
    refine ⟨h, b, len, same.trans calling, small, ?_⟩
    have got : returned' cid = returned cid := got
    rw [bytesIn, stored _ b calling rfl, got]
    exact moved.trans ahead
  | reply item =>
    obtain ⟨call, calling, type, ahead⟩ := good
    refine ⟨call, same.trans calling, type, ?_⟩
    have got : returned' item.cid = returned item.cid := got
    rw [TcpCall.moved_congr fun b => stored call b calling, got]
    exact moved.trans ahead

theorem listening_of_request (good : Good calls memory transfers returned (.request item))
    (type : MessageDecoder.getType item = .ok .listen) :
    Good calls memory transfers returned (.listening item.cid) := by
  obtain ⟨call, calling, message, even⟩ := good
  have isType := call.getType_message item.cid
  rw [← message, type] at isType
  cases call with
  | listen port sender => exact ⟨port, sender, calling, even⟩
  | send h b len => cases isType
  | recv h b len => cases isType

theorem receiving_of_request (good : Good calls memory transfers returned (.request item))
    (type : MessageDecoder.getType item = .ok .recv) :
    Good calls memory transfers returned (.receiving item) := by
  obtain ⟨call, calling, message, even⟩ := good
  have isType := call.getType_message item.cid
  rw [← message, type] at isType
  cases call with
  | listen port sender => cases isType
  | send h b len => cases isType
  | recv h b len => exact ⟨h, b, len, calling, message, even⟩

/-- The server reads the handle and the address that the caller gave. -/
theorem of_send (ok : CallsOk calls) (good : Good calls memory transfers returned (.request item))
    (type : MessageDecoder.getType item = .ok .send) :
    ∃ len, calls item.cid = some
        (.send (MessageDecoder.getSocketHandler item) (MessageDecoder.getBuffer item) len) ∧
      transfers item.cid = returned item.cid := by
  obtain ⟨call, calling, message, even⟩ := good
  have isType := call.getType_message item.cid
  rw [← message, type] at isType
  cases call with
  | listen port sender => cases isType
  | recv h b len => cases isType
  | send h b len =>
    have handle : MessageDecoder.getSocketHandler item = h := by
      rw [message]
      exact MessageBuilder.getSocketHandler_transfer .send _ b len (ok.small _ _ h calling rfl)
    have address : MessageDecoder.getBuffer item = b := by
      rw [message]
      exact MessageBuilder.getBuffer_setBuffer _ b
    rw [handle, address]
    exact ⟨len, calling, even⟩

theorem of_receiving (ok : CallsOk calls)
    (good : Good calls memory transfers returned (.receiving item)) :
    ∃ len, calls item.cid = some
        (.recv (MessageDecoder.getSocketHandler item) (MessageDecoder.getBuffer item) len) ∧
      transfers item.cid = returned item.cid := by
  obtain ⟨h, b, len, calling, message, even⟩ := good
  have handle : MessageDecoder.getSocketHandler item = h := by
    rw [message]
    exact MessageBuilder.getSocketHandler_transfer .recv _ b len (ok.small _ _ h calling rfl)
  have address : MessageDecoder.getBuffer item = b := by
    rw [message]
    exact MessageBuilder.getBuffer_setBuffer _ b
  rw [handle, address]
  exact ⟨len, calling, even⟩

theorem listenReply {cid : CoroutineId} (handle : SocketHandle)
    (good : Good calls memory transfers returned (.listening cid)) :
    Good calls memory transfers returned (.reply (MessageBuilder.listenReply cid handle)) := by
  obtain ⟨port, sender, calling, even⟩ := good
  refine ⟨.listen port sender, calling, rfl, ?_⟩
  rw [TcpCall.moved, List.append_nil]
  exact even

/-- `send_slice` takes some of the bytes. -/
theorem sent (ok : CallsOk calls) (good : Good calls memory transfers returned (.request item))
    (type : MessageDecoder.getType item = .ok .send) {size : Nat}
    (some_ : size ≤ MessageDecoder.getLen item) :
    Good calls memory (note transfers (some (item.cid, ⟨MessageDecoder.getSocketHandler item,
      (bytesIn memory (MessageDecoder.getBuffer item) (MessageDecoder.getLen item)).take size⟩)))
      returned (.sent item.cid size) := by
  obtain ⟨len, calling, even⟩ := good.of_send ok type
  refine ⟨_, _, len, calling, Nat.lt_of_le_of_lt some_ (BitVec.isLt _), ?_⟩
  simp only [note, Function.update_self, even]
  rw [bytesIn, ← List.map_take, List.take_range, Nat.min_eq_left some_, bytesIn]

theorem sendReply {cid : CoroutineId} {size : Nat}
    (good : Good calls memory transfers returned (.sent cid size)) :
    Good calls memory transfers returned (.reply (MessageBuilder.sendReply cid size)) := by
  obtain ⟨h, b, len, calling, small, ahead⟩ := good
  refine ⟨.send h b len, calling, rfl, ?_⟩
  rw [TcpCall.moved, MessageBuilder.sendReply, MessageBuilder.getLen_transferReply _ cid small]
  exact ahead

/-- `recv_slice` fills the buffer of the caller. -/
theorem recvReply (ok : CallsOk calls)
    (good : Good calls memory transfers returned (.receiving item)) {bytes : List (BitVec 8)}
    (small : bytes.length < 2 ^ 16) (filled : ∀ i (inside : i < bytes.length),
      memory' (MessageDecoder.getBuffer item) i = bytes[i]) :
    Good calls memory' (note transfers (some (item.cid,
      ⟨MessageDecoder.getSocketHandler item, bytes⟩))) returned
      (.reply (MessageBuilder.recvReply item.cid bytes.length)) := by
  obtain ⟨len, calling, even⟩ := good.of_receiving ok
  refine ⟨_, calling, rfl, ?_⟩
  have contents : bytesIn memory' (MessageDecoder.getBuffer item) bytes.length = bytes := by
    apply List.ext_getElem
    · simp [bytesIn]
    · intro i _ inside
      simpa [bytesIn] using filled i inside
  rw [TcpCall.moved, MessageBuilder.recvReply, MessageBuilder.getLen_transferReply _ _ small,
    contents]
  simp only [note, MessageBuilder.transferReply_cid, Function.update_self, even]

/-- A transfer for somebody else. -/
theorem noted {other : Token} {cid : CoroutineId} {moved : Transfer} (different : other.cid ≠ cid)
    (good : Good calls memory transfers returned other) :
    Good calls memory (note transfers (some (cid, moved))) returned other :=
  good.congr rfl (Function.update_of_ne different _ _) rfl fun _ _ _ _ => rfl

/-- Somebody else's buffer is filled. -/
theorem stored (ok : CallsOk calls) (receiving : Good calls memory transfers returned (.receiving item))
    {other : Token} {moved : Transfer} {contents : Nat → BitVec 8} (different : other.cid ≠ item.cid)
    (good : Good calls memory transfers returned other) :
    Good calls (Function.update memory (MessageDecoder.getBuffer item) contents)
      (note transfers (some (item.cid, moved))) returned other := by
  obtain ⟨len, mine, -⟩ := receiving.of_receiving ok
  refine good.congr rfl (Function.update_of_ne different _ _) rfl fun call b calling uses => ?_
  have apart := (ok.apart item.cid other.cid _ call (Ne.symm different) mine calling).1
  have elsewhere : b ≠ MessageDecoder.getBuffer item := by
    rintro rfl
    exact apart _ rfl uses
  exact Function.update_of_ne elsewhere _ _

end Good

end RootTask.Net
