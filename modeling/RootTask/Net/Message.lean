import RootTask.Runtime.NewBuffer

/-!
# Messages of the socket API

`message.rs`: a request or reply of the network server is an `IPCItem` whose `msg_info` is
the message type and whose words hold the arguments. Word 0 is a port or a socket handle,
word 1 a length, words 4 to 7 the address of a `TcpBuffer`. A `usize` argument is a `Nat`
that the word truncates.
-/
namespace RootTask.Net

open RootTask.Runtime

abbrev tcpTxBufLen : Nat := 8 * 4096
abbrev tcpRxBufLen : Nat := 8 * 4096

/-- The index of a socket in the socket set. -/
@[ext]
structure SocketHandle where
  index : Nat
  deriving DecidableEq, Repr, Inhabited

/-- The address of a `TcpBuffer` in the memory that client and server share. -/
abbrev BufferPtr : Type := BitVec 64

inductive MessageType where
  | reserve
  | netPollReq
  | listen
  | listenReply
  | send
  | sendReply
  | recv
  | recvReply
  deriving DecidableEq, Repr

namespace MessageType

def toNat : MessageType → Nat
  | .reserve => 0
  | .netPollReq => 1
  | .listen => 2
  | .listenReply => 3
  | .send => 4
  | .sendReply => 5
  | .recv => 6
  | .recvReply => 7

/-- The transmute from `u8`; a value that is no discriminant has no meaning in Rust. -/
def ofNat? : Nat → Option MessageType
  | 0 => some .reserve
  | 1 => some .netPollReq
  | 2 => some .listen
  | 3 => some .listenReply
  | 4 => some .send
  | 5 => some .sendReply
  | 6 => some .recv
  | 7 => some .recvReply
  | _ => none

@[simp] theorem ofNat?_toNat (type : MessageType) : ofNat? type.toNat = some type := by
  cases type <;> rfl

theorem toNat_inj {a b : MessageType} (same : a.toNat = b.toNat) : a = b := by
  have lookup := congrArg ofNat? same
  simpa using lookup

/-- `as u32`. -/
def toBits (type : MessageType) : BitVec 32 := BitVec.ofNat 32 type.toNat

theorem toNat_toBits (type : MessageType) : type.toBits.toNat = type.toNat := by
  cases type <;> rfl

theorem toBits_inj {a b : MessageType} (same : a.toBits = b.toBits) : a = b := by
  apply toNat_inj
  rw [← toNat_toBits, ← toNat_toBits, same]

end MessageType

abbrev invalidType : Nat := MessageType.recvReply.toNat + 1

namespace MessageBuilder

/-- An item of one type, all of its words 0. -/
def item (cid : CoroutineId) (type : MessageType) : IPCItem :=
  { IPCItem.new with cid := cid, msgInfo := type.toBits }

def setWord (m : IPCItem) (i : Fin maxIpcMsgLen) (value : Nat) : IPCItem :=
  { m with extendMsg := m.extendMsg.set i.val (BitVec.ofNat 16 value) }

/-- The store of a `usize` at word 4, little endian. -/
def setBuffer (m : IPCItem) (buffer : BufferPtr) : IPCItem :=
  { m with extendMsg :=
      (((m.extendMsg.set 4 (buffer.extractLsb' 0 16)).set 5 (buffer.extractLsb' 16 16)).set 6
        (buffer.extractLsb' 32 16)).set 7 (buffer.extractLsb' 48 16) }

def listen (cid : CoroutineId) (port : Nat) : IPCItem :=
  setWord (item cid .listen) 0 port

def listenReply (cid : CoroutineId) (handler : SocketHandle) : IPCItem :=
  setWord (item cid .listenReply) 0 handler.index

/-- `send` and `recv` differ in the type only. -/
def transfer (type : MessageType) (cid : CoroutineId) (handler : SocketHandle)
    (buffer : BufferPtr) (len : Nat) : IPCItem :=
  setBuffer (setWord (setWord (item cid type) 0 handler.index) 1 len) buffer

def send : CoroutineId → SocketHandle → BufferPtr → Nat → IPCItem := transfer .send

def recv : CoroutineId → SocketHandle → BufferPtr → Nat → IPCItem := transfer .recv

/-- `send_reply` and `recv_reply` differ in the type only. -/
def transferReply (type : MessageType) (cid : CoroutineId) (size : Nat) : IPCItem :=
  setWord (item cid type) 1 size

def sendReply : CoroutineId → Nat → IPCItem := transferReply .sendReply

def recvReply : CoroutineId → Nat → IPCItem := transferReply .recvReply

@[simp] theorem transferReply_cid (type : MessageType) (cid : CoroutineId) (size : Nat) :
    (transferReply type cid size).cid = cid := rfl

@[simp] theorem transferReply_msgInfo (type : MessageType) (cid : CoroutineId) (size : Nat) :
    (transferReply type cid size).msgInfo = type.toBits := rfl

@[simp] theorem listenReply_cid (cid : CoroutineId) (handler : SocketHandle) :
    (listenReply cid handler).cid = cid := rfl

@[simp] theorem listenReply_msgInfo (cid : CoroutineId) (handler : SocketHandle) :
    (listenReply cid handler).msgInfo = MessageType.listenReply.toBits := rfl

end MessageBuilder

namespace MessageDecoder

def getCid (m : IPCItem) : CoroutineId := m.cid

def getPort (m : IPCItem) : Nat := m.extendMsg[0].toNat

def getType (m : IPCItem) : Except Panic MessageType :=
  if m.msgInfo.toNat < invalidType then
    match MessageType.ofNat? m.msgInfo.toNat with
    | some type => .ok type
    | none => .error .assertFailed
  else .error .assertFailed

def getSocketHandler (m : IPCItem) : SocketHandle := ⟨m.extendMsg[0].toNat⟩

def getLen (m : IPCItem) : Nat := m.extendMsg[1].toNat

/-- The load of a `usize` at word 4, little endian. -/
def getBuffer (m : IPCItem) : BufferPtr :=
  m.extendMsg[7] ++ m.extendMsg[6] ++ m.extendMsg[5] ++ m.extendMsg[4]

end MessageDecoder

/-! ### Reading a message back -/

open MessageBuilder MessageDecoder

namespace MessageDecoder

/-- The assertion of `get_type` holds for every type that a builder can write. -/
theorem getType_of_msgInfo {m : IPCItem} {type : MessageType} (written : m.msgInfo = type.toBits) :
    getType m = .ok type := by
  unfold getType
  rw [written]
  cases type <;> rfl

end MessageDecoder

namespace MessageBuilder

/-- The store of the address leaves sender, type and all other words as they are. -/
theorem setBuffer_elsewhere (m : IPCItem) (buffer : BufferPtr) (i : Nat) (inRange : i < maxIpcMsgLen)
    (elsewhere : i < 4 ∨ 8 ≤ i) : (setBuffer m buffer).extendMsg[i] = m.extendMsg[i] := by
  have apart : 4 ≠ i ∧ 5 ≠ i ∧ 6 ≠ i ∧ 7 ≠ i := by omega
  obtain ⟨h4, h5, h6, h7⟩ := apart
  simp only [setBuffer, Vector.getElem_set_ne _ _ h4, Vector.getElem_set_ne _ _ h5,
    Vector.getElem_set_ne _ _ h6, Vector.getElem_set_ne _ _ h7]

/-- The four words put together are the address. -/
theorem getBuffer_setBuffer (m : IPCItem) (buffer : BufferPtr) :
    getBuffer (setBuffer m buffer) = buffer := by
  simp only [getBuffer, setBuffer, Vector.getElem_set, reduceIte, Nat.reduceEqDiff]
  apply BitVec.eq_of_getLsbD_eq
  intro i inRange
  simp only [BitVec.getLsbD_append, BitVec.getLsbD_extractLsb']
  by_cases first : i < 16
  · simp [first]
  by_cases second : i < 32
  · have inWord : i - 16 < 16 := by omega
    have position : 16 + (i - 16) = i := by omega
    simp [first, inWord, position]
  by_cases third : i < 48
  · have inWord : i - 16 - 16 < 16 := by omega
    have below : ¬ i - 16 < 16 := by omega
    have position : 32 + (i - 16 - 16) = i := by omega
    simp [first, below, inWord, position]
  · have below : ¬ i - 16 < 16 ∧ ¬ i - 16 - 16 < 16 := by omega
    have inWord : i - 16 - 16 - 16 < 16 := by omega
    have position : 48 + (i - 16 - 16 - 16) = i := by omega
    simp [first, below, inWord, position]

/-- The store into a word keeps the low bits. -/
theorem toNat_setWord (m : IPCItem) (i : Fin maxIpcMsgLen) (value : Nat) :
    (setWord m i value).extendMsg[i].toNat = value % 2 ^ 16 := by
  simp only [setWord, Fin.getElem_fin, Vector.getElem_set_self, BitVec.toNat_ofNat]

/-- A value that fits survives the store into a word. -/
theorem getElem_setWord (m : IPCItem) (i : Fin maxIpcMsgLen) {value : Nat} (fits : value < 2 ^ 16) :
    (setWord m i value).extendMsg[i].toNat = value := by
  rw [toNat_setWord, Nat.mod_eq_of_lt fits]

theorem getPort_listen (cid : CoroutineId) (port : Nat) :
    getPort (listen cid port) = port % 2 ^ 16 :=
  toNat_setWord _ 0 port

/-- Word 0 of a request. -/
theorem getSocketHandler_transfer (type : MessageType) (cid : CoroutineId) {handler : SocketHandle}
    (buffer : BufferPtr) (len : Nat) (fits : handler.index < 2 ^ 16) :
    getSocketHandler (transfer type cid handler buffer len) = handler := by
  apply SocketHandle.ext
  simp only [getSocketHandler, transfer, setBuffer_elsewhere _ _ 0 (by decide) (by decide)]
  -- the length goes to the word after the handle
  rw [setWord, Vector.getElem_set_ne _ _ (by decide)]
  exact getElem_setWord _ 0 fits

/-- Word 1 of a request. -/
theorem getLen_transfer (type : MessageType) (cid : CoroutineId) (handler : SocketHandle)
    (buffer : BufferPtr) (len : Nat) :
    getLen (transfer type cid handler buffer len) = len % 2 ^ 16 := by
  simp only [getLen, transfer, setBuffer_elsewhere _ _ 1 (by decide) (by decide)]
  exact toNat_setWord _ 1 len

end MessageBuilder

/-- What both ends read first: the type, without tripping the assertion, and the sender. -/
def Labelled (m : IPCItem) (type : MessageType) (cid : CoroutineId) : Prop :=
  getType m = .ok type ∧ getCid m = cid

theorem labelled_transfer (type : MessageType) (cid : CoroutineId) (handler : SocketHandle)
    (buffer : BufferPtr) (len : Nat) : Labelled (transfer type cid handler buffer len) type cid :=
  ⟨getType_of_msgInfo rfl, rfl⟩

theorem labelled_transferReply (type : MessageType) (cid : CoroutineId) (size : Nat) :
    Labelled (transferReply type cid size) type cid :=
  ⟨getType_of_msgInfo rfl, rfl⟩

/-- Every message is decoded to what it was built from, and the address in the middle of a
request disturbs none of its other fields. -/
theorem message_round_trip (cid : CoroutineId) (port : Nat) (handler : SocketHandle)
    (buffer : BufferPtr) (len : Nat) (portFits : port < 65536) (handlerFits : handler.index < 65536)
    (lenFits : len ≤ tcpTxBufLen) :
    (Labelled (listen cid port) .listen cid ∧ getPort (listen cid port) = port) ∧
    (Labelled (listenReply cid handler) .listenReply cid ∧
      getSocketHandler (listenReply cid handler) = handler) ∧
    (Labelled (send cid handler buffer len) .send cid ∧
      getSocketHandler (send cid handler buffer len) = handler ∧
      getLen (send cid handler buffer len) = len ∧
      getBuffer (send cid handler buffer len) = buffer) ∧
    (Labelled (sendReply cid len) .sendReply cid ∧ getLen (sendReply cid len) = len) ∧
    (Labelled (recv cid handler buffer len) .recv cid ∧
      getSocketHandler (recv cid handler buffer len) = handler ∧
      getLen (recv cid handler buffer len) = len ∧
      getBuffer (recv cid handler buffer len) = buffer) ∧
    (Labelled (recvReply cid len) .recvReply cid ∧ getLen (recvReply cid len) = len) ∧
    ∀ (m : IPCItem) (i : Nat) (inRange : i < maxIpcMsgLen), i < 4 ∨ 8 ≤ i →
      (setBuffer m buffer).extendMsg[i] = m.extendMsg[i] ∧
        (setBuffer m buffer).cid = m.cid ∧ (setBuffer m buffer).msgInfo = m.msgInfo := by
  have lenFits : len < 2 ^ 16 := Nat.lt_of_le_of_lt lenFits (by decide)
  refine ⟨⟨⟨getType_of_msgInfo rfl, rfl⟩, getElem_setWord _ 0 portFits⟩,
    ⟨⟨getType_of_msgInfo rfl, rfl⟩, SocketHandle.ext (getElem_setWord _ 0 handlerFits)⟩,
    ⟨labelled_transfer .send cid handler buffer len, ?_⟩,
    ⟨labelled_transferReply .sendReply cid len, getElem_setWord _ 1 lenFits⟩,
    ⟨labelled_transfer .recv cid handler buffer len, ?_⟩,
    ⟨labelled_transferReply .recvReply cid len, getElem_setWord _ 1 lenFits⟩, ?_⟩
  · refine ⟨getSocketHandler_transfer .send cid buffer len handlerFits, ?_,
      getBuffer_setBuffer _ buffer⟩
    exact (getLen_transfer .send cid handler buffer len).trans (Nat.mod_eq_of_lt lenFits)
  · refine ⟨getSocketHandler_transfer .recv cid buffer len handlerFits, ?_,
      getBuffer_setBuffer _ buffer⟩
    exact (getLen_transfer .recv cid handler buffer len).trans (Nat.mod_eq_of_lt lenFits)
  · intro m i inRange elsewhere
    exact ⟨setBuffer_elsewhere m buffer i inRange elsewhere, rfl, rfl⟩

/-- The largest values at once. -/
theorem message_round_trip_largest :
    getSocketHandler (send ⟨2047⟩ ⟨65535⟩ 0xffffffffffffffff tcpTxBufLen) = ⟨65535⟩ ∧
      getLen (send ⟨2047⟩ ⟨65535⟩ 0xffffffffffffffff tcpTxBufLen) = tcpTxBufLen ∧
      getBuffer (send ⟨2047⟩ ⟨65535⟩ 0xffffffffffffffff tcpTxBufLen) = 0xffffffffffffffff :=
  (message_round_trip ⟨2047⟩ 65535 ⟨65535⟩ 0xffffffffffffffff tcpTxBufLen (by decide) (by decide)
    (Nat.le_refl _)).2.2.1.2

end RootTask.Net
