import RootTask.Net.Message

/-!
# The TCP stack

The server runs on smoltcp, which is not part of the repository. It enters the model as a
structure of the calls that the server makes, over any type of socket sets and frames.
`Handshake`, `Transfers`, `Receives` and `Listens` state what the server relies on; `mini` is a
small stack that meets them.
-/
namespace RootTask.Net

abbrev IpAddress : Type := BitVec 32

structure IpEndpoint where
  addr : IpAddress
  port : Nat
  deriving DecidableEq, Repr

/-- `smoltcp::socket::tcp::State`. -/
inductive TcpState where
  | closed
  | listen
  | synSent
  | synReceived
  | established
  | finWait1
  | finWait2
  | closeWait
  | closing
  | lastAck
  | timeWait
  deriving DecidableEq, Repr

/-- What the snooper reads of a TCP segment. -/
structure TcpSegment where
  src : IpEndpoint
  dst : IpEndpoint
  syn : Bool
  ack : Bool
  deriving DecidableEq, Repr

/-- The first segment of a handshake. -/
def TcpSegment.isFirst (seg : TcpSegment) : Bool := seg.syn && !seg.ack

/-- The calls of the stack. A handle outside the set has no state; using it panics. -/
structure Smoltcp (σ F : Type) where
  empty : σ
  /-- `Socket::new`, `listen` and `SocketSet::add`; `none` if `listen` fails. -/
  listen : σ → Nat → Option (SocketHandle × σ)
  state : σ → SocketHandle → Option TcpState
  /-- The port of `listen_endpoint`. -/
  port : σ → SocketHandle → Nat
  localEndpoint : σ → SocketHandle → Option IpEndpoint
  remoteEndpoint : σ → SocketHandle → Option IpEndpoint
  canSend : σ → SocketHandle → Bool
  canRecv : σ → SocketHandle → Bool
  sendSlice : σ → SocketHandle → List (BitVec 8) → Except Unit (Nat × σ)
  /-- The bytes that a buffer of the given length receives. -/
  recvSlice : σ → SocketHandle → Nat → Except Unit (List (BitVec 8) × σ)
  /-- The segment in a frame, if it parses as TCP over IPv4. -/
  segment : F → Option TcpSegment
  /-- The ingress half of `Interface::poll`, for one frame. -/
  process : σ → F → σ
  /-- The egress half. -/
  egress : σ → σ

namespace Smoltcp

variable {σ F : Type}

/-- How the sockets of a set go through the handshake. -/
structure Handshake (stack : Smoltcp σ F) : Prop where
  empty_state : ∀ h, stack.state stack.empty h = none
  /-- A new socket takes the first free place of the set. -/
  listen_least : ∀ {s t p h}, stack.listen s p = some (h, t) →
    stack.state s h = none ∧ ∀ i < h.index, stack.state s ⟨i⟩ ≠ none
  listen_state : ∀ {s t p h}, stack.listen s p = some (h, t) → ∀ h',
    stack.state t h' = if h' = h then some .listen else stack.state s h'
  listen_port : ∀ {s t p h}, stack.listen s p = some (h, t) → ∀ h',
    stack.port t h' = if h' = h then p else stack.port s h'
  send_keeps : ∀ {s t h data n}, stack.sendSlice s h data = .ok (n, t) →
    stack.state t = stack.state s ∧ stack.port t = stack.port s
  recv_keeps : ∀ {s t h len data}, stack.recvSlice s h len = .ok (data, t) →
    stack.state t = stack.state s ∧ stack.port t = stack.port s
  process_port : ∀ s f, stack.port (stack.process s f) = stack.port s
  /-- A frame only changes sockets of the port that it is addressed to. -/
  process_elsewhere : ∀ s f h, stack.state (stack.process s f) h ≠ stack.state s h →
    ∃ seg, stack.segment f = some seg ∧ seg.dst.port = stack.port s h
  process_none : ∀ s f h, stack.state (stack.process s f) h = none ↔ stack.state s h = none
  /-- Only a first SYN moves a listening socket, and only the first one of the port in the
  set; it becomes `SynReceived`. -/
  process_listen : ∀ s f h, stack.state s h = some .listen →
    stack.state (stack.process s f) h = some .listen ∨
    stack.state (stack.process s f) h = some .synReceived ∧
      (∃ seg, stack.segment f = some seg ∧ seg.isFirst ∧ seg.dst.port = stack.port s h) ∧
      ∀ h', h'.index < h.index → stack.state s h' = some .listen → stack.port s h' ≠ stack.port s h
  /-- `Established` only on the following ACK. -/
  process_established : ∀ s f h, stack.state s h = some .synReceived →
    stack.state (stack.process s f) h = some .established →
    ∃ seg, stack.segment f = some seg ∧ seg.ack ∧ !seg.syn
  egress_port : ∀ s, stack.port (stack.egress s) = stack.port s
  egress_none : ∀ s h, stack.state (stack.egress s) h = none ↔ stack.state s h = none
  /-- Sending changes no state up to `Established`. -/
  egress_state : ∀ s h state, state = .listen ∨ state = .synReceived ∨ state = .established →
    stack.state s h = some state → stack.state (stack.egress s) h = some state

/-- A transfer that `can_send` or `can_recv` announces succeeds. -/
structure Transfers (stack : Smoltcp σ F) : Prop where
  send_ok : ∀ {s h}, stack.canSend s h = true → ∀ data,
    ∃ n t, stack.sendSlice s h data = .ok (n, t)
  recv_ok : ∀ {s h}, stack.canRecv s h = true → ∀ len,
    ∃ data t, stack.recvSlice s h len = .ok (data, t)

/-- With the bytes that wait in each socket: `recv_slice` takes as many as the slice holds, from
the front. -/
structure Receives (stack : Smoltcp σ F) (rx : σ → SocketHandle → List (BitVec 8)) : Prop where
  recv_front : ∀ {s h}, stack.canRecv s h = true → ∀ len,
    ∃ t, stack.recvSlice s h len = .ok ((rx s h).take len, t) ∧
      rx t = Function.update (rx s) h ((rx s h).drop len)

/-- A new socket refuses to listen exactly on port 0. -/
def Listens (stack : Smoltcp σ F) : Prop := ∀ s p, stack.listen s p = none ↔ p = 0

theorem Transfers.send_ne_error {stack : Smoltcp σ F} (transfers : stack.Transfers) {s : σ}
    {h : SocketHandle} (can : stack.canSend s h = true) (data : List (BitVec 8)) :
    stack.sendSlice s h data ≠ .error () := by
  obtain ⟨n, t, sent⟩ := transfers.send_ok can data
  simp [sent]

end Smoltcp

/-! ### A small stack -/

structure MiniSocket where
  port : Nat
  state : TcpState
  peer : Option IpEndpoint
  rx : List (BitVec 8)
  deriving DecidableEq, Repr

structure MiniFrame where
  segment : TcpSegment
  rst : Bool
  payload : List (BitVec 8)
  deriving DecidableEq, Repr

namespace MiniSocket

def accepts (socket : MiniSocket) (f : MiniFrame) : Bool :=
  socket.port == f.segment.dst.port &&
    match socket.state with
    | .listen => !f.segment.ack && !f.rst
    | .closed => false
    | _ => socket.peer == some f.segment.src

def handle (socket : MiniSocket) (f : MiniFrame) : MiniSocket :=
  match socket.state with
  | .listen =>
    if f.segment.syn then { socket with state := .synReceived, peer := some f.segment.src }
    else socket
  | .synReceived =>
    if f.rst then { socket with state := .listen, peer := none }
    else if f.segment.ack && !f.segment.syn then
      { socket with state := .established, rx := socket.rx ++ f.payload }
    else socket
  | .established =>
    if f.rst then { socket with state := .closed, peer := none }
    else { socket with rx := socket.rx ++ f.payload }
  | _ => socket

end MiniSocket

/-- The first socket that accepts a frame handles it. -/
def miniProcess : List MiniSocket → MiniFrame → List MiniSocket
  | [], _ => []
  | socket :: rest, f =>
    if socket.accepts f then socket.handle f :: rest else socket :: miniProcess rest f

def miniUpdate (sockets : List MiniSocket) (h : SocketHandle) (f : MiniSocket → MiniSocket) :
    List MiniSocket :=
  sockets.modify h.index f

/-- A stack whose peers acknowledge everything at once, so that its transmit buffers stay
empty. -/
def mini : Smoltcp (List MiniSocket) MiniFrame where
  empty := []
  listen sockets p :=
    if p = 0 then none else some (⟨sockets.length⟩, sockets ++ [⟨p, .listen, none, []⟩])
  state sockets h := sockets[h.index]?.map (·.state)
  port sockets h := (sockets[h.index]?.map (·.port)).getD 0
  localEndpoint sockets h :=
    sockets[h.index]?.bind fun socket => socket.peer.map fun _ => ⟨0, socket.port⟩
  remoteEndpoint sockets h := sockets[h.index]?.bind (·.peer)
  canSend sockets h := (sockets[h.index]?.map (·.state)) == some .established
  canRecv sockets h := sockets[h.index]?.any fun socket => !socket.rx.isEmpty
  sendSlice sockets h data :=
    if (sockets[h.index]?.map (·.state)) == some .established then .ok (data.length, sockets)
    else .error ()
  recvSlice sockets h len :=
    match sockets[h.index]? with
    | none => .error ()
    | some socket =>
      .ok (socket.rx.take len,
        miniUpdate sockets h fun socket => { socket with rx := socket.rx.drop len })
  segment f := some f.segment
  process := miniProcess
  egress sockets := sockets

namespace MiniFrame

/-- A segment from one peer to port 80. -/
def ofFlags (syn ack rst : Bool) (payload : List (BitVec 8)) : MiniFrame :=
  ⟨⟨⟨7, 4000⟩, ⟨0, 80⟩, syn, ack⟩, rst, payload⟩

def syn : MiniFrame := ofFlags true false false []

def ack : MiniFrame := ofFlags false true false []

def reset : MiniFrame := ofFlags false false true []

def data (bytes : List (BitVec 8)) : MiniFrame := ofFlags false true false bytes

end MiniFrame

/-- A frame leaves a socket alone, or the socket is the first that accepts it. -/
theorem miniProcess_getElem? (sockets : List MiniSocket) (f : MiniFrame) (i : Nat) :
    (miniProcess sockets f)[i]? = sockets[i]? ∨
    ∃ socket, sockets[i]? = some socket ∧ socket.accepts f = true ∧
      (∀ j < i, ∀ other, sockets[j]? = some other → other.accepts f = false) ∧
      (miniProcess sockets f)[i]? = some (socket.handle f) := by
  induction sockets generalizing i with
  | nil => exact .inl rfl
  | cons first rest ih =>
    unfold miniProcess
    split
    next accepted =>
      cases i with
      | zero =>
        right
        exact ⟨first, rfl, accepted, by simp, rfl⟩
      -- the sockets behind the one that accepts do not see the frame
      | succ i => exact .inl rfl
    next refused =>
      cases i with
      | zero => exact .inl rfl
      | succ i =>
        rcases ih i with same | ⟨socket, here, accepted, earlier, handled⟩
        · exact .inl same
        · right
          refine ⟨socket, here, accepted, ?_, handled⟩
          -- the head refused the frame, the sockets between refused it by induction
          intro j before other found
          cases j with
          | zero =>
            obtain rfl : first = other := by simpa using found
            simpa using refused
          | succ j => exact earlier j (by omega) other found

@[simp] theorem MiniSocket.handle_port (socket : MiniSocket) (f : MiniFrame) :
    (socket.handle f).port = socket.port := by
  unfold handle
  split <;> (try split) <;> (try split) <;> rfl

theorem MiniSocket.handle_listen {socket : MiniSocket} {f : MiniFrame}
    (listening : socket.state = .listen) :
    (socket.handle f).state = if f.segment.syn then .synReceived else .listen := by
  simp only [handle, listening]
  split <;> simp_all

theorem MiniSocket.handle_established {socket : MiniSocket} {f : MiniFrame}
    (opening : socket.state = .synReceived) (opened : (socket.handle f).state = .established) :
    f.segment.ack = true ∧ f.segment.syn = false := by
  simp only [handle, opening] at opened
  split at opened
  · cases opened
  · split at opened
    next acked => simpa using acked
    · simp [opening] at opened

theorem MiniSocket.accepts_listen {socket : MiniSocket} {f : MiniFrame}
    (listening : socket.state = .listen) : socket.accepts f =
      (socket.port == f.segment.dst.port && (!f.segment.ack && !f.rst)) := by
  simp [accepts, listening]

theorem miniUpdate_map {β : Type} {view : MiniSocket → β} {f : MiniSocket → MiniSocket}
    (sockets : List MiniSocket) (h : SocketHandle) (i : Nat)
    (keeps : ∀ socket, view (f socket) = view socket) :
    (miniUpdate sockets h f)[i]?.map view = sockets[i]?.map view := by
  rw [miniUpdate, List.getElem?_modify]
  cases sockets[i]? with
  | none => rfl
  | some socket =>
    by_cases same : h.index = i
    · simp [same, keeps]
    · simp [same]

theorem mini_listen {s t : List MiniSocket} {p : Nat} {h : SocketHandle}
    (listened : mini.listen s p = some (h, t)) :
    h = ⟨s.length⟩ ∧ t = s ++ [⟨p, .listen, none, []⟩] := by
  simp only [mini] at listened
  split at listened
  · cases listened
  · cases listened
    exact ⟨rfl, rfl⟩

/-- A socket added at the end of the set. -/
theorem getElem?_added (sockets : List MiniSocket) (socket : MiniSocket) (h : SocketHandle) :
    (sockets ++ [socket])[h.index]? =
      if h = ⟨sockets.length⟩ then some socket else sockets[h.index]? := by
  by_cases same : h = ⟨sockets.length⟩
  · simp [same]
  · have different : h.index ≠ sockets.length := fun eq => same (SocketHandle.ext eq)
    rw [if_neg same, List.getElem?_append]
    split
    · rfl
    · rw [List.getElem?_eq_none (by simp; omega), List.getElem?_eq_none (by omega)]

theorem mini_handshake : mini.Handshake where
  empty_state h := rfl
  listen_least {s t p h} listened := by
    obtain ⟨rfl, -⟩ := mini_listen listened
    simp [mini]
  listen_state {s t p h} listened h' := by
    obtain ⟨rfl, rfl⟩ := mini_listen listened
    simp only [mini, getElem?_added]
    split <;> rfl
  listen_port {s t p h} listened h' := by
    obtain ⟨rfl, rfl⟩ := mini_listen listened
    simp only [mini, getElem?_added]
    split <;> rfl
  send_keeps {s t h data n} sent := by
    simp only [mini] at sent
    split at sent
    · cases sent
      exact ⟨rfl, rfl⟩
    · cases sent
  recv_keeps {s t h len data} received := by
    simp only [mini] at received
    split at received
    · cases received
    · cases received
      constructor
      · funext h'
        exact miniUpdate_map s h h'.index (by simp)
      · funext h'
        simp only [mini]
        rw [miniUpdate_map s h h'.index (by simp)]
  process_port s f := by
    funext h
    simp only [mini]
    rcases miniProcess_getElem? s f h.index with same | ⟨socket, here, -, -, handled⟩
    · rw [same]
    · rw [handled, here]
      simp
  process_elsewhere s f h changed := by
    simp only [mini] at changed ⊢
    rcases miniProcess_getElem? s f h.index with same | ⟨socket, here, accepted, -, -⟩
    · exact absurd (by rw [same]) changed
    -- a socket that accepts a frame has the port that the frame is for
    · have samePort := (Bool.and_eq_true _ _ ▸ accepted).1
      refine ⟨_, rfl, ?_⟩
      rw [here]
      simpa using (beq_iff_eq.mp samePort).symm
  process_none s f h := by
    simp only [mini]
    rcases miniProcess_getElem? s f h.index with same | ⟨socket, here, -, -, handled⟩
    · rw [same]
    · rw [handled, here]
      simp
  process_listen s f h listening := by
    simp only [mini] at listening ⊢
    rcases miniProcess_getElem? s f h.index with same | ⟨socket, here, accepted, earlier, handled⟩
    · left
      rw [same]
      exact listening
    · have isListen : socket.state = .listen := by simpa [here] using listening
      rw [MiniSocket.accepts_listen isListen] at accepted
      simp only [Bool.and_eq_true, beq_iff_eq, Bool.not_eq_true'] at accepted
      obtain ⟨samePort, noAck, noRst⟩ := accepted
      rw [handled, here]
      simp only [Option.map_some, MiniSocket.handle_listen isListen]
      cases syn : f.segment.syn with
      | false => exact .inl rfl
      | true =>
        right
        refine ⟨rfl, ⟨_, rfl, by simp [TcpSegment.isFirst, syn, noAck], samePort.symm⟩, ?_⟩
        -- a listening socket of the same port further up would have accepted the SYN
        intro h' before listens equal
        cases found : s[h'.index]? with
        | none => simp [found] at listens
        | some other =>
          have isListen' : other.state = .listen := by simpa [found] using listens
          have refused := earlier h'.index before other found
          rw [MiniSocket.accepts_listen isListen'] at refused
          simp [found] at equal
          simp [equal, samePort, noAck, noRst] at refused
  process_established s f h opening opened := by
    simp only [mini] at opening opened ⊢
    rcases miniProcess_getElem? s f h.index with same | ⟨socket, here, accepted, earlier, handled⟩
    · rw [same, opening] at opened
      cases opened
    · have before : socket.state = .synReceived := by simpa [here] using opening
      have after : (socket.handle f).state = .established := by simpa [handled] using opened
      obtain ⟨acked, noSyn⟩ := MiniSocket.handle_established before after
      exact ⟨_, rfl, acked, by simp [noSyn]⟩
  egress_port s := rfl
  egress_none s h := Iff.rfl
  egress_state s h state _ is := is

theorem mini_transfers : mini.Transfers where
  send_ok {s h} can data := by
    simp only [mini] at can ⊢
    rw [if_pos can]
    exact ⟨_, _, rfl⟩
  recv_ok {s h} can len := by
    simp only [mini] at can ⊢
    cases found : s[h.index]? with
    | none => simp [found] at can
    | some socket => exact ⟨_, _, rfl⟩

theorem mini_listens : mini.Listens := by
  intro sockets p
  simp [mini]

/-- The bytes that wait in a socket. -/
def miniRx (sockets : List MiniSocket) (h : SocketHandle) : List (BitVec 8) :=
  (sockets[h.index]?.map (·.rx)).getD []

theorem mini_receives : mini.Receives miniRx where
  recv_front {s h} can len := by
    simp only [mini] at can ⊢
    cases found : s[h.index]? with
    | none => simp [found] at can
    | some socket =>
      have waiting : miniRx s h = socket.rx := by simp [miniRx, found]
      rw [waiting]
      refine ⟨_, rfl, ?_⟩
      funext h'
      by_cases same : h' = h
      · subst same
        simp [miniRx, miniUpdate, found]
      · have different : h.index ≠ h'.index := fun eq => same (SocketHandle.ext eq.symm)
        simp [miniRx, miniUpdate, Function.update_of_ne same, different]

end RootTask.Net
