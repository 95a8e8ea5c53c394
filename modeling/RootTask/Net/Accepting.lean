import RootTask.Net.Pairing

/-!
# Accepting connections

A SYN wakes an accept coroutine before the stack has even seen the SYN. The coroutine takes
the front of `syn_queue` and asserts that this socket is connected. By `PairingOk` it is the
socket that the coroutine registered itself; whether it is connected is up to the peers and
to the schedule.

## Main result

`accept_assertions_hold`: both assertions of `accept` hold if every SYN that wakes a coroutine
opens a connection, no peer resets or closes a connection before it is accepted, and no
coroutine goes on to `accept` while a handshake on its port is half open.

## Proof strategy

`SocketsOk` splits every `syn_queue` into the sockets of the woken coroutines, which left
`Listen`, and those of the blocked ones, which are in it. It does not mention coroutines, so
only frames, `listen` and `accept` have to be looked at.
-/
namespace RootTask.Net

open RootTask.Runtime RootTask.Transition

/-- About to call `accept`. -/
def Point.atAccept : Point → Bool
  | .accepting _ _ _ _ => true
  | _ => false

/-- A connection that the peer has begun and not ended. -/
def Begun (state : Option TcpState) : Prop :=
  state = some .synReceived ∨ state = some .established

instance (state : Option TcpState) : Decidable (Begun state) :=
  inferInstanceAs (Decidable (_ ∨ _))

/-- The sockets registered on a port: those that left `Listen`, then the listening ones, one
for each blocked coroutine. -/
structure EntryOk (en : ListenTableEntry) (p : Nat) (state : SocketHandle → Option TcpState)
    (port : SocketHandle → Nat) (opened listening : List SocketHandle) : Prop where
  split : en.synQueue = opened ++ listening
  blocked : listening.length = en.blockCids.length
  begun : ∀ h ∈ opened, Begun (state h)
  listens : ∀ h ∈ listening, state h = some .listen
  ordered : listening.Pairwise fun h h' => h.index < h'.index
  onPort : ∀ h ∈ en.synQueue, port h = p

namespace EntryOk

variable {en : ListenTableEntry} {p : Nat} {state state' : SocketHandle → Option TcpState}
  {port : SocketHandle → Nat} {opened listening : List SocketHandle}

theorem mem_synQueue (ok : EntryOk en p state port opened listening) {h : SocketHandle}
    (member : h ∈ opened ∨ h ∈ listening) : h ∈ en.synQueue := by
  rw [ok.split]
  exact List.mem_append.mpr member

theorem mem_listening (ok : EntryOk en p state port opened listening) {h : SocketHandle}
    (member : h ∈ en.synQueue) (listens : state h = some .listen) : h ∈ listening := by
  rw [ok.split] at member
  rcases List.mem_append.mp member with isOpen | isListening
  · rcases ok.begun h isOpen with opening | established
    · cases opening.symm.trans listens
    · cases established.symm.trans listens
  · exact isListening

/-- Only the first listening socket of the port can take a SYN. -/
theorem syn_front {σ F : Type} {stack : Smoltcp σ F} (handshake : stack.Handshake) {s : σ} {f : F}
    {front h : SocketHandle} {others : List SocketHandle}
    (ok : EntryOk en p (stack.state s) (stack.port s) opened (front :: others))
    (member : h ∈ front :: others) (changed : stack.state (stack.process s f) h ≠ some .listen) :
    h = front ∧ stack.state (stack.process s f) h = some .synReceived := by
  rcases handshake.process_listen s f h (ok.listens h member) with stays | ⟨opens, -, least⟩
  · exact absurd stays changed
  · refine ⟨?_, opens⟩
    rcases List.mem_cons.mp member with same | later
    · exact same
    · have onPort := ok.onPort h (ok.mem_synQueue (.inr member))
      have onPort' := ok.onPort front (ok.mem_synQueue (.inr List.mem_cons_self))
      have before := (List.pairwise_cons.mp ok.ordered).1 h later
      exact absurd (onPort'.trans onPort.symm)
        (least front before (ok.listens front List.mem_cons_self))

/-- Sockets of other ports do not see a frame. -/
theorem congr (ok : EntryOk en p state port opened listening)
    (same : ∀ h, port h = p → state' h = state h) : EntryOk en p state' port opened listening := by
  refine ⟨ok.split, ok.blocked, ?_, ?_, ok.ordered, ok.onPort⟩
  · intro h member
    rw [same h (ok.onPort h (ok.mem_synQueue (.inl member)))]
    exact ok.begun h member
  · intro h member
    rw [same h (ok.onPort h (ok.mem_synQueue (.inr member)))]
    exact ok.listens h member

/-- A frame that leaves the listening sockets alone. -/
theorem still (ok : EntryOk en p state port opened listening)
    (keeps : ∀ h ∈ en.synQueue, Begun (state h) → Begun (state' h))
    (listens : ∀ h ∈ listening, state' h = some .listen) :
    EntryOk en p state' port opened listening :=
  ⟨ok.split, ok.blocked, fun h member => keeps h (ok.mem_synQueue (.inl member)) (ok.begun h member),
    listens, ok.ordered, ok.onPort⟩

/-- A frame that opens a connection on the first listening socket, for the coroutine that is
woken. -/
theorem opens (ok : EntryOk en p state port opened listening) {c : CoroutineId}
    {rest : List CoroutineId} (shape : en.blockCids = c :: rest)
    (keeps : ∀ h ∈ en.synQueue, Begun (state h) → Begun (state' h))
    (first : ∀ front others, listening = front :: others →
      Begun (state' front) ∧ ∀ h ∈ others, state' h = some .listen) :
    ∃ opened' listening', EntryOk { en with blockCids := rest } p state' port opened' listening' := by
  have counted := ok.blocked
  rw [shape] at counted
  cases listening with
  -- one listening socket for each blocked coroutine, and there is one
  | nil => simp at counted
  | cons front others =>
    obtain ⟨isBegun, stay⟩ := first front others rfl
    refine ⟨opened ++ [front], others, ?_, ?_, ?_, stay, (List.pairwise_cons.mp ok.ordered).2,
      ok.onPort⟩
    · simp [ok.split]
    · simpa using counted
    · intro h member
      rcases List.mem_append.mp member with old | new
      · exact keeps h (ok.mem_synQueue (.inl old)) (ok.begun h old)
      · rw [List.mem_singleton.mp new]
        exact isBegun

end EntryOk

structure SocketsOk (point : Nat → Point) (table : ListenTable)
    (state : SocketHandle → Option TcpState) (port : SocketHandle → Nat) : Prop where
  entries : ∀ p, ∃ opened listening, EntryOk (table.entry p) p state port opened listening
  compact : ∀ i j, i < j → state ⟨j⟩ ≠ none → state ⟨i⟩ ≠ none
  accepting : ∀ i cid p serial h, point i = .accepting cid p serial h →
    state h = some .established

namespace SocketsOk

variable {point point' : Nat → Point} {table : ListenTable}
  {state state' : SocketHandle → Option TcpState} {port : SocketHandle → Nat}

theorem of_point (ok : SocketsOk point table state port)
    (same : ∀ i cid p serial h, point' i = .accepting cid p serial h →
      point i = .accepting cid p serial h) : SocketsOk point' table state port :=
  ⟨ok.entries, ok.compact, fun i cid p serial h at_ =>
    ok.accepting i cid p serial h (same i cid p serial h at_)⟩

/-- A coroutine moves to a point other than the call of `accept`. -/
theorem goto (ok : SocketsOk point table state port) {i : Nat} {p : Point}
    (elsewhere : p.atAccept = false) :
    SocketsOk (Function.update point i p) table state port := by
  apply ok.of_point
  intro j cid q serial h at_
  by_cases here : j = i
  · rw [here, Function.update_self] at at_
    rw [at_] at elsewhere
    cases elsewhere
  · rwa [Function.update_of_ne here] at at_

/-- Sending changes no state that matters. -/
theorem egress (ok : SocketsOk point table state port)
    (keeps : ∀ h st, st = .listen ∨ st = .synReceived ∨ st = .established →
      state h = some st → state' h = some st)
    (none_iff : ∀ h, state' h = none ↔ state h = none) : SocketsOk point table state' port := by
  constructor
  case entries =>
    intro p
    obtain ⟨opened, listening, en⟩ := ok.entries p
    refine ⟨opened, listening, en.split, en.blocked, ?_, ?_, en.ordered, en.onPort⟩
    · intro h member
      rcases en.begun h member with synReceived | established
      · exact .inl (keeps h _ (.inr (.inl rfl)) synReceived)
      · exact .inr (keeps h _ (.inr (.inr rfl)) established)
    · exact fun h member => keeps h _ (.inl rfl) (en.listens h member)
  case compact =>
    intro i j before live
    rw [Ne, none_iff] at live ⊢
    exact ok.compact i j before live
  case accepting =>
    exact fun i cid p serial h at_ =>
      keeps h _ (.inr (.inr rfl)) (ok.accepting i cid p serial h at_)

/-- A coroutine registers a new socket and blocks. -/
theorem listen (ok : SocketsOk point table state port) {p : Nat} {handler : SocketHandle}
    {self : CoroutineId} {port' : SocketHandle → Nat} (isNew : state handler = none)
    (least : ∀ i < handler.index, state ⟨i⟩ ≠ none)
    (isState : ∀ h, state' h = if h = handler then some .listen else state h)
    (isPort : ∀ h, port' h = if h = handler then p else port h) :
    SocketsOk point (Function.update table p (some { table.entry p with
      synQueue := (table.entry p).synQueue ++ [handler]
      blockCids := (table.entry p).blockCids ++ [self] })) state' port' := by
  have fresh : ∀ h, state h ≠ none → h ≠ handler := by
    rintro h live rfl
    exact live isNew
  have keeps : ∀ h, state h ≠ none → state' h = state h := fun h live => by
    rw [isState, if_neg (fresh h live)]
  have keepsPort : ∀ h, state h ≠ none → port' h = port h := fun h live => by
    rw [isPort, if_neg (fresh h live)]
  -- the places below a live socket are taken, so the new one is above all of them
  have above : ∀ h, state h ≠ none → h.index < handler.index := by
    intro h live
    rcases Nat.lt_trichotomy h.index handler.index with below | same | beyond
    · exact below
    · exact absurd (SocketHandle.ext same) (fresh h live)
    · exact absurd isNew (ok.compact _ _ beyond live)
  have liveOpened : ∀ {st}, Begun st → st ≠ none := by
    rintro st (rfl | rfl) <;> simp
  -- the sockets registered so far are live, so `listen` does not touch them
  have extend : ∀ q opened listening, EntryOk (table.entry q) q state port opened listening →
      EntryOk (table.entry q) q state' port' opened listening := by
    intro q opened listening en
    have live : ∀ h ∈ (table.entry q).synQueue, state h ≠ none := by
      intro h member
      rw [en.split] at member
      rcases List.mem_append.mp member with isOpen | isListening
      · exact liveOpened (en.begun h isOpen)
      · rw [en.listens h isListening]
        simp
    refine ⟨en.split, en.blocked, ?_, ?_, en.ordered, ?_⟩
    · intro h member
      rw [keeps h (live h (en.mem_synQueue (.inl member)))]
      exact en.begun h member
    · intro h member
      rw [keeps h (live h (en.mem_synQueue (.inr member)))]
      exact en.listens h member
    · intro h member
      rw [keepsPort h (live h member)]
      exact en.onPort h member
  constructor
  case entries =>
    intro q
    obtain ⟨opened, listening, en⟩ := ok.entries q
    have en' := extend q opened listening en
    rw [ListenTable.entry_update]
    split
    next here =>
      subst here
      refine ⟨opened, listening ++ [handler], ?_, ?_, en'.begun, ?_, ?_, ?_⟩
      · simp [en.split]
      · simp [en.blocked]
      · intro h member
        rcases List.mem_append.mp member with old | new
        · exact en'.listens h old
        · rw [isState, if_pos (List.mem_singleton.mp new)]
      -- the new socket comes last and has the largest handle
      · rw [List.pairwise_append]
        refine ⟨en.ordered, List.pairwise_singleton _ _, ?_⟩
        intro h old h' new
        rw [List.mem_singleton.mp new]
        apply above
        rw [en.listens h old]
        simp
      · intro h member
        rcases List.mem_append.mp member with old | new
        · exact en'.onPort h old
        · rw [isPort, if_pos (List.mem_singleton.mp new)]
    · exact ⟨opened, listening, en'⟩
  case compact =>
    intro i j before live
    rw [isState]
    split
    · simp
    · rw [isState] at live
      split at live
      next here => exact least i (by rw [← here]; exact before)
      · exact ok.compact i j before live
  case accepting =>
    intro i cid q serial h at_
    have established := ok.accepting i cid q serial h at_
    rw [keeps h (by simp [established])]
    exact established

/-- The front socket, of a woken coroutine, leaves the queue. -/
theorem accept (ok : SocketsOk point table state port) {p : Nat} {en : ListenTableEntry}
    {handle : SocketHandle} {rest : List SocketHandle} (found : table p = some en)
    (shape : en.synQueue = handle :: rest) (woken : en.blockCids.length ≤ rest.length) :
    SocketsOk point (Function.update table p (some { en with synQueue := rest })) state port := by
  refine ⟨fun q => ?_, ok.compact, ok.accepting⟩
  rw [ListenTable.entry_update]
  split
  next here =>
    subst here
    obtain ⟨opened, listening, old⟩ := ok.entries q
    rw [ListenTable.entry_of_some found] at old
    -- the listening sockets are no more than what is left
    cases opened with
    | nil =>
      have length := congrArg List.length (shape.symm.trans old.split)
      have blocked := old.blocked
      simp at length
      omega
    | cons first opened =>
      obtain ⟨rfl, isRest⟩ := List.cons.inj (shape.symm.trans old.split)
      refine ⟨opened, listening, isRest, old.blocked,
        fun h member => old.begun h (List.mem_cons_of_mem _ member), old.listens, old.ordered, ?_⟩
      intro h member
      apply old.onPort h
      rw [shape]
      exact List.mem_cons_of_mem _ member
  · exact ok.entries q

end SocketsOk

namespace AsyncServer

variable {σ F : Type} (stack : Smoltcp σ F)

/-- The state of a socket. -/
abbrev stateOf (s : AsyncServer σ) : SocketHandle → Option TcpState := stack.state s.net.sockets

/-- A frame that wakes a coroutine opens a connection on the port, and no frame ends a
connection that is not accepted yet. -/
def FrameOrderly (s : AsyncServer σ) (f : F) : Prop :=
  ∀ seg ∈ stack.segment f,
    let en := s.net.listenTable.entry seg.dst.port
    let after := stack.state (stack.process s.net.sockets f)
    (seg.isFirst = true → en.blockCids ≠ [] →
      ∃ h ∈ en.synQueue, s.stateOf stack h = some .listen ∧ after h ≠ some .listen) ∧
    ∀ h ∈ en.synQueue, Begun (s.stateOf stack h) → Begun (after h)

/-- No handshake on the port waits for its last segment. -/
def HandshakesDone (s : AsyncServer σ) (p : Nat) : Prop :=
  ∀ h ∈ (s.net.listenTable.entry p).synQueue, s.stateOf stack h ≠ some .synReceived

/-- The port of the accept coroutine that is polled at its yield. -/
def resumingPort (s : AsyncServer σ) : Option Nat :=
  s.polling.bind fun self =>
    match s.point self.val with
    | .acceptYield _ p _ _ => some p
    | _ => none

/-- Peers open and keep their connections, and an accept coroutine that was woken resumes
after the handshakes. -/
def Orderly (s : AsyncServer σ) : AsyncAction F → Prop
  | .frame f => s.FrameOrderly stack f
  | .run => ∀ p ∈ s.resumingPort, s.HandshakesDone stack p
  | _ => True

instance (s : AsyncServer σ) : DecidablePred (Orderly stack s)
  | .frame f => inferInstanceAs (Decidable (∀ seg ∈ stack.segment f, _ ∧ _))
  | .run => inferInstanceAs (Decidable (∀ p ∈ s.resumingPort, ∀ h ∈ ListenTableEntry.synQueue _, _))
  | .boot | .fetch | .interrupt _ | .submit _ | .takeReply | .store _ _ => .isTrue trivial

/-- The states of the registered sockets, at a state of the server. -/
abbrev Sockets (s : AsyncServer σ) : Prop :=
  SocketsOk s.point s.net.listenTable (s.stateOf stack) (stack.port s.net.sockets)

variable {stack} {s t : AsyncServer σ} {self : CoroutineId}

/-- The queue of a port never fills up: each of its sockets belongs to a live coroutine. -/
theorem Ok.synQueue_length (ok : s.Ok) (paired : s.Paired) (p : Nat) :
    (s.net.listenTable.entry p).synQueue.length < listenQueueSize := by
  -- no coroutine is both woken and blocked
  have waiters : (woken (lineup s.polling (s.executor.queue 2) s.point) s.point p ++
      (s.net.listenTable.entry p).blockCids).Nodup := by
    rw [List.nodup_append]
    refine ⟨paired.line_nodup.filter _, paired.block_nodup p, ?_⟩
    rintro c inLine d isBlocked rfl
    exact (paired.blocked p c isBlocked).1 (List.mem_filter.mp inLine).1
  have bound : ∀ c ∈ woken (lineup s.polling (s.executor.queue 2) s.point) s.point p ++
      (s.net.listenTable.entry p).blockCids, c.val < maxTaskNum := by
    intro c member
    have phase : (s.point c.val).acceptPhase = true := by
      rcases List.mem_append.mp member with inLine | isBlocked
      · exact acceptPhase_of_mem (List.mem_filter.mp inLine).1
      · obtain ⟨cid, serial, h, at_⟩ := (paired.blocked p c isBlocked).2
        rw [at_]
        rfl
    obtain ⟨task, live⟩ := ok.live_of_acceptPhase phase
    exact ok.bound c.val (by rw [live]; simp)
  have length := length_le_maxTaskNum waiters bound
  rw [paired.pairs p, List.length_map]
  exact Nat.lt_of_le_of_lt length (by decide)

theorem Ok.admits (ok : s.Ok) (paired : s.Paired) {p : Nat} {en : ListenTableEntry}
    (found : s.net.listenTable p = some en) (dst : IpAddress) : en.admits dst = true := by
  have length := ok.synQueue_length paired p
  rw [ListenTable.entry_of_some found] at length
  simp [ListenTableEntry.admits, ListenTableEntry.canAccept, (paired.plain p en found).1, length]

theorem Received.sockets {f : F} (received : Received stack s f t) (handshake : stack.Handshake)
    (ok : s.Ok) (paired : s.Paired) (sockets : s.Sockets stack) (polls : s.polling = some self)
    (inPoll : (s.point self.val).inIfacePoll = true) (orderly : s.FrameOrderly stack f) :
    t.Sockets stack := by
  -- the polled coroutine is in `iface_poll`, so none is about to accept
  have noAccept : ∀ i cid p serial h, s.point i ≠ .accepting cid p serial h := by
    intro i cid p serial h at_
    have same := Option.some.inj (polls.symm.trans (paired.accepting i cid p serial h at_))
    rw [same, at_] at inPoll
    cases inPoll
  have compact : ∀ i j, i < j → stack.state (stack.process s.net.sockets f) ⟨j⟩ ≠ none →
      stack.state (stack.process s.net.sockets f) ⟨i⟩ ≠ none := by
    intro i j before live
    rw [Ne, handshake.process_none] at live ⊢
    exact sockets.compact i j before live
  have elsewhere : ∀ q, (∀ seg, stack.segment f = some seg → seg.dst.port ≠ q) → ∀ h,
      stack.port s.net.sockets h = q →
      stack.state (stack.process s.net.sockets f) h = s.stateOf stack h := by
    intro q other h onPort
    by_contra changed
    obtain ⟨seg, isTcp, addressed⟩ := handshake.process_elsewhere _ f h changed
    exact other seg isTcp (addressed.trans onPort)
  have process_port := handshake.process_port s.net.sockets f
  cases received with
  | nobody quiet =>
    refine ⟨fun q => ?_, compact, fun i cid p serial h at_ => absurd at_ (noAccept i cid p serial h)⟩
    obtain ⟨opened, listening, en⟩ := sockets.entries q
    change ∃ opened listening, EntryOk (s.net.listenTable.entry q) q
      (stack.state (stack.process s.net.sockets f)) (stack.port (stack.process s.net.sockets f))
      opened listening
    rw [process_port]
    refine ⟨opened, listening, ?_⟩
    by_cases addressed : ∃ seg, stack.segment f = some seg ∧ seg.dst.port = q
    · obtain ⟨seg, isTcp, rfl⟩ := addressed
      have frame := orderly seg isTcp
      apply en.still frame.2
      intro h member
      rcases handshake.process_listen s.net.sockets f h (en.listens h member) with stays |
        ⟨-, ⟨seg', isTcp', first, -⟩, -⟩
      · exact stays
      · -- a SYN that a listening socket took would have woken a coroutine
        cases isTcp.symm.trans isTcp'
        cases existing : s.net.listenTable seg.dst.port with
        | none =>
          have inQueue := en.mem_synQueue (.inr member)
          simp [ListenTable.entry, existing, ListenTableEntry.new] at inQueue
        | some entry =>
          have none_ := quiet seg entry isTcp first existing (ok.admits paired existing _)
          have counted := en.blocked
          rw [ListenTable.entry_of_some existing, none_] at counted
          rw [List.length_eq_zero_iff.mp counted] at member
          cases member
    · apply en.congr
      apply elsewhere q
      intro seg isTcp same
      exact addressed ⟨seg, isTcp, same⟩
  | woke seg entry c rest e isTcp first found admits shape woken =>
    refine ⟨fun q => ?_, compact, fun i cid p serial h at_ => absurd at_ (noAccept i cid p serial h)⟩
    obtain ⟨opened, listening, en⟩ := sockets.entries q
    change ∃ opened listening, EntryOk (ListenTable.entry (Function.update s.net.listenTable
      seg.dst.port (some { entry with blockCids := rest })) q) q
      (stack.state (stack.process s.net.sockets f)) (stack.port (stack.process s.net.sockets f))
      opened listening
    rw [process_port, ListenTable.entry_update]
    split
    next here =>
      subst here
      have frame := orderly seg isTcp
      dsimp only at frame
      rw [ListenTable.entry_of_some found] at en frame
      -- the SYN that wakes opens a connection, on the first of the listening sockets
      obtain ⟨h, inQueue, listens, moved⟩ := frame.1 first (by simp [shape])
      refine en.opens shape frame.2 fun front others isListening => ?_
      subst isListening
      obtain ⟨rfl, opens⟩ := en.syn_front handshake (en.mem_listening inQueue listens) moved
      refine ⟨.inl opens, fun h' member => ?_⟩
      by_contra changed
      obtain ⟨rfl, -⟩ := en.syn_front handshake (List.mem_cons_of_mem _ member) changed
      exact Nat.lt_irrefl _ ((List.pairwise_cons.mp en.ordered).1 _ member)
    next other =>
      refine ⟨opened, listening, en.congr (elsewhere q fun seg' isTcp' same => ?_)⟩
      cases isTcp.symm.trans isTcp'
      exact other same.symm

theorem Iterated.sockets (iterated : s.Iterated self t) (sockets : s.Sockets stack) :
    t.Sockets stack := by
  cases iterated with
  | again e n wakes => exact sockets.goto rfl
  | switched e wakes => exact sockets.goto rfl

theorem Handled.sockets {request : Request} (handled : Handled stack s request t)
    (handshake : stack.Handshake) (sockets : s.Sockets stack) : t.Sockets stack := by
  cases handled with
  | poll e woken => exact sockets
  | listen cid runtime body isAccept spawned => exact sockets.goto rfl
  | dropSend _ _ => exact sockets
  | recv size s₁ _ _ received replied =>
    obtain ⟨items, -, rfl⟩ := writeReply_ok replied
    obtain ⟨len, bytes, after, sliced, rfl⟩ := recvInto_ok stack received
    obtain ⟨state, port⟩ := handshake.recv_keeps sliced
    change SocketsOk _ _ (stack.state after) (stack.port after)
    rw [state, port]
    exact sockets
  | dropRecv _ _ => exact sockets
  | handOver _ _ _ handed =>
    obtain ⟨cid, e, filed, woken, rfl⟩ := handOver_ok handed
    exact sockets

theorem Sockets.endPoll (sockets : s.Sockets stack) (handshake : stack.Handshake) :
    (s.endPoll stack).Sockets stack := by
  change SocketsOk _ _ _ (stack.port (stack.egress s.net.sockets))
  rw [handshake.egress_port]
  exact sockets.egress (handshake.egress_state _) (handshake.egress_none _)

/-- A woken coroutine that resumes after the handshakes has an established socket. -/
theorem Sockets.established {cid : CoroutineId} {port serial : Nat} {handler : SocketHandle}
    (sockets : s.Sockets stack) (paired : s.Paired) (polls : s.polling = some self)
    (at_ : s.point self.val = .acceptYield cid port serial handler)
    (done : s.HandshakesDone stack port) : s.stateOf stack handler = some .established := by
  have front := Paired.front paired polls port (by simp [at_, Point.waitsOn])
  rw [at_] at front
  obtain ⟨opened, listening, en⟩ := sockets.entries port
  -- the blocked coroutines account for all but the front, so the front is not listening
  have isOpen : handler ∈ opened := by
    cases opened with
    | nil =>
      have length := congrArg List.length (front.symm.trans en.split)
      have counted := en.blocked
      simp at length
      omega
    | cons first opened =>
      obtain ⟨same, -⟩ := List.cons.inj (front.symm.trans en.split)
      change handler = first at same
      rw [same]
      exact List.mem_cons_self
  rcases en.begun handler isOpen with opening | established
  · exact absurd opening (done handler (en.mem_synQueue (.inl isOpen)))
  · exact established

theorem Ran.sockets (ran : Ran stack s self t) (handshake : stack.Handshake) (paired : s.Paired)
    (sockets : s.Sockets stack) (polls : s.polling = some self)
    (orderly : Orderly stack s (.run : AsyncAction F)) : t.Sockets stack := by
  cases ran with
  | jump p jumps =>
    apply sockets.goto
    generalize s.point self.val = q at jumps
    cases jumps <;> rfl
  | resume next value lib resumes taken =>
    obtain ⟨current, -, rfl, rfl⟩ := AsyncState.takeValue_ok taken
    generalize at_ : s.point self.val = q at resumes
    cases resumes with
    | net => exact sockets.goto rfl
    | req => exact sockets.goto rfl
    | recv => exact sockets.goto rfl
    | busy request => exact sockets.goto rfl
    | accept cid port serial handler =>
      -- the handshakes of the port are done when its coroutine resumes
      have done := orderly port (by simp [resumingPort, polls, at_])
      have established := sockets.established paired polls at_ done
      refine ⟨sockets.entries, sockets.compact, fun i cid' p serial' h point => ?_⟩
      change Function.update s.point self.val (.accepting cid port serial handler) i = _ at point
      by_cases here : i = self.val
      · rw [here, Function.update_self] at point
        cases point
        exact established
      · rw [Function.update_of_ne here] at point
        exact sockets.accepting i cid' p serial' h point
  | endPoll at_ => exact (sockets.endPoll handshake).goto rfl
  | noItem cnt at_ empty => exact sockets.goto rfl
  | handle cnt request items s₁ _ at_ popped handled iterated =>
    exact iterated.sockets (handled.sockets handshake sockets)
  | send cnt size request items after _ at_ popped sending =>
    obtain ⟨-, -, -, ⟨data, sent⟩, rfl⟩ := sending
    obtain ⟨state, port⟩ := handshake.send_keeps sent
    refine SocketsOk.goto ?_ rfl
    change SocketsOk _ _ (stack.state after) (stack.port after)
    rw [state, port]
    exact sockets
  | sendReply cnt size request s₁ _ at_ replied iterated =>
    obtain ⟨items, -, rfl⟩ := writeReply_ok replied
    exact iterated.sockets (sockets.endPoll handshake)
  | listen cid port serial handler after table at_ opened registered =>
    obtain ⟨-, rfl⟩ := ListenTable.register_ok registered
    obtain ⟨isNew, least⟩ := handshake.listen_least opened
    exact (sockets.listen isNew least (handshake.listen_state opened)
      (handshake.listen_port opened)).goto rfl
  | accept cid port serial handler handle tuple net s₁ at_ accepted replied =>
    obtain ⟨items, -, rfl⟩ := writeReply_ok replied
    obtain ⟨en, rest, found, shape, -, rfl⟩ := NetState.accept_ok stack accepted
    have front := Paired.front paired polls port (by simp [at_, Point.waitsOn])
    rw [ListenTable.entry_of_some found, shape] at front
    -- behind the front there is a socket for each blocked coroutine
    have length := congrArg List.length (List.cons.inj front).2
    refine (sockets.accept found shape ?_).goto rfl
    simp at length
    omega
  | wait at_ => exact sockets.goto rfl
  | recvReply request size s₁ s₂ at_ received replied =>
    obtain ⟨items, -, rfl⟩ := writeReply_ok replied
    obtain ⟨len, bytes, after, sliced, rfl⟩ := recvInto_ok stack received
    obtain ⟨state, port⟩ := handshake.recv_keeps sliced
    refine SocketsOk.goto ?_ rfl
    change SocketsOk _ _ (stack.state after) (stack.port after)
    rw [state, port]
    exact sockets
  | recvFailed request at_ can failed => exact sockets.goto rfl
  | recvBusy request e at_ woken => exact sockets.goto rfl

theorem sockets_init (handshake : stack.Handshake) : (init stack).Sockets stack := by
  have empty : ∀ h, (init stack).stateOf stack h = none := handshake.empty_state
  constructor
  case entries =>
    intro p
    refine ⟨[], [], rfl, rfl, nofun, nofun, .nil, ?_⟩
    intro h member
    cases member
  case compact => exact fun i j _ live => absurd (empty _) live
  case accepting => exact nofun

theorem step_sockets (handshake : stack.Handshake) {a : AsyncAction F} (ok : s.Ok)
    (paired : s.Paired) (sockets : s.Sockets stack) (orderly : Orderly stack s a)
    (moved : s.step stack a = some t) : t.Sockets stack := by
  cases step_moved stack moved with
  | boot _ booted =>
    obtain ⟨poller, cid, runtime, runtime', allocator, first, second⟩ := booted
    have first := sockets.goto (i := poller.val) (p := .fresh .netPoll) rfl
    exact first.goto rfl
  | fetch task e idle fetched => exact sockets
  | run self _ polls ran => exact ran.sockets handshake paired sockets polls orderly
  | frame f self net polls inPoll received =>
    exact (received_ok paired received).sockets handshake ok paired sockets polls inPoll orderly
  | interrupt vec cid e known delayed => exact sockets
  | submit item items written => exact sockets
  | tookReply reply items popped => exact sockets
  | noReply empty => exact sockets
  | store buffer bytes => exact sockets

/-- In every orderly run, a woken coroutine that calls `accept` finds a socket in `syn_queue`,
and it is established: neither assertion fails. -/
theorem accept_assertions_hold (handshake : stack.Handshake)
    (run : Reaches (step stack) (Orderly stack) (init stack) s) {cid : CoroutineId}
    {port serial : Nat} {handler : SocketHandle} (polls : s.polling = some self)
    (at_ : s.point self.val = .accepting cid port serial handler) :
    (∃ en front rest, s.net.listenTable port = some en ∧ en.synQueue = front :: rest ∧
      stack.state s.net.sockets front = some .established) ∧
    s.net.accept stack port ≠ .error .assertFailed := by
  have inv : s.Ok ∧ s.Paired ∧ s.Sockets stack := by
    apply run.invariant (fun s => s.Ok ∧ s.Paired ∧ s.Sockets stack)
      ⟨ok_init stack, paired_init stack, sockets_init handshake⟩
    rintro s a t ⟨ok, paired, sockets⟩ orderly moved
    exact ⟨step_ok ok moved, step_paired ok paired moved,
      step_sockets handshake ok paired sockets orderly moved⟩
  obtain ⟨-, paired, sockets⟩ := inv
  have front := Paired.front paired polls port (by simp [at_, Point.waitsOn])
  rw [at_] at front
  have established := sockets.accepting _ _ _ _ _ at_
  cases existing : s.net.listenTable port with
  | none => simp [ListenTable.entry, existing, ListenTableEntry.new] at front
  | some en =>
    rw [ListenTable.entry_of_some existing] at front
    refine ⟨⟨en, handler, _, rfl, front, established⟩, ?_⟩
    have connected : NetState.isConnected stack s.net.sockets handler = .ok true := by
      have isState : stack.state s.net.sockets handler = some .established := established
      simp [NetState.isConnected, isState]
    simp only [NetState.accept, existing, front, Point.handler, connected, Except.bind, if_true]
    unfold NetState.getAddrTuple
    split <;> simp [Except.map]

/-- One client, one peer: the handshake is done when the accept coroutine runs. -/
theorem accept_assertions_hold_one_peer :
    ∃ s, Reaches (step mini) (Orderly mini) (init mini) s ∧ s.polling = some ⟨2⟩ ∧
      s.point 2 = .accepting ⟨9⟩ 80 0 ⟨0⟩ ∧
      (∃ en front rest, s.net.listenTable 80 = some en ∧ en.synQueue = front :: rest ∧
        mini.state s.net.sockets front = some .established) ∧
      s.net.accept mini 80 ≠ .error .assertFailed := by
  obtain ⟨s, run, view⟩ := reaches_of_view (step mini) (Orderly mini) (init mini)
    (listenRun ++ [.frame .syn, .frame .ack, .run, .fetch, .run])
    (fun s => (s.polling, s.point 2))
    (v := (some ⟨2⟩, .accepting ⟨9⟩ 80 0 ⟨0⟩)) (by decide +kernel)
  obtain ⟨polls, at_⟩ := Prod.mk.inj view
  exact ⟨s, run, polls, at_, accept_assertions_hold mini_handshake run polls at_⟩

/-- The peer delays the ACK: the coroutine that its SYN woke runs `accept` on a socket that is
still in `SynReceived`, and the assertion fails. -/
theorem accept_assertion_fails :
    mini.Handshake ∧ ∃ s, Reachable (step mini) (init mini) s ∧ s.polling = some ⟨2⟩ ∧
      s.point 2 = .accepting ⟨9⟩ 80 0 ⟨0⟩ ∧
      (∃ en front rest, s.net.listenTable 80 = some en ∧ en.synQueue = front :: rest ∧
        mini.state s.net.sockets front = some .synReceived) ∧
      s.net.accept mini 80 = .error .assertFailed := by
  refine ⟨mini_handshake, ?_⟩
  obtain ⟨s, run, view⟩ := reachable_of_view (step mini) (init mini)
    (listenRun ++ [.frame .syn, .run, .fetch, .run])
    (fun s => (s.polling, s.point 2, s.net.listenTable 80, s.net.sockets))
    (v := (some ⟨2⟩, .accepting ⟨9⟩ 80 0 ⟨0⟩, some ⟨none, [⟨0⟩], [], []⟩,
      [⟨80, .synReceived, some ⟨7, 4000⟩, []⟩])) (by decide +kernel)
  simp only [Prod.mk.injEq] at view
  obtain ⟨polls, at_, table, sockets⟩ := view
  refine ⟨s, run, polls, at_, ⟨_, _, _, table, rfl, ?_⟩, ?_⟩
  · rw [sockets]
    rfl
  · simp only [NetState.accept, table, sockets, NetState.isConnected]
    rfl

end AsyncServer

end RootTask.Net
