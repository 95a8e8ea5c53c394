import RootTask.Net.TcpCalls

/-!
# Calls on their way through the server

Every step of the asynchronous server takes a call from one place to another, drops it, or leaves
it where it is. `run_orders` is about the steps of its coroutines, `step_orders` about all steps.
-/
namespace RootTask.Net

open RootTask.Runtime RootTask.Transition RootTask.Custody

/-- Slices are not taken beyond their end. -/
structure Smoltcp.Bounded {σ F : Type} (stack : Smoltcp σ F) : Prop where
  send_le : ∀ {s t h data n}, stack.sendSlice s h data = .ok (n, t) → n ≤ data.length
  recv_le : ∀ {s t h len bytes}, stack.recvSlice s h len = .ok (bytes, t) → bytes.length ≤ len

namespace AsyncServer

variable {σ F : Type} {stack : Smoltcp σ F} {s t : AsyncServer σ} {self : CoroutineId}
  {good good' : Token → Prop} {mail : CoroutineId → Option IPCItem}

abbrev places (mail : CoroutineId → Option IPCItem) (s : AsyncServer σ) : Place → List Token :=
  tokens s.buffer.reqItems.items s.point s.net.lib.immediateValue s.buffer.resItems.items mail

abbrev Held (good : Token → Prop) (mail : CoroutineId → Option IPCItem) (s : AsyncServer σ) : Prop :=
  Exclusive Token.cid good (s.places mail)

theorem Held.goto (held : s.Held good mail) {p : Point}
    (sub : p.token.toList.Sublist (s.point self.val).token.toList) :
    (s.goto self p).Held good mail := by
  have moved : (s.goto self p).places mail = _ := tokens_point self.val p
  rw [Held, moved]
  exact held.drop sub

/-- A point at which no call is held. -/
theorem Held.leave (held : s.Held good mail) {p : Point} (quiet : p.token = none) :
    (s.goto self p).Held good mail :=
  held.goto (by rw [quiet]; exact List.nil_sublist _)

/-- A coroutine takes over a call that is nowhere else. -/
theorem Held.enter (held : s.Held good mail) {p : Point} {token : Token}
    (holds : p.token = some token) (absent : Absent Token.cid (s.places mail) token.cid)
    (isGood : good token) : (s.goto self p).Held good mail := by
  have moved : (s.goto self p).places mail = _ := tokens_point self.val p
  rw [Held, moved, holds]
  exact held.put absent isGood (List.nil_sublist _)

theorem Iterated.held (iterated : s.Iterated self t) (held : s.Held good mail) :
    t.Held good mail := by
  cases iterated with
  | again e n wakes => exact Held.leave (s := s.setExecutor e) held rfl
  | switched e wakes => exact Held.leave (s := s.setExecutor e) held rfl

theorem places_writeReply {serial : Nat} {reply : IPCItem}
    (returned : s.writeReply serial reply = .ok t) :
    t.places mail = Function.update (s.places mail) .replies
      (s.places mail .replies ++ [.reply reply]) := by
  obtain ⟨items, written, rfl⟩ := writeReply_ok returned
  have moved : tokens s.buffer.reqItems.items s.point s.net.lib.immediateValue items.items mail =
      Function.update (s.places mail) .replies _ := tokens_replies items.items
  rw [(ItemsQueue.writeFreeItem_ok written).2, List.map_append] at moved
  rw [← (ItemsQueue.writeFreeItem_ok written).2] at moved
  exact moved

/-- A reply is written to a call that is nowhere. -/
theorem Held.writeReply (held : s.Held good mail) {serial : Nat} {reply : IPCItem}
    (absent : Absent Token.cid (s.places mail) reply.cid) (isGood : good (.reply reply))
    (returned : s.writeReply serial reply = .ok t) : t.Held good mail := by
  rw [Held, places_writeReply returned]
  exact held.put absent isGood (List.Sublist.refl _)

/-- A coroutine answers the call that it holds. -/
theorem Held.answer (held : s.Held good mail) {token : Token} {serial : Nat} {reply : IPCItem}
    {p : Point} (holds : (s.point self.val).token = some token) (same : reply.cid = token.cid)
    (better : ∀ other, other.cid ≠ token.cid → good other → good' other)
    (isGood : good token → good' (.reply reply)) (returned : s.writeReply serial reply = .ok t)
    (quiet : p.token = none) : (t.goto self p).Held good' mail := by
  have moved : (t.goto self p).places mail =
      Function.update (t.places mail) (.point self.val) p.token.toList := tokens_point self.val p
  have front : s.places mail (.point self.val) = token :: [] := by
    simp only [places, tokens, holds, Option.toList_some]
  have replaced := held.replace (b := .reply reply) (q := .replies) front same better isGood
    (List.Sublist.refl _)
  rw [Function.update_of_ne (by simp)] at replaced
  rw [Held, moved, places_writeReply returned, quiet, Function.update_comm (by simp)]
  exact replaced

theorem Held.pop (held : s.Held good mail) {request : Request} {items : ItemsQueue Request}
    (popped : s.buffer.reqItems.getFirstItem = some (request, items)) :
    { s with buffer := { s.buffer with reqItems := items } }.Held good mail ∧
    ∀ token, request.token = some token → good token ∧
      Absent Token.cid ({ s with buffer := { s.buffer with reqItems := items } }.places mail)
        token.cid := by
  have shape := ItemsQueue.getFirstItem_some popped
  have moved : { s with buffer := { s.buffer with reqItems := items } }.places mail =
      Function.update (s.places mail) .queued _ := tokens_queued items.items
  cases isToken : request.token with
  | none =>
    have same : s.places mail .queued = items.items.filterMap Request.token := by
      simp only [places, tokens, shape, List.filterMap_cons_none isToken]
    rw [Held, moved]
    refine ⟨held.drop (by rw [same]), fun token impossible => ?_⟩
    cases impossible
  | some token =>
    have front : s.places mail .queued = token :: items.items.filterMap Request.token := by
      simp only [places, tokens, shape, List.filterMap_cons_some isToken]
    obtain ⟨left, absent, isGood⟩ := held.take front
    rw [Held, moved]
    refine ⟨left, fun token' same => ?_⟩
    cases same
    exact ⟨isGood, absent⟩

/-- The bytes that `process_req` gives to a socket. -/
theorem processSend_transfer {request : Request} {size : Option Nat}
    (returned : s.processSend stack request = .ok (size, t)) :
    (size = none ∧ s.sendTransfer stack request.item = none ∧
      t = { s with sendsTaken := s.sendsTaken ++ [request] }) ∨
    ∃ n sockets data, size = some n ∧
      data = bytesIn s.memory (MessageDecoder.getBuffer request.item)
        (MessageDecoder.getLen request.item) ∧
      stack.sendSlice s.net.sockets (socketOf request) data = .ok (n, sockets) ∧
      s.sendTransfer stack request.item = some ⟨socketOf request, data.take n⟩ ∧
      t = { s with sendsTaken := s.sendsTaken ++ [request] }.setSockets sockets := by
  unfold processSend at returned
  dsimp only at returned
  split at returned
  · cases returned
  · split at returned
    next can =>
      split at returned
      · split at returned
        next n sockets sent =>
          cases returned
          refine .inr ⟨n, sockets, _, rfl, rfl, sent, ?_, rfl⟩
          simp only [sendTransfer, can, if_true, bytesIn, sent]
        next failed =>
          cases returned
          refine .inl ⟨rfl, ?_, rfl⟩
          simp only [sendTransfer, can, if_true, bytesIn, failed]
      · cases returned
    next cannot =>
      cases returned
      refine .inl ⟨rfl, ?_, rfl⟩
      simp only [sendTransfer, cannot, if_false, Bool.false_eq_true]

/-- The bytes that a socket gives to a request. -/
theorem recvInto_transfer {request : Request}
    (can : stack.canRecv s.net.sockets (socketOf request) = true) :
    (s.recvInto stack request = .error () ∧ s.recvTransfer stack request.item = none) ∨
    ∃ bytes sockets, stack.recvSlice s.net.sockets (socketOf request)
        (min tcpTxBufLen (MessageDecoder.getLen request.item)) = .ok (bytes, sockets) ∧
      s.recvTransfer stack request.item = some ⟨socketOf request, bytes⟩ ∧
      s.recvInto stack request = .ok (bytes.length,
        (s.setSockets sockets).storeBytes (MessageDecoder.getBuffer request.item) bytes) := by
  simp only [recvInto, recvTransfer, can, if_true]
  cases stack.recvSlice s.net.sockets (socketOf request)
      (min tcpTxBufLen (MessageDecoder.getLen request.item)) with
  | error e => exact .inl ⟨rfl, rfl⟩
  | ok received => exact .inr ⟨received.1, received.2, rfl, rfl, rfl⟩

section

variable {calls : CoroutineId → Option TcpCall} {transfers returned : CoroutineId → List Transfer}

/-- The calls on their way are in good order. -/
abbrev Orders (calls : CoroutineId → Option TcpCall)
    (transfers returned : CoroutineId → List Transfer) (mail : CoroutineId → Option IPCItem)
    (s : AsyncServer σ) : Prop :=
  s.Held (Good calls s.memory transfers returned) mail

theorem Iterated.memory (iterated : s.Iterated self t) : t.memory = s.memory := by
  cases iterated <;> rfl

theorem Iterated.orders (iterated : s.Iterated self t)
    (orders : s.Orders calls transfers returned mail) :
    t.Orders calls transfers returned mail := by
  rw [Orders, iterated.memory]
  exact iterated.held orders

/-- After `recv_slice` the reply is in good order, and so is what was before. -/
theorem received_good (bounded : stack.Bounded) (ok : CallsOk calls) {request : Request}
    (good : Good calls s.memory transfers returned (.receiving request.item))
    {bytes : List (BitVec 8)} {sockets : σ}
    (taken : stack.recvSlice s.net.sockets (socketOf request)
      (min tcpTxBufLen (MessageDecoder.getLen request.item)) = .ok (bytes, sockets)) :
    Good calls ((s.setSockets sockets).storeBytes
        (MessageDecoder.getBuffer request.item) bytes).memory
      (note transfers (some (request.item.cid, ⟨socketOf request, bytes⟩))) returned
      (.reply (MessageBuilder.recvReply request.item.cid bytes.length)) ∧
    ∀ other : Token, other.cid ≠ request.item.cid → Good calls s.memory transfers returned other →
      Good calls ((s.setSockets sockets).storeBytes
          (MessageDecoder.getBuffer request.item) bytes).memory
        (note transfers (some (request.item.cid, ⟨socketOf request, bytes⟩))) returned other := by
  have limit : bytes.length ≤ tcpTxBufLen := (bounded.recv_le taken).trans (Nat.min_le_left _ _)
  refine ⟨good.recvReply ok (Nat.lt_of_le_of_lt limit (by decide)) fun i inside => ?_,
    fun other different isGood => good.stored ok different isGood⟩
  simp [storeBytes, setSockets, inside]

/-- `process_req` keeps the calls in good order, with the one it takes. -/
theorem processReq_orders (bounded : stack.Bounded) (ok : CallsOk calls) {request : Request}
    {cnt : Nat} (orders : s.Orders calls transfers returned mail)
    (waiting : ∀ token, request.token = some token → Good calls s.memory transfers returned token ∧
      Absent Token.cid (s.places mail) token.cid)
    (processed : s.processReq stack self cnt request = .ok t) :
    t.Orders calls (note transfers ((s.itemTransfer stack request.item).map fun moved =>
      (request.item.cid, moved))) returned mail := by
  unfold processReq at processed
  obtain ⟨type, isType, processed⟩ := bind_ok.mp processed
  cases type with
  | netPollReq =>
    obtain ⟨lib, woken, processed⟩ := bind_ok.mp processed
    obtain ⟨e, -, rfl⟩ := AsyncState.wake_ok woken
    simp only [itemTransfer, isType, Option.map_none, note]
    exact Iterated.orders (s := s.setExecutor e) (afterItem_ok processed) orders
  | listen =>
    obtain ⟨good, absent⟩ := waiting _ (Request.token_of_type isType (by decide))
    obtain ⟨s₁, listened, processed⟩ := bind_ok.mp processed
    unfold processListen at listened
    obtain ⟨⟨cid, s₂⟩, spawned, rfl⟩ := map_ok.mp listened
    obtain ⟨runtime, -, rfl⟩ := spawn_ok spawned
    simp only [itemTransfer, isType, Option.map_none, note]
    refine (afterItem_ok processed).orders ?_
    exact Held.enter (s := s.setLib { s.net.lib with runtime := runtime })
      (p := .fresh (.tcpAccept request.item.cid (MessageDecoder.getPort request.item)
        request.serial)) orders rfl absent (good.listening_of_request isType)
  | send =>
    obtain ⟨good, absent⟩ := waiting _ (Request.token_of_type isType (by decide))
    obtain ⟨⟨size, s₁⟩, sent, processed⟩ := bind_ok.mp processed
    simp only [itemTransfer, isType]
    rcases processSend_transfer sent with ⟨rfl, nothing, rfl⟩ |
      ⟨n, sockets, data, rfl, isData, sliced, moved, rfl⟩
    · rw [nothing]
      exact Iterated.orders
        (s := { s with sendsTaken := s.sendsTaken ++ [request] }) (afterItem_ok processed) orders
    · cases processed
      rw [moved, Option.map_some]
      have limit := bounded.send_le sliced
      rw [isData, bytesIn, List.length_map, List.length_range] at limit
      -- the call is now with this coroutine
      have others : s.Held (Good calls s.memory (note transfers
          (some (request.item.cid, ⟨socketOf request, data.take n⟩))) returned) mail :=
        orders.imp fun p other here isGood => isGood.noted (absent p other here)
      have now := good.sent ok isType limit
      rw [← isData] at now
      exact Held.enter (s := { s with sendsTaken := s.sendsTaken ++ [request] }.setSockets sockets)
        (p := .reqPolling cnt request n) others rfl absent now
  | recv =>
    obtain ⟨good, absent⟩ := waiting _ (Request.token_of_type isType (by decide))
    obtain ⟨s₁, handled, processed⟩ := bind_ok.mp processed
    refine (afterItem_ok processed).orders ?_
    have receiving := good.receiving_of_request isType
    simp only [itemTransfer, isType]
    unfold processRecv at handled
    dsimp only at handled
    split at handled
    · cases handled
    · split at handled
      next can =>
        rcases recvInto_transfer can with ⟨failed, nothing⟩ | ⟨bytes, sockets, taken, moved, stored⟩
        · rw [failed] at handled
          cases handled
          rw [nothing]
          exact orders
        · rw [stored] at handled
          dsimp only at handled
          rw [moved, Option.map_some]
          obtain ⟨reply, others⟩ := received_good bounded ok receiving taken
          have nowhere : Absent Token.cid (s.places mail)
              (MessageBuilder.recvReply request.item.cid bytes.length).cid := absent
          have memory : s₁.memory = ((s.setSockets sockets).storeBytes
              (MessageDecoder.getBuffer request.item) bytes).memory := by
            obtain ⟨items, -, rfl⟩ := writeReply_ok handled
            rfl
          rw [Orders, memory]
          exact Held.writeReply (s := (s.setSockets sockets).storeBytes
              (MessageDecoder.getBuffer request.item) bytes)
            (orders.imp fun p other here => others other (absent p other here)) nowhere reply handled
      next cannot =>
        have nothing : s.recvTransfer stack request.item = none := by
          simp only [recvTransfer, cannot, if_false, Bool.false_eq_true]
        rw [nothing]
        obtain ⟨cid, e, -, -, rfl⟩ := handOver_ok handled
        have moved : tokens s.buffer.reqItems.items s.point
            (Function.update s.net.lib.immediateValue cid.val (some request))
            s.buffer.resItems.items mail = _ := tokens_slot cid.val (some request)
        have held : Exclusive Token.cid (Good calls s.memory transfers returned)
            (tokens s.buffer.reqItems.items s.point
              (Function.update s.net.lib.immediateValue cid.val (some request))
              s.buffer.resItems.items mail) := by
          rw [moved]
          exact orders.put (a := .receiving request.item) absent receiving (List.nil_sublist _)
        exact held
  | reserve => cases processed
  | listenReply => cases processed
  | sendReply => cases processed
  | recvReply => cases processed

/-- `yield_now` takes a request out of a slot. -/
theorem Held.takeValue (held : s.Held good mail) {value : Option Request}
    {lib : AsyncState Body Request} (taken : s.net.lib.takeValue = .ok (value, lib)) :
    (s.setLib lib).Held good mail ∧ ∀ request, value = some request →
      good (.receiving request.item) ∧
      Absent Token.cid ((s.setLib lib).places mail) request.item.cid := by
  obtain ⟨cid, -, rfl, rfl⟩ := AsyncState.takeValue_ok taken
  have moved : (s.setLib { s.net.lib with
      immediateValue := Function.update s.net.lib.immediateValue cid.val none }).places mail =
      Function.update (s.places mail) (.slot cid.val) [] := tokens_slot cid.val none
  rw [Held, moved]
  refine ⟨held.drop (List.nil_sublist _), fun request stored => ?_⟩
  have front : s.places mail (.slot cid.val) = .receiving request.item :: [] := by
    simp only [places, tokens, stored, Option.map_some, Option.toList_some]
  obtain ⟨-, absent, isGood⟩ := held.take front
  exact ⟨isGood, absent⟩

theorem Held.resume (held : s.Held good mail) {next : Option Request → Point}
    {value : Option Request} {lib : AsyncState Body Request}
    (resumes : Resumes (s.point self.val) next)
    (taken : s.net.lib.takeValue = .ok (value, lib)) :
    ((s.setLib lib).goto self (next value)).Held good mail := by
  obtain ⟨left, stored⟩ := held.takeValue taken
  generalize at_ : s.point self.val = p at resumes
  have here : (s.setLib lib).point self.val = p := at_
  cases resumes with
  | net => exact left.leave rfl
  | req => exact left.leave rfl
  | accept cid port serial handler => exact left.goto (by rw [here]; exact List.Sublist.refl _)
  | busy request => exact left.goto (by rw [here]; exact List.Sublist.refl _)
  | recv =>
    cases value with
    | none => exact left.leave rfl
    | some request =>
      obtain ⟨isGood, absent⟩ := stored request rfl
      exact left.enter (p := .recvLoop (some request)) rfl absent isGood

theorem writeReply_memory {serial : Nat} {reply : IPCItem}
    (returned : s.writeReply serial reply = .ok t) : t.memory = s.memory := by
  obtain ⟨items, -, rfl⟩ := writeReply_ok returned
  rfl

/-- One round of the inner loop of `tcp_recv_coroutine`. -/
theorem recvTry_orders (bounded : stack.Bounded) (ok : CallsOk calls) {request : Request}
    (orders : s.Orders calls transfers returned mail)
    (at_ : s.point self.val = .recvTry request) (ran : s.recvTry stack self request = .ok t) :
    t.Orders calls (note transfers ((s.recvTransfer stack request.item).map fun moved =>
      (request.item.cid, moved))) returned mail := by
  have holds : (s.point self.val).token = some (.receiving request.item) := by
    rw [at_]
    rfl
  unfold recvTry at ran
  dsimp only at ran
  split at ran
  · cases ran
  · split at ran
    next can =>
      rcases recvInto_transfer can with ⟨failed, nothing⟩ | ⟨bytes, sockets, taken, moved, stored⟩
      · rw [failed] at ran
        cases ran
        rw [nothing]
        exact orders.leave rfl
      · rw [stored] at ran
        dsimp only at ran
        obtain ⟨s₁, replied, rfl⟩ := map_ok.mp ran
        rw [moved, Option.map_some]
        have good : Good calls s.memory transfers returned (.receiving request.item) :=
          orders.good (.point self.val) _ (by simp [places, tokens, holds])
        obtain ⟨reply, others⟩ := received_good bounded ok good taken
        rw [Orders, show (s₁.goto self (.recvLoop none)).memory = s₁.memory from rfl,
          writeReply_memory replied]
        have sender : (MessageBuilder.recvReply request.item.cid bytes.length).cid =
            (Token.receiving request.item).cid := rfl
        exact Held.answer (s := (s.setSockets sockets).storeBytes
            (MessageDecoder.getBuffer request.item) bytes) orders holds sender others
          (fun _ => reply) replied rfl
    next cannot =>
      have nothing : s.recvTransfer stack request.item = none := by
        simp only [recvTransfer, cannot, if_false, Bool.false_eq_true]
      rw [nothing]
      obtain ⟨lib, woken, rfl⟩ := map_ok.mp ran
      obtain ⟨e, -, rfl⟩ := AsyncState.wake_ok woken
      -- it keeps the request while it waits
      exact Held.goto (s := s.setExecutor e) (p := .recvBusyYield request) orders
        (by rw [show (s.setExecutor e).point self.val = s.point self.val from rfl, at_]; rfl)

/-- A step of the polled coroutine moves what `transferring` says and keeps the calls in good
order. -/
theorem run_orders (bounded : stack.Bounded) (ok : CallsOk calls)
    (orders : s.Orders calls transfers returned mail) (ran : s.run stack self = .ok t) :
    t.Orders calls (note transfers (s.transferring stack self)) returned mail := by
  by_cases loops : ∃ cnt, s.point self.val = .reqLoop cnt
  · obtain ⟨cnt, at_⟩ := loops
    simp only [run, at_] at ran
    simp only [transferring, at_]
    unfold recvReq at ran
    split at ran
    next request items popped =>
      obtain ⟨left, waiting⟩ := Held.pop orders popped
      rw [popped]
      exact processReq_orders (s := { s with buffer := { s.buffer with reqItems := items } })
        bounded ok left waiting ran
    next empty =>
      cases ran
      rw [empty]
      exact Held.leave (s := { s with buffer := { s.buffer with recvReqStatus := false } }) orders rfl
  by_cases tries : ∃ request, s.point self.val = .recvTry request
  · obtain ⟨request, at_⟩ := tries
    simp only [run, at_] at ran
    simp only [transferring, at_]
    exact recvTry_orders bounded ok orders at_ ran
  have nothing : s.transferring stack self = none := by
    unfold transferring
    split
    next cnt at_ => exact absurd ⟨cnt, at_⟩ loops
    next request at_ => exact absurd ⟨request, at_⟩ tries
    · rfl
  rw [nothing]
  cases run_ok stack ran with
  | jump p jumps =>
    generalize at_ : s.point self.val = point at jumps
    cases jumps with
    | netPoll => exact orders.leave rfl
    | nwRecvReq => exact orders.leave rfl
    | serve request => exact orders.goto (by rw [at_]; exact List.Sublist.refl _)
  | resume next value lib resumes taken => exact Held.resume orders resumes taken
  | endPoll at_ => exact Held.leave (s := s.endPoll stack) orders rfl
  | noItem cnt at_ empty => exact absurd ⟨cnt, at_⟩ loops
  | handle cnt request items s₁ t at_ popped handled iterated => exact absurd ⟨cnt, at_⟩ loops
  | send cnt size request items sockets t at_ popped sending => exact absurd ⟨cnt, at_⟩ loops
  | sendReply cnt size request s₁ t at_ replied iterated =>
    have holds : ((s.endPoll stack).point self.val).token = some (.sent request.item.cid size) := by
      rw [show (s.endPoll stack).point self.val = s.point self.val from rfl, at_]
      rfl
    have sender : (MessageBuilder.sendReply request.item.cid size).cid =
        (Token.sent request.item.cid size).cid := rfl
    rw [Orders, iterated.memory, writeReply_memory replied]
    cases iterated with
    | again e n wakes =>
      exact Held.answer (s := s.endPoll stack) (t := s₁) (p := .reqLoop n) orders holds sender
        (fun _ _ good => good) Good.sendReply replied rfl
    | switched e wakes =>
      exact Held.answer (s := s.endPoll stack) (t := s₁) (p := .reqYield) orders holds sender
        (fun _ _ good => good) Good.sendReply replied rfl
  | listen cid port serial handler sockets table at_ opened registered =>
    refine Held.goto (s := { s with net := { s.net with sockets := sockets, listenTable := table } })
      (p := .acceptYield cid port serial handler) orders ?_
    rw [at_]
    exact List.Sublist.refl _
  | accept cid port serial handler handle tuple net s₁ at_ accepted replied =>
    obtain ⟨en, rest, -, -, -, isNet⟩ := NetState.accept_ok stack accepted
    have before : { s with net := net }.Orders calls transfers returned mail := by
      subst isNet
      exact orders
    have holds : ({ s with net := net }.point self.val).token = some (.listening cid) := by
      dsimp only
      rw [at_]
      rfl
    have sender : (MessageBuilder.listenReply cid handle).cid = (Token.listening cid).cid := rfl
    have held := Held.answer (p := .recvLoop none) before holds sender (fun _ _ good => good)
      (Good.listenReply handle) replied rfl
    rw [← writeReply_memory replied] at held
    exact held
  | wait at_ => exact orders.leave rfl
  | recvReply request size s₁ s₂ at_ received replied => exact absurd ⟨request, at_⟩ tries
  | recvFailed request at_ can failed => exact absurd ⟨request, at_⟩ tries
  | recvBusy request e at_ woken => exact absurd ⟨request, at_⟩ tries

theorem step_orders (bounded : stack.Bounded) (ok : CallsOk calls)
    (orders : s.Orders calls transfers returned mail) {a : AsyncAction F}
    (ofServer : a.ofServer = true) (moved : s.step stack a = some t) :
    t.Orders calls (note transfers (s.moving stack a)) returned mail := by
  by_cases runs : a = .run
  · subst runs
    obtain ⟨self, polls, moved⟩ := Option.bind_eq_some_iff.mp moved
    simp only [moving, polls, Option.bind_some]
    exact run_orders bounded ok orders ((toOption_eq_some _ _).mp moved)
  cases step_moved stack moved with
  | run self t polls ran => exact absurd rfl runs
  | boot t booted =>
    cases booted with
    | intro poller cid runtime runtime' allocator first second =>
      have spawned : ((s.setLib { s.net.lib with
          runtime := runtime'
          uintVecAllocator := allocator
          wakeMap := Function.update s.net.lib.wakeMap 0 (some cid) }).goto poller
            (.fresh .netPoll)).Held (Good calls s.memory transfers returned) mail :=
        Held.leave (s := s.setLib _) orders rfl
      exact Held.leave (p := .fresh .nwRecvReq) spawned rfl
  | fetch task e idle fetched => exact orders
  | frame f self net polls inPoll received =>
    obtain ⟨m, snooped, rfl⟩ := NetState.receive_ok stack received
    have slots : m.lib.immediateValue = s.net.lib.immediateValue := by
      rcases snooped.lib with same | ⟨cid, e, -, same⟩
      · rw [same]
      · rw [same]
        rfl
    have held : Exclusive Token.cid (Good calls s.memory transfers returned)
        (tokens s.buffer.reqItems.items s.point m.lib.immediateValue s.buffer.resItems.items mail) := by
      rw [slots]
      exact orders
    exact held
  | interrupt vec cid e known delayed => exact orders
  | submit item items written => cases ofServer
  | tookReply reply items popped => cases ofServer
  | noReply empty => cases ofServer
  | store buffer bytes => cases ofServer

/-- Nothing has been moved for a call before the server moves something for it. -/
theorem moving_even (orders : s.Orders calls transfers returned mail) {a : AsyncAction F}
    {cid : CoroutineId} {moved : Transfer} (moves : s.moving stack a = some (cid, moved)) :
    transfers cid = returned cid ∧ calls cid ≠ none := by
  cases a with
  | run =>
    obtain ⟨self, polls, moves⟩ := Option.bind_eq_some_iff.mp moves
    unfold transferring at moves
    split at moves
    next cnt at_ =>
      obtain ⟨⟨request, items⟩, popped, moves⟩ := Option.bind_eq_some_iff.mp moves
      obtain ⟨taken, isTransfer, same⟩ := Option.map_eq_some_iff.mp moves
      obtain ⟨rfl, rfl⟩ := Prod.mk.inj same
      have token : request.token = some (.request request.item) := by
        unfold Request.token
        split
        next isPoll => simp [itemTransfer, isPoll] at isTransfer
        · rfl
      obtain ⟨call, calling, -, even⟩ := ((Held.pop orders popped).2 _ token).1
      exact ⟨even, by simp [calling]⟩
    next request at_ =>
      obtain ⟨taken, -, same⟩ := Option.map_eq_some_iff.mp moves
      obtain ⟨rfl, rfl⟩ := Prod.mk.inj same
      have here : Token.receiving request.item ∈ s.places mail (.point self.val) := by
        simp [places, tokens, at_, Point.token, Point.serving]
      obtain ⟨h, b, len, calling, -, even⟩ := orders.good _ _ here
      exact ⟨even, by simp [calling]⟩
    · cases moves
  | _ => cases moves

end

end AsyncServer

end RootTask.Net
