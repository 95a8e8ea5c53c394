import RootTask.Net.CallOrder

/-!
# Calls return

What the client thread does keeps the calls in order as well: a coroutine starts a call when it
has none, gets its reply through its mailbox and returns.

## Main results

`calls_return`: the assertions hold, whatever the server and the other coroutines do.
`bytes_arrive`: a coroutine finds in its buffers what was moved for its calls, once and in order.
-/
namespace RootTask.Net

open RootTask.Runtime RootTask.Transition RootTask.Custody

namespace TcpClients

variable {σ F : Type} {stack : Smoltcp σ F} {senderMap : Nat → Bool} {s t : TcpClients σ}
  {cid : CoroutineId} {call : TcpCall}

theorem elim_ok {found : Option Nat} {id : Nat} {p : Panic} :
    found.elim (.error p) .ok = (.ok id : Except Panic Nat) ↔ found = some id := by
  cases found <;> simp

theorem mem_pending (calling : s.calls cid = some call) : (cid, call) ∈ s.pending := by
  obtain ⟨⟨c, call'⟩, found, rfl⟩ := Option.map_eq_some_iff.mp calling
  have same : c = cid := by simpa using List.find?_some found
  subst same
  exact List.mem_of_find?_eq_some found

theorem calls_begin (server : AsyncServer σ) :
    { s with server := server, pending := (cid, call) :: s.pending }.calls =
      Function.update s.calls cid (some call) := by
  funext c
  by_cases here : c = cid
  · subst here
    simp [calls]
  · have different : (cid == c) = false := by simpa using Ne.symm here
    simp [calls, different, here]

theorem calls_finish :
    { s with pending := s.pending.filter (·.1 != cid) }.calls = Function.update s.calls cid none := by
  funext c
  simp only [calls, List.find?_filter]
  by_cases here : c = cid
  · subst here
    simp
  · rw [Function.update_of_ne here, calls]
    congr 2
    funext p
    by_cases mine : p.1 = c
    · subst mine
      simp [here]
    · simp [mine]

/-- The calls on their way are in good order; who is queued has mail; at most the last call of a
coroutine has been served without having returned. -/
structure Inv (senderMap : Nat → Bool) (s : TcpClients σ) : Prop where
  orders : s.server.Orders s.calls s.transfers s.returned s.immediateValue
  calls : CallsOk s.calls
  bound : ∀ c call, s.calls c = some call → c.val < maxTaskNum
  listens : ∀ c port sender, s.calls c = some (.listen port sender) → senderMap sender = true
  known : ∀ h sender, s.netStackMap h = some sender → senderMap sender = true ∧ h.index < 2 ^ 16
  mail : ∀ c item, s.immediateValue c = some item → item.cid = c
  queued : ∀ c ∈ s.ready, s.immediateValue c ≠ none
  once : s.ready.Nodup
  logs : ∀ c, ∃ rest, s.transfers c = s.returned c ++ rest ∧ rest.length ≤ 1 ∧
    (s.calls c = none → rest = [])

theorem inv_init : (init stack).Inv senderMap := by
  have idle : ∀ c, (init stack).calls c = none := fun _ => rfl
  constructor
  case orders =>
    have nothing : ∀ p, (init stack).server.places (init stack).immediateValue p = [] := by
      intro p
      cases p <;> rfl
    exact .of_empty nothing
  case calls => constructor <;> intro c <;> simp [idle]
  case bound => simp [idle]
  case listens => simp [idle]
  case logs => exact fun c => ⟨[], rfl, Nat.zero_le _, fun _ => rfl⟩
  all_goals simp [init]

theorem Inv.server (bounded : stack.Bounded) (inv : s.Inv senderMap) {a : AsyncAction F}
    {server : AsyncServer σ} (ofServer : a.ofServer = true)
    (moved : s.server.step stack a = some server) :
    { s with server := server, transfers := note s.transfers (s.server.moving stack a) }.Inv
      senderMap := by
  refine ⟨AsyncServer.step_orders bounded inv.calls inv.orders ofServer moved, inv.calls, inv.bound,
    inv.listens, inv.known, inv.mail, inv.queued, inv.once, fun c => ?_⟩
  cases moves : s.server.moving stack a with
  | none => exact inv.logs c
  | some transfer =>
    obtain ⟨d, transfer⟩ := transfer
    obtain ⟨even, busy⟩ := AsyncServer.moving_even inv.orders moves
    by_cases here : c = d
    · subst here
      refine ⟨[transfer], ?_, Nat.le_refl _, fun idle => absurd idle busy⟩
      simp only [note, Function.update_self, even]
    · simp only [note, Function.update_of_ne here]
      exact inv.logs c

/-- An item is appended to the requests. -/
theorem places_submit {server server' : AsyncServer σ} {item : IPCItem}
    (mail : CoroutineId → Option IPCItem) (submitted : server.submit item = .ok server') :
    server'.memory = server.memory ∧
    server'.places mail = Function.update (server.places mail) .queued
      (server.places mail .queued ++ (Request.token ⟨server.submitted, item⟩).toList) := by
  obtain ⟨items, written, rfl⟩ := map_ok.mp submitted
  have grown := (ItemsQueue.writeFreeItem_ok written).2
  have moved : tokens items.items server.point server.net.lib.immediateValue
      server.buffer.resItems.items mail = Function.update (server.places mail) .queued _ :=
    tokens_queued items.items
  refine ⟨rfl, moved.trans ?_⟩
  rw [grown, List.filterMap_append]
  cases token : Request.token ⟨server.submitted, item⟩ with
  | none => rw [List.filterMap_cons_none token]; rfl
  | some token => rw [List.filterMap_cons_some (by assumption)]; rfl

theorem Inv.pollRequest (inv : s.Inv senderMap) {server : AsyncServer σ}
    (submitted : s.server.submit (IPCItem.ofMsg cid MessageType.netPollReq.toBits) = .ok server) :
    { s with server := server }.Inv senderMap := by
  refine ⟨?_, inv.calls, inv.bound, inv.listens, inv.known, inv.mail, inv.queued, inv.once, inv.logs⟩
  obtain ⟨memory, places⟩ := places_submit s.immediateValue submitted
  rw [Request.token_of_poll (MessageDecoder.getType_of_msgInfo rfl), Option.toList_none,
    List.append_nil] at places
  simp only [AsyncServer.Orders, AsyncServer.Held, memory, places]
  exact inv.orders.drop (List.Sublist.refl _)

theorem Inv.begun (inv : s.Inv senderMap) (bound : cid.val < maxTaskNum)
    (idle : s.calls cid = none) (borrows : ∀ p ∈ s.pending, call.Compatible p.2)
    (started : s.begin senderMap cid call = .ok (some t)) : t.Inv senderMap := by
  unfold begin at started
  obtain ⟨sender, isSender, started⟩ := bind_ok.mp started
  split at started
  next registered =>
    split at started
    next server submitted =>
      cases started
      have calls : TcpClients.calls { s with server := server, pending := (cid, call) :: s.pending } =
          _ := calls_begin server
      obtain ⟨memory, places⟩ := places_submit s.immediateValue submitted
      have even : s.transfers cid = s.returned cid := by
        obtain ⟨rest, logs, -, nothing⟩ := inv.logs cid
        rw [logs, nothing idle, List.append_nil]
      constructor
      case orders =>
        simp only [AsyncServer.Orders, AsyncServer.Held, memory, calls, places]
        have type := call.getType_message cid
        rw [Request.token_of_type type (by cases call <;> simp)]
        -- the calls on their way are those of others
        have others : ∀ p, ∀ token ∈ s.server.places s.immediateValue p, token.cid ≠ cid := by
          intro p token here same
          obtain ⟨other, calling⟩ := (inv.orders.good p token here).calling
          rw [same, idle] at calling
          cases calling
        have kept := inv.orders.imp fun p token here good => good.congr
          (Function.update_of_ne (others p token here) (some call) s.calls) rfl rfl
          fun _ _ _ _ => rfl
        have mine : Good (Function.update s.calls cid (some call)) s.server.memory s.transfers
            s.returned (.request (call.message cid)) := by
          have sender : (call.message cid).cid = cid := call.message_cid cid
          refine ⟨call, ?_, ?_, ?_⟩
          · rw [sender, Function.update_self]
          · rw [sender]
          · rw [sender, even]
        exact kept.put (fun p token here => (others p token here).trans_eq (call.message_cid cid).symm)
          mine (List.Sublist.refl _)
      case calls =>
        rw [calls]
        constructor
        case small =>
          intro c other h calling isHandler
          by_cases here : c = cid
          · subst here
            obtain rfl : call = other := by simpa using calling
            -- the handle was looked up
            have known : s.netStackMap h = some sender := by
              cases call with
              | listen port id => cases isHandler
              | send h' b len =>
                cases isHandler
                exact elim_ok.mp isSender
              | recv h' b len =>
                cases isHandler
                exact elim_ok.mp isSender
            exact (inv.known h sender known).2
          · rw [Function.update_of_ne here] at calling
            exact inv.calls.small c other h calling isHandler
        case apart =>
          intro c d one two different first second
          by_cases here : c = cid
          · subst here
            rw [Function.update_of_ne (Ne.symm different)] at second
            obtain rfl : call = one := by simpa using first
            exact borrows _ (mem_pending second)
          · rw [Function.update_of_ne here] at first
            by_cases there : d = cid
            · subst there
              obtain rfl : call = two := by simpa using second
              exact (borrows _ (mem_pending first)).symm
            · rw [Function.update_of_ne there] at second
              exact inv.calls.apart c d one two different first second
      case bound =>
        intro c other calling
        rw [calls] at calling
        by_cases here : c = cid
        · subst here
          exact bound
        · rw [Function.update_of_ne here] at calling
          exact inv.bound c other calling
      case listens =>
        intro c port id calling
        rw [calls] at calling
        by_cases here : c = cid
        · subst here
          obtain rfl : call = .listen port id := by simpa using calling
          obtain rfl : id = sender := by simpa [senderOf] using isSender
          exact registered
        · rw [Function.update_of_ne here] at calling
          exact inv.listens c port id calling
      case logs =>
        intro c
        rw [calls]
        by_cases here : c = cid
        · subst here
          refine ⟨[], by simpa using even, Nat.zero_le _, fun _ => rfl⟩
        · rw [Function.update_of_ne here]
          exact inv.logs c
      case known => exact inv.known
      case mail => exact inv.mail
      case queued => exact inv.queued
      case once => exact inv.once
    · cases started
  · cases started

theorem places_takeReply {server : AsyncServer σ} (mail : CoroutineId → Option IPCItem)
    {reply : Request} {items : ItemsQueue Request}
    (popped : server.buffer.resItems.getFirstItem = some (reply, items)) :
    server.takeReply.places mail = Function.update (server.places mail) .replies
        (items.items.map fun reply => .reply reply.item) ∧
      server.places mail .replies =
        .reply reply.item :: items.items.map fun reply => .reply reply.item := by
  have shape := ItemsQueue.getFirstItem_some popped
  constructor
  · have taken : server.takeReply = { server with
        buffer := { server.buffer with resItems := items } } := by
      unfold AsyncServer.takeReply
      rw [popped]
    rw [taken]
    exact tokens_replies items.items
  · simp only [AsyncServer.places, tokens, shape, List.map_cons]

theorem takeReply_memory (server : AsyncServer σ) : server.takeReply.memory = server.memory := by
  unfold AsyncServer.takeReply
  split <;> rfl

/-- The reply at the front is for a coroutine that waits for it and has no mail yet. -/
theorem Inv.front (inv : s.Inv senderMap) {reply : Request} {items : ItemsQueue Request}
    (popped : s.server.buffer.resItems.getFirstItem = some (reply, items)) :
    reply.item.cid.val < maxTaskNum ∧ s.immediateValue reply.item.cid = none := by
  obtain ⟨-, front⟩ := places_takeReply s.immediateValue popped
  have here : Token.reply reply.item ∈ s.server.places s.immediateValue .replies := by
    rw [front]
    exact List.mem_cons_self
  obtain ⟨call, calling⟩ := (inv.orders.good _ _ here).calling
  refine ⟨inv.bound _ call calling, ?_⟩
  cases stored : s.immediateValue reply.item.cid with
  | none => rfl
  | some item =>
    have there : Token.reply item ∈ s.server.places s.immediateValue (.mailbox reply.item.cid) := by
      simp [AsyncServer.places, tokens, stored]
    have same := inv.orders.apart _ _ _ here _ there (inv.mail _ item stored).symm
    cases same

theorem Inv.deliver (inv : s.Inv senderMap) (delivered : s.deliver = .ok t) : t.Inv senderMap := by
  unfold TcpClients.deliver at delivered
  dsimp only at delivered
  split at delivered
  next reply items popped =>
    obtain ⟨bound, empty⟩ := inv.front popped
    rw [if_pos bound] at delivered
    cases delivered
    obtain ⟨taken, front⟩ := places_takeReply s.immediateValue popped
    have unqueued : reply.item.cid ∉ s.ready := fun queued => inv.queued _ queued empty
    refine ⟨?_, inv.calls, inv.bound, inv.listens, inv.known, ?_, ?_, ?_, inv.logs⟩
    · obtain ⟨left, absent, good⟩ := inv.orders.take front
      have moved : s.server.takeReply.places
          (Function.update s.immediateValue reply.item.cid (some reply.item)) =
          Function.update (s.server.takeReply.places s.immediateValue)
            (.mailbox reply.item.cid) [.reply reply.item] := tokens_mailbox _ (some reply.item)
      simp only [AsyncServer.Orders, AsyncServer.Held, takeReply_memory, moved, taken]
      exact left.put (a := .reply reply.item) absent good (List.nil_sublist _)
    · intro c item stored
      by_cases here : c = reply.item.cid
      · subst here
        obtain rfl : reply.item = item := by simpa using stored
        rfl
      · exact inv.mail c item (by simpa [here] using stored)
    · intro c queued
      by_cases here : c = reply.item.cid
      · simp [here]
      · have old : c ∈ s.ready := by simpa [here] using queued
        simpa [here] using inv.queued c old
    · rw [List.nodup_append]
      refine ⟨inv.once, List.nodup_singleton _, ?_⟩
      rintro c old d new rfl
      exact unqueued (by simpa using (List.mem_singleton.mp new) ▸ old)
  next empty =>
    cases delivered
    refine ⟨?_, inv.calls, inv.bound, inv.listens, inv.known, inv.mail, inv.queued, inv.once, inv.logs⟩
    have taken : s.server.takeReply = { s.server with
        buffer := { s.server.buffer with recvReplyStatus := false } } := by
      unfold AsyncServer.takeReply
      rw [empty]
    rw [taken]
    exact inv.orders

/-- The state in which a call has returned. -/
def finished (s : TcpClients σ) (cid : CoroutineId) (call : TcpCall) (reply : IPCItem) :
    TcpClients σ where
  server := s.server
  pending := s.pending.filter (·.1 != cid)
  immediateValue := Function.update s.immediateValue cid none
  ready := s.ready.erase cid
  netStackMap := match call with
    | .listen _ nwSenderId =>
      Function.update s.netStackMap (MessageDecoder.getSocketHandler reply) (some nwSenderId)
    | _ => s.netStackMap
  transfers := s.transfers
  returned := Function.update s.returned cid
    (s.returned cid ++ call.moved s.server.memory (MessageDecoder.getLen reply))

/-- What a call returns when it gets a reply. -/
def resultOf (reply : IPCItem) : TcpCall → TcpResult
  | .listen _ _ => .handler (MessageDecoder.getSocketHandler reply)
  | _ => .size (MessageDecoder.getLen reply)

/-- A queued coroutine has the reply to its call: the assertion holds and the call returns. -/
theorem Inv.finishes (inv : s.Inv senderMap) (queued : cid ∈ s.ready) :
    ∃ call reply, s.calls cid = some call ∧ s.immediateValue cid = some reply ∧
      MessageDecoder.getType reply = .ok call.replyType ∧
      s.finish cid call = .ok (some (resultOf reply call), s.finished cid call reply) ∧
      s.transfers cid =
        s.returned cid ++ call.moved s.server.memory (MessageDecoder.getLen reply) := by
  obtain ⟨reply, stored⟩ := Option.ne_none_iff_exists'.mp (inv.queued cid queued)
  have here : Token.reply reply ∈ s.server.places s.immediateValue (.mailbox cid) := by
    simp [AsyncServer.places, tokens, stored]
  obtain ⟨call, calling, type, ahead⟩ := inv.orders.good _ _ here
  rw [inv.mail cid reply stored] at calling ahead
  have isType := MessageDecoder.getType_of_msgInfo type
  refine ⟨call, reply, calling, stored, isType, ?_, ahead⟩
  simp only [finish, stored, isType, Except.bind, if_true]
  cases call <;> rfl

theorem Inv.finished (inv : s.Inv senderMap) {reply : IPCItem} (calling : s.calls cid = some call)
    (stored : s.immediateValue cid = some reply)
    (ahead : s.transfers cid =
      s.returned cid ++ call.moved s.server.memory (MessageDecoder.getLen reply)) :
    (s.finished cid call reply).Inv senderMap := by
  have calls : (s.finished cid call reply).calls = Function.update s.calls cid none := calls_finish
  have still : ∀ c other, (s.finished cid call reply).calls c = some other →
      c ≠ cid ∧ s.calls c = some other := by
    intro c other still
    rw [calls] at still
    by_cases here : c = cid
    · simp [here] at still
    · rw [Function.update_of_ne here] at still
      exact ⟨here, still⟩
  constructor
  case orders =>
    have front : s.server.places s.immediateValue (.mailbox cid) = .reply reply :: [] := by
      simp [AsyncServer.places, tokens, stored]
    obtain ⟨left, absent, -⟩ := inv.orders.take front
    have moved : s.server.places (Function.update s.immediateValue cid none) =
        Function.update (s.server.places s.immediateValue) (.mailbox cid) [] :=
      tokens_mailbox cid none
    rw [show (Token.reply reply).cid = cid from inv.mail cid reply stored] at absent
    rw [AsyncServer.Orders, AsyncServer.Held, calls]
    -- the other calls are not touched
    have others := left.imp fun p token here good => good.congr
      (Function.update_of_ne (absent p token here) none s.calls) rfl
      (Function.update_of_ne (absent p token here) (s.returned cid ++
        call.moved s.server.memory (MessageDecoder.getLen reply)) s.returned) fun _ _ _ _ => rfl
    rw [← moved] at others
    exact others
  case calls =>
    constructor
    case small => exact fun c other h isCall => inv.calls.small c other h (still c other isCall).2
    case apart =>
      exact fun c d one two different first second => inv.calls.apart c d one two different
        (still c one first).2 (still d two second).2
  case bound => exact fun c other isCall => inv.bound c other (still c other isCall).2
  case listens => exact fun c port sender isCall => inv.listens c port sender (still c _ isCall).2
  case known =>
    intro h sender found
    cases call with
    | listen port id =>
      by_cases here : h = MessageDecoder.getSocketHandler reply
      · subst here
        obtain rfl : id = sender := by simpa [TcpClients.finished] using found
        exact ⟨inv.listens cid port id calling, BitVec.isLt _⟩
      · exact inv.known h sender (by simpa [TcpClients.finished, here] using found)
    | send h' b len => exact inv.known h sender found
    | recv h' b len => exact inv.known h sender found
  case mail =>
    intro c item waits
    by_cases here : c = cid
    · simp [TcpClients.finished, here] at waits
    · exact inv.mail c item (by simpa [TcpClients.finished, here] using waits)
  case queued =>
    intro c queued
    have different : c ≠ cid := by
      rintro rfl
      exact inv.once.not_mem_erase queued
    simpa [TcpClients.finished, different] using inv.queued c (List.mem_of_mem_erase queued)
  case once => exact inv.once.erase cid
  case logs =>
    intro c
    rw [calls]
    by_cases here : c = cid
    · subst here
      refine ⟨[], ?_, Nat.zero_le _, fun _ => rfl⟩
      simpa [TcpClients.finished] using ahead
    · simpa [TcpClients.finished, here] using inv.logs c

theorem Inv.store (inv : s.Inv senderMap) {buffer : BufferPtr} (bytes : List (BitVec 8))
    (free : ∀ p ∈ s.pending, p.2.buffer ≠ some buffer) :
    { s with server := s.server.storeBytes buffer bytes }.Inv senderMap := by
  refine ⟨?_, inv.calls, inv.bound, inv.listens, inv.known, inv.mail, inv.queued, inv.once, inv.logs⟩
  refine inv.orders.imp fun p token here good => good.congr rfl rfl rfl fun other b calling uses => ?_
  have elsewhere : b ≠ buffer := by
    rintro rfl
    exact free _ (mem_pending calling) uses
  exact Function.update_of_ne elsewhere _ _

theorem step_inv (bounded : stack.Bounded) (inv : s.Inv senderMap) {a : ClientAction F}
    (moved : s.step stack senderMap a = some t) : t.Inv senderMap := by
  cases a with
  | server a =>
    simp only [step] at moved
    split at moved
    next ofServer =>
      obtain ⟨server, acted, rfl⟩ := Option.map_eq_some_iff.mp moved
      exact inv.server bounded ofServer acted
    · cases moved
  | pollRequest cid =>
    obtain ⟨server, submitted, rfl⟩ := Option.map_eq_some_iff.mp moved
    exact inv.pollRequest ((toOption_eq_some _ _).mp submitted)
  | call cid call =>
    simp only [step] at moved
    split at moved
    next allowed =>
      obtain ⟨started, begun, rfl⟩ := Option.map_eq_some_iff.mp moved
      cases started with
      | none => exact inv
      | some t =>
        exact inv.begun allowed.1 allowed.2.1 allowed.2.2 ((toOption_eq_some _ _).mp begun)
    · cases moved
  | deliver => exact inv.deliver ((toOption_eq_some _ _).mp moved)
  | resume cid =>
    simp only [step] at moved
    split at moved
    next queued =>
      obtain ⟨call, reply, calling, stored, -, returns, ahead⟩ := inv.finishes queued
      simp only [calling, Option.bind_some, returns, Except.toOption, Option.map_some,
        Option.some.injEq] at moved
      subst moved
      exact inv.finished calling stored ahead
    · cases moved
  | store buffer bytes =>
    simp only [step] at moved
    split at moved
    next free =>
      cases moved
      exact inv.store bytes free
    · cases moved

theorem reachable_inv (bounded : stack.Bounded)
    (run : Reachable (step stack senderMap) (init stack) s) : s.Inv senderMap :=
  run.invariant (Inv senderMap) inv_init fun _ _ _ inv _ moved => step_inv bounded inv moved

/-- Whatever server, network, kernel and the other coroutines do: every coroutine that is polled
in a call of the socket API has a reply of the asserted type, so the call returns `Ok`, and what
`listen` returns is in `NET_STACK_MAP` from then on; the receiver of replies indexes no mailbox out
of bounds; a handle in `NET_STACK_MAP` leads to a registered buffer. -/
theorem calls_return (bounded : stack.Bounded) (s : TcpClients σ)
    (run : Reachable (step stack senderMap) (init stack) s) :
    (∀ cid ∈ s.ready, ∃ call reply result t, s.calls cid = some call ∧
      s.immediateValue cid = some reply ∧ MessageDecoder.getType reply = .ok call.replyType ∧
      s.finish cid call = .ok (some result, t) ∧
      ∀ h, result = .handler h → ∃ sender, t.netStackMap h = some sender) ∧
    (∃ t, s.deliver = .ok t) ∧
    ∀ call h sender, call.handler = some h → s.netStackMap h = some sender →
      s.senderOf call = .ok sender ∧ senderMap sender = true := by
  have inv := reachable_inv bounded run
  refine ⟨fun cid queued => ?_, ?_, fun call h sender isHandler found => ?_⟩
  · obtain ⟨call, reply, calling, stored, isType, returns, -⟩ := inv.finishes queued
    refine ⟨call, reply, _, _, calling, stored, isType, returns, fun h isHandler => ?_⟩
    cases call with
    | listen port sender =>
      cases isHandler
      exact ⟨sender, Function.update_self _ _ _⟩
    | send h' b len => cases isHandler
    | recv h' b len => cases isHandler
  · unfold TcpClients.deliver
    dsimp only
    split
    next reply items popped =>
      rw [if_pos (inv.front popped).1]
      exact ⟨_, rfl⟩
    · exact ⟨_, rfl⟩
  · refine ⟨?_, (inv.known h sender found).1⟩
    cases call with
    | listen port id => cases isHandler
    | send h' b len => cases isHandler; exact elim_ok.mpr found
    | recv h' b len => cases isHandler; exact elim_ok.mpr found

/-- A coroutine finds in its buffers what `send_slice` and `recv_slice` moved for its calls, all of
it, once and in order: at most the last call has been served without having returned, and when it
returns with a size, the bytes that were moved for it are the first ones of its buffer, and were
moved from or to the socket that it named. -/
theorem bytes_arrive (bounded : stack.Bounded) (s : TcpClients σ)
    (run : Reachable (step stack senderMap) (init stack) s) (cid : CoroutineId) :
    (∃ rest, s.transfers cid = s.returned cid ++ rest ∧ rest.length ≤ 1 ∧
      (s.calls cid = none → rest = [])) ∧
    ∀ call h buffer size t, cid ∈ s.ready → s.calls cid = some call → call.handler = some h →
      call.buffer = some buffer → s.finish cid call = .ok (some (.size size), t) →
      s.transfers cid = s.returned cid ++ [⟨h, bytesIn s.server.memory buffer size⟩] ∧
        t.returned cid = s.transfers cid := by
  have inv := reachable_inv bounded run
  refine ⟨inv.logs cid, fun call h buffer size t queued calling isHandler isBuffer returns => ?_⟩
  obtain ⟨call', reply, calling', -, -, returns', ahead⟩ := inv.finishes queued
  obtain rfl : call = call' := Option.some.inj (calling.symm.trans calling')
  obtain ⟨sized, rfl⟩ := Prod.mk.inj (Except.ok.inj (returns.symm.trans returns'))
  refine ⟨?_, (Function.update_self _ _ _).trans ahead.symm⟩
  cases call with
  | listen port sender => cases isHandler
  | send h' b len =>
    cases isHandler
    cases isBuffer
    cases sized
    exact ahead
  | recv h' b len =>
    cases isHandler
    cases isBuffer
    cases sized
    exact ahead

/-! ### A sample run -/

def serverRun (actions : List (AsyncAction MiniFrame)) : List (ClientAction MiniFrame) :=
  actions.map .server

/-- A client listens, a peer connects and sends three bytes, and the reply is delivered. -/
def sampleRun : List (ClientAction MiniFrame) :=
  .server .boot :: .call ⟨9⟩ (.listen 80 1) ::
    (serverRun [.fetch, .run, .run, .fetch, .run, .run, .run, .fetch, .run] ++
    .pollRequest ⟨0⟩ ::
    (serverRun [.interrupt 0, .fetch, .run, .run, .run, .fetch, .run, .frame .syn, .frame .ack,
      .frame (.data [1, 2, 3]), .run, .fetch, .run, .run, .run] ++ [.deliver]))

theorem mini_bounded : mini.Bounded where
  send_le {s t h data n} sent := by
    simp only [mini] at sent
    split at sent
    · cases sent
      exact Nat.le_refl _
    · cases sent
  recv_le {s t h len bytes} received := by
    simp only [mini] at received
    split at received
    · cases received
    · cases received
      exact List.length_take_le _ _

/-- The Listen of the sample run is about to return. -/
theorem calls_return_listening :
    ∃ s : TcpClients (List MiniSocket), Reachable (step mini (· == 1)) (init mini) s ∧
      s.calls ⟨9⟩ = some (.listen 80 1) ∧
      ∃ result t, s.finish ⟨9⟩ (.listen 80 1) = .ok (some result, t) := by
  obtain ⟨s, run, view⟩ := reachable_of_view (step mini (· == 1)) (init mini) sampleRun
    (fun s => (s.ready, s.calls ⟨9⟩)) (v := ([⟨9⟩], some (.listen 80 1))) (by decide +kernel)
  obtain ⟨ready, calling⟩ := Prod.mk.inj view
  obtain ⟨call, reply, result, t, calling', -, -, returns, -⟩ :=
    (calls_return mini_bounded s run).1 ⟨9⟩ (by simp [ready])
  obtain rfl := Option.some.inj (calling.symm.trans calling')
  exact ⟨s, run, calling, result, t, returns⟩

/-- The client asks for five bytes and is about to find three in its buffer. -/
theorem bytes_arrive_three :
    ∃ s : TcpClients (List MiniSocket), Reachable (step mini (· == 1)) (init mini) s ∧
      s.returned ⟨9⟩ = [] ∧ s.transfers ⟨9⟩ = [⟨⟨0⟩, bytesIn s.server.memory 0x1000 3⟩] := by
  obtain ⟨s, run, view⟩ := reachable_of_view (step mini (· == 1)) (init mini)
    (sampleRun ++ .resume ⟨9⟩ :: .call ⟨9⟩ (.recv ⟨0⟩ 0x1000 5) ::
      (serverRun [.interrupt 0, .fetch, .run, .run] ++ [.deliver]))
    (fun s => (s.ready, s.calls ⟨9⟩, s.returned ⟨9⟩,
      (s.finish ⟨9⟩ (.recv ⟨0⟩ 0x1000 5)).toOption.map Prod.fst))
    (v := ([⟨9⟩], some (.recv ⟨0⟩ 0x1000 5), [], some (some (.size 3)))) (by decide +kernel)
  simp only [Prod.mk.injEq] at view
  obtain ⟨ready, calling, returned, returns⟩ := view
  obtain ⟨⟨result, t⟩, returns, rfl⟩ := Option.map_eq_some_iff.mp returns
  have moved := ((bytes_arrive mini_bounded s run ⟨9⟩).2 _ ⟨0⟩ 0x1000 3 t (by simp [ready]) calling
    rfl rfl ((toOption_eq_some _ _).mp returns)).1
  rw [returned] at moved
  exact ⟨s, run, returned, moved⟩

end TcpClients

end RootTask.Net
