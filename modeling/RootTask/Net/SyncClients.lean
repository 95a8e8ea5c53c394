import RootTask.Net.Pairing
import RootTask.Net.SyncRequests

/-!
# The synchronous calls are served

The server and the threads of `tcp_server` together. Each step of a thread and each thing that the
server does for a client keeps the requests and the sockets in order.

## Main result

`calls_served`: over every run of the server and its client threads, every waiting client is
accounted for, and nobody panics.
-/
namespace RootTask.Net

open RootTask.Runtime RootTask.Transition RootTask.Custody RootTask.Outcome

/-! ### The places of the server -/

namespace SyncServer

variable {σ : Type} {s t : SyncServer σ}

theorem places_tasks (table : t.net.listenTable = s.net.listenTable)
    (polling : t.polling = s.polling) :
    t.places = Function.update s.places .tasks (t.recvBlockedTasks.map .blocked) := by
  funext p
  cases p with
  | table port =>
    rw [Function.update_of_ne (by simp)]
    simp only [places, table]
  | tasks => rw [Function.update_self, places]
  | polling =>
    rw [Function.update_of_ne (by simp)]
    simp only [places, polling]

theorem places_polling (table : t.net.listenTable = s.net.listenTable)
    (tasks : t.recvBlockedTasks = s.recvBlockedTasks) :
    t.places = Function.update s.places .polling (t.polling.bind Caller.token).toList := by
  funext p
  cases p with
  | table port =>
    rw [Function.update_of_ne (by simp)]
    simp only [places, table]
  | tasks =>
    rw [Function.update_of_ne (by simp)]
    simp only [places, tasks]
  | polling => rw [Function.update_self, places]

variable {port : Nat} {en : ListenTableEntry}

theorem places_table (table : t.net.listenTable = Function.update s.net.listenTable port (some en))
    (tasks : t.recvBlockedTasks = s.recvBlockedTasks) (polling : t.polling = s.polling) :
    t.places = Function.update s.places (.table port) (en.blockEp.map .listening) := by
  funext p
  cases p with
  | table q =>
    by_cases same : q = port
    · subst same
      simp [places, table]
    · have different : SyncPlace.table q ≠ .table port := by simpa using same
      rw [Function.update_of_ne different]
      simp [places, table, same]
  | tasks =>
    rw [Function.update_of_ne (by simp)]
    simp only [places, tasks]
  | polling =>
    rw [Function.update_of_ne (by simp)]
    simp only [places, polling]

theorem queues_table
    (table : t.net.listenTable = Function.update s.net.listenTable port (some en)) :
    (fun q => (t.net.listenTable.entry q).synQueue) =
      Function.update (fun q => (s.net.listenTable.entry q).synQueue) port en.synQueue := by
  funext q
  by_cases same : q = port
  · subst same
    simp [table]
  · simp [table, same]

end SyncServer

/-! ### The system -/

namespace SyncClients

variable {σ F : Type} {stack : Smoltcp σ F} {slot : Nat} {buffer : Nat → BufferPtr}
  {s t : SyncClients σ} {busy : List Endpoint} {i : Nat} {c : SyncClient}

structure Inv (stack : Smoltcp σ F) (slot : Nat) (buffer : Nat → BufferPtr)
    (busy : List Endpoint) (s : SyncClients σ) : Prop where
  requests : Requests slot buffer busy s.server.places s.client s.lost s.refused
  sockets : Sockets slot (fun h => stack.state s.server.net.sockets h ≠ none) s.server.listened
    (fun port => (s.server.net.listenTable.entry port).synQueue) s.client
  clients : Clients buffer s.client s.netStackMap2

namespace Inv

theorem setServer (inv : Inv stack slot buffer busy s) {u : SyncServer σ}
    (places : u.places = s.server.places)
    (queues : ∀ port, (u.net.listenTable.entry port).synQueue =
      (s.server.net.listenTable.entry port).synQueue)
    (opens : ∀ h, stack.state u.net.sockets h = none ↔ stack.state s.server.net.sockets h = none)
    (listened : u.listened = s.server.listened) :
    Inv stack slot buffer busy { s with server := u } := by
  refine ⟨?_, ?_, inv.clients⟩
  · change Requests slot buffer busy u.places s.client s.lost s.refused
    rw [places]
    exact inv.requests
  · change Sockets slot _ u.listened (fun port => (u.net.listenTable.entry port).synQueue) s.client
    rw [funext queues, listened]
    exact inv.sockets.congr fun h => not_congr (opens h)

theorem sameView (inv : Inv stack slot buffer busy s) {u : SyncServer σ}
    (same : SyncServer.SameView stack s.server u) :
    Inv stack slot buffer busy { s with server := u } :=
  inv.setServer same.places same.queues same.opens same.listened

theorem setClient (inv : Inv stack slot buffer busy s)
    (keeps : (s.client i).phase.waits = true → c.phase.waits = true ∧ c.point = (s.client i).point)
    (fresh : c.phase.waits = true → (s.client i).phase.waits = true)
    (fd : c.fd = (s.client i).fd ∨ c.fd = none)
    (listens : (s.client i).listened = true → c.listened = true) (ok : c.Ok (buffer i) i)
    (known : ∀ fd, c.point.fd = some fd → s.netStackMap2 fd = some i) :
    Inv stack slot buffer busy (s.setClient i c) :=
  ⟨inv.requests.update keeps fresh, inv.sockets.update fd listens, inv.clients.update ok known⟩

/-- A client blocks in `ep.send`, on its own endpoint. -/
theorem sending (inv : Inv stack slot buffer busy s) (bound : i < threadNum)
    (running : (s.client i).phase = .running) {regs : MsgRegs}
    (isRegs : (s.client i).point.regs (buffer i) = some regs) :
    Inv stack slot buffer busy (s.setPhase i (.sending i regs)) := by
  refine inv.setClient ?_ ?_ ?_ ?_ ⟨rfl, isRegs⟩ (inv.clients.known i bound)
  · simp [running, CallPhase.waits]
  · simp [CallPhase.waits]
  · left
    cases point : (s.client i).point <;> simp [SyncClient.fd, point, running]
  · cases point : (s.client i).point <;> simp [SyncClient.listened, point, running]

theorem transfer (inv : Inv stack slot buffer busy s) (bound : i < threadNum)
    (running : (s.client i).phase = .running) (type : MessageType) {fd : SocketHandle}
    (len : BitVec 64) (isFd : (s.client i).point.fd = some fd)
    (isRegs : (s.client i).point.regs (buffer i) =
      some ⟨type, BitVec.ofNat 64 fd.index, buffer i, len⟩) :
    ∃ t, s.transfer buffer type i fd len = .ok t ∧ Inv stack slot buffer busy t ∧
      t.server = s.server := by
  have known := inv.clients.known i bound fd isFd
  refine ⟨_, by rw [SyncClients.transfer, known], inv.sending bound running isRegs, rfl⟩

/-- `tcp_server` makes its next call: the handle is known, and the endpoint its own. -/
theorem begin (inv : Inv stack slot buffer busy s) (bound : i < threadNum)
    (running : (s.client i).phase = .running) {r : Except Panic (SyncClients σ)}
    (begins : s.begin buffer i = some r) :
    ∃ t, r = .ok t ∧ Inv stack slot buffer busy t ∧ ∃ memory,
      t.server = { s.server with memory := memory } := by
  unfold SyncClients.begin at begins
  split at begins
  next point =>
    cases begins
    exact ⟨_, rfl, inv.sending bound running (by rw [point]; rfl), _, rfl⟩
  next fd point =>
    obtain ⟨t, called, inv, server⟩ := inv.transfer bound running .recv 1
      (by rw [point]; rfl) (by rw [point]; rfl)
    cases begins
    exact ⟨t, called, inv, _, server⟩
  next fd point =>
    have filled : Inv stack slot buffer busy (s.fill buffer i 0x21) := ⟨inv.1, inv.2, inv.3⟩
    obtain ⟨t, called, inv, server⟩ := filled.transfer bound running .send 1
      (by rw [fill, point]; rfl) (by rw [fill, point]; rfl)
    cases begins
    exact ⟨t, called, inv, _, server⟩
  next fd point =>
    have filled : Inv stack slot buffer busy (s.fill buffer i 0x2e) := ⟨inv.1, inv.2, inv.3⟩
    obtain ⟨t, called, inv, server⟩ := filled.transfer bound running .send 1
      (by rw [fill, point]; rfl) (by rw [fill, point]; rfl)
    cases begins
    exact ⟨t, called, inv, _, server⟩
  next point => cases begins

/-- A client moves on with the socket that it has, or without. -/
theorem goOn (inv : Inv stack slot buffer busy s) {type : MessageType} {value : Nat}
    (replied : (s.client i).phase = .replied type value) {point : ServePoint}
    (fd : point.fd = (s.client i).fd ∨ point.fd = none)
    (later : point ≠ .listen) (known : ∀ fd, point.fd = some fd → s.netStackMap2 fd = some i) :
    Inv stack slot buffer busy (s.setClient i ⟨point, .running⟩) := by
  have isFd : (SyncClient.mk point .running).fd = point.fd := by
    cases point <;> rfl
  refine inv.setClient ?_ ?_ (by rw [isFd]; exact fd) (fun _ => ?_) trivial known
  · simp [replied, CallPhase.waits]
  · simp [CallPhase.waits]
  · cases point with
    | listen => exact absurd rfl later
    | recv fd => rfl
    | send fd => rfl
    | last fd => rfl
    | suspended => rfl

theorem finish (inv : Inv stack slot buffer busy s) (bound : i < threadNum) {type : MessageType}
    {value : Nat} (replied : (s.client i).phase = .replied type value) :
    Inv stack slot buffer busy (s.finish buffer i value) ∧
      (s.finish buffer i value).server = s.server := by
  have known := inv.clients.known i bound
  unfold SyncClients.finish
  split
  next point =>
    -- the handle is new in the map, since no other client has this socket
    have mine : (s.client i).fd = some ⟨value⟩ := by simp [SyncClient.fd, point, replied]
    have elsewhere : ∀ j < threadNum, ∀ fd, (s.client j).point.fd = some fd →
        Function.update s.netStackMap2 ⟨value⟩ (some i) fd = some j := by
      intro j boundJ fd isPoint
      have different : fd ≠ ⟨value⟩ := by
        rintro rfl
        have same := inv.sockets.own mine (SyncClient.fd_of_point isPoint)
        subst same
        simp [point, ServePoint.fd] at isPoint
      rw [Function.update_of_ne different]
      exact inv.clients.known j boundJ fd isPoint
    have learned : Inv stack slot buffer busy
        { s with netStackMap2 := Function.update s.netStackMap2 ⟨value⟩ (some i) } :=
      ⟨inv.requests, inv.sockets, inv.clients.phases, elsewhere⟩
    refine ⟨learned.goOn replied (.inl mine.symm) (by simp) fun fd same => ?_, rfl⟩
    cases same
    exact Function.update_self _ _ _
  next fd point =>
    have here : (s.client i).point.fd = some fd := by rw [point]; rfl
    have kept : ∀ fd', some fd = some fd' → s.netStackMap2 fd' = some i := by
      rintro fd' same
      cases same
      exact known fd here
    have mine := (SyncClient.fd_of_point here).symm
    split
    · exact ⟨inv.goOn replied (.inl mine) (by simp) kept, rfl⟩
    · exact ⟨inv.goOn replied (.inl mine) (by simp) kept, rfl⟩
  next fd point =>
    have here : (s.client i).point.fd = some fd := by rw [point]; rfl
    have mine := (SyncClient.fd_of_point here).symm
    refine ⟨inv.goOn replied (.inl mine) (by simp) fun fd' same => ?_, rfl⟩
    cases same
    exact known fd here
  next fd point =>
    refine ⟨inv.goOn replied (.inr rfl) (by simp) fun fd' same => ?_, rfl⟩
    cases same
  next point => exact ⟨inv, rfl⟩

/-- A client thread does not panic. -/
theorem clientStep (inv : Inv stack slot buffer busy s) (bound : i < threadNum)
    {r : Except Panic (SyncClients σ)} (goesOn : s.clientStep buffer i = some r) :
    ∃ t, r = .ok t ∧ Inv stack slot buffer busy t ∧ ∃ memory,
      t.server = { s.server with memory := memory } := by
  have ok := inv.clients.phases i bound
  unfold SyncClients.clientStep at goesOn
  split at goesOn
  next running => exact inv.begin bound running goesOn
  next ep sent =>
    cases goesOn
    rw [SyncClient.Ok, sent] at ok
    refine ⟨_, rfl, ?_, _, rfl⟩
    refine inv.setClient (fun _ => ⟨rfl, rfl⟩) (fun _ => by rw [sent]; rfl) ?_ ?_ ok
      (inv.clients.known i bound)
    · left
      cases point : (s.client i).point <;> simp [SyncClient.fd, point, sent]
    · cases point : (s.client i).point <;> simp [SyncClient.listened, point]
  next type value replied =>
    cases goesOn
    obtain ⟨finished, server⟩ := inv.finish bound replied
    exact ⟨_, rfl, finished, _, server⟩
  next => cases goesOn
  next => cases goesOn

/-! ### Replies -/

/-- Only the client of an endpoint takes the messages on it. -/
theorem hearer_eq (inv : Inv stack slot buffer busy s) {j : Nat} (bound : j < threadNum)
    {m : EpMessage} (isEp : m.ep = ⟨slot + i⟩) (hears : (s.client j).phase.hears slot m = true) :
    j = i := by
  have ok := inv.clients.phases j bound
  rw [SyncClient.Ok] at ok
  cases phase : (s.client j).phase with
  | running => simp [phase, CallPhase.hears] at hears
  | sending ep regs => simp [phase, CallPhase.hears] at hears
  | replied type value => simp [phase, CallPhase.hears] at hears
  | sent ep =>
    rw [phase] at ok
    obtain ⟨rfl, -⟩ := ok
    simp only [phase, CallPhase.hears, isEp, Bool.and_eq_true, beq_iff_eq] at hears
    exact (endpoint_inj.mp hears.1).symm
  | receiving ep =>
    rw [phase] at ok
    obtain ⟨rfl, -⟩ := ok
    simp only [phase, CallPhase.hears, isEp, beq_iff_eq] at hears
    exact (endpoint_inj.mp hears).symm

theorem find_hearer (inv : Inv stack slot buffer busy s) (bound : i < threadNum) {m : EpMessage}
    (isEp : m.ep = ⟨slot + i⟩) :
    (List.range threadNum).find? (fun j => (s.client j).phase.hears slot m) =
      if (s.client i).phase.hears slot m = true then some i else none := by
  cases found : (List.range threadNum).find? fun j => (s.client j).phase.hears slot m with
  | none =>
    have nobody := List.find?_eq_none.mp found i (List.mem_range.mpr bound)
    rw [if_neg nobody]
  | some j =>
    have boundJ := List.mem_range.mp (List.mem_of_find?_eq_some found)
    have hears := List.find?_some found
    obtain rfl := inv.hearer_eq boundJ isEp hears
    rw [if_pos hears]

/-- A waiting client waits on its own endpoint. -/
theorem waiting (inv : Inv stack slot buffer busy s) (bound : i < threadNum)
    (waits : (s.client i).phase.waits = true) :
    (s.client i).phase = .sent i ∨ (s.client i).phase = .receiving i := by
  have ok := inv.clients.phases i bound
  rw [SyncClient.Ok] at ok
  cases phase : (s.client i).phase with
  | running => simp [phase, CallPhase.waits] at waits
  | sending ep regs => simp [phase, CallPhase.waits] at waits
  | replied type value => simp [phase, CallPhase.waits] at waits
  | sent ep =>
    rw [phase] at ok
    rw [ok.1]
    exact .inl rfl
  | receiving ep =>
    rw [phase] at ok
    rw [ok.1]
    exact .inr rfl

theorem busy_waits (inv : Inv stack slot buffer (⟨slot + i⟩ :: busy) s) :
    i < threadNum ∧ (s.client i).phase.waits = true := by
  obtain ⟨j, bound, isEp, waits⟩ := inv.requests.busyWaits _ List.mem_cons_self
  obtain rfl := endpoint_inj.mp isEp
  exact ⟨bound, waits⟩

/-- The server sends a reply to a client that it is busy with: the client takes it. -/
theorem deliver (inv : Inv stack slot buffer (⟨slot + i⟩ :: busy) s) {m : EpMessage}
    (isEp : m.ep = ⟨slot + i⟩) (type : (s.client i).point.replyType = some m.type)
    (blocking : m.type ≠ .listenReply) :
    s.deliver slot m = some (s.setPhase i (.replied m.type m.value)) ∧
      Inv stack slot buffer busy (s.setPhase i (.replied m.type m.value)) := by
  obtain ⟨bound, waits⟩ := inv.busy_waits
  have hears : (s.client i).phase.hears slot m = true := by
    rcases inv.waiting bound waits with phase | phase
    · simp [phase, CallPhase.hears, isEp, blocking]
    · simp [phase, CallPhase.hears, isEp]
  have later : (s.client i).point ≠ .listen := by
    intro isListen
    rw [isListen] at type
    exact blocking (Option.some.inj type).symm
  refine ⟨by rw [SyncClients.deliver, inv.find_hearer bound isEp, if_pos hears],
    inv.requests.answer rfl, inv.sockets.update (.inl ?_) (fun _ => ?_),
    inv.clients.update type (inv.clients.known i bound)⟩
  · cases point : (s.client i).point <;> simp_all [SyncClient.fd]
  · cases point : (s.client i).point <;> simp_all [SyncClient.listened]

/-- The replies of one step of the server. -/
theorem deliverAll (replies : List EpMessage)
    (inv : Inv stack slot buffer (replies.map EpMessage.ep) s)
    (types : ∀ m ∈ replies, ∃ i, m.ep = ⟨slot + i⟩ ∧ (s.client i).point.replyType = some m.type ∧
      m.type ≠ .listenReply) :
    ∃ t, s.deliverAll slot replies = some t ∧ Inv stack slot buffer [] t ∧
      t.server = s.server := by
  induction replies generalizing s with
  | nil => exact ⟨s, rfl, inv, rfl⟩
  | cons m rest ih =>
    obtain ⟨i, isEp, type, blocking⟩ := types m List.mem_cons_self
    rw [List.map_cons, isEp] at inv
    obtain ⟨delivered, after⟩ := inv.deliver isEp type blocking
    obtain ⟨t, all, done, server⟩ := ih after (by
      intro m' member
      obtain ⟨j, isEp', type', blocking'⟩ := types m' (List.mem_cons_of_mem _ member)
      refine ⟨j, isEp', ?_, blocking'⟩
      -- a reply changes the phase of its client, not the call
      by_cases same : j = i
      · subst same
        simpa [setPhase, SyncClients.setClient] using type'
      · simpa [setPhase, SyncClients.setClient, Function.update_of_ne same] using type')
    exact ⟨t, by rw [SyncClients.deliverAll, delivered]; exact all, done, server⟩

/-! ### Requests that the server takes -/

theorem hear (inv : Inv stack slot buffer [] s) (bound : i < threadNum) {ep : Nat} {regs : MsgRegs}
    (sending : (s.client i).phase = .sending ep regs) :
    Inv stack slot buffer [⟨slot + i⟩] (s.setPhase i (.sent i)) := by
  have ok := inv.clients.phases i bound
  rw [SyncClient.Ok, sending] at ok
  have called : (s.client i).point ≠ .suspended := by
    intro suspended
    simp [suspended, ServePoint.regs] at ok
  refine ⟨inv.requests.hear bound (by rw [sending]; rfl) rfl,
    inv.sockets.update (.inl ?_) fun _ => ?_,
    inv.clients.update ⟨rfl, called⟩ (inv.clients.known i bound)⟩
  · cases point : (s.client i).point <;> simp [SyncClient.fd, point, sending]
  · cases point : (s.client i).point <;> simp [SyncClient.listened, point]

/-- The server looks at the endpoint of a client that blocks in `ep.send` there. -/
theorem of_request (inv : Inv stack slot buffer busy s) {a : SyncClientsAction F} {badge : Nat}
    {regs : MsgRegs} (action : s.serverAction slot a = some (.nbRecv badge regs))
    (isRequest : (SyncAction.nbRecv badge regs : SyncAction F).isRequest = true) :
    ∃ i < threadNum, a = .message i ∧ (s.client i).phase = .sending i regs ∧
      s.server.nextEp = some ⟨slot + i⟩ ∧ (s.client i).point.regs (buffer i) = some regs := by
  cases a with
  | message i =>
    simp only [serverAction] at action
    split at action
    next ep regs' sending =>
      split at action
      next ready =>
        cases action
        obtain ⟨bound, next⟩ := ready
        have ok := inv.clients.phases i bound
        rw [SyncClient.Ok, sending] at ok
        obtain ⟨rfl, isRegs⟩ := ok
        exact ⟨ep, bound, rfl, sending, next, isRegs⟩
      · cases action
    · cases action
  | signal =>
    cases action
    cases isRequest
  | silence =>
    simp only [serverAction] at action
    split at action
    · cases action
    · cases action
      cases isRequest
  | client i => cases action
  | ntfnPoll badge => cases action
  | frame f => cases action
  | run => cases action

end Inv

/-- Without a request, nobody goes on. -/
theorem hear_eq {a : SyncClientsAction F} {b : SyncAction F}
    (action : s.serverAction slot a = some b) (noRequest : b.isRequest = false) :
    s.hear stack slot a = s := by
  cases a with
  | message i =>
    simp only [serverAction] at action
    split at action
    next ep regs sending =>
      split at action
      · cases action
        simp [SyncAction.isRequest] at noRequest
      · cases action
    · cases action
  | signal => rfl
  | silence => rfl
  | client i => rfl
  | ntfnPoll badge => rfl
  | frame f => rfl
  | run => rfl

theorem serverStep_eq {a : SyncClientsAction F} {u : SyncServer σ} {replies : List EpMessage}
    (heard : s.hear stack slot a = t) (sent : u.net.sent = s.server.net.sent ++ replies) :
    s.serverStep stack slot a u = { t with server := u }.deliverAll slot replies := by
  rw [serverStep, heard, sent, List.drop_left]

namespace Inv

open SyncServer (Taken SameView Effect Swept)

/-- The request of a client is put into a place of the server. -/
theorem file (inv : Inv stack slot buffer [⟨slot + i⟩] s) {u : SyncServer σ} (p : SyncPlace)
    (token : SyncToken) (isEp : token.ep = ⟨slot + i⟩)
    (stands : token.StandsFor (buffer i) (s.client i).point)
    (places : u.places = Function.update s.server.places p (s.server.places p ++ [token]))
    (table : u.net.listenTable = s.server.net.listenTable)
    (opens : ∀ h, stack.state u.net.sockets h = none ↔ stack.state s.server.net.sockets h = none)
    (listened : u.listened = s.server.listened) :
    Inv stack slot buffer [] { s with server := u } := by
  obtain ⟨bound, waits⟩ := inv.busy_waits
  refine ⟨?_, ?_, inv.clients⟩
  · change Requests slot buffer [] u.places s.client s.lost s.refused
    rw [places]
    exact inv.requests.file isEp ⟨i, bound, isEp, waits, stands⟩
  · change Sockets slot _ u.listened (fun port => (u.net.listenTable.entry port).synQueue) s.client
    rw [table, listened]
    exact inv.sockets.congr fun h => not_congr (opens h)

/-- `process_req` with the Listen of a client. -/
theorem listen (handshake : stack.Handshake) (inv : Inv stack slot buffer [] s)
    (bound : i < threadNum) {ep : Nat} {regs : MsgRegs}
    (sending : (s.client i).phase = .sending ep regs) (point : (s.client i).point = .listen)
    {port : Nat} {handler : SocketHandle} {sockets : σ} {table : ListenTable} {u : SyncServer σ}
    (opened : stack.listen s.server.net.sockets port = some (handler, sockets))
    (registered : s.server.net.listenTable.listenWithEp port handler ⟨slot + i⟩ = .ok table)
    (tasks : u.recvBlockedTasks = s.server.recvBlockedTasks)
    (polling : u.polling = s.server.polling) (isSockets : u.net.sockets = sockets)
    (isTable : u.net.listenTable = table)
    (listened : u.listened = s.server.listened ++ [⟨slot + i⟩]) :
    Inv stack slot buffer [] { s.setPhase i (.sent i) with server := u } := by
  have heard := inv.hear bound sending
  obtain ⟨-, rfl⟩ := ListenTable.register_ok registered
  have queues := SyncServer.queues_table isTable
  have places := SyncServer.places_table isTable tasks polling
  simp only [List.map_append, List.map_cons, List.map_nil] at places
  obtain ⟨new, least⟩ := handshake.listen_least opened
  refine ⟨?_, ?_, heard.clients⟩
  · change Requests slot buffer [] u.places (s.setPhase i (.sent i)).client s.lost s.refused
    rw [places]
    refine heard.requests.file rfl ⟨i, bound, rfl, ?_, ?_⟩
    · simp [setPhase, SyncClients.setClient, CallPhase.waits]
    · simpa [SyncToken.StandsFor, setPhase, SyncClients.setClient] using point
  · change Sockets slot _ u.listened (fun port => (u.net.listenTable.entry port).synQueue)
      (Function.update s.client i _)
    rw [queues, listened]
    refine inv.sockets.listen bound ?_ ?_ ?_ (not_not.mpr new) least fun h => ?_
    · simp [SyncClient.listened, point, sending]
    · simp [SyncClient.listened, point]
    · simp [SyncClient.fd, point, ServePoint.fd]
    · rw [isSockets, handshake.listen_state opened]
      by_cases same : h = handler
      · simp [same]
      · simp [same]

/-- The registers name the socket of the client. -/
theorem handler_eq (inv : Inv stack slot buffer busy s) {fd : SocketHandle}
    (isFd : (s.client i).point.fd = some fd) :
    (⟨(BitVec.ofNat 64 fd.index).toNat⟩ : SocketHandle) = fd := by
  have small := inv.sockets.index_lt (inv.sockets.is_open (SyncClient.fd_of_point isFd))
  have bound : fd.index < 2 ^ 64 := Nat.lt_trans small (by decide)
  rw [BitVec.toNat_ofNat, Nat.mod_eq_of_lt bound]

theorem hear_message {i : Nat} {regs : MsgRegs} (sending : (s.client i).phase = .sending i regs)
    (passes : regs.type = .send → stack.canSend s.server.net.sockets regs.handler = true) :
    s.hear stack slot (.message i : SyncClientsAction F) = s.setPhase i (.sent i) := by
  rw [SyncClients.hear, sending]
  dsimp only
  rw [if_neg]
  · rfl
  · rintro ⟨isSend, cannot⟩
    exact cannot (passes isSend)

/-- The server answers one client in a step. -/
theorem reply {a : SyncClientsAction F} {u : SyncServer σ} {m : EpMessage}
    (isHeard : s.hear stack slot a = t) (sent : u.net.sent = s.server.net.sent ++ [m])
    (inv : Inv stack slot buffer [⟨slot + i⟩] { t with server := u }) (isEp : m.ep = ⟨slot + i⟩)
    (type : (t.client i).point.replyType = some m.type) (blocking : m.type ≠ .listenReply) :
    ∃ v, s.serverStep stack slot a u = some v ∧ Inv stack slot buffer [] v ∧ v.server = u := by
  rw [serverStep_eq isHeard sent]
  refine deliverAll [m] (by rw [List.map_singleton, isEp]; exact inv) fun m' member => ?_
  rw [List.mem_singleton.mp member]
  exact ⟨i, isEp, type, blocking⟩

/-- The server answers nobody in a step. -/
theorem noReply {a : SyncClientsAction F} {u : SyncServer σ} (isHeard : s.hear stack slot a = t)
    (sent : u.net.sent = s.server.net.sent)
    (inv : Inv stack slot buffer [] { t with server := u }) :
    ∃ v, s.serverStep stack slot a u = some v ∧ Inv stack slot buffer [] v ∧ v.server = u := by
  rw [serverStep_eq isHeard (sent.trans (List.append_nil _).symm)]
  exact ⟨_, rfl, inv, rfl⟩

section Taken

variable {regs : MsgRegs} {s₁ u : SyncServer σ}

theorem takenListen (handshake : stack.Handshake) (inv : Inv stack slot buffer [] s)
    (bound : i < threadNum) (sending : (s.client i).phase = .sending i regs)
    (type : regs.type = .listen) (point : (s.client i).point = .listen)
    (same : SameView stack s.server s₁) (taken : Taken stack s₁ ⟨slot + i⟩ regs u) :
    ∃ t, s.serverStep stack slot (.message i : SyncClientsAction F) u = some t ∧
      Inv stack slot buffer [] t ∧ t.server = u := by
  have isHeard : s.hear stack slot (.message i : SyncClientsAction F) = s.setPhase i (.sent i) :=
    hear_message sending (by simp [type])
  cases taken with
  | listen handler sockets table _ opened registered =>
    exact noReply isHeard same.sent ((inv.sameView same).listen handshake bound sending point opened
      registered rfl rfl rfl rfl rfl)
  | recv bytes sockets other received => simp [type] at other
  | recvFails other can failed => simp [type] at other
  | block other => simp [type] at other
  | send size sockets data other can sliced => simp [type] at other
  | refuse other cannot => simp [type] at other
  | sendFails data other can failed => simp [type] at other
  | other noListen noRecv noSend => exact absurd type noListen

theorem takenRecv (handshake : stack.Handshake) (transfers : stack.Transfers)
    (inv : Inv stack slot buffer [] s) (bound : i < threadNum)
    (sending : (s.client i).phase = .sending i regs) (type : regs.type = .recv)
    (point : (s.client i).point = .recv regs.handler) (isBuffer : regs.buffer = buffer i)
    (same : SameView stack s.server s₁) (taken : Taken stack s₁ ⟨slot + i⟩ regs u) :
    ∃ t, s.serverStep stack slot (.message i : SyncClientsAction F) u = some t ∧
      Inv stack slot buffer [] t ∧ t.server = u := by
  have heard := (inv.sameView same).hear bound sending
  have isHeard : s.hear stack slot (.message i : SyncClientsAction F) = s.setPhase i (.sent i) :=
    hear_message sending (by simp [type])
  have here : ((s.setPhase i (.sent i)).client i).point = .recv regs.handler := by
    simpa [setPhase, SyncClients.setClient] using point
  cases taken with
  | recv bytes sockets _ received =>
    refine reply (m := ⟨⟨slot + i⟩, .recvReply, bytes.length⟩) isHeard ?_ ?_ rfl
      (by rw [here]; rfl) (by simp)
    · rw [← same.sent]
      rfl
    · refine heard.setServer rfl (fun _ => rfl) (fun h => ?_) rfl
      change stack.state sockets h = none ↔ stack.state s₁.net.sockets h = none
      rw [(handshake.recv_keeps received).1]
  | recvFails _ can failed =>
    obtain ⟨bytes, sockets, received⟩ := transfers.recv_ok can (min tcpTxBufLen regs.len)
    rw [received] at failed
    cases failed
  | block _ =>
    refine noReply isHeard same.sent (heard.file .tasks (.blocked ⟨⟨slot + i⟩, regs.buffer,
      regs.handler, false⟩) rfl ⟨here, isBuffer, rfl⟩ ?_ rfl (fun _ => .rfl) rfl)
    have moved := SyncServer.places_tasks (s := s₁) (t := { s₁ with recvBlockedTasks :=
      s₁.recvBlockedTasks ++ [⟨⟨slot + i⟩, regs.buffer, regs.handler, false⟩] }) rfl rfl
    rw [List.map_append] at moved
    exact moved
  | listen handler sockets table other opened registered => simp [type] at other
  | send size sockets data other can sliced => simp [type] at other
  | refuse other cannot => simp [type] at other
  | sendFails data other can failed => simp [type] at other
  | other noListen noRecv noSend => exact absurd type noRecv

theorem takenSend (handshake : stack.Handshake) (transfers : stack.Transfers)
    (inv : Inv stack slot buffer [] s) (bound : i < threadNum)
    (sending : (s.client i).phase = .sending i regs) (type : regs.type = .send)
    (sends : (s.client i).point.sends = true) (same : SameView stack s.server s₁)
    (outside : s₁.polling = none) (isSockets : s₁.net.sockets = s.server.net.sockets)
    (taken : Taken stack s₁ ⟨slot + i⟩ regs u) :
    ∃ t, s.serverStep stack slot (.message i : SyncClientsAction F) u = some t ∧
      Inv stack slot buffer [] t ∧ t.server = u := by
  have heard := (inv.sameView same).hear bound sending
  have here : ((s.setPhase i (.sent i)).client i).point.sends = true := by
    simpa [setPhase, SyncClients.setClient] using sends
  cases taken with
  | send size sockets data _ can sliced =>
    have isHeard : s.hear stack slot (.message i : SyncClientsAction F) =
        s.setPhase i (.sent i) := hear_message sending fun _ => isSockets ▸ can
    have empty : s₁.places .polling = [] := by
      rw [SyncServer.places, outside]
      rfl
    refine noReply isHeard same.sent (heard.file .polling (.sending ⟨slot + i⟩) rfl here ?_ rfl
      (fun h => ?_) rfl)
    · change _ = Function.update s₁.places .polling (s₁.places .polling ++ [.sending ⟨slot + i⟩])
      rw [empty]
      exact SyncServer.places_polling (s := s₁) rfl rfl
    · change stack.state sockets h = none ↔ stack.state s₁.net.sockets h = none
      rw [(handshake.send_keeps sliced).1]
  | refuse _ cannot =>
    rw [isSockets] at cannot
    have isHeard : s.hear stack slot (.message i : SyncClientsAction F) =
        { s.setPhase i (.sent i) with refused := s.refused ++ [⟨slot + i⟩] } := by
      rw [SyncClients.hear, sending]
      dsimp only
      rw [if_pos ⟨type, cannot⟩]
    refine noReply isHeard same.sent ⟨?_, heard.sockets, heard.clients⟩
    refine heard.requests.giveUp (fun _ old => old) (fun _ old => List.mem_append_left _ old)
      fun j _ isEp => ?_
    obtain rfl := endpoint_inj.mp isEp
    exact .inr (.inr ⟨here, List.mem_append_right _ (List.mem_singleton.mpr rfl)⟩)
  | sendFails data _ can failed => exact absurd failed (transfers.send_ne_error can data)
  | listen handler sockets table other opened registered => simp [type] at other
  | recv bytes sockets other received => simp [type] at other
  | recvFails other can failed => simp [type] at other
  | block other => simp [type] at other
  | other noListen noRecv noSend => exact absurd type noSend

end Taken

/-! ### Requests that the server answers later -/

/-- Requests leave a place of the server, which answers them in this step. -/
theorem withdraw (inv : Inv stack slot buffer [] s) {u : SyncServer σ} {p : SyncPlace}
    {l : List SyncToken} {eps : List Endpoint} (sub : l.Sublist (s.server.places p))
    (perm : (eps ++ l.map SyncToken.ep).Perm ((s.server.places p).map SyncToken.ep))
    (places : u.places = Function.update s.server.places p l)
    (table : u.net.listenTable = s.server.net.listenTable)
    (opens : ∀ h, stack.state u.net.sockets h = none ↔ stack.state s.server.net.sockets h = none)
    (listened : u.listened = s.server.listened) :
    Inv stack slot buffer eps { s with server := u } := by
  refine ⟨?_, ?_, inv.clients⟩
  · change Requests slot buffer eps u.places s.client s.lost s.refused
    rw [places]
    exact inv.requests.withdraw sub perm
  · change Sockets slot _ u.listened (fun port => (u.net.listenTable.entry port).synQueue) s.client
    rw [table, listened]
    exact inv.sockets.congr fun h => not_congr (opens h)

/-- A Send is answered when `iface_poll` returns. -/
theorem replied (handshake : stack.Handshake) (inv : Inv stack slot buffer [] s)
    {a : SyncClientsAction F} (isHeard : s.hear stack slot a = s) {ep : Endpoint} {size : Nat}
    (inside : s.server.polling = some (.processReq ep size)) :
    ∃ t, s.serverStep stack slot a ((s.server.endPoll stack).send ep .sendReply size) = some t ∧
      Inv stack slot buffer [] t ∧ t.server = (s.server.endPoll stack).send ep .sendReply size := by
  have held : s.server.places .polling = [.sending ep] := by
    rw [SyncServer.places, inside]
    rfl
  obtain ⟨i, -, isEp, -, sends⟩ :=
    inv.requests.tokens.good .polling (.sending ep) (by simp [held])
  obtain rfl : ep = ⟨slot + i⟩ := isEp
  have type : (s.client i).point.replyType = some .sendReply := by
    cases point : (s.client i).point <;> simp_all [SyncToken.StandsFor, ServePoint.sends,
      ServePoint.replyType]
  refine reply (i := i) (m := ⟨⟨slot + i⟩, .sendReply, size⟩) isHeard rfl ?_ rfl type (by simp)
  exact inv.withdraw (p := .polling) (l := []) (List.nil_sublist _) (by rw [held]; exact .refl _)
    (SyncServer.places_polling (s := s.server) rfl rfl) rfl (handshake.egress_none _) rfl

/-- The pass over the blocked tasks at the end of an iteration. -/
theorem served (inv : Inv stack slot buffer [] s) {a : SyncClientsAction F}
    (isHeard : s.hear stack slot a = s) {replies : List EpMessage}
    {left : List RecvBlockedTask} (swept : Swept s.server.recvBlockedTasks replies left)
    {u : SyncServer σ} (table : u.net.listenTable = s.server.net.listenTable)
    (polling : u.polling = s.server.polling) (tasks : u.recvBlockedTasks = left)
    (states : stack.state u.net.sockets = stack.state s.server.net.sockets)
    (listened : u.listened = s.server.listened)
    (sent : u.net.sent = s.server.net.sent ++ replies) :
    ∃ t, s.serverStep stack slot a u = some t ∧ Inv stack slot buffer [] t ∧ t.server = u := by
  have eps : ∀ l : List RecvBlockedTask,
      (l.map SyncToken.blocked).map SyncToken.ep = l.map RecvBlockedTask.ep := by
    intro l
    rw [List.map_map]
    rfl
  have places := SyncServer.places_tasks table polling
  rw [tasks] at places
  have answering : Inv stack slot buffer (replies.map EpMessage.ep) { s with server := u } := by
    refine inv.withdraw (p := .tasks) (swept.sublist.map _) ?_ places table (fun h => ?_) listened
    · change (_ ++ (left.map SyncToken.blocked).map SyncToken.ep).Perm
        ((s.server.recvBlockedTasks.map SyncToken.blocked).map SyncToken.ep)
      rw [eps, eps]
      exact swept.perm
    · rw [states]
  rw [serverStep_eq isHeard sent]
  refine answering.deliverAll replies fun m member => ?_
  have blocked : m.ep ∈ s.server.recvBlockedTasks.map RecvBlockedTask.ep :=
    swept.perm.mem_iff.mp (List.mem_append_left _ (List.mem_map.mpr ⟨m, member, rfl⟩))
  obtain ⟨task, isTask, same⟩ := List.mem_map.mp blocked
  obtain ⟨i, -, isEp, -, point, -⟩ := inv.requests.tokens.good .tasks (.blocked task)
    (List.mem_map.mpr ⟨task, isTask, rfl⟩)
  refine ⟨i, same.symm.trans isEp, ?_, by simp [swept.type member]⟩
  rw [swept.type member]
  change (s.client i).point.replyType = _
  rw [point]
  rfl

/-- A SYN answers the first client of its port, if that is in `ep.recv`. -/
theorem answered (handshake : stack.Handshake) (inv : Inv stack slot buffer [] s)
    {a : SyncClientsAction F} (isHeard : s.hear stack slot a = s) {f : F}
    {port : Nat} {en : ListenTableEntry} {ep : Endpoint} {eps : List Endpoint}
    {handler : SocketHandle} {handlers : List SocketHandle}
    (found : s.server.net.listenTable port = some en) (waiting : en.blockEp = ep :: eps)
    (queue : en.synQueue = handler :: handlers) {u : SyncServer σ}
    (table : u.net.listenTable = Function.update s.server.net.listenTable port
      (some { en with synQueue := handlers, blockEp := eps }))
    (tasks : u.recvBlockedTasks = s.server.recvBlockedTasks)
    (polling : u.polling = s.server.polling)
    (sockets : u.net.sockets = stack.process s.server.net.sockets f)
    (listened : u.listened = s.server.listened)
    (sent : u.net.sent = s.server.net.sent ++ [⟨ep, .listenReply, handler.index⟩]) :
    ∃ t, s.serverStep stack slot a u = some t ∧ Inv stack slot buffer [] t ∧ t.server = u := by
  have entry : s.server.net.listenTable.entry port = en := by simp [ListenTable.entry, found]
  have held : s.server.places (.table port) = .listening ep :: eps.map .listening := by
    rw [SyncServer.places, entry, waiting, List.map_cons]
  have places := SyncServer.places_table table tasks polling
  have queues := SyncServer.queues_table table
  obtain ⟨i, bound, isEp, waits, point⟩ :=
    inv.requests.tokens.good (.table port) (.listening ep) (by simp [held])
  obtain rfl : ep = ⟨slot + i⟩ := isEp
  have point : (s.client i).point = .listen := point
  have requests : Requests slot buffer [⟨slot + i⟩] u.places s.client s.lost s.refused := by
    rw [places]
    refine inv.requests.withdraw ?_ ?_
    · rw [held]
      exact List.sublist_cons_self _ _
    · rw [held]
      exact .refl _
  have opens : Sockets slot (fun h => stack.state u.net.sockets h ≠ none) u.listened
      (fun port => (s.server.net.listenTable.entry port).synQueue) s.client := by
    rw [sockets, listened]
    exact inv.sockets.congr fun h => not_congr (handshake.process_none _ f h)
  have first : (fun port => (s.server.net.listenTable.entry port).synQueue) port =
      handler :: handlers := by
    dsimp only
    rw [entry, queue]
  rw [serverStep_eq isHeard sent]
  have message := inv.find_hearer bound (m := ⟨⟨slot + i⟩, .listenReply, handler.index⟩) rfl
  rcases inv.waiting bound waits with phase | phase
  -- the client has not called `ep.recv` yet
  · rw [if_neg (by simp [phase, CallPhase.hears])] at message
    refine ⟨{ s with server := u, lost := s.lost ++ [⟨slot + i⟩] }, ?_, ⟨?_, ?_, inv.clients⟩, rfl⟩
    · rw [SyncClients.deliverAll, SyncClients.deliver]
      dsimp only
      rw [message]
      rfl
    · refine requests.giveUp (fun _ old => List.mem_append_left _ old) (fun _ old => old)
        fun j _ same => ?_
      obtain rfl := endpoint_inj.mp same
      exact .inr (.inl ⟨point, List.mem_append_right _ (List.mem_singleton.mpr rfl)⟩)
    · change Sockets slot _ u.listened (fun q => (u.net.listenTable.entry q).synQueue) s.client
      rw [queues]
      exact opens.lose first
  · rw [if_pos (by simp [phase, CallPhase.hears])] at message
    refine ⟨{ s with server := u }.setPhase i (.replied .listenReply handler.index), ?_,
      ⟨requests.answer rfl, ?_, inv.clients.update ?_ ?_⟩, rfl⟩
    · rw [SyncClients.deliverAll, SyncClients.deliver]
      dsimp only
      rw [message]
      rfl
    · change Sockets slot _ u.listened (fun q => (u.net.listenTable.entry q).synQueue)
        (Function.update s.client i _)
      rw [queues]
      refine opens.answer first ?_ fun _ => ?_
      · simp [SyncClient.fd, point]
      · simp [SyncClient.listened, point]
    · change (s.client i).point.replyType = _
      rw [point]
      rfl
    · exact inv.clients.known i bound

/-- Everything that the server does in a step, for its clients. -/
theorem serverStep (handshake : stack.Handshake) (transfers : stack.Transfers)
    (inv : Inv stack slot buffer [] s) {a : SyncClientsAction F} {b : SyncAction F}
    {u : SyncServer σ} (action : s.serverAction slot a = some b)
    (effect : Effect stack s.server b u) :
    ∃ t, s.serverStep stack slot a u = some t ∧ Inv stack slot buffer [] t ∧ t.server = u := by
  cases effect with
  | quiet noRequest same =>
    exact noReply (hear_eq action noRequest) same.sent (inv.sameView same)
  | request isRequest next same outside isSockets taken =>
    obtain ⟨i, bound, rfl, sending, next', isRegs⟩ := inv.of_request action isRequest
    cases next'.symm.trans next
    rcases ServePoint.regs_some isRegs with ⟨type, point, -⟩ |
      ⟨fd, isFd, handler, isBuffer, -, ⟨type, point⟩ | ⟨type, sends⟩⟩
    · exact inv.takenListen handshake bound sending type point same taken
    · rw [inv.handler_eq isFd] at handler
      exact inv.takenRecv handshake transfers bound sending type (by rw [handler]; exact point)
        isBuffer same taken
    · exact inv.takenSend handshake transfers bound sending type sends same outside isSockets taken
  | answered f found waiting queue =>
    exact inv.answered handshake (hear_eq action rfl) found waiting queue rfl rfl rfl rfl rfl rfl
  | replied inside => exact inv.replied handshake (hear_eq action rfl) inside
  | served swept states =>
    exact inv.served (hear_eq action rfl) swept rfl rfl rfl states rfl rfl

theorem blocked (inv : Inv stack slot buffer busy s) :
    ∀ task ∈ s.server.recvBlockedTasks, task.complete = false := by
  intro task member
  obtain ⟨i, -, -, -, -, -, incomplete⟩ := inv.requests.tokens.good .tasks (.blocked task)
    (List.mem_map.mpr ⟨task, member, rfl⟩)
  exact incomplete

theorem accepts (listens : stack.Listens) (inv : Inv stack slot buffer busy s) {regs : MsgRegs}
    (isRegs : (s.client i).point.regs (buffer i) = some regs) : s.server.Accepts stack regs := by
  rcases ServePoint.regs_some isRegs with ⟨type, -, port⟩ | ⟨fd, isFd, handler, -, len, kind⟩
  · rw [SyncServer.Accepts, type, port]
    exact ⟨by decide, fun none_ => absurd ((listens _ _).mp none_) (by decide)⟩
  · have isOpen := inv.sockets.is_open (SyncClient.fd_of_point isFd)
    rw [inv.handler_eq isFd] at handler
    rcases kind with ⟨type, -⟩ | ⟨type, -⟩
    · rw [SyncServer.Accepts, type, handler]
      exact isOpen
    · rw [SyncServer.Accepts, type, handler, len]
      exact ⟨isOpen, by decide⟩

/-- The requests of the clients make no step of the server fail. -/
theorem noFault (listens : stack.Listens) (inv : Inv stack slot buffer busy s)
    {a : SyncClientsAction F} {b : SyncAction F} (action : s.serverAction slot a = some b)
    {e : Fault} (fault : s.server.Faulty stack b e) :
    e = .relock .pollEps ∧ s.server.AnswersInLoop stack b := by
  rcases fault with relock | ⟨task, member, closed⟩ | ⟨badge, regs, rfl, isRequest, refuses⟩
  · exact relock
  · obtain ⟨i, -, -, -, point, -⟩ := inv.requests.tokens.good .tasks (.blocked task)
      (List.mem_map.mpr ⟨task, member, rfl⟩)
    have isFd : (s.client i).point.fd = some task.handler := by rw [point]; rfl
    exact absurd closed (inv.sockets.is_open (SyncClient.fd_of_point isFd))
  · obtain ⟨i, -, -, -, -, isRegs⟩ := inv.of_request action isRequest
    exact absurd (inv.accepts listens isRegs) refuses

theorem init (handshake : stack.Handshake) :
    Inv stack slot buffer [] (SyncClients.init stack slot) := by
  constructor
  case requests =>
    refine ⟨.of_empty fun p => ?_, fun i _ waits => ?_, fun ep member => ?_, fun ep member => ?_,
      .nil⟩
    · cases p <;> rfl
    · cases waits
    · cases member
    · cases member
  case sockets =>
    refine ⟨.of_empty fun p => ?_, fun h isOpen => ?_, .nil, fun ep member => ?_⟩
    · cases p <;> rfl
    · exact absurd (handshake.empty_state h) isOpen
    · cases member
  case clients => exact ⟨fun i _ => trivial, fun i _ fd isFd => by cases isFd⟩

end Inv

theorem step_server {a : SyncClientsAction F} (isServer : ∀ i, a ≠ .client i) :
    s.step stack slot buffer a = (s.serverAction slot a).bind fun b =>
      (s.server.step stack slot b).bind fun u => s.serverStep stack slot a u := by
  cases a with
  | client i => exact absurd rfl (isServer i)
  | _ => rfl

theorem step_inv (handshake : stack.Handshake) (transfers : stack.Transfers)
    (inv : Inv stack slot buffer [] s) (orderly : s.server.Orderly) {a : SyncClientsAction F}
    (moved : s.step stack slot buffer a = some t) :
    Inv stack slot buffer [] t ∧ t.server.Orderly := by
  by_cases isServer : ∀ i, a ≠ .client i
  · rw [step_server isServer] at moved
    obtain ⟨b, action, moved⟩ := Option.bind_eq_some_iff.mp moved
    obtain ⟨u, served, moved⟩ := Option.bind_eq_some_iff.mp moved
    obtain ⟨r, acts, returned⟩ := Option.bind_eq_some_iff.mp served
    have effect := (SyncServer.act_effect handshake orderly inv.blocked acts).result
      ((toOption_eq_some r u).mp returned)
    obtain ⟨t', delivered, after, server⟩ := inv.serverStep handshake transfers action effect
    cases moved.symm.trans delivered
    exact ⟨after, by rw [server]; exact SyncServer.step_orderly orderly served⟩
  · push Not at isServer
    obtain ⟨i, rfl⟩ := isServer
    rw [step] at moved
    split at moved
    next bound =>
      obtain ⟨r, goesOn, returned⟩ := Option.bind_eq_some_iff.mp moved
      obtain ⟨u, rfl, after, memory, server⟩ := inv.clientStep bound goesOn
      cases returned
      -- a client does not touch the mutexes and the table of the server
      exact ⟨after, by rw [server]; exact ⟨orderly.locked, orderly.matched⟩⟩
    · cases moved

/-- Over every run of the server and the threads of `tcp_server`: the request of a waiting client is
in one place of the server, unless its ListenReply was sent too early or its Send refused, and the
server has requests of waiting clients only; a client gets the reply to its own call; no two
clients have one socket; no client panics; and the server neither panics nor has to wait for
somebody to take a reply, it can only spin on `POLL_EPS`. -/
theorem calls_served (handshake : stack.Handshake) (transfers : stack.Transfers)
    (listens : stack.Listens) (slot : Nat) (buffer : Nat → BufferPtr) (s : SyncClients σ)
    (run : Reachable (step stack slot buffer) (init stack slot) s) :
    Exclusive SyncToken.ep (Serves slot buffer s.client) s.server.places ∧
    (∀ i < threadNum, (s.client i).phase.waits = true →
      Accounted s.server.places s.lost s.refused ⟨slot + i⟩ (s.client i).point) ∧
    (∀ i < threadNum, ∀ type value, (s.client i).phase = .replied type value →
      (s.client i).point.replyType = some type) ∧
    (∀ i j fd, (s.client i).fd = some fd → (s.client j).fd = some fd → i = j) ∧
    (∀ i < threadNum, ∀ p, s.clientStep buffer i ≠ some (.error p)) ∧
    ∀ a b r, s.serverAction slot a = some b → s.server.act stack slot b = some r →
      (∃ u t, r = .ok u ∧ s.step stack slot buffer a = some t) ∨
        (r = .error (.relock .pollEps) ∧ s.server.AnswersInLoop stack b) := by
  obtain ⟨inv, orderly⟩ : Inv stack slot buffer [] s ∧ s.server.Orderly :=
    run.invariant (fun s => Inv stack slot buffer [] s ∧ s.server.Orderly)
      ⟨.init handshake, SyncServer.orderly_init⟩
      fun s a t ok _ moved => step_inv handshake transfers ok.1 ok.2 moved
  refine ⟨inv.requests.tokens, fun i bound waits => ?_, fun i bound type value replied => ?_,
    fun i j fd => inv.sockets.own, fun i bound p failed => ?_, fun a b r action acts => ?_⟩
  · rcases inv.requests.waits i bound waits with impossible | accounted
    · cases impossible
    · exact accounted
  · have ok := inv.clients.phases i bound
    rw [SyncClient.Ok, replied] at ok
    exact ok
  · obtain ⟨t, impossible, -⟩ := inv.clientStep bound failed
    cases impossible
  · have effect := SyncServer.act_effect handshake orderly inv.blocked acts
    cases r with
    | error e =>
      obtain ⟨rfl, answers⟩ := inv.noFault listens action (effect.failure rfl)
      exact .inr ⟨rfl, answers⟩
    | ok u =>
      obtain ⟨t, delivered, -⟩ := inv.serverStep handshake transfers action (effect.result rfl)
      have served : s.server.step stack slot b = some u := by
        rw [SyncServer.step, acts]
        rfl
      have isServer : ∀ i, a ≠ .client i := by
        rintro i rfl
        cases action
      refine .inl ⟨u, t, rfl, ?_⟩
      rw [step_server isServer, action, Option.bind_some, served, Option.bind_some]
      exact delivered

/-! ### A sample run -/

/-- Two clients listen, and the first one is connected; its peer has sent a byte when it asks for
one. -/
def sampleRun : List (SyncClientsAction MiniFrame) :=
  .client 0 :: .client 1 :: .message 0 :: .message 1 :: .client 0 ::
  .signal :: .frame .syn :: .frame .ack :: .frame (.data [0x41]) :: .run ::
  .client 0 :: .client 0 :: (List.replicate 29 .silence ++ [.run, .message 0])

theorem calls_served_two :
    ∃ s, Reachable (step mini 0 fun i => BitVec.ofNat 64 i) (init mini 0) s ∧
      (s.client 0).phase = .replied .recvReply 1 ∧
      Accounted s.server.places s.lost s.refused ⟨1⟩ .listen := by
  obtain ⟨s, run, view⟩ := reachable_of_view (step mini 0 fun i => BitVec.ofNat 64 i)
    (init mini 0) sampleRun (fun s => (s.client 0, s.client 1))
    (v := (⟨.recv ⟨0⟩, .replied .recvReply 1⟩, ⟨.listen, .sent 1⟩)) (by decide +kernel)
  obtain ⟨first, second⟩ := Prod.mk.inj view
  obtain ⟨-, accounted, -⟩ := calls_served mini_handshake mini_transfers mini_listens 0 _ s run
  refine ⟨s, run, by rw [first], ?_⟩
  have waiting := accounted 1 (by decide) (by rw [second]; rfl)
  rw [second] at waiting
  exact waiting

end SyncClients

end RootTask.Net
