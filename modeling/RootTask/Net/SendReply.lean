import RootTask.Net.ListenPhase
import RootTask.Net.Pairing
import RootTask.Net.SelfDeadlock
import RootTask.Net.Serials

/-!
# Replies to Send requests

Both servers answer a Send after the `iface_poll` that follows a successful `send_slice`, and
only then. A Send that finds `can_send` false, because the transmit buffer is full or because
the connection is not open for sending, is dropped without a reply; a length beyond the
buffer panics.

## Main result

`send_answered`: if every Send is taken while its socket can send and fits the buffer, it gets
exactly one SendReply, in both servers.
-/
namespace RootTask.Net

open RootTask.Runtime RootTask.Transition RootTask.Outcome

/-! ### The asynchronous server -/

/-- The Send whose `iface_poll` is in progress. -/
def Point.sending : Point → Option Request
  | .reqPolling _ request _ => some request
  | _ => none

/-- The Send that `process_req` took and has not answered. -/
def pendingSend (polling : Option CoroutineId) (point : Nat → Point) : Option Request :=
  polling.bind fun c => (point c.val).sending

/-- Every Send that was taken is answered once or pending. -/
structure SendsOk (polling : Option CoroutineId) (point : Nat → Point) (queued : List Request)
    (submitted : Nat) (taken replies : List Request) : Prop where
  serials : SerialsOk .sendReply queued submitted taken replies
  current : ∀ i r, (point i).sending = some r → polling = some ⟨i⟩ ∧ r ∈ taken
  once : ∀ r ∈ taken, repliesTo .sendReply replies r +
    (if pendingSend polling point = some r then 1 else 0) = 1

theorem sending_update {point : Nat → Point} {j : Nat} {p : Point}
    (same : p.sending = (point j).sending) (i : Nat) :
    (Function.update point j p i).sending = (point i).sending := by
  by_cases here : i = j
  · subst here
    rw [Function.update_self]
    exact same
  · rw [Function.update_of_ne here]

/-- A point at which no Send is pending replaces another one. -/
theorem quiet_update {point : Nat → Point} (before : ∀ i, (point i).sending = none) {j : Nat}
    {p : Point} (none_ : p.sending = none) (i : Nat) :
    (Function.update point j p i).sending = none :=
  (sending_update (none_.trans (before j).symm) i).trans (before i)

namespace SendsOk

variable {polling polling' : Option CoroutineId} {point point' : Nat → Point}
  {queued : List Request} {submitted : Nat} {taken replies : List Request}

/-- Nothing is pending while the polled coroutine is elsewhere. -/
theorem quiet (ok : SendsOk polling point queued submitted taken replies)
    (elsewhere : ∀ c, polling = some c → (point c.val).sending = none) (i : Nat) :
    (point i).sending = none := by
  cases sends : (point i).sending with
  | none => rfl
  | some r =>
    have none_ := elsewhere ⟨i⟩ (ok.current i r sends).1
    exact sends.symm.trans none_

theorem pendingSend_quiet (none_ : ∀ i, (point i).sending = none) :
    pendingSend polling point = none := by
  cases polling with
  | none => rfl
  | some c => exact none_ c.val

/-- Coroutines move between points where nothing is pending. -/
theorem move (ok : SendsOk polling point queued submitted taken replies)
    (before : ∀ i, (point i).sending = none) (after : ∀ i, (point' i).sending = none) :
    SendsOk polling' point' queued submitted taken replies := by
  refine ⟨ok.serials, ?_, ?_⟩
  · intro i r sends
    rw [after i] at sends
    cases sends
  · intro r member
    have once := ok.once r member
    rw [pendingSend_quiet before] at once
    rw [pendingSend_quiet after]
    exact once

/-- A polled coroutine without a pending Send moves on, and no other one has any. -/
theorem moveQuiet (ok : SendsOk polling point queued submitted taken replies) {self : CoroutineId}
    {p q : Point} (polls : polling = some self) (at_ : point self.val = q)
    (before : q.sending = none) (after : p.sending = none) :
    SendsOk polling' (Function.update point self.val p) queued submitted taken replies := by
  have quiet : ∀ i, (point i).sending = none := by
    apply ok.quiet
    intro c polls'
    cases polls.symm.trans polls'
    rw [at_]
    exact before
  exact ok.move quiet (quiet_update quiet after)

/-- At most the polled coroutine has a pending Send. -/
theorem others (ok : SendsOk polling point queued submitted taken replies) {self : CoroutineId}
    (polls : polling = some self) {i : Nat} (different : i ≠ self.val) :
    (point i).sending = none := by
  cases isSending : (point i).sending with
  | none => rfl
  | some r =>
    cases polls.symm.trans (ok.current i r isSending).1
    exact absurd rfl different

/-- Points change, but not for a pending Send. -/
theorem same (ok : SendsOk polling point queued submitted taken replies)
    (sends : ∀ i, (point' i).sending = (point i).sending) :
    SendsOk polling point' queued submitted taken replies := by
  refine ⟨ok.serials, ?_, ?_⟩
  · intro i r isSending
    rw [sends] at isSending
    exact ok.current i r isSending
  · intro r member
    -- from now on the coroutine is in `iface_poll` with the request
    have pending : pendingSend polling point' = pendingSend polling point := by
      cases polling with
      | none => rfl
      | some c => exact sends c.val
    rw [pending]
    exact ok.once r member

theorem submit (ok : SendsOk polling point queued submitted taken replies) (item : IPCItem) :
    SendsOk polling point (queued ++ [⟨submitted, item⟩]) (submitted + 1) taken replies :=
  ⟨ok.serials.submit item, ok.current, ok.once⟩

theorem otherReply (ok : SendsOk polling point queued submitted taken replies) (reply : Request)
    (type : reply.item.msgInfo ≠ MessageType.sendReply.toBits) :
    SendsOk polling point queued submitted taken (replies ++ [reply]) := by
  refine ⟨ok.serials.reply fun isSend => absurd isSend type, ok.current, ?_⟩
  intro r member
  rw [repliesTo_append_of_type type]
  exact ok.once r member

theorem pop {request : Request} {rest : List Request}
    (ok : SendsOk polling point (request :: rest) submitted taken replies) :
    SendsOk polling point rest submitted taken replies ∧
      FreshRequest .sendReply rest submitted taken replies request := by
  obtain ⟨serials, fresh⟩ := ok.serials.pop
  exact ⟨⟨serials, ok.current, ok.once⟩, fresh⟩

/-- `process_req` takes a Send and enters `iface_poll`. -/
theorem take (ok : SendsOk polling point queued submitted taken replies) {request : Request}
    (fresh : FreshRequest .sendReply queued submitted taken replies request) {self : CoroutineId}
    (polls : polling = some self) (before : ∀ i, (point i).sending = none) (cnt size : Nat) :
    SendsOk polling (Function.update point self.val (.reqPolling cnt request size)) queued
      submitted (taken ++ [request]) replies := by
  have pending : pendingSend polling
      (Function.update point self.val (.reqPolling cnt request size)) = some request := by
    simp [pendingSend, polls, Point.sending]
  refine ⟨ok.serials.take fresh, ?_, ?_⟩
  · intro i r sends
    by_cases here : i = self.val
    · subst here
      rw [Function.update_self] at sends
      cases sends
      exact ⟨polls, by simp⟩
    · rw [Function.update_of_ne here, before i] at sends
      cases sends
  · intro r member
    rw [pending]
    rcases List.mem_append.mp member with old | new
    · have once := ok.once r old
      have different : request ≠ r := by
        rintro rfl
        exact fresh.untaken _ old rfl
      rw [pendingSend_quiet before] at once
      simpa [different] using once
    · obtain rfl := List.mem_singleton.mp new
      simp [fresh.repliesTo]

/-- The pending Send is answered. -/
theorem answer (ok : SendsOk polling point queued submitted taken replies) {self : CoroutineId}
    (polls : polling = some self) {cnt size : Nat} {request : Request}
    (at_ : point self.val = .reqPolling cnt request size)
    (after : ∀ i, (point' i).sending = none) :
    SendsOk polling' point' queued submitted taken
      (replies ++ [⟨request.serial, MessageBuilder.sendReply request.item.cid size⟩]) := by
  have pending : pendingSend polling point = some request := by
    simp [pendingSend, polls, at_, Point.sending]
  -- the reply is to a request that was taken, so its number is not queued again
  have mine : request ∈ taken := (ok.current self.val request (by rw [at_]; rfl)).2
  refine ⟨ok.serials.reply fun _ => ok.serials.known request mine, ?_, ?_⟩
  · intro i r sends
    rw [after i] at sends
    cases sends
  · intro r member
    have once := ok.once r member
    rw [pending] at once
    rw [pendingSend_quiet after]
    by_cases isSame : r = request
    · subst isSame
      simp only [if_true] at once
      simp [repliesTo_append, isReplyTo, MessageBuilder.sendReply]
      omega
    · -- another request has another serial number
      have different : request.serial ≠ r.serial := fun equal =>
        isSame (ok.serials.unique mine member equal).symm
      rw [repliesTo_append_of_serial different]
      simpa [Ne.symm isSame] using once

end SendsOk

namespace AsyncServer

variable {σ F : Type} (stack : Smoltcp σ F)

abbrev Sends (s : AsyncServer σ) : Prop :=
  SendsOk s.polling s.point s.buffer.reqItems.items s.submitted s.sendsTaken s.replies

abbrev pending (s : AsyncServer σ) : Option Request := pendingSend s.polling s.point

/-- The Send that the next step of `nw_recv_req_coroutine` takes. -/
def nextSend (s : AsyncServer σ) : Option Request :=
  s.polling.bind fun self =>
    match s.point self.val, s.buffer.reqItems.getFirstItem with
    | .reqLoop _, some (request, _) =>
      match MessageDecoder.getType request.item with
      | .ok .send => some request
      | _ => none
    | _, _ => none

/-- The socket of a Send exists and can send, and the bytes fit a buffer. -/
def CanTake (s : AsyncServer σ) (request : Request) : Prop :=
  (stack.state s.net.sockets (socketOf request)).isSome = true ∧
    stack.canSend s.net.sockets (socketOf request) = true ∧
    MessageDecoder.getLen request.item ≤ tcpTxBufLen

/-- A Send is taken when its socket can take it, its reply finds room in `res_items`, and a
coroutine that a frame wakes meanwhile finds room in its ready queue. -/
def SendsPass (s : AsyncServer σ) : AsyncAction F → Prop
  | .run => (∀ r ∈ s.nextSend, s.CanTake stack r) ∧
      ∀ _r ∈ s.pending, s.buffer.resItems.items.length < maxItemNum
  | .frame f => ∀ _r ∈ s.pending, ∀ _c ∈ s.net.wokenBy stack f,
      (s.executor.queue 2).length + 1 ≠ maxTaskNum
  | _ => True

/-- What is promised of Send requests, at a state. -/
structure AnswersSends (s : AsyncServer σ) : Prop where
  /-- Every Send that was taken has one reply, or is pending and has none. -/
  once : ∀ r ∈ s.sendsTaken,
    (repliesTo .sendReply s.replies r = 1 ∧ s.pending ≠ some r) ∨
    (repliesTo .sendReply s.replies r = 0 ∧ s.pending = some r)
  /-- The step that takes a Send does not fail. -/
  taken : ∀ r ∈ s.nextSend, s.SendsPass stack (.run : AsyncAction F) →
    ∃ t, s.step stack .run = some t ∧ t.pending = some r
  /-- Frames that arrive while it is pending do not stop the server. -/
  received : ∀ r ∈ s.pending, ∀ f, s.SendsPass stack (.frame f) →
    ∃ t, s.step stack (.frame f) = some t ∧ t.pending = some r
  /-- The write of the reply does not fail, and the reply is the one that was missing. -/
  written : ∀ r ∈ s.pending, s.SendsPass stack (.run : AsyncAction F) →
    (∃ size t, (s.endPoll stack).writeReply r.serial (MessageBuilder.sendReply r.item.cid size) =
      .ok t) ∧
    ∀ t, s.step stack .run = some t → repliesTo .sendReply t.replies r = 1

private theorem otherType (type : MessageType) (different : type ≠ .sendReply) :
    type.toBits ≠ MessageType.sendReply.toBits :=
  fun same => different (MessageType.toBits_inj same)

theorem sends_init : (init stack).Sends :=
  ⟨.empty, fun _ _ sends => (by cases sends), nofun⟩

variable {stack} {s t : AsyncServer σ} {self : CoroutineId}

/-- Where `process_req` ends its iteration, nothing is pending. -/
theorem Iterated.quiet (iterated : s.Iterated self t)
    (others : ∀ i ≠ self.val, (s.point i).sending = none) (i : Nat) :
    (t.point i).sending = none := by
  by_cases here : i = self.val
  · subst here
    cases iterated with
    | again e n wakes => simp [goto, Point.sending]
    | switched e wakes => simp [suspend, goto, Point.sending]
  · cases iterated with
    | again e n wakes =>
      change (Function.update s.point self.val _ i).sending = none
      rw [Function.update_of_ne here]
      exact others i here
    | switched e wakes =>
      change (Function.update s.point self.val _ i).sending = none
      rw [Function.update_of_ne here]
      exact others i here

/-- The fields that the ledger of Sends reads, apart from the points. -/
theorem Iterated.same (iterated : s.Iterated self t) :
    t.buffer = s.buffer ∧ t.submitted = s.submitted ∧ t.sendsTaken = s.sendsTaken ∧
      t.replies = s.replies := by
  cases iterated <;> exact ⟨rfl, rfl, rfl, rfl⟩

theorem Iterated.sends (iterated : s.Iterated self t) (before : ∀ i, (s.point i).sending = none)
    (sends : s.Sends) : t.Sends := by
  obtain ⟨buffer, submitted, taken, replies⟩ := iterated.same
  have after := iterated.quiet fun i _ => before i
  have moved : SendsOk t.polling t.point s.buffer.reqItems.items s.submitted s.sendsTaken
      s.replies := sends.move before after
  rw [← buffer, ← submitted, ← taken, ← replies] at moved
  exact moved

/-- `process_req` on anything but a Send that the socket takes. -/
theorem Handled.sends {request : Request} (handled : Handled stack s request t)
    (transfers : stack.Transfers) (before : ∀ i, (s.point i).sending = none) (sends : s.Sends)
    (can : MessageDecoder.getType request.item = .ok .send → s.CanTake stack request) :
    t.Sends ∧ ∀ i, (t.point i).sending = none := by
  cases handled with
  | poll e woken => exact ⟨sends, before⟩
  | listen cid runtime body isAccept spawned =>
    have after : ∀ i, (Function.update s.point cid.val (.fresh body) i).sending = none :=
      quiet_update before rfl
    exact ⟨sends.move before after, after⟩
  | dropSend type refused =>
    -- a dropped Send was one that the socket could not take
    obtain ⟨data, failed⟩ := refused (can type).2.1
    exact absurd failed (transfers.send_ne_error (can type).2.1 data)
  | recv size s₁ _ _ received replied =>
    obtain ⟨items, -, rfl⟩ := writeReply_ok replied
    obtain ⟨len, bytes, sockets, -, rfl⟩ := recvInto_ok stack received
    exact ⟨sends.otherReply _ (otherType .recvReply nofun), before⟩
  | dropRecv _ _ => exact ⟨sends, before⟩
  | handOver _ _ _ handed =>
    obtain ⟨cid, e, -, -, rfl⟩ := handOver_ok handed
    exact ⟨sends, before⟩

theorem Ran.sends (ran : Ran stack s self t) (transfers : stack.Transfers) (sends : s.Sends)
    (polls : s.polling = some self) (pass : s.SendsPass stack (.run : AsyncAction F)) :
    t.Sends := by
  -- apart from the answer, the polled coroutine is where nothing is pending
  have quiet : (s.point self.val).sending = none → ∀ i, (s.point i).sending = none := by
    intro none_
    apply sends.quiet
    intro c polls'
    cases polls.symm.trans polls'
    exact none_
  cases ran with
  | jump p jumps =>
    generalize at_ : s.point self.val = q at jumps
    exact sends.moveQuiet polls at_ (by cases jumps <;> rfl) (by cases jumps <;> rfl)
  | resume next value lib resumes taken =>
    generalize at_ : s.point self.val = q at resumes
    exact sends.moveQuiet polls at_ (by cases resumes <;> rfl) (by cases resumes <;> rfl)
  | endPoll at_ => exact sends.moveQuiet polls at_ rfl rfl
  | noItem cnt at_ empty => exact sends.moveQuiet polls at_ rfl rfl
  | handle cnt request items s₁ _ at_ popped handled iterated =>
    have before := quiet (by rw [at_]; rfl)
    have shape := ItemsQueue.getFirstItem_some popped
    have sends' : SendsOk s.polling s.point (request :: items.items) s.submitted s.sendsTaken
        s.replies := shape ▸ sends
    obtain ⟨sends₁, after⟩ := handled.sends transfers before sends'.pop.1 fun type =>
      pass.1 request (by simp [nextSend, polls, at_, popped, type])
    exact iterated.sends after sends₁
  | send cnt size request items sockets _ at_ popped sending =>
    obtain ⟨-, -, -, -, rfl⟩ := sending
    have before := quiet (by rw [at_]; rfl)
    have shape := ItemsQueue.getFirstItem_some popped
    have sends' : SendsOk s.polling s.point (request :: items.items) s.submitted s.sendsTaken
        s.replies := shape ▸ sends
    obtain ⟨sends₁, fresh⟩ := sends'.pop
    exact sends₁.take fresh polls before (cnt + 1) size
  | sendReply cnt size request s₁ _ at_ replied iterated =>
    obtain ⟨items, -, rfl⟩ := writeReply_ok replied
    obtain ⟨buffer, submitted, taken, replies⟩ := iterated.same
    have after := iterated.quiet fun i different => sends.others polls different
    -- the only Send that was pending gets its reply
    have answered : SendsOk t.polling t.point _ _ _ _ := sends.answer polls at_ after
    unfold Sends
    rw [buffer, submitted, taken, replies]
    exact answered
  | listen cid port serial handler sockets table at_ opened registered =>
    exact sends.moveQuiet polls at_ rfl rfl
  | accept cid port serial handler handle tuple net s₁ at_ accepted replied =>
    obtain ⟨items, -, rfl⟩ := writeReply_ok replied
    obtain ⟨en, rest, -, -, -, rfl⟩ := NetState.accept_ok stack accepted
    have replied := sends.otherReply ⟨serial, MessageBuilder.listenReply cid handle⟩
      (otherType .listenReply nofun)
    exact replied.moveQuiet polls at_ rfl rfl
  | wait at_ => exact sends.moveQuiet polls at_ rfl rfl
  | recvReply request size s₁ s₂ at_ received replied =>
    obtain ⟨items, -, rfl⟩ := writeReply_ok replied
    obtain ⟨len, bytes, sockets, -, rfl⟩ := recvInto_ok stack received
    have replied := sends.otherReply ⟨request.serial,
      MessageBuilder.recvReply request.item.cid size⟩ (otherType .recvReply nofun)
    exact replied.moveQuiet polls at_ rfl rfl
  | recvFailed request at_ can failed => exact sends.moveQuiet polls at_ rfl rfl
  | recvBusy request e at_ woken => exact sends.moveQuiet polls at_ rfl rfl

theorem Booted.sends (booted : s.Booted t) (ok : s.Ok) (sends : s.Sends) : t.Sends := by
  obtain ⟨poller, cid, runtime, runtime', allocator, first, second⟩ := booted
  have ok₁ := ok.spawn first nofun
  have at_ := (ok.dead poller.val (ok.table.fresh first)).1
  have at' := (ok₁.dead cid.val (ok₁.table.fresh second)).1
  have sends₁ : SendsOk s.polling (Function.update s.point poller.val (.fresh .netPoll)) _ _ _ _ :=
    sends.same (sending_update (by rw [at_]))
  have fresh : (Point.fresh .nwRecvReq).sending =
      (Function.update s.point poller.val (.fresh .netPoll) cid.val).sending := by rw [at']; rfl
  exact sends₁.same (sending_update fresh)

theorem step_sends (transfers : stack.Transfers) {a : AsyncAction F} (ok : s.Ok) (sends : s.Sends)
    (pass : s.SendsPass stack a) (moved : s.step stack a = some t) : t.Sends := by
  cases step_moved stack moved with
  | boot _ booted => exact booted.sends ok sends
  | fetch task e idle fetched =>
    -- no coroutine is polled, so none is between its `send_slice` and its reply
    have quiet := sends.quiet fun c polls => by
      rw [idle] at polls
      cases polls
    exact sends.move quiet quiet
  | run self _ polls ran => exact ran.sends transfers sends polls pass
  | frame f self net polls inPoll received => exact sends
  | interrupt vec cid e known delayed => exact sends
  | submit item items written =>
    change SendsOk _ _ items.items _ _ _
    rw [written]
    exact sends.submit item
  | tookReply reply items popped => exact sends
  | noReply empty => exact sends
  | store buffer bytes => exact sends

theorem pending_some {r : Request} (isPending : s.pending = some r) :
    ∃ self cnt size, s.polling = some self ∧ s.point self.val = .reqPolling cnt r size := by
  obtain ⟨self, polls, sends⟩ := Option.bind_eq_some_iff.mp isPending
  refine ⟨self, ?_⟩
  generalize s.point self.val = p at sends
  cases p with
  | reqPolling cnt request size =>
    cases sends
    exact ⟨cnt, size, polls, rfl⟩
  | _ => cases sends

/-- A frame is received, whatever it is, if the coroutine that it wakes finds room. -/
theorem frame_total (ok : s.Ok) (paired : s.Paired) {f : F}
    (room : ∀ _c ∈ s.net.wokenBy stack f, (s.executor.queue 2).length + 1 ≠ maxTaskNum) :
    ∃ t, s.frame stack f = .ok t := by
  have received : ∃ net, s.net.receive stack ifaceLocks f = .ok net := by
    apply NetState.receive_total
    · intro port
      simp [ifaceLocks]
    · intro c woken
      -- a blocked coroutine is live and has priority 2
      obtain ⟨en, admitted, first⟩ := Option.bind_eq_some_iff.mp woken
      obtain ⟨seg, -, -, found, -⟩ := (NetState.admitting_some stack).mp admitted
      have isBlocked : c ∈ (s.net.listenTable.entry seg.dst.port).blockCids := by
        rw [ListenTable.entry_of_some found]
        exact List.mem_of_mem_head? first
      obtain ⟨cid, serial, h, at_⟩ := (paired.blocked _ c isBlocked).2
      have phase : (s.point c.val).acceptPhase = true := by rw [at_]; rfl
      obtain ⟨task, live⟩ := ok.live_of_acceptPhase phase
      have two := ok.prio c.val task phase live
      obtain ⟨e, wakes⟩ := Executor.wake_total (ok.bound c.val (by rw [live]; nofun)) live
        (by rw [two]; decide) (by rw [two]; exact room c woken)
      have wakes' : s.net.lib.executor.wake c = .ok e := wakes
      exact ⟨_, by rw [AsyncState.wake, wakes']; rfl⟩
    · intro en admitted
      obtain ⟨seg, -, -, found, -⟩ := (NetState.admitting_some stack).mp admitted
      exact .inl (paired.plain _ en found).2
  obtain ⟨net, received⟩ := received
  exact ⟨_, by rw [frame, received]; rfl⟩

/-- A Send that its socket can take is taken. -/
theorem nextSend_taken (transfers : stack.Transfers) {r : Request} (next : s.nextSend = some r)
    (can : s.CanTake stack r) : ∃ t, s.step stack .run = some t ∧ t.pending = some r := by
  obtain ⟨self, polls, next⟩ := Option.bind_eq_some_iff.mp next
  split at next
  next cnt request items at_ popped =>
    split at next
    next type =>
      cases next
      obtain ⟨state, canSend, fits⟩ := can
      obtain ⟨opened, state⟩ := Option.isSome_iff_exists.mp state
      obtain ⟨size, sockets, sent⟩ := transfers.send_ok canSend
        ((List.range (MessageDecoder.getLen r.item)).map
          (s.memory (MessageDecoder.getBuffer r.item)))
      have processed : s.run stack self = .ok
          (({ s with
            buffer := { s.buffer with reqItems := items }
            sendsTaken := s.sendsTaken ++ [r] }.setSockets sockets).goto self
              (.reqPolling (cnt + 1) r size)) := by
        simp [run, at_, recvReq, popped, processReq, type, processSend, state, canSend, fits, sent,
          Except.bind]
      have moved : s.step stack .run = (s.run stack self).toOption := by
        change (s.polling.bind fun self => (s.run stack self).toOption) = _
        rw [polls, Option.bind_some]
      rw [processed] at moved
      refine ⟨_, moved, ?_⟩
      simp [pending, pendingSend, setSockets, goto, polls, Point.sending]
    · cases next
  · cases next

/-- The three invariants of a run whose Sends pass. -/
theorem Reaches.sends (transfers : stack.Transfers)
    (run : Reaches (step stack) (SendsPass stack) (init stack) s) : (s.Ok ∧ s.Paired) ∧ s.Sends := by
  apply run.invariant (fun s => (s.Ok ∧ s.Paired) ∧ s.Sends)
    ⟨⟨ok_init stack, paired_init stack⟩, sends_init stack⟩
  rintro s a t ⟨⟨ok, paired⟩, sends⟩ pass moved
  exact ⟨⟨step_ok ok moved, step_paired ok paired moved⟩, step_sends transfers ok sends pass moved⟩

theorem Reaches.answersSends (transfers : stack.Transfers)
    (run : Reaches (step stack) (SendsPass stack) (init stack) s) : s.AnswersSends stack := by
  obtain ⟨⟨ok, paired⟩, sends⟩ := Reaches.sends transfers run
  constructor
  case once =>
    intro r member
    have once := sends.once r member
    split at once
    -- pending and answered add up to one
    next isPending => exact .inr ⟨by omega, isPending⟩
    next other => exact .inl ⟨by omega, other⟩
  case taken => exact fun r next pass => nextSend_taken transfers next (pass.1 r next)
  case received =>
    intro r isPending f pass
    obtain ⟨self, cnt, size, polls, at_⟩ := pending_some isPending
    obtain ⟨t, received⟩ := frame_total ok paired (pass r isPending)
    refine ⟨t, by simp [step, polls, at_, Point.inIfacePoll, received, Except.toOption], ?_⟩
    obtain ⟨net, -, rfl⟩ := map_ok.mp received
    exact isPending
  case written =>
    intro r isPending pass
    obtain ⟨self, cnt, size, polls, at_⟩ := pending_some isPending
    refine ⟨⟨size, ?_⟩, ?_⟩
    -- the queue of replies has room
    · have room := pass.2 r isPending
      have written : ∃ items, s.buffer.resItems.writeFreeItem
          ⟨r.serial, MessageBuilder.sendReply r.item.cid size⟩ = .ok items := by
        unfold ItemsQueue.writeFreeItem
        rw [dif_pos room]
        exact ⟨_, rfl⟩
      obtain ⟨items, written⟩ := written
      have written' : (s.endPoll stack).buffer.resItems.writeFreeItem
          ⟨r.serial, MessageBuilder.sendReply r.item.cid size⟩ = .ok items := written
      exact ⟨_, by rw [writeReply, written']⟩
    · intro t moved
      -- the successor is a state of such a run as well, and nothing is pending in it
      have after := (Reaches.sends transfers (.next run pass moved)).2
      obtain ⟨_, polls', moved⟩ := Option.bind_eq_some_iff.mp moved
      cases polls.symm.trans polls'
      simp only [AsyncServer.run, at_] at moved
      obtain ⟨s₁, replied, iterated⟩ := bind_ok.mp ((toOption_eq_some _ _).mp moved)
      obtain ⟨items, -, rfl⟩ := writeReply_ok replied
      have iterated := afterItem_ok iterated
      have mine : r ∈ t.sendsTaken := by
        rw [iterated.same.2.2.1]
        exact (sends.current self.val r (by rw [at_]; rfl)).2
      have quiet : pendingSend t.polling t.point = none := by
        apply SendsOk.pendingSend_quiet
        exact iterated.quiet fun i different => sends.others polls different
      have once := after.once r mine
      rw [quiet] at once
      simpa using once

end AsyncServer

/-! ### The synchronous server -/

/-- How many SendReplies were sent on an endpoint. -/
def sendReplies (sent : List EpMessage) (ep : Endpoint) : Nat :=
  sent.countP fun m => m.ep == ep && m.type == .sendReply

theorem sendReplies_append (sent added : List EpMessage) (ep : Endpoint) :
    sendReplies (sent ++ added) ep = sendReplies sent ep + sendReplies added ep :=
  List.countP_append

theorem sendReplies_other {added : List EpMessage} (types : ∀ m ∈ added, m.type ≠ .sendReply)
    (ep : Endpoint) : sendReplies added ep = 0 := by
  rw [sendReplies, List.countP_eq_zero]
  intro m member counted
  simp only [Bool.and_eq_true, beq_iff_eq] at counted
  exact types m member counted.2

/-- A frame sends no SendReply. -/
theorem NetState.receive_sendReplies {σ F φ T : Type} {stack : Smoltcp σ F} {n n' : NetState σ φ T}
    {held : List SpinMutex} {f : F} (received : n.receive stack held f = .ok n') (ep : Endpoint) :
    sendReplies n'.sent ep = sendReplies n.sent ep := by
  obtain ⟨m, snooped, rfl⟩ := receive_ok stack received
  cases snooped with
  | ignored _ => rfl
  | admitted seg en en' n₁ _ isTcp first found admits woke answered =>
    have same : n₁.sent = n.sent := by
      rcases wakeBlocked_ok woke with ⟨-, -, rfl⟩ | ⟨_, _, _, -, -, -, rfl⟩ <;> rfl
    rcases answerBlocked_ok answered with ⟨-, rfl⟩ | ⟨ep', _, handler, _, -, -, -, rfl⟩
    · exact congrArg (sendReplies · ep) same
    · have none_ : sendReplies [⟨ep', .listenReply, handler.index⟩] ep = 0 :=
        sendReplies_other (by simp) ep
      change sendReplies (n₁.sent ++ [⟨ep', .listenReply, handler.index⟩]) ep = _
      rw [sendReplies_append, same, none_, Nat.add_zero]

namespace SyncServer

variable {σ F : Type} (stack : Smoltcp σ F) (slot : Nat)

/-- The sender of the Send that `process_req` took and has not answered. -/
def pendingEp (s : SyncServer σ) : Option Endpoint :=
  match s.polling with
  | some (.processReq ep _) => some ep
  | _ => none

/-- The socket of a Send exists and can send, and the bytes fit a buffer. -/
def CanTake (s : SyncServer σ) (regs : MsgRegs) : Prop :=
  (stack.state s.net.sockets regs.handler).isSome = true ∧
    stack.canSend s.net.sockets regs.handler = true ∧ regs.len ≤ tcpTxBufLen

/-- A Send is taken when its socket can take it, and no frame makes the thread spin before the
reply. -/
def SendsPass (s : SyncServer σ) : SyncAction F → Prop
  | .nbRecv badge regs => badge = 0 ∨ badge = 1 ∨ regs.type ≠ .send ∨ s.CanTake stack regs
  | .frame f => s.pendingEp = none ∨ ¬ s.AnswersInLoop stack (.frame f)
  | _ => True

/-- What is promised of Send requests, at a state. -/
structure AnswersSends (s : SyncServer σ) : Prop where
  /-- As many replies as Sends, but for the one that is pending. -/
  once : ∀ ep, sendReplies s.net.sent ep + (if s.pendingEp = some ep then 1 else 0) =
    s.sendsTaken.count ep
  /-- The step that takes a Send does not fail. -/
  taken : ∀ badge regs, s.polling = none → ∀ ep ∈ s.nextEp, badge ≠ 0 → badge ≠ 1 →
    regs.type = .send → s.SendsPass stack (.nbRecv badge regs) →
    ∃ t, s.step stack slot (.nbRecv badge regs) = some t ∧ t.pendingEp = some ep
  /-- Frames that arrive while it is pending do not stop the server. -/
  received : ∀ ep ∈ s.pendingEp, ∀ f, s.SendsPass stack (.frame f) →
    ∃ t, s.step stack slot (.frame f) = some t ∧ t.pendingEp = some ep
  /-- The reply follows. -/
  written : ∀ ep ∈ s.pendingEp, ∃ t, s.step stack slot (.run : SyncAction F) = some t ∧
    t.pendingEp = none ∧ sendReplies t.net.sent ep = sendReplies s.net.sent ep + 1

/-- The books on Sends. -/
def Balanced (s : SyncServer σ) : Prop :=
  ∀ ep, sendReplies s.net.sent ep + (if s.pendingEp = some ep then 1 else 0) =
    s.sendsTaken.count ep

variable {stack slot} {s t : SyncServer σ}

theorem pendingEp_none (outside : s.polling = none) : s.pendingEp = none := by
  rw [pendingEp, outside]

/-- Nothing is pending before or after, and nothing else concerns the books. -/
theorem Balanced.same (balanced : s.Balanced) (before : s.pendingEp = none)
    (after : t.pendingEp = none) (sent : ∀ ep, sendReplies t.net.sent ep = sendReplies s.net.sent ep)
    (taken : t.sendsTaken = s.sendsTaken) : t.Balanced := by
  intro ep
  have books := balanced ep
  rw [before] at books
  rw [after, sent ep, taken]
  exact books

theorem Replied.sendReplies (replied : s.Replied t) (ep : Endpoint) :
    Net.sendReplies t.net.sent ep = Net.sendReplies s.net.sent ep := by
  obtain ⟨sockets, memory, replies, types⟩ := replied
  have none_ : Net.sendReplies replies ep = 0 :=
    sendReplies_other (fun m member => by rw [types m member]; nofun) ep
  change Net.sendReplies (s.net.sent ++ replies) ep = _
  rw [sendReplies_append, none_, Nat.add_zero]

theorem Handled.balanced {ep : Endpoint} {regs : MsgRegs} (handled : Handled stack s ep regs t)
    (transfers : stack.Transfers) (outside : s.polling = none) (balanced : s.Balanced)
    (can : regs.type = .send → s.CanTake stack regs) : t.Balanced := by
  have before := pendingEp_none outside
  cases handled with
  | listen handler sockets table _ _ _ => exact balanced.same before before (fun _ => rfl) rfl
  | recv _ _ replied =>
    have sent := replied.sendReplies
    cases replied
    exact balanced.same before before sent rfl
  | block _ => exact balanced.same before before (fun _ => rfl) rfl
  | send size sockets _ _ _ =>
    intro ep'
    have books := balanced ep'
    rw [before] at books
    -- one more Send taken, and it is the one that is now pending
    change Net.sendReplies s.net.sent ep' + (if some ep = some ep' then 1 else 0) =
      (s.sendsTaken ++ [ep]).count ep'
    rw [List.count_append, List.count_singleton]
    simpa using books
  | dropSend type refused =>
    obtain ⟨data, failed⟩ := refused (can type).2.1
    exact absurd failed (transfers.send_ne_error (can type).2.1 data)
  | other _ _ => exact balanced

theorem Moved.balanced {a : SyncAction F} (moved : Moved stack slot s a t)
    (transfers : stack.Transfers) (balanced : s.Balanced) (pass : s.SendsPass stack a) :
    t.Balanced := by
  have advances : ∀ {ep heard u}, s.Advanced ep heard u → s.polling = none →
      u.Balanced ∧ u.polling = none ∧ u.net = s.net := by
    intro ep heard u advanced outside
    cases advanced <;> exact ⟨balanced, outside, rfl⟩
  cases moved with
  | interrupt outside at_ => exact balanced.same (pendingEp_none outside) rfl (fun _ => rfl) rfl
  | serve badge outside at_ => exact balanced
  | nothing ep regs _ outside advanced => exact (advances advanced outside).1
  | interrupted ep regs s₁ outside advanced =>
    obtain ⟨balanced₁, outside₁, -⟩ := advances advanced outside
    exact balanced₁.same (pendingEp_none outside₁) rfl (fun _ => rfl) rfl
  | request ep badge regs s₁ _ outside advanced noNothing noInterrupt handled =>
    obtain ⟨balanced₁, outside₁, net⟩ := advances advanced outside
    apply handled.balanced transfers outside₁ balanced₁
    intro type
    rcases pass with nothing | interrupt | other | can
    · exact absurd nothing noNothing
    · exact absurd interrupt noInterrupt
    · exact absurd type other
    · rw [CanTake, net]
      exact can
  | frame caller f net inside received =>
    intro ep
    have books := balanced ep
    rw [← NetState.receive_sendReplies received ep] at books
    exact books
  | returned inside busy =>
    exact balanced.same (by rw [pendingEp, inside]) rfl (fun _ => rfl) rfl
  | returnedIdle inside at_ =>
    exact balanced.same (by rw [pendingEp, inside]) rfl (fun _ => rfl) rfl
  | sent ep size inside =>
    intro ep'
    have books := balanced ep'
    have pending : s.pendingEp = some ep := by rw [pendingEp, inside]
    rw [pending] at books
    change Net.sendReplies (s.net.sent ++ [⟨ep, .sendReply, size⟩]) ep' + 0 =
      s.sendsTaken.count ep'
    -- the reply takes the place of the pending Send
    rw [sendReplies_append, ← books]
    by_cases same : ep = ep'
    · simp [Net.sendReplies, same]
    · simp [Net.sendReplies, same]
  | passEnd listenCnt outside at_ =>
    unfold endListenPass
    split <;> exact balanced
  | served tasks t outside at_ replied =>
    have sent := replied.sendReplies
    cases replied
    exact balanced.same (pendingEp_none outside) (pendingEp_none outside) sent rfl
  | store buffer bytes => exact balanced

theorem balanced_init : (init stack slot).Balanced := fun _ => rfl

/-- The thread receives a frame that does not make it spin. -/
theorem frame_total (orderly : s.Orderly) {caller : Caller} (inside : s.polling = some caller)
    {f : F} (quiet : ¬ s.AnswersInLoop stack (.frame f)) :
    ∃ net, s.net.receive stack s.held f = .ok net := by
  have matched : ∀ en ∈ s.net.admitting stack f, en.Matched := by
    intro en admitted
    obtain ⟨seg, -, -, found, -⟩ := (NetState.admitting_some stack).mp admitted
    exact orderly.matched _ en found
  apply NetState.receive_total
  · exact orderly.locked.entries inside
  · intro c woken
    -- no coroutine waits here
    obtain ⟨en, admitted, first⟩ := Option.bind_eq_some_iff.mp woken
    rw [(matched en admitted).1] at first
    cases first
  · intro en admitted
    by_cases nobody : en.blockEp = []
    · exact .inl nobody
    · right
      refine ⟨fun drained => nobody ?_, fun taken => quiet ?_⟩
      · have lengths := (matched en admitted).2
        rw [drained] at lengths
        exact List.length_eq_zero_iff.mp lengths.symm
      · have inLoop : SpinMutex.pollEps ∈ s.loop.locks := by
          simpa [orderly.locked.inside inside] using taken
        refine ⟨by rw [inside]; rfl, Loop.locks_of_mem inLoop, ?_⟩
        obtain ⟨ep, eps, waiting⟩ := List.exists_cons_of_ne_nil nobody
        have isAdmitting : s.net.admitting stack f = some en := admitted
        simp [NetState.answered, isAdmitting, waiting]

/-- A Send that its socket can take is taken. -/
theorem processSend_eq (transfers : stack.Transfers) (held : s.held = s.loop.locks)
    (ep : Endpoint) {regs : MsgRegs} (can : s.CanTake stack regs) :
    ∃ t, s.processSend stack ep regs = .ok t ∧ t.pendingEp = some ep := by
  obtain ⟨state, canSend, fits⟩ := can
  obtain ⟨opened, state⟩ := Option.isSome_iff_exists.mp state
  obtain ⟨size, sockets, sent⟩ := transfers.send_ok canSend
    ((List.range regs.len).map (s.memory regs.buffer))
  have free : SpinMutex.socketSet ∉ s.held := held ▸ Loop.free nofun
  have began := beginPoll_eq (s := { s with sendsTaken := s.sendsTaken ++ [ep] }.setSockets sockets)
    held (.processReq ep size)
  -- `iface_poll` begins with both of its mutexes free
  refine ⟨({ s with sendsTaken := s.sendsTaken ++ [ep] }.setSockets sockets).polls
    (.processReq ep size), ?_, rfl⟩
  simp only [processSend, lock_free free, Except.bind, state, canSend, if_true, if_pos fits, sent]
  exact began

theorem nextSend_taken (transfers : stack.Transfers) (locked : s.Locked) {badge : Nat}
    {regs : MsgRegs} (outside : s.polling = none) {ep : Endpoint} (next : s.nextEp = some ep)
    (noNothing : badge ≠ 0) (noInterrupt : badge ≠ 1) (type : regs.type = .send)
    (can : s.CanTake stack regs) :
    ∃ t, s.step stack slot (.nbRecv badge regs) = some t ∧ t.pendingEp = some ep := by
  have held := locked.outside outside
  unfold nextEp at next
  split at next
  next rest listenCnt at_ =>
    obtain ⟨tail, rfl⟩ := List.head?_eq_some_iff.mp next
    rw [at_] at held
    obtain ⟨t, processed, isPending⟩ := processSend_eq (s := { s with
      loop := .listening tail (listenCnt + 1)
      heard := s.heard ++ [ep] }) transfers held ep can
    refine ⟨t, ?_, isPending⟩
    simp only [step, act, outside, at_, listenBody, if_neg noNothing, if_neg noInterrupt,
      processReq, type, Option.bind_some]
    rw [outside] at processed
    rw [processed]
    rfl
  · cases next
  next rest at_ =>
    obtain ⟨tail, rfl⟩ := List.head?_eq_some_iff.mp next
    rw [at_] at held
    obtain ⟨t, processed, isPending⟩ := processSend_eq (s := { s with loop := .serving tail })
      transfers held ep can
    refine ⟨t, ?_, isPending⟩
    simp only [step, act, outside, at_, serveBody, if_neg noNothing, if_neg noInterrupt,
      processReq, type, Option.bind_some]
    rw [outside] at processed
    rw [processed]
    rfl

theorem pendingEp_some {ep : Endpoint} (isPending : s.pendingEp = some ep) :
    ∃ size, s.polling = some (.processReq ep size) := by
  unfold pendingEp at isPending
  split at isPending
  next ep' size inside =>
    cases isPending
    exact ⟨size, inside⟩
  · cases isPending

theorem Reaches.answersSends (transfers : stack.Transfers)
    (run : Reaches (step stack slot) (SendsPass stack) (init stack slot) s) :
    s.AnswersSends stack slot := by
  have orderly := Reaches.orderly run
  have balanced : s.Locked ∧ s.Balanced := by
    apply run.invariant (fun s => s.Locked ∧ s.Balanced) ⟨locked_init, balanced_init⟩
    rintro s a t ⟨locked, balanced⟩ pass moved
    have moved' := step_moved locked moved
    exact ⟨moved'.locked locked, moved'.balanced transfers balanced pass⟩
  constructor
  case once => exact balanced.2
  case taken =>
    intro badge regs outside ep next noNothing noInterrupt type pass
    apply nextSend_taken transfers orderly.locked outside next noNothing noInterrupt type
    rcases pass with nothing | interrupt | other | can
    · exact absurd nothing noNothing
    · exact absurd interrupt noInterrupt
    · exact absurd type other
    · exact can
  case received =>
    intro ep isPending f pass
    obtain ⟨size, inside⟩ := pendingEp_some isPending
    have quiet : ¬ s.AnswersInLoop stack (.frame f) := by
      rcases pass with nobody | quiet
      · rw [nobody] at isPending
        cases isPending
      · exact quiet
    obtain ⟨net, received⟩ := frame_total orderly inside quiet
    refine ⟨{ s with net := net }, ?_, isPending⟩
    simp only [step, act, inside, received, Except.map, Option.bind_some, Except.toOption]
  case written =>
    intro ep isPending
    obtain ⟨size, inside⟩ := pendingEp_some isPending
    refine ⟨(s.endPoll stack).send ep .sendReply size, ?_, rfl, ?_⟩
    · simp only [step, act, inside, returnPoll, Option.bind_some, Except.toOption]
    · change Net.sendReplies (s.net.sent ++ [⟨ep, .sendReply, size⟩]) ep = _
      simp [Net.sendReplies]

end SyncServer

/-- Every Send that either server takes is answered by one SendReply to its sender, along
every run whose Sends pass. -/
theorem send_answered {σ F : Type} {stack : Smoltcp σ F} (transfers : stack.Transfers) (slot : Nat) :
    (∀ s, Reaches (AsyncServer.step stack) (AsyncServer.SendsPass stack) (AsyncServer.init stack) s →
      s.AnswersSends stack) ∧
    ∀ s, Reaches (SyncServer.step stack slot) (SyncServer.SendsPass stack)
        (SyncServer.init stack slot) s →
      s.AnswersSends stack slot :=
  ⟨fun _ run => AsyncServer.Reaches.answersSends transfers run,
    fun _ run => SyncServer.Reaches.answersSends transfers run⟩

/-! ### Runs -/

instance {σ F : Type} (stack : Smoltcp σ F) (s : AsyncServer σ) :
    DecidablePred (AsyncServer.SendsPass stack s)
  | .run =>
    inferInstanceAs (Decidable ((∀ r ∈ s.nextSend, _ ∧ _ ∧ _) ∧ ∀ _r ∈ s.pending, _))
  | .frame f =>
    inferInstanceAs (Decidable (∀ _r ∈ s.pending, ∀ _c ∈ s.net.wokenBy stack f, _))
  | .boot | .fetch | .interrupt _ | .submit _ | .takeReply | .store _ _ => .isTrue trivial

instance {σ F : Type} (stack : Smoltcp σ F) (s : SyncServer σ) :
    DecidablePred (SyncServer.SendsPass stack s)
  | .nbRecv badge regs =>
    inferInstanceAs (Decidable (badge = 0 ∨ badge = 1 ∨ regs.type ≠ .send ∨ _ ∧ _ ∧ _))
  | .frame f =>
    inferInstanceAs (Decidable (s.pendingEp = none ∨ ¬ s.AnswersInLoop stack (.frame f)))
  | .ntfnPoll _ | .run | .store _ _ => .isTrue trivial

/-- A Send of one byte on the socket with handle 0. -/
def sampleSend : IPCItem := MessageBuilder.send ⟨9⟩ ⟨0⟩ 0 1

/-- The client of a connected socket sends a byte, in both servers. -/
theorem send_answered_one_byte :
    (∃ s, Reaches (AsyncServer.step mini) (AsyncServer.SendsPass mini) (AsyncServer.init mini) s ∧
      s.sendsTaken = [⟨2, sampleSend⟩] ∧ repliesTo .sendReply s.replies ⟨2, sampleSend⟩ = 1) ∧
    ∃ s, Reaches (SyncServer.step mini 0) (SyncServer.SendsPass mini) (SyncServer.init mini 0) s ∧
      s.sendsTaken = [⟨0⟩] ∧ sendReplies s.net.sent ⟨0⟩ = 1 := by
  constructor
  · obtain ⟨s, run, view⟩ := reaches_of_view (AsyncServer.step mini) (AsyncServer.SendsPass mini)
      (AsyncServer.init mini)
      (AsyncServer.acceptRun ++ [.submit sampleSend, .interrupt 0, .fetch, .run, .run, .run, .run])
      (fun s => (s.sendsTaken, s.pending)) (v := ([⟨2, sampleSend⟩], none)) (by decide +kernel)
    obtain ⟨taken, quiet⟩ := Prod.mk.inj view
    refine ⟨s, run, taken, ?_⟩
    have mine : (⟨2, sampleSend⟩ : Request) ∈ s.sendsTaken := by
      rw [taken]
      exact List.mem_singleton_self _
    rcases ((send_answered mini_transfers 0).1 s run).once _ mine with ⟨once, -⟩ | ⟨-, isPending⟩
    · exact once
    · rw [quiet] at isPending
      cases isPending
  · obtain ⟨s, run, view⟩ := reaches_of_view (SyncServer.step mini 0) (SyncServer.SendsPass mini)
      (SyncServer.init mini 0)
      (SyncServer.listenPass ++ [.ntfnPoll 1, .frame .syn, .frame .ack, .run,
        SyncServer.request 0 .send 0 0 1, .run])
      (fun s => (s.sendsTaken, s.pendingEp)) (v := ([⟨0⟩], none)) (by decide +kernel)
    obtain ⟨taken, quiet⟩ := Prod.mk.inj view
    refine ⟨s, run, taken, ?_⟩
    have books := ((send_answered mini_transfers 0).2 s run).once ⟨0⟩
    rw [taken, quiet] at books
    simpa using books

/-- A Send is dropped: by the asynchronous server after the peer has reset the connection, by
the synchronous one before the handshake is complete. -/
theorem send_unanswered :
    mini.Transfers ∧
    (∃ s, Reachable (AsyncServer.step mini) (AsyncServer.init mini) s ∧
      (⟨3, sampleSend⟩ : Request) ∈ s.sendsTaken ∧ s.pending = none ∧
      repliesTo .sendReply s.replies ⟨3, sampleSend⟩ = 0 ∧ s.buffer.reqItems.items = [] ∧
      s.polling = none) ∧
    ∃ s, Reachable (SyncServer.step mini 0) (SyncServer.init mini 0) s ∧
      (⟨0⟩ : Endpoint) ∈ s.sendsTaken ∧ s.pendingEp = none ∧ sendReplies s.net.sent ⟨0⟩ = 0 := by
  refine ⟨mini_transfers, ?_, ?_⟩
  · obtain ⟨s, run, view⟩ := reachable_of_view (AsyncServer.step mini) (AsyncServer.init mini)
      (AsyncServer.acceptRun ++
        AsyncServer.requestRun [IPCItem.ofMsg ⟨0⟩ MessageType.netPollReq.toBits] ++
        [.fetch, .run, .frame .reset, .run] ++ AsyncServer.requestRun [sampleSend])
      (fun s => (s.sendsTaken, s.pending, repliesTo .sendReply s.replies ⟨3, sampleSend⟩,
        s.buffer.reqItems.items, s.polling))
      (v := ([⟨3, sampleSend⟩], none, 0, [], none)) (by decide +kernel)
    simp only [Prod.mk.injEq] at view
    obtain ⟨taken, quiet, unanswered, empty, idle⟩ := view
    exact ⟨s, run, by rw [taken]; exact List.mem_singleton_self _, quiet, unanswered, empty, idle⟩
  · obtain ⟨s, run, view⟩ := reachable_of_view (SyncServer.step mini 0) (SyncServer.init mini 0)
      (SyncServer.connectRun ++ [SyncServer.request 0 .send 0 0 1])
      (fun s => (s.sendsTaken, s.pendingEp, sendReplies s.net.sent ⟨0⟩))
      (v := ([⟨0⟩], none, 0)) (by decide +kernel)
    simp only [Prod.mk.injEq] at view
    obtain ⟨taken, quiet, unanswered⟩ := view
    exact ⟨s, run, by rw [taken]; exact List.mem_singleton_self _, quiet, unanswered⟩

end RootTask.Net
