import RootTask.Net.Coroutines
import RootTask.Net.Serials

/-!
# Forwarded Recv requests

A Recv on a socket without data is handed to the coroutine that accepted the socket: it is
stored in the slot of that coroutine, taken by the outer `yield_now` of
`tcp_recv_coroutine`, and served until the socket has data. The slot has one place, which
`wake_with_value` overwrites, and the busy-wait yield takes from it too and discards what it
took. So a request is lost when it reaches a coroutine that still has an earlier one.

## Main result

`forwarded_recv_kept`: if every request is handed over to a coroutine that is at its outer
yield with an empty slot, each forwarded request is in exactly one place: answered once, in
the slot, or being served.
-/
namespace RootTask.Net

open RootTask.Runtime RootTask.Transition

/-- How many RecvReplies a request got. -/
abbrev answers (replies : List Request) (request : Request) : Nat :=
  repliesTo .recvReply replies request

/-- Where every Recv request is. -/
structure LedgerOk (slots : Nat → Option Request) (point : Nat → Point) (queued : List Request)
    (submitted : Nat) (handedOver : List (Request × CoroutineId)) (replies : List Request) :
    Prop where
  serials : SerialsOk .recvReply queued submitted (handedOver.map Prod.fst) replies
  slot : ∀ i r, slots i = some r → point i = .recvYield ∧ (r, ⟨i⟩) ∈ handedOver
  serving : ∀ i r, (point i).serving = some r → (r, ⟨i⟩) ∈ handedOver
  once : ∀ r c, (r, c) ∈ handedOver →
    answers replies r + (if slots c.val = some r then 1 else 0) +
      (if (point c.val).serving = some r then 1 else 0) = 1

namespace LedgerOk

variable {slots : Nat → Option Request} {point : Nat → Point} {queued : List Request}
  {submitted : Nat} {handedOver : List (Request × CoroutineId)} {replies : List Request}

/-- A serial number identifies a hand-over. -/
theorem handed_unique (ok : LedgerOk slots point queued submitted handedOver replies)
    {r r' : Request} {c c' : CoroutineId} (first : (r, c) ∈ handedOver)
    (second : (r', c') ∈ handedOver) (same : r.serial = r'.serial) : r = r' ∧ c = c' := by
  have once : (handedOver.map (·.1.serial)).Nodup := by
    have once := ok.serials.takenOnce
    rwa [List.map_map] at once
  have equal := List.inj_on_of_nodup_map once first second same
  exact ⟨congrArg Prod.fst equal, congrArg Prod.snd equal⟩

theorem slot_none (ok : LedgerOk slots point queued submitted handedOver replies) {i : Nat}
    (elsewhere : point i ≠ .recvYield) : slots i = none := by
  cases stored : slots i with
  | none => rfl
  | some r => exact absurd (ok.slot i r stored).1 elsewhere

/-- A coroutine without a stored request moves on with the request it serves. -/
theorem goto (ok : LedgerOk slots point queued submitted handedOver replies) {i : Nat} {p : Point}
    (empty : slots i = none) (same : p.serving = (point i).serving) :
    LedgerOk slots (Function.update point i p) queued submitted handedOver replies := by
  have serves : ∀ j, (Function.update point i p j).serving = (point j).serving := by
    intro j
    by_cases here : j = i
    · subst here
      rw [Function.update_self, same]
    · rw [Function.update_of_ne here]
  refine ⟨ok.serials, ?_, ?_, ?_⟩
  · intro j r stored
    have different : j ≠ i := by
      rintro rfl
      simp [empty] at stored
    rw [Function.update_of_ne different]
    exact ok.slot j r stored
  · intro j r holds
    rw [serves] at holds
    exact ok.serving j r holds
  · intro r c member
    rw [serves]
    exact ok.once r c member

/-- A coroutine leaves a point at which its slot is empty. -/
theorem move (ok : LedgerOk slots point queued submitted handedOver replies) {i : Nat} {p q : Point}
    (at_ : point i = q) (elsewhere : q ≠ .recvYield) (same : p.serving = q.serving) :
    LedgerOk slots (Function.update point i p) queued submitted handedOver replies := by
  subst at_
  exact ok.goto (ok.slot_none elsewhere) same

/-- The outer yield moves the stored request, if any, to the loop that serves it. -/
theorem take (ok : LedgerOk slots point queued submitted handedOver replies) {i : Nat}
    (at_ : point i = .recvYield) :
    LedgerOk (Function.update slots i none) (Function.update point i (.recvLoop (slots i))) queued
      submitted handedOver replies := by
  refine ⟨ok.serials, ?_, ?_, ?_⟩
  · intro j r stored
    by_cases here : j = i
    · subst here
      simp at stored
    · rw [Function.update_of_ne here] at stored
      rw [Function.update_of_ne here]
      exact ok.slot j r stored
  · intro j r holds
    by_cases here : j = i
    · subst here
      rw [Function.update_self] at holds
      -- the request served from now on is the one that was stored
      exact (ok.slot j r holds).2
    · rw [Function.update_of_ne here] at holds
      exact ok.serving j r holds
  · intro r c member
    have before := ok.once r c member
    by_cases here : c.val = i
    · subst here
      -- one summand of the count moves from the slot to the loop
      rw [at_] at before
      simpa [Point.serving] using before
    · rw [Function.update_of_ne here, Function.update_of_ne here]
      exact before

/-- A reply of another type counts for nothing here. -/
theorem otherReply (ok : LedgerOk slots point queued submitted handedOver replies) (reply : Request)
    (type : reply.item.msgInfo ≠ MessageType.recvReply.toBits) :
    LedgerOk slots point queued submitted handedOver (replies ++ [reply]) := by
  refine ⟨ok.serials.reply fun isRecv => absurd isRecv type, ok.slot, ok.serving, ?_⟩
  intro r c member
  rw [answers, repliesTo_append_of_type type]
  exact ok.once r c member

theorem submit (ok : LedgerOk slots point queued submitted handedOver replies) (item : IPCItem) :
    LedgerOk slots point (queued ++ [⟨submitted, item⟩]) (submitted + 1) handedOver replies :=
  ⟨ok.serials.submit item, ok.slot, ok.serving, ok.once⟩

/-- A request that was taken from the queue and is nowhere else. -/
abbrev Taken (queued : List Request) (submitted : Nat)
    (handedOver : List (Request × CoroutineId)) (replies : List Request) (request : Request) :
    Prop :=
  FreshRequest .recvReply queued submitted (handedOver.map Prod.fst) replies request

theorem pop {request : Request} {rest : List Request}
    (ok : LedgerOk slots point (request :: rest) submitted handedOver replies) :
    LedgerOk slots point rest submitted handedOver replies ∧
      Taken rest submitted handedOver replies request := by
  obtain ⟨serials, taken⟩ := ok.serials.pop
  exact ⟨⟨serials, ok.slot, ok.serving, ok.once⟩, taken⟩

theorem Taken.unhanded {request r : Request} {c : CoroutineId}
    (taken : Taken queued submitted handedOver replies request) (member : (r, c) ∈ handedOver) :
    r.serial ≠ request.serial :=
  taken.untaken r (List.mem_map_of_mem member)

/-- `process_req` answers a request that it took. -/
theorem answerNow (ok : LedgerOk slots point queued submitted handedOver replies)
    {request : Request} (taken : Taken queued submitted handedOver replies request) (size : Nat) :
    LedgerOk slots point queued submitted handedOver
      (replies ++ [⟨request.serial, MessageBuilder.recvReply request.item.cid size⟩]) := by
  refine ⟨ok.serials.reply fun _ => ⟨taken.below, taken.apart⟩, ok.slot, ok.serving, ?_⟩
  intro r c member
  rw [answers, repliesTo_append_of_serial (Ne.symm (Taken.unhanded taken member))]
  exact ok.once r c member

/-- `process_req` hands over a request that it took, to an idle coroutine. -/
theorem handOver (ok : LedgerOk slots point queued submitted handedOver replies)
    {request : Request} (taken : Taken queued submitted handedOver replies request)
    {target : CoroutineId} (at_ : point target.val = .recvYield)
    (empty : slots target.val = none) :
    LedgerOk (Function.update slots target.val (some request)) point queued submitted
      (handedOver ++ [(request, target)]) replies := by
  have unanswered : answers replies request = 0 := taken.repliesTo
  constructor
  case serials =>
    rw [List.map_append]
    exact ok.serials.take taken
  case slot =>
    intro i r stored
    by_cases here : i = target.val
    · subst here
      obtain rfl : request = r := by simpa using stored
      exact ⟨at_, by simp⟩
    · rw [Function.update_of_ne here] at stored
      obtain ⟨waits, member⟩ := ok.slot i r stored
      exact ⟨waits, List.mem_append_left _ member⟩
  case serving =>
    intro i r holds
    exact List.mem_append_left _ (ok.serving i r holds)
  case once =>
    intro r c member
    rcases List.mem_append.mp member with old | new
    · -- the slot held nothing, and holds nothing of an earlier request now
      have before := ok.once r c old
      have different : request ≠ r := by
        rintro rfl
        exact Taken.unhanded taken old rfl
      by_cases here : c.val = target.val
      · rw [here, empty] at before
        rw [here, Function.update_self]
        simpa [different] using before
      · rw [Function.update_of_ne here]
        exact before
    · obtain ⟨rfl, rfl⟩ := Prod.mk.inj (List.mem_singleton.mp new)
      simp [unanswered, at_, Point.serving]

/-- `tcp_recv_coroutine` answers the request that it serves. -/
theorem answerServed (ok : LedgerOk slots point queued submitted handedOver replies) {i : Nat}
    {request : Request} (at_ : point i = .recvTry request) (size : Nat) :
    LedgerOk slots (Function.update point i (.recvLoop none)) queued submitted handedOver
      (replies ++ [⟨request.serial, MessageBuilder.recvReply request.item.cid size⟩]) := by
  have holds : (point i).serving = some request := by rw [at_]; rfl
  have mine := ok.serving i request holds
  -- a coroutine that serves a request is not at its outer yield
  have empty : slots i = none := ok.slot_none (by simp [at_])
  refine ⟨ok.serials.reply fun _ => ok.serials.known request (List.mem_map_of_mem mine), ?_, ?_, ?_⟩
  · intro j r stored
    have different : j ≠ i := by
      rintro rfl
      simp [empty] at stored
    rw [Function.update_of_ne different]
    exact ok.slot j r stored
  · intro j r served
    by_cases here : j = i
    · subst here
      simp [Point.serving] at served
    · rw [Function.update_of_ne here] at served
      exact ok.serving j r served
  · intro r c member
    have before := ok.once r c member
    by_cases same : r.serial = request.serial
    · -- the only request with this serial number is the one that is served here
      obtain ⟨rfl, rfl⟩ := ok.handed_unique member mine same
      simp only [holds, empty] at before
      simp only [reduceCtorEq, if_false, if_true] at before
      simp only [answers] at before
      simp [repliesTo_append, isReplyTo, Point.serving, empty, MessageBuilder.recvReply]
      omega
    · rw [answers, repliesTo_append_of_serial (Ne.symm same)]
      by_cases here : c.val = i
      · rw [here] at before ⊢
        have different : request ≠ r := fun equal => same (equal ▸ rfl)
        simp only [holds, Option.some.injEq, different] at before
        simpa [Point.serving] using before
      · rw [Function.update_of_ne here]
        exact before

end LedgerOk

namespace AsyncServer

variable {σ F : Type} (stack : Smoltcp σ F)

/-- The slot through which a coroutine gets its requests. -/
abbrev slot (s : AsyncServer σ) (cid : CoroutineId) : Option Request :=
  s.net.lib.immediateValue cid.val

/-- The request that a coroutine serves. -/
abbrev serving (s : AsyncServer σ) (cid : CoroutineId) : Option Request :=
  (s.point cid.val).serving

/-- The coroutine to which the next step of `nw_recv_req_coroutine` hands a request over. -/
def handOverTarget (s : AsyncServer σ) : Option CoroutineId :=
  s.polling.bind fun self =>
    match s.point self.val, s.buffer.reqItems.getFirstItem with
    | .reqLoop _, some (request, _) =>
      match MessageDecoder.getType request.item with
      | .ok .recv =>
        if stack.canRecv s.net.sockets (socketOf request) then none
        else s.socket2Cid (socketOf request)
      | _ => none
    | _, _ => none

/-- A request is only handed over to a coroutine that waits for one. -/
def HandsOverToIdle (s : AsyncServer σ) : AsyncAction F → Prop
  | .run => ∀ cid ∈ s.handOverTarget stack, s.point cid.val = .recvYield ∧ s.slot cid = none
  | _ => True

instance (s : AsyncServer σ) : DecidablePred (HandsOverToIdle stack s)
  | .run => inferInstanceAs (Decidable (∀ cid ∈ s.handOverTarget stack, _))
  | .boot | .fetch | .frame _ | .interrupt _ | .submit _ | .takeReply | .store _ _ => .isTrue trivial

/-- The ledger, at a state of the server. -/
abbrev Ledger (s : AsyncServer σ) : Prop :=
  LedgerOk s.net.lib.immediateValue s.point s.buffer.reqItems.items s.submitted s.handedOver
    s.replies

theorem ledger_init : (init stack).Ledger := by
  refine ⟨.empty, ?_, ?_, ?_⟩ <;> simp [init, AsyncState.init, Point.serving]

variable {stack} {s t : AsyncServer σ} {self : CoroutineId}

/-- A `recv_slice` that `can_recv` announced does not fail. -/
theorem recvInto_succeeds (transfers : stack.Transfers) {request : Request}
    (can : stack.canRecv s.net.sockets (socketOf request) = true) :
    s.recvInto stack request ≠ .error () := by
  obtain ⟨data, sockets, received⟩ := transfers.recv_ok can
    (min tcpTxBufLen (MessageDecoder.getLen request.item))
  simp [recvInto, received]

theorem Iterated.ledger (iterated : s.Iterated self t) (ledger : s.Ledger)
    {cnt : Nat} (at_ : s.point self.val = .reqLoop cnt ∨
      ∃ request size, s.point self.val = .reqPolling cnt request size) : t.Ledger := by
  have elsewhere : s.point self.val ≠ .recvYield := by
    rcases at_ with at_ | ⟨request, size, at_⟩ <;> simp [at_]
  have serves : (s.point self.val).serving = none := by
    rcases at_ with at_ | ⟨request, size, at_⟩ <;> simp [at_, Point.serving]
  have empty := ledger.slot_none elsewhere
  cases iterated with
  | again e n wakes => exact ledger.goto empty serves.symm
  | switched e wakes => exact ledger.goto empty serves.symm

/-- What `process_req` does with a request keeps the ledger, if the target of a hand-over is
idle. -/
theorem Handled.ledger {request : Request} (handled : Handled stack s request t)
    (transfers : stack.Transfers) (ok : s.Ok) (ledger : s.Ledger)
    (taken : LedgerOk.Taken s.buffer.reqItems.items s.submitted s.handedOver s.replies request)
    (idle : ∀ cid, MessageDecoder.getType request.item = .ok .recv →
      stack.canRecv s.net.sockets (socketOf request) = false →
      s.socket2Cid (socketOf request) = some cid → s.point cid.val = .recvYield ∧ s.slot cid = none) :
    t.Ledger := by
  cases handled with
  | poll e woken => exact ledger
  | listen cid runtime body isAccept spawned =>
    -- the new coroutine had neither a stored nor a served request
    obtain ⟨at_, empty⟩ := ok.dead cid.val (ok.table.fresh spawned)
    apply ledger.goto empty
    rw [at_]
    rfl
  | dropSend _ _ => exact ledger
  | recv size s₁ _ _ received replied =>
    obtain ⟨items, -, rfl⟩ := writeReply_ok replied
    obtain ⟨len, bytes, sockets, -, rfl⟩ := recvInto_ok stack received
    exact ledger.answerNow taken size
  | dropRecv can failed => exact absurd failed (recvInto_succeeds transfers can)
  | handOver _ type cannot handed =>
    obtain ⟨cid, e, filed, woken, rfl⟩ := handOver_ok handed
    obtain ⟨at_, empty⟩ := idle cid type cannot filed
    exact ledger.handOver taken at_ empty

theorem Ran.ledger (ran : Ran stack s self t) (transfers : stack.Transfers) (ok : s.Ok)
    (ledger : s.Ledger) (polls : s.polling = some self)
    (idle : HandsOverToIdle stack s (.run : AsyncAction F)) : t.Ledger := by
  obtain ⟨current, live⟩ := ok.polled self polls
  cases ran with
  | jump p jumps =>
    apply ledger.goto
    · apply ledger.slot_none
      intro at_
      rw [at_] at jumps
      cases jumps
    · generalize s.point self.val = q at jumps
      cases jumps <;> rfl
  | resume next value lib resumes taken =>
    obtain ⟨cid, isCurrent, rfl, rfl⟩ := AsyncState.takeValue_ok taken
    obtain rfl : self = cid := Option.some.inj (current.symm.trans isCurrent)
    by_cases at_ : s.point self.val = .recvYield
    -- the outer yield keeps the value it takes, the others discard it
    · have outer : next = .recvLoop := by
        rw [at_] at resumes
        cases resumes
        rfl
      subst outer
      exact ledger.take at_
    · -- any other yield takes from an empty slot
      have empty := ledger.slot_none at_
      have same : Function.update s.net.lib.immediateValue self.val none = s.net.lib.immediateValue := by
        rw [← empty, Function.update_eq_self]
      change LedgerOk (Function.update s.net.lib.immediateValue self.val none) _ _ _ _ _
      rw [same]
      apply ledger.goto empty
      generalize s.point self.val = q at resumes at_
      cases resumes <;> first | rfl | exact absurd rfl at_
  | endPoll at_ => exact ledger.move at_ (by rintro ⟨⟩) rfl
  | noItem cnt at_ empty => exact ledger.move at_ (by rintro ⟨⟩) rfl
  | handle cnt request items s₁ _ at_ popped handled iterated =>
    have shape := ItemsQueue.getFirstItem_some popped
    have ledger' : LedgerOk s.net.lib.immediateValue s.point (request :: items.items) s.submitted
        s.handedOver s.replies := shape ▸ ledger
    obtain ⟨ledger₁, taken⟩ := ledger'.pop
    -- handling the request does not move the coroutine that handles it
    have keeps := (handled.ok ok).2.2 self.val live
    have ledger₂ := handled.ledger transfers ok ledger₁ taken (by
      intro cid type cannot filed
      apply idle cid
      have stuck : stack.canRecv s.net.sockets (socketOf request) = false := cannot
      have target : s.socket2Cid (socketOf request) = some cid := filed
      simp [handOverTarget, polls, at_, popped, type, stuck, target])
    exact iterated.ledger ledger₂ (.inl (keeps.2.trans at_))
  | send cnt size request items sockets _ at_ popped sending =>
    obtain ⟨-, -, -, -, rfl⟩ := sending
    have shape := ItemsQueue.getFirstItem_some popped
    have ledger' : LedgerOk s.net.lib.immediateValue s.point (request :: items.items) s.submitted
        s.handedOver s.replies := shape ▸ ledger
    exact ledger'.pop.1.move at_ (by rintro ⟨⟩) rfl
  | sendReply cnt size request s₁ _ at_ replied iterated =>
    obtain ⟨items, -, rfl⟩ := writeReply_ok replied
    have ledger₁ := ledger.otherReply ⟨request.serial,
      MessageBuilder.sendReply request.item.cid size⟩ (by simp [MessageBuilder.sendReply]; decide)
    exact iterated.ledger ledger₁ (.inr ⟨request, size, at_⟩)
  | listen cid port serial handler sockets table at_ opened registered =>
    exact ledger.move at_ (by rintro ⟨⟩) rfl
  | accept cid port serial handler handle tuple net s₁ at_ accepted replied =>
    obtain ⟨items, -, rfl⟩ := writeReply_ok replied
    obtain ⟨en, rest, -, -, -, rfl⟩ := NetState.accept_ok stack accepted
    have ledger₁ := ledger.otherReply ⟨serial, MessageBuilder.listenReply cid handle⟩
      (by simp; decide)
    exact ledger₁.move at_ (by rintro ⟨⟩) rfl
  | wait at_ => exact ledger.move at_ (by rintro ⟨⟩) rfl
  | recvReply request size s₁ s₂ at_ received replied =>
    obtain ⟨items, -, rfl⟩ := writeReply_ok replied
    obtain ⟨len, bytes, sockets, -, rfl⟩ := recvInto_ok stack received
    exact ledger.answerServed at_ size
  | recvFailed request at_ can failed => exact absurd failed (recvInto_succeeds transfers can)
  | recvBusy request e at_ woken =>
    exact ledger.move at_ (by rintro ⟨⟩) rfl

theorem Booted.ledger (booted : s.Booted t) (ok : s.Ok) (ledger : s.Ledger) : t.Ledger := by
  obtain ⟨poller, cid, runtime, runtime', allocator, first, second⟩ := booted
  have ok₁ := ok.spawn first nofun
  obtain ⟨at_, empty⟩ := ok.dead poller.val (ok.table.fresh first)
  obtain ⟨at', empty'⟩ := ok₁.dead cid.val (ok₁.table.fresh second)
  have ledger₁ := ledger.goto (p := .fresh .netPoll) empty (by rw [at_])
  apply ledger₁.goto empty'
  rw [at']
  rfl

theorem step_ledger (transfers : stack.Transfers) {a : AsyncAction F} (ok : s.Ok)
    (ledger : s.Ledger) (idle : HandsOverToIdle stack s a) (moved : s.step stack a = some t) :
    t.Ledger := by
  cases step_moved stack moved with
  | boot _ booted => exact booted.ledger ok ledger
  | fetch task e _ fetched => exact ledger
  | run self _ polls ran => exact ran.ledger transfers ok ledger polls idle
  | frame f self net polls inPoll received =>
    -- a frame wakes coroutines, but puts nothing into their slots
    obtain ⟨m, snooped, rfl⟩ := NetState.receive_ok stack received
    have slots : m.lib.immediateValue = s.net.lib.immediateValue := by
      rcases snooped.lib with same | ⟨cid, e, -, same⟩
      · rw [same]
      · rw [same]
        rfl
    change LedgerOk m.lib.immediateValue _ _ _ _ _
    rw [slots]
    exact ledger
  | interrupt vec cid e known delayed => exact ledger
  | submit item items written =>
    change LedgerOk _ _ items.items _ _ _
    rw [written]
    exact ledger.submit item
  | tookReply reply items popped => exact ledger
  | noReply empty => exact ledger
  | store buffer bytes => exact ledger

/-- In every run that hands requests over to idle coroutines only, each forwarded Recv is in
one place: answered by one RecvReply to its cid, stored in the slot of its coroutine, or
served by it. -/
theorem forwarded_recv_kept (transfers : stack.Transfers)
    (run : Reaches (step stack) (HandsOverToIdle stack) (init stack) s) {request : Request}
    {cid : CoroutineId} (handed : (request, cid) ∈ s.handedOver) :
    (answers s.replies request = 1 ∧ s.slot cid ≠ some request ∧ s.serving cid ≠ some request) ∨
    (answers s.replies request = 0 ∧ s.slot cid = some request ∧ s.serving cid ≠ some request) ∨
    (answers s.replies request = 0 ∧ s.slot cid ≠ some request ∧ s.serving cid = some request) := by
  have inv : s.Ok ∧ s.Ledger := by
    apply run.invariant (fun s => s.Ok ∧ s.Ledger) ⟨ok_init stack, ledger_init stack⟩
    intro s a t before idle moved
    exact ⟨step_ok before.1 moved, step_ledger transfers before.1 before.2 idle moved⟩
  -- the three summands add up to one
  have once := inv.2.once request cid handed
  by_cases stored : s.slot cid = some request
  · right; left
    simp only [stored, if_true] at once
    split at once
    · omega
    next other => exact ⟨by omega, stored, other⟩
  · simp only [stored, if_false] at once
    split at once
    next served =>
      right; right
      exact ⟨by omega, stored, served⟩
    next other =>
      left
      exact ⟨by omega, stored, other⟩

/-- The Recv request that a client sends on the socket with handle 0. -/
def sampleRecv (cid : CoroutineId) : IPCItem := MessageBuilder.recv cid ⟨0⟩ 0 1

/-- A forwarded Recv that is answered once data arrive. -/
theorem forwarded_recv_kept_one_request :
    ∃ s, Reaches (step mini) (HandsOverToIdle mini) (init mini) s ∧
      (⟨2, sampleRecv ⟨9⟩⟩, ⟨2⟩) ∈ s.handedOver ∧ answers s.replies ⟨2, sampleRecv ⟨9⟩⟩ = 1 ∧
      s.slot ⟨2⟩ ≠ some ⟨2, sampleRecv ⟨9⟩⟩ ∧ s.serving ⟨2⟩ ≠ some ⟨2, sampleRecv ⟨9⟩⟩ := by
  obtain ⟨s, run, view⟩ := reaches_of_view (step mini) (HandsOverToIdle mini) (init mini)
    (acceptRun ++ requestRun [sampleRecv ⟨9⟩] ++ [.fetch, .run, .run, .run] ++
      requestRun [IPCItem.ofMsg ⟨0⟩ MessageType.netPollReq.toBits] ++
      [.fetch, .run, .frame (.data [33]), .run, .fetch, .run, .run])
    (fun s => (s.handedOver, answers s.replies ⟨2, sampleRecv ⟨9⟩⟩))
    (v := ([(⟨2, sampleRecv ⟨9⟩⟩, ⟨2⟩)], 1)) (by decide +kernel)
  obtain ⟨handed, answered⟩ := Prod.mk.inj view
  have member : ((⟨2, sampleRecv ⟨9⟩⟩, ⟨2⟩) : Request × CoroutineId) ∈ s.handedOver := by
    rw [handed]
    exact List.mem_singleton_self _
  rcases forwarded_recv_kept mini_transfers run member with ⟨-, absent⟩ | ⟨zero, -⟩ | ⟨zero, -⟩
  · exact ⟨s, run, member, answered, absent⟩
  · omega
  · omega

/-- Two clients' Recv requests on one socket reach the coroutine before it is polled: the
second overwrites the first, which is neither answered, nor stored, nor served. -/
theorem forwarded_recv_lost :
    mini.Handshake ∧ mini.Transfers ∧ ∃ s, Reachable (step mini) (init mini) s ∧
      ∃ request cid, (request, cid) ∈ s.handedOver ∧ answers s.replies request = 0 ∧
        s.slot cid ≠ some request ∧ s.serving cid ≠ some request := by
  refine ⟨mini_handshake, mini_transfers, ?_⟩
  obtain ⟨s, run, view⟩ := reachable_of_view (step mini) (init mini)
    (acceptRun ++ requestRun [sampleRecv ⟨9⟩, sampleRecv ⟨10⟩])
    (fun s => (s.handedOver, answers s.replies ⟨2, sampleRecv ⟨9⟩⟩, s.slot ⟨2⟩, s.serving ⟨2⟩))
    (v := ([(⟨2, sampleRecv ⟨9⟩⟩, ⟨2⟩), (⟨3, sampleRecv ⟨10⟩⟩, ⟨2⟩)], 0,
      some ⟨3, sampleRecv ⟨10⟩⟩, none)) (by decide +kernel)
  simp only [Prod.mk.injEq] at view
  obtain ⟨handed, unanswered, stored, served⟩ := view
  refine ⟨s, run, ⟨2, sampleRecv ⟨9⟩⟩, ⟨2⟩, ?_, unanswered, ?_, ?_⟩
  · rw [handed]
    exact List.mem_cons_self
  · rw [stored]
    simp
  · rw [served]
    simp

end AsyncServer

end RootTask.Net
