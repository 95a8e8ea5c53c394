import Mathlib.Data.Fintype.Card
import RootTask.Net.Accepting

/-!
# Sockets and their coroutines

A socket belongs to the accept coroutine that registered it. The coroutine holds it in a local
variable while it waits, and files it in `SOCKET_2_CID` when it has accepted. Nothing in the code
ties the socket that `accept` returns to that variable; `PairingOk` does.

## Main result

`accepts_own_socket`: `accept` returns the socket that the calling coroutine registered; no
ListenReply repeats a handle; and the keys of `SOCKET_2_CID` are exactly the handles that were
handed out, so a lookup of such a handle succeeds from then on.

## Proof strategy

`HandlesOk` says that waiting and filed sockets are disjoint and have one coroutine each. All open
sockets are among them. Since the socket set fills up from below and there are at most
`MAX_TASK_NUM` coroutines, a handle fits into the 16 bits that a reply has for it.
-/
namespace RootTask.Net

open RootTask.Runtime RootTask.Transition

/-- The socket that an accept coroutine has registered and not accepted yet. -/
def Point.registered : Point → Option SocketHandle
  | .acceptYield _ _ _ handler => some handler
  | .accepting _ _ _ handler => some handler
  | _ => none

theorem Point.acceptPhase_of_registered {p : Point} {h : SocketHandle}
    (registered : p.registered = some h) : p.acceptPhase = true := by
  cases p <;> first | rfl | cases registered

/-- A handle that fits into a word survives a reply. -/
theorem MessageDecoder.getSocketHandler_listenReply (cid : CoroutineId) {h : SocketHandle}
    (fits : h.index < 2 ^ 16) :
    MessageDecoder.getSocketHandler (MessageBuilder.listenReply cid h) = h :=
  SocketHandle.ext (MessageBuilder.getElem_setWord _ 0 fits)

/-- The sockets that coroutines wait with, the open ones, those filed and those handed out. -/
structure HandlesOk (registered : Nat → Option SocketHandle) (opened : SocketHandle → Prop)
    (filed : SocketHandle → Option CoroutineId) (handedOut : List SocketHandle) : Prop where
  owned : ∀ h, opened h → ∃ i, registered i = some h ∨ filed h = some ⟨i⟩
  waiting : ∀ i h, registered i = some h → opened h ∧ filed h = none
  serving : ∀ h c, filed h = some c → opened h ∧ registered c.val = none
  one_waits : ∀ i j h, registered i = some h → registered j = some h → i = j
  one_filed : ∀ h h' c, filed h = some c → filed h' = some c → h = h'
  compact : ∀ i j, i < j → opened ⟨j⟩ → opened ⟨i⟩
  keys : ∀ h, h ∈ handedOut ↔ filed h ≠ none
  nodup : handedOut.Nodup

namespace HandlesOk

variable {registered registered' : Nat → Option SocketHandle} {opened opened' : SocketHandle → Prop}
  {filed : SocketHandle → Option CoroutineId} {handedOut : List SocketHandle}

/-- A coroutine has one socket at most. -/
theorem one_socket (ok : HandlesOk registered opened filed handedOut) {i : Nat}
    {h h' : SocketHandle} (owns : registered i = some h ∨ filed h = some ⟨i⟩)
    (owns' : registered i = some h' ∨ filed h' = some ⟨i⟩) : h = h' := by
  rcases owns with waits | isFiled <;> rcases owns' with waits' | isFiled'
  · exact Option.some.inj (waits.symm.trans waits')
  · rw [(ok.serving h' _ isFiled').2] at waits
    cases waits
  · rw [(ok.serving h _ isFiled).2] at waits'
    cases waits'
  · exact ok.one_filed h h' _ isFiled isFiled'

/-- The sockets up to an open one are open and owned, by different coroutines. -/
theorem index_lt (ok : HandlesOk registered opened filed handedOut) {bound : Nat}
    (inRange : ∀ i h, registered i = some h ∨ filed h = some ⟨i⟩ → i < bound) {h : SocketHandle}
    (isOpen : opened h) : h.index < bound := by
  have below : ∀ k : Fin (h.index + 1), ∃ i : Fin bound,
      registered i = some ⟨k⟩ ∨ filed ⟨k⟩ = some ⟨i⟩ := by
    intro k
    have openBelow : opened ⟨k⟩ := by
      rcases Nat.lt_or_ge k.val h.index with before | last
      · exact ok.compact _ _ before isOpen
      · rw [show k.val = h.index by omega]
        exact isOpen
    obtain ⟨i, owns⟩ := ok.owned ⟨k⟩ openBelow
    exact ⟨⟨i, inRange i _ owns⟩, owns⟩
  choose owner owns using below
  -- two handles of one coroutine would be one
  have injective : Function.Injective owner := by
    intro k k' same
    have owns' := owns k'
    rw [← same] at owns'
    exact Fin.ext (congrArg SocketHandle.index (ok.one_socket (owns k) owns'))
  have counted := Fintype.card_le_of_injective owner injective
  rw [Fintype.card_fin, Fintype.card_fin] at counted
  omega

/-- A coroutine without a socket opens the first free one and waits with it. -/
theorem listen (ok : HandlesOk registered opened filed handedOut) {self : CoroutineId}
    {handler : SocketHandle} (idle : ∀ h, filed h ≠ some self) (isNew : ¬ opened handler)
    (least : ∀ i < handler.index, opened ⟨i⟩) (without : registered self.val = none) :
    HandlesOk (Function.update registered self.val (some handler))
      (fun h => h = handler ∨ opened h) filed handedOut := by
  -- what is filed is open, and the new socket was not
  have unfiled : filed handler = none := by
    cases isFiled : filed handler with
    | none => rfl
    | some c => exact absurd (ok.serving handler c isFiled).1 isNew
  -- nobody else waits with the new socket
  have others : ∀ i h, Function.update registered self.val (some handler) i = some h →
      i = self.val ∧ h = handler ∨ i ≠ self.val ∧ h ≠ handler ∧ registered i = some h := by
    intro i h waits
    by_cases here : i = self.val
    · left
      rw [here, Function.update_self] at waits
      exact ⟨here, (Option.some.inj waits).symm⟩
    · right
      rw [Function.update_of_ne here] at waits
      refine ⟨here, ?_, waits⟩
      rintro rfl
      exact isNew (ok.waiting i h waits).1
  constructor
  case owned =>
    rintro h (rfl | isOpen)
    · exact ⟨self.val, .inl (Function.update_self ..)⟩
    · obtain ⟨i, waits | isFiled⟩ := ok.owned h isOpen
      · refine ⟨i, .inl ?_⟩
        rw [Function.update_of_ne, waits]
        rintro rfl
        rw [without] at waits
        cases waits
      · exact ⟨i, .inr isFiled⟩
  case waiting =>
    intro i h waits
    rcases others i h waits with ⟨-, rfl⟩ | ⟨-, -, before⟩
    · exact ⟨.inl rfl, unfiled⟩
    · exact ⟨.inr (ok.waiting i h before).1, (ok.waiting i h before).2⟩
  case serving =>
    intro h c isFiled
    refine ⟨.inr (ok.serving h c isFiled).1, ?_⟩
    rw [Function.update_of_ne]
    · exact (ok.serving h c isFiled).2
    · intro same
      obtain rfl := CoroutineId.ext same
      exact idle h isFiled
  case one_waits =>
    intro i j h waits waits'
    rcases others i h waits with ⟨rfl, rfl⟩ | ⟨-, different, before⟩ <;>
      rcases others j _ waits' with ⟨rfl, same⟩ | ⟨-, different', before'⟩
    · rfl
    · exact absurd rfl different'
    · exact absurd same different
    · exact ok.one_waits i j h before before'
  case one_filed => exact ok.one_filed
  case compact =>
    rintro i j before (rfl | isOpen)
    · exact .inr (least i before)
    · exact .inr (ok.compact i j before isOpen)
  case keys => exact ok.keys
  case nodup => exact ok.nodup

/-- A coroutine files the socket that it waited with and hands it out. -/
theorem accept (ok : HandlesOk registered opened filed handedOut) {self : CoroutineId}
    {handler : SocketHandle} (waits : registered self.val = some handler) :
    HandlesOk (Function.update registered self.val none) opened
      (Function.update filed handler (some self)) (handedOut ++ [handler]) := by
  obtain ⟨isOpen, unfiled⟩ := ok.waiting self.val handler waits
  -- the others wait on, with other sockets
  have still : ∀ i h, Function.update registered self.val none i = some h →
      i ≠ self.val ∧ registered i = some h ∧ h ≠ handler := by
    intro i h waits'
    by_cases here : i = self.val
    · rw [here, Function.update_self] at waits'
      cases waits'
    · rw [Function.update_of_ne here] at waits'
      refine ⟨here, waits', ?_⟩
      rintro rfl
      exact here (ok.one_waits i self.val h waits' waits)
  -- a filed socket is the new one or an old one of another coroutine
  have files : ∀ h c, Function.update filed handler (some self) h = some c →
      h = handler ∧ c = self ∨ h ≠ handler ∧ c ≠ self ∧ filed h = some c := by
    intro h c isFiled
    by_cases here : h = handler
    · left
      rw [here, Function.update_self] at isFiled
      exact ⟨here, (Option.some.inj isFiled).symm⟩
    · right
      rw [Function.update_of_ne here] at isFiled
      refine ⟨here, ?_, isFiled⟩
      rintro rfl
      rw [(ok.serving h c isFiled).2] at waits
      cases waits
  constructor
  case owned =>
    intro h isOpen'
    by_cases here : h = handler
    · exact ⟨self.val, .inr (by rw [here]; exact Function.update_self ..)⟩
    · obtain ⟨i, waits' | isFiled⟩ := ok.owned h isOpen'
      · refine ⟨i, .inl ?_⟩
        rw [Function.update_of_ne, waits']
        rintro rfl
        exact here (Option.some.inj (waits'.symm.trans waits))
      · exact ⟨i, .inr (by rw [Function.update_of_ne here]; exact isFiled)⟩
  case waiting =>
    intro i h waits'
    obtain ⟨-, before, different⟩ := still i h waits'
    rw [Function.update_of_ne different]
    exact ok.waiting i h before
  case serving =>
    intro h c isFiled
    rcases files h c isFiled with ⟨rfl, rfl⟩ | ⟨-, different, before⟩
    · exact ⟨isOpen, Function.update_self ..⟩
    · refine ⟨(ok.serving h c before).1, ?_⟩
      rw [Function.update_of_ne fun same => different (CoroutineId.ext same)]
      exact (ok.serving h c before).2
  case one_waits =>
    intro i j h waits' waits''
    exact ok.one_waits i j h (still i h waits').2.1 (still j h waits'').2.1
  case one_filed =>
    intro h h' c isFiled isFiled'
    rcases files h c isFiled with ⟨isNew, isSelf⟩ | ⟨-, different, before⟩ <;>
      rcases files h' c isFiled' with ⟨isNew', isSelf'⟩ | ⟨-, different', before'⟩
    · exact isNew.trans isNew'.symm
    · exact absurd isSelf different'
    · exact absurd isSelf' different
    · exact ok.one_filed h h' c before before'
  case compact => exact ok.compact
  case keys =>
    intro h
    by_cases here : h = handler
    · simp [here]
    · rw [Function.update_of_ne here, ← ok.keys h]
      simp [here]
  case nodup =>
    rw [List.nodup_append]
    refine ⟨ok.nodup, List.nodup_singleton handler, ?_⟩
    rintro h old h' new rfl
    -- the handle was waited with, so it was not filed and not handed out before
    rw [List.mem_singleton.mp new, ok.keys] at old
    exact old unfiled

end HandlesOk

namespace AsyncServer

variable {σ F : Type} (stack : Smoltcp σ F)

/-- The handles in the ListenReplies, as the client decodes them. -/
def handedOut (s : AsyncServer σ) : List SocketHandle :=
  (s.replies.filter fun reply => reply.item.msgInfo = MessageType.listenReply.toBits).map socketOf

/-- The invariant of the handles, at a state of the server. -/
abbrev Handles (s : AsyncServer σ) : Prop :=
  HandlesOk (fun i => (s.point i).registered) (fun h => s.stateOf stack h ≠ none) s.socket2Cid
    s.handedOut

theorem handles_init (handshake : stack.Handshake) : (init stack).Handles stack := by
  have closed : ∀ h, ¬ (init stack).stateOf stack h ≠ none := fun h live =>
    live (handshake.empty_state h)
  constructor
  case owned => exact fun h live => absurd live (closed h)
  case waiting => exact nofun
  case serving => exact nofun
  case one_waits => exact nofun
  case one_filed => exact nofun
  case compact => exact fun i j _ live => absurd live (closed _)
  case keys => simp [handedOut, init]
  case nodup => exact List.nodup_nil

/-- A step that no socket changes hands in. -/
structure SameHands (s t : AsyncServer σ) : Prop where
  registered : ∀ i, (t.point i).registered = (s.point i).registered
  opened : ∀ h, t.stateOf stack h = none ↔ s.stateOf stack h = none
  filed : t.socket2Cid = s.socket2Cid
  handedOut : t.handedOut = s.handedOut

variable {stack} {s t : AsyncServer σ} {self : CoroutineId}

theorem SameHands.trans {u : AsyncServer σ} (first : SameHands stack s t)
    (second : SameHands stack t u) : SameHands stack s u where
  registered i := (second.registered i).trans (first.registered i)
  opened h := (second.opened h).trans (first.opened h)
  filed := second.filed.trans first.filed
  handedOut := second.handedOut.trans first.handedOut

variable (stack) in
/-- How sockets change hands in a step. -/
inductive Hands (s t : AsyncServer σ) : Prop
  | same (hands : SameHands stack s t)
  | listen (self : CoroutineId) (handler : SocketHandle) (idle : ∀ h, s.socket2Cid h ≠ some self)
      (isNew : s.stateOf stack handler = none)
      (least : ∀ i < handler.index, s.stateOf stack ⟨i⟩ ≠ none)
      (without : (s.point self.val).registered = none)
      (registered : (fun i => (t.point i).registered) =
        Function.update (fun i => (s.point i).registered) self.val (some handler))
      (opened : ∀ h, t.stateOf stack h ≠ none ↔ h = handler ∨ s.stateOf stack h ≠ none)
      (filed : t.socket2Cid = s.socket2Cid) (handedOut : t.handedOut = s.handedOut)
  | accept (self : CoroutineId) (handler : SocketHandle)
      (waits : (s.point self.val).registered = some handler)
      (registered : (fun i => (t.point i).registered) =
        Function.update (fun i => (s.point i).registered) self.val none)
      (opened : ∀ h, t.stateOf stack h ≠ none ↔ s.stateOf stack h ≠ none)
      (filed : t.socket2Cid = Function.update s.socket2Cid handler (some self))
      (handedOut : t.handedOut = s.handedOut ++ [handler])

theorem Hands.handles (hands : Hands stack s t) (handles : s.Handles stack) : t.Handles stack := by
  cases hands with
  | same hands =>
    have registered : (fun i => (t.point i).registered) = fun i => (s.point i).registered :=
      funext hands.registered
    have opened : (fun h => t.stateOf stack h ≠ none) = fun h => s.stateOf stack h ≠ none := by
      funext h
      rw [Ne, hands.opened h]
    change HandlesOk _ _ _ _
    rw [registered, opened, hands.filed, hands.handedOut]
    exact handles
  | listen self handler idle isNew least without registered opened filed handedOut =>
    change HandlesOk _ _ _ _
    rw [registered, funext fun h => propext (opened h), filed, handedOut]
    exact handles.listen idle (not_not.mpr isNew) least without
  | accept self handler waits registered opened filed handedOut =>
    change HandlesOk _ _ _ _
    rw [registered, funext fun h => propext (opened h), filed, handedOut]
    exact handles.accept waits

/-- What is filed stays filed: only a new handle is ever inserted. -/
theorem Hands.files (hands : Hands stack s t) (handles : s.Handles stack) {h : SocketHandle}
    {c : CoroutineId} (isFiled : s.socket2Cid h = some c) : t.socket2Cid h = some c := by
  cases hands with
  | same hands => rw [hands.filed, isFiled]
  | listen self handler idle isNew least without registered opened filed handedOut =>
    rw [filed, isFiled]
  | accept self handler waits registered opened filed handedOut =>
    -- the filed handle is none that a coroutine still waits with
    have different : h ≠ handler := by
      rintro rfl
      rw [(handles.waiting _ h waits).2] at isFiled
      cases isFiled
    rw [filed, Function.update_of_ne different, isFiled]

/-- A step outside the components that matter here. -/
theorem SameHands.of_eq (points : t.point = s.point) (sockets : t.net.sockets = s.net.sockets)
    (filed : t.socket2Cid = s.socket2Cid) (replies : t.replies = s.replies) :
    SameHands stack s t where
  registered i := by rw [points]
  opened h := by rw [stateOf, sockets]
  filed := filed
  handedOut := by rw [AsyncServer.handedOut, replies, AsyncServer.handedOut]

/-- A coroutine moves on without gaining or losing a socket. -/
theorem SameHands.moves {i : Nat} {p : Point} (points : t.point = Function.update s.point i p)
    (sockets : stack.state t.net.sockets = stack.state s.net.sockets)
    (filed : t.socket2Cid = s.socket2Cid) (replies : t.replies = s.replies)
    (keeps : p.registered = (s.point i).registered) : SameHands stack s t where
  registered j := by
    rw [points]
    by_cases here : j = i
    · rw [here, Function.update_self, keeps]
    · rw [Function.update_of_ne here]
  opened h := by rw [stateOf, sockets]
  filed := filed
  handedOut := by rw [AsyncServer.handedOut, replies, AsyncServer.handedOut]

/-- A reply of another type hands nothing out. -/
theorem SameHands.writeReply {serial size : Nat} {type : MessageType} {cid : CoroutineId}
    (other : type ≠ .listenReply)
    (returned : s.writeReply serial (MessageBuilder.transferReply type cid size) = .ok t) :
    SameHands stack s t := by
  obtain ⟨items, -, rfl⟩ := writeReply_ok returned
  refine ⟨fun _ => rfl, fun _ => Iff.rfl, rfl, ?_⟩
  have different : type.toBits ≠ MessageType.listenReply.toBits := fun same =>
    other (MessageType.toBits_inj same)
  simp [AsyncServer.handedOut, List.filter_append, different]

theorem SameHands.recvInto (handshake : stack.Handshake) {request : Request} {size : Nat}
    (returned : s.recvInto stack request = .ok (size, t)) : SameHands stack s t := by
  obtain ⟨len, bytes, after, sliced, rfl⟩ := recvInto_ok stack returned
  obtain ⟨state, -⟩ := handshake.recv_keeps sliced
  refine ⟨fun _ => rfl, fun h => ?_, rfl, rfl⟩
  change stack.state after h = none ↔ _
  rw [state]

theorem SameHands.endPoll (handshake : stack.Handshake) : SameHands stack s (s.endPoll stack) :=
  ⟨fun _ => rfl, fun h => handshake.egress_none s.net.sockets h, rfl, rfl⟩

theorem Iterated.sameHands (iterated : s.Iterated self t)
    (without : (s.point self.val).registered = none) : SameHands stack s t := by
  cases iterated with
  | again e n wakes => exact .moves rfl rfl rfl rfl without.symm
  | switched e wakes => exact .moves rfl rfl rfl rfl without.symm

theorem Handled.sameHands {request : Request} (handled : Handled stack s request t)
    (handshake : stack.Handshake) (ok : s.Ok) : SameHands stack s t := by
  cases handled with
  | poll e woken => exact .of_eq rfl rfl rfl rfl
  | listen cid runtime body isAccept spawned =>
    -- a spawned coroutine starts without a socket
    have unborn := (ok.dead cid.val (ok.table.fresh spawned)).1
    exact .moves rfl rfl rfl rfl (by rw [unborn]; rfl)
  | dropSend _ _ => exact .of_eq rfl rfl rfl rfl
  | recv size s₁ _ _ received replied =>
    exact (SameHands.recvInto handshake received).trans (.writeReply (by decide) replied)
  | dropRecv _ _ => exact .of_eq rfl rfl rfl rfl
  | handOver _ _ _ handed =>
    obtain ⟨cid, e, filed, woken, rfl⟩ := handOver_ok handed
    exact .of_eq rfl rfl rfl rfl

/-- The owner of a socket is a live coroutine. -/
theorem Ok.owner_lt (ok : s.Ok) {i : Nat} {h : SocketHandle}
    (owns : (s.point i).registered = some h ∨ s.socket2Cid h = some ⟨i⟩) : i < maxTaskNum := by
  apply ok.bound
  rcases owns with waits | filed
  · obtain ⟨task, live⟩ := ok.live_of_acceptPhase (Point.acceptPhase_of_registered waits)
    rw [live]
    exact Option.some_ne_none task
  · exact (ok.accepted h ⟨i⟩ filed).1

/-- What the polled coroutine gets from `accept` is the socket that it registered. -/
theorem Paired.accept_eq (paired : s.Paired) {cid : CoroutineId} {port serial : Nat}
    {handler handle : SocketHandle} {tuple : IpEndpoint × IpEndpoint}
    {net : NetState σ Body Request} (polls : s.polling = some self)
    (at_ : s.point self.val = .accepting cid port serial handler)
    (accepted : s.net.accept stack port = .ok (some (handle, tuple), net)) : handle = handler := by
  have front := Paired.front paired polls port (by simp [at_, Point.waitsOn])
  obtain ⟨en, rest, found, shape, -, -⟩ := NetState.accept_ok stack accepted
  rw [ListenTable.entry_of_some found, shape, at_] at front
  exact (List.cons.inj front).1

/-- The reply and the table entry of an accept coroutine. -/
theorem Handles.accepted (handles : s.Handles stack) (ok : s.Ok) (paired : s.Paired)
    {cid : CoroutineId} {port serial : Nat} {handler handle : SocketHandle}
    {tuple : IpEndpoint × IpEndpoint} {net : NetState σ Body Request} {s₁ : AsyncServer σ}
    (polls : s.polling = some self) (at_ : s.point self.val = .accepting cid port serial handler)
    (accepted : s.net.accept stack port = .ok (some (handle, tuple), net))
    (replied : { s with net := net }.writeReply serial (MessageBuilder.listenReply cid handle) =
      .ok s₁) :
    s₁.handedOut = s.handedOut ++ [handler] ∧ s₁.socket2Cid = s.socket2Cid ∧
      s₁.point = s.point ∧ s₁.net.sockets = s.net.sockets := by
  obtain rfl := paired.accept_eq polls at_ accepted
  obtain ⟨items, -, rfl⟩ := writeReply_ok replied
  obtain ⟨en, rest, -, -, -, rfl⟩ := NetState.accept_ok stack accepted
  refine ⟨?_, rfl, rfl, rfl⟩
  have waits : (s.point self.val).registered = some handle := by rw [at_]; rfl
  -- the handle fits into the 16 bits that the reply has for it
  have fits : handle.index < 2 ^ 16 := by
    have bound := handles.index_lt (fun i h => ok.owner_lt) (handles.waiting _ _ waits).1
    exact Nat.lt_trans bound (by decide)
  have decoded := MessageDecoder.getSocketHandler_listenReply cid fits
  change List.map socketOf (List.filter _ (s.replies ++ _)) = _
  rw [List.filter_append, List.map_append]
  simp [socketOf, decoded, handedOut]

theorem Ran.hands (handshake : stack.Handshake) (ok : s.Ok) (paired : s.Paired)
    (handles : s.Handles stack) (polls : s.polling = some self) (ran : Ran stack s self t) :
    Hands stack s t := by
  cases ran with
  | jump p jumps =>
    refine .same (.moves (s := s) rfl rfl rfl rfl ?_)
    generalize s.point self.val = q at jumps
    cases jumps <;> rfl
  | resume next value lib resumes taken =>
    refine .same (.moves (s := s) rfl rfl rfl rfl ?_)
    generalize s.point self.val = q at resumes
    cases resumes <;> rfl
  | endPoll at_ =>
    have polled : SameHands stack s (s.endPoll stack) := .endPoll handshake
    have without : ((s.endPoll stack).point self.val).registered = none := by
      rw [polled.registered, at_]
      rfl
    have moved : SameHands stack (s.endPoll stack) ((s.endPoll stack).suspend self .netYield) :=
      .moves rfl rfl rfl rfl without.symm
    exact .same (polled.trans moved)
  | noItem cnt at_ empty =>
    exact .same (.moves (s := s) rfl rfl rfl rfl (by rw [at_]; rfl))
  | handle cnt request items s₁ _ at_ popped handled iterated =>
    have live := (ok.polled self polls).2
    have without : (s₁.point self.val).registered = none := by
      rw [((handled.ok ok).2.2 self.val live).2]
      change (s.point self.val).registered = none
      rw [at_]
      rfl
    -- the pop, then the request, then the end of the iteration
    have taken : SameHands stack s { s with buffer := { s.buffer with reqItems := items } } :=
      .of_eq rfl rfl rfl rfl
    exact .same ((taken.trans (handled.sameHands handshake ok)).trans (iterated.sameHands without))
  | send cnt size request items after _ at_ popped sending =>
    obtain ⟨-, -, -, ⟨data, sent⟩, rfl⟩ := sending
    have kept : stack.state after = stack.state s.net.sockets := (handshake.send_keeps sent).1
    refine .same (.moves (s := s) rfl kept rfl rfl ?_)
    rw [at_]
    rfl
  | sendReply cnt size request s₁ _ at_ replied iterated =>
    have polled : SameHands stack s (s.endPoll stack) := .endPoll handshake
    have written := polled.trans (.writeReply (by decide) replied)
    have without : (s₁.point self.val).registered = none := by
      rw [written.registered, at_]
      rfl
    exact .same (written.trans (iterated.sameHands without))
  | listen cid port serial handler after table at_ opened registered =>
    obtain ⟨isNew, least⟩ := handshake.listen_least opened
    -- a coroutine that has filed a socket is past the accept phase
    have idle : ∀ h, s.socket2Cid h ≠ some self := by
      intro h filed
      have past := (ok.accepted h self filed).2
      rw [at_] at past
      cases past
    apply Hands.listen self handler idle isNew least
    case without => rw [at_]; rfl
    case registered => exact Function.comp_update Point.registered s.point self.val _
    case opened =>
      intro h
      change stack.state after h ≠ none ↔ _
      rw [handshake.listen_state opened h]
      by_cases here : h = handler <;> simp [here]
    case filed => rfl
    case handedOut => rfl
  | accept cid port serial handler handle tuple net s₁ at_ accepted replied =>
    obtain ⟨replies, filed, points, sockets⟩ := handles.accepted ok paired polls at_ accepted replied
    apply Hands.accept self handler
    case waits => rw [at_]; rfl
    case registered =>
      change (fun i => (Function.update s₁.point self.val (.recvLoop none) i).registered) = _
      rw [points]
      exact Function.comp_update Point.registered s.point self.val _
    case opened =>
      intro h
      change stack.state s₁.net.sockets h ≠ none ↔ _
      rw [sockets]
    case filed =>
      change Function.update s₁.socket2Cid handler (some self) = _
      rw [filed]
    case handedOut => exact replies
  | wait at_ => exact .same (.moves (s := s) rfl rfl rfl rfl (by rw [at_]; rfl))
  | recvReply request size s₁ s₂ at_ received replied =>
    have written := (SameHands.recvInto handshake received).trans (.writeReply (by decide) replied)
    have without : (s₂.point self.val).registered = none := by
      rw [written.registered, at_]
      rfl
    have moved : SameHands stack s₂ (s₂.goto self (.recvLoop none)) :=
      .moves rfl rfl rfl rfl without.symm
    exact .same (written.trans moved)
  | recvFailed request at_ can failed =>
    exact .same (.moves (s := s) rfl rfl rfl rfl (by rw [at_]; rfl))
  | recvBusy request e at_ woken =>
    exact .same (.moves (s := s) rfl rfl rfl rfl (by rw [at_]; rfl))

theorem Received.sameHands {f : F} (received : Received stack s f t)
    (handshake : stack.Handshake) : SameHands stack s t := by
  cases received with
  | nobody quiet => exact ⟨fun _ => rfl, fun h => handshake.process_none _ f h, rfl, rfl⟩
  | woke seg en c rest e isTcp first found admits shape woken =>
    exact ⟨fun _ => rfl, fun h => handshake.process_none _ f h, rfl, rfl⟩

theorem step_hands (handshake : stack.Handshake) {a : AsyncAction F} (ok : s.Ok)
    (paired : s.Paired) (handles : s.Handles stack) (moved : s.step stack a = some t) :
    Hands stack s t := by
  cases step_moved stack moved with
  | boot _ booted =>
    obtain ⟨poller, cid, runtime, runtime', allocator, first, second⟩ := booted
    have ok₁ := ok.spawn first (by rintro ⟨⟩)
    have unborn := (ok.dead _ (ok.table.fresh first)).1
    have unborn' := (ok₁.dead _ (ok₁.table.fresh second)).1
    have started : SameHands stack s (s.goto poller (.fresh .netPoll)) :=
      .moves rfl rfl rfl rfl (by rw [unborn])
    have started' : SameHands stack (s.goto poller (.fresh .netPoll))
        ((s.goto poller (.fresh .netPoll)).goto cid (.fresh .nwRecvReq)) :=
      .moves rfl rfl rfl rfl (congrArg Point.registered unborn').symm
    exact .same ⟨(started.trans started').registered, fun _ => Iff.rfl, rfl, rfl⟩
  | fetch task e idle fetched => exact .same (.of_eq rfl rfl rfl rfl)
  | run self _ polls ran => exact ran.hands handshake ok paired handles polls
  | frame f self net polls inPoll received =>
    exact .same ((received_ok paired received).sameHands handshake)
  | interrupt vec cid e known delayed => exact .same (.of_eq rfl rfl rfl rfl)
  | submit item items written => exact .same (.of_eq rfl rfl rfl rfl)
  | tookReply reply items popped => exact .same (.of_eq rfl rfl rfl rfl)
  | noReply empty => exact .same (.of_eq rfl rfl rfl rfl)
  | store buffer bytes => exact .same (.of_eq rfl rfl rfl rfl)

/-- The three invariants of the accept coroutines, in every state of every run. -/
theorem reachable_handles (handshake : stack.Handshake)
    (run : Reachable (step stack) (init stack) s) : s.Ok ∧ s.Paired ∧ s.Handles stack := by
  apply run.invariant (fun s => s.Ok ∧ s.Paired ∧ s.Handles stack)
    ⟨ok_init stack, paired_init stack, handles_init stack handshake⟩
  rintro s a t ⟨ok, paired, handles⟩ - moved
  exact ⟨step_ok ok moved, step_paired ok paired moved,
    (step_hands handshake ok paired handles moved).handles handles⟩

/-- In every run, for any requests and any frames: the socket that `accept` returns to a coroutine
is the one that it registered, and the one that it files and hands out; no two ListenReplies hold
the same handle; and a handle that was handed out is found in `SOCKET_2_CID` ever after, under
the coroutine that accepted on it. -/
theorem accepts_own_socket (handshake : stack.Handshake)
    (run : Reachable (step stack) (init stack) s) :
    (∀ self cid port serial handler, s.polling = some self →
      s.point self.val = .accepting cid port serial handler →
      (∀ handle tuple net, s.net.accept stack port = .ok (some (handle, tuple), net) →
        handle = handler) ∧
      ∀ t, s.run stack self = .ok t → t.handedOut = s.handedOut ++ [handler] ∧
        t.socket2Cid = Function.update s.socket2Cid handler (some self)) ∧
    s.handedOut.Nodup ∧
    ∀ request, socketOf request ∈ s.handedOut → ∃ c, s.socket2Cid (socketOf request) = some c ∧
      ∀ t, Reachable (step stack) s t → t.socket2Cid (socketOf request) = some c := by
  obtain ⟨ok, paired, handles⟩ := reachable_handles handshake run
  refine ⟨fun self cid port serial handler polls at_ => ⟨?_, ?_⟩, handles.nodup, ?_⟩
  · intro handle tuple net accepted
    exact paired.accept_eq polls at_ accepted
  · intro t returned
    rw [AsyncServer.run, at_] at returned
    obtain ⟨⟨result, net⟩, accepted, returned⟩ := bind_ok.mp returned
    cases result with
    | none => cases returned
    | some pair =>
      obtain ⟨s₁, replied, rfl⟩ := map_ok.mp returned
      obtain ⟨replies, filed, -, -⟩ := handles.accepted ok paired polls at_ accepted replied
      refine ⟨replies, ?_⟩
      change Function.update s₁.socket2Cid handler (some self) = _
      rw [filed]
  · intro request isHanded
    obtain ⟨c, filed⟩ := Option.ne_none_iff_exists'.mp ((handles.keys _).mp isHanded)
    refine ⟨c, filed, fun t later => ?_⟩
    -- along the later run, the entry is kept by each step
    have inv : (t.Ok ∧ t.Paired ∧ t.Handles stack) ∧
        t.socket2Cid (socketOf request) = some c := by
      apply later.invariant (fun t => (t.Ok ∧ t.Paired ∧ t.Handles stack) ∧
        t.socket2Cid (socketOf request) = some c) ⟨⟨ok, paired, handles⟩, filed⟩
      rintro s a t ⟨⟨ok, paired, handles⟩, filed⟩ - moved
      have hands := step_hands handshake ok paired handles moved
      exact ⟨⟨step_ok ok moved, step_paired ok paired moved, hands.handles handles⟩,
        hands.files handles filed⟩
    exact inv.2

/-- Two clients listen on port 80 and two peers connect. The first accept coroutine replies, the
second resumes. -/
def twoAcceptsRun : List (AsyncAction MiniFrame) :=
  let other (syn ack : Bool) : MiniFrame := ⟨⟨⟨8, 4000⟩, ⟨0, 80⟩, syn, ack⟩, false, []⟩
  [.boot, .submit (MessageBuilder.listen ⟨9⟩ 80), .submit (MessageBuilder.listen ⟨10⟩ 80),
    -- the poller, both requests, then both accept coroutines up to their yields
    .fetch, .run, .run, .fetch, .run, .run, .run, .run, .fetch, .run, .fetch, .run,
    .submit (IPCItem.ofMsg ⟨0⟩ MessageType.netPollReq.toBits), .interrupt 0,
    .fetch, .run, .run, .run, .fetch, .run,
    .frame .syn, .frame .ack, .frame (other true false), .frame (other false true),
    .run, .fetch, .run, .run, .run, .fetch, .run]

/-- The first handle is handed out, and the second coroutine is about to accept on its own. -/
theorem accepts_own_socket_two_clients :
    ∃ s, Reachable (step mini) (init mini) s ∧ s.polling = some ⟨3⟩ ∧
      s.point 3 = .accepting ⟨10⟩ 80 1 ⟨1⟩ ∧ s.handedOut = [⟨0⟩] ∧
      (∃ tuple net, s.net.accept mini 80 = .ok (some (⟨1⟩, tuple), net)) ∧
      (∀ t, s.run mini ⟨3⟩ = .ok t → t.handedOut = [⟨0⟩, ⟨1⟩] ∧
        t.socket2Cid = Function.update s.socket2Cid ⟨1⟩ (some ⟨3⟩)) ∧
      ∃ c, s.socket2Cid ⟨0⟩ = some c ∧
        ∀ t, Reachable (step mini) s t → t.socket2Cid ⟨0⟩ = some c := by
  obtain ⟨s, run, view⟩ := reachable_of_view (step mini) (init mini) twoAcceptsRun
    (fun s => ((s.polling, s.point 3, s.handedOut), s.net.listenTable 80, s.net.sockets))
    (v := ((some ⟨3⟩, .accepting ⟨10⟩ 80 1 ⟨1⟩, [⟨0⟩]), some ⟨none, [⟨1⟩], [], []⟩,
      [⟨80, .established, some ⟨7, 4000⟩, []⟩, ⟨80, .established, some ⟨8, 4000⟩, []⟩]))
    (by decide +kernel)
  simp only [Prod.mk.injEq] at view
  obtain ⟨⟨polls, at_, handed⟩, table, sockets⟩ := view
  obtain ⟨own, -, filed⟩ := accepts_own_socket mini_handshake run
  obtain ⟨-, hands⟩ := own ⟨3⟩ ⟨10⟩ 80 1 ⟨1⟩ polls at_
  rw [handed] at hands filed
  refine ⟨s, run, polls, at_, handed, ?_, hands, ?_⟩
  · simp only [NetState.accept, table, sockets, NetState.isConnected]
    exact ⟨_, _, rfl⟩
  · exact filed ⟨0, MessageBuilder.recv ⟨9⟩ ⟨0⟩ 0 0⟩ (by decide)

end AsyncServer

end RootTask.Net
