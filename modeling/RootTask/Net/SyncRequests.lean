import RootTask.Net.SyncCalls

/-!
# Requests and sockets of the synchronous clients

What holds of the clients and the server together, in three parts that the steps change one at a
time. A request of a client is in the hands of the client, in one place of the server, or answered;
a socket is in a queue of the listen table or belongs to one client; and the threads know which
endpoint goes with a socket. The server may be in the middle of a step: the clients that it is going
to answer in this step are `busy`.
-/
namespace RootTask.Net

open RootTask.Runtime RootTask.Custody

def ServePoint.fd : ServePoint → Option SocketHandle
  | .listen => none
  | .recv fd => some fd
  | .send fd => some fd
  | .last fd => some fd
  | .suspended => none

def ServePoint.sends : ServePoint → Bool
  | .send _ => true
  | .last _ => true
  | _ => false

def ServePoint.replyType : ServePoint → Option MessageType
  | .listen => some .listenReply
  | .recv _ => some .recvReply
  | .send _ => some .sendReply
  | .last _ => some .sendReply
  | .suspended => none

/-- The request of a call. -/
def ServePoint.regs (buffer : BufferPtr) : ServePoint → Option MsgRegs
  | .listen => some ⟨.listen, 80, 0, 0⟩
  | .recv fd => some ⟨.recv, BitVec.ofNat 64 fd.index, buffer, 1⟩
  | .send fd => some ⟨.send, BitVec.ofNat 64 fd.index, buffer, 1⟩
  | .last fd => some ⟨.send, BitVec.ofNat 64 fd.index, buffer, 1⟩
  | .suspended => none

theorem ServePoint.regs_some {buffer : BufferPtr} {point : ServePoint} {regs : MsgRegs}
    (isRegs : point.regs buffer = some regs) :
    (regs.type = .listen ∧ point = .listen ∧ regs.port = 80) ∨
    ∃ fd, point.fd = some fd ∧ regs.handler = ⟨(BitVec.ofNat 64 fd.index).toNat⟩ ∧
      regs.buffer = buffer ∧ regs.len = 1 ∧
      ((regs.type = .recv ∧ point = .recv fd) ∨ (regs.type = .send ∧ point.sends = true)) := by
  cases point with
  | listen =>
    cases isRegs
    exact .inl ⟨rfl, rfl, rfl⟩
  | recv fd =>
    cases isRegs
    exact .inr ⟨fd, rfl, rfl, rfl, rfl, .inl ⟨rfl, rfl⟩⟩
  | send fd =>
    cases isRegs
    exact .inr ⟨fd, rfl, rfl, rfl, rfl, .inr ⟨rfl, rfl⟩⟩
  | last fd =>
    cases isRegs
    exact .inr ⟨fd, rfl, rfl, rfl, rfl, .inr ⟨rfl, rfl⟩⟩
  | suspended => cases isRegs

/-- The request was taken, and `ep.recv` has not returned. -/
def CallPhase.waits : CallPhase → Bool
  | .sent _ => true
  | .receiving _ => true
  | _ => false

namespace SyncClient

/-- The socket of a client, from the ListenReply on. -/
def fd (c : SyncClient) : Option SocketHandle :=
  match c.point, c.phase with
  | .listen, .replied _ value => some ⟨value⟩
  | point, _ => point.fd

/-- The Listen of the client was taken. -/
def listened (c : SyncClient) : Bool :=
  match c.point, c.phase with
  | .listen, .running => false
  | .listen, .sending _ _ => false
  | _, _ => true

/-- The client uses its own endpoint, and gets the reply to its call. -/
def Ok (buffer : BufferPtr) (i : Nat) (c : SyncClient) : Prop :=
  match c.phase with
  | .running => True
  | .sending ep regs => ep = i ∧ c.point.regs buffer = some regs
  | .sent ep => ep = i ∧ c.point ≠ .suspended
  | .receiving ep => ep = i ∧ c.point ≠ .suspended
  | .replied type _ => c.point.replyType = some type

theorem fd_of_point {c : SyncClient} {h : SocketHandle} (isFd : c.point.fd = some h) :
    c.fd = some h := by
  cases point : c.point <;> simp_all [fd, ServePoint.fd]

end SyncClient

/-! ### Requests -/

section Requests

variable (slot : Nat) (buffer : Nat → BufferPtr)

/-- A token stands for the call that its client waits in. -/
def SyncToken.StandsFor (token : SyncToken) (buffer : BufferPtr) (point : ServePoint) : Prop :=
  match token with
  | .listening _ => point = .listen
  | .blocked task =>
    point = .recv task.handler ∧ task.tcpBuffer = buffer ∧ task.complete = false
  | .sending _ => point.sends = true

def Serves (client : Nat → SyncClient) (token : SyncToken) : Prop :=
  ∃ i < threadNum, token.ep = ⟨slot + i⟩ ∧ (client i).phase.waits = true ∧
    token.StandsFor (buffer i) (client i).point

/-- The request of a waiting client is in the server, its ListenReply was lost, or its Send was
refused. -/
def Accounted (places : SyncPlace → List SyncToken) (lost refused : List Endpoint)
    (ep : Endpoint) (point : ServePoint) : Prop :=
  (∃ p, ∃ token ∈ places p, token.ep = ep) ∨ (point = .listen ∧ ep ∈ lost) ∨
    (point.sends = true ∧ ep ∈ refused)

structure Requests (busy : List Endpoint) (places : SyncPlace → List SyncToken)
    (client : Nat → SyncClient) (lost refused : List Endpoint) : Prop where
  tokens : Exclusive SyncToken.ep (Serves slot buffer client) places
  waits : ∀ i < threadNum, (client i).phase.waits = true → ⟨slot + i⟩ ∈ busy ∨
    Accounted places lost refused ⟨slot + i⟩ (client i).point
  busyWaits : ∀ ep ∈ busy, ∃ i < threadNum, ep = ⟨slot + i⟩ ∧ (client i).phase.waits = true
  busyAbsent : ∀ ep ∈ busy, Absent SyncToken.ep places ep
  busyOnce : busy.Nodup

variable {slot buffer} {busy : List Endpoint} {places : SyncPlace → List SyncToken}
  {client : Nat → SyncClient} {lost refused : List Endpoint} {i : Nat} {c : SyncClient}

theorem endpoint_inj {i j : Nat} : (⟨slot + i⟩ : Endpoint) = ⟨slot + j⟩ ↔ i = j := by
  simp

namespace Requests

/-- A client that does not wait has no request in the server. -/
theorem absent (requests : Requests slot buffer busy places client lost refused)
    (quiet : (client i).phase.waits = false) : Absent SyncToken.ep places ⟨slot + i⟩ := by
  intro p token here same
  obtain ⟨j, -, isEp, waits, -⟩ := requests.tokens.good p token here
  have : j = i := endpoint_inj.mp (isEp.symm.trans same)
  subst this
  simp [quiet] at waits

/-- A client goes on that does not wait, or waits on in the same call. -/
theorem update (requests : Requests slot buffer busy places client lost refused)
    (keeps : (client i).phase.waits = true → c.phase.waits = true ∧ c.point = (client i).point)
    (fresh : c.phase.waits = true → (client i).phase.waits = true) :
    Requests slot buffer busy places (Function.update client i c) lost refused := by
  have still : ∀ j, (client j).phase.waits = true →
      (Function.update client i c j).phase.waits = true ∧
        (Function.update client i c j).point = (client j).point := by
    intro j waits
    by_cases here : j = i
    · subst here
      rw [Function.update_self]
      exact keeps waits
    · rw [Function.update_of_ne here]
      exact ⟨waits, rfl⟩
  refine ⟨?_, ?_, ?_, requests.busyAbsent, requests.busyOnce⟩
  · refine requests.tokens.imp fun p token _ good => ?_
    obtain ⟨j, bound, isEp, waits, stands⟩ := good
    obtain ⟨waits', point⟩ := still j waits
    exact ⟨j, bound, isEp, waits', by rw [point]; exact stands⟩
  · intro j bound waits
    have before : (client j).phase.waits = true := by
      by_cases here : j = i
      · subst here
        rw [Function.update_self] at waits
        exact fresh waits
      · rwa [Function.update_of_ne here] at waits
    rw [(still j before).2]
    exact requests.waits j bound before
  · intro ep member
    obtain ⟨j, bound, isEp, waits⟩ := requests.busyWaits ep member
    exact ⟨j, bound, isEp, (still j waits).1⟩

/-- The server takes the request of a client. -/
theorem hear (requests : Requests slot buffer [] places client lost refused)
    (bound : i < threadNum) (quiet : (client i).phase.waits = false)
    (waits : c.phase.waits = true) :
    Requests slot buffer [⟨slot + i⟩] places (Function.update client i c) lost refused := by
  have absent := requests.absent quiet
  constructor
  case tokens =>
    refine requests.tokens.imp fun p token here good => ?_
    obtain ⟨j, boundJ, isEp, waitsJ, stands⟩ := good
    have other : j ≠ i := by
      rintro rfl
      exact absent p token here isEp
    exact ⟨j, boundJ, isEp, by rw [Function.update_of_ne other]; exact ⟨waitsJ, stands⟩⟩
  case waits =>
    intro j boundJ waitsJ
    by_cases here : j = i
    · exact .inl (by simp [here])
    · rw [Function.update_of_ne here] at waitsJ ⊢
      rcases requests.waits j boundJ waitsJ with impossible | accounted
      · cases impossible
      · exact .inr accounted
  case busyWaits =>
    intro ep member
    rw [List.mem_singleton] at member
    exact ⟨i, bound, member, by rw [Function.update_self]; exact waits⟩
  case busyAbsent =>
    intro ep member
    rw [List.mem_singleton] at member
    rw [member]
    exact absent
  case busyOnce => exact List.nodup_singleton _

/-- A request that was just taken is put into a place. -/
theorem file {ep : Endpoint} {p : SyncPlace} {token : SyncToken}
    (requests : Requests slot buffer [ep] places client lost refused) (isEp : token.ep = ep)
    (good : Serves slot buffer client token) :
    Requests slot buffer [] (Function.update places p (places p ++ [token])) client lost
      refused := by
  have absent := requests.busyAbsent ep (by simp)
  have mono : ∀ q other, other ∈ places q →
      other ∈ Function.update places p (places p ++ [token]) q := by
    intro q other here
    by_cases same : q = p
    · subst same
      rw [Function.update_self]
      exact List.mem_append_left _ here
    · rwa [Function.update_of_ne same]
  refine ⟨requests.tokens.put (by rw [isEp]; exact absent) good (.refl _), ?_, ?_, ?_, .nil⟩
  · intro i bound waits
    rcases requests.waits i bound waits with busy | ⟨q, other, here, same⟩ | left
    · refine .inr (.inl ⟨p, token, ?_, isEp.trans (List.mem_singleton.mp busy).symm⟩)
      rw [Function.update_self]
      exact List.mem_append_right _ (List.mem_singleton.mpr rfl)
    · exact .inr (.inl ⟨q, other, mono q other here, same⟩)
    · exact .inr (.inr left)
  · intro ep impossible
    cases impossible
  · intro ep impossible
    cases impossible

/-- The server takes requests out of a place, to answer them. -/
theorem withdraw {p : SyncPlace} {l : List SyncToken} {eps : List Endpoint}
    (requests : Requests slot buffer [] places client lost refused)
    (sub : l.Sublist (places p))
    (perm : (eps ++ l.map SyncToken.ep).Perm ((places p).map SyncToken.ep)) :
    Requests slot buffer eps (Function.update places p l) client lost refused := by
  have once := perm.nodup_iff.mpr (requests.tokens.nodup p)
  obtain ⟨epsOnce, -, apart⟩ := List.nodup_append.mp once
  have found : ∀ ep ∈ eps, ∃ token ∈ places p, token.ep = ep := fun ep member =>
    List.mem_map.mp (perm.mem_iff.mp (List.mem_append_left _ member))
  refine ⟨requests.tokens.drop sub, ?_, ?_, ?_, epsOnce⟩
  · intro i bound waits
    rcases requests.waits i bound waits with impossible | ⟨q, token, here, same⟩ | left
    · cases impossible
    · by_cases isP : q = p
      · subst isP
        have member : (⟨slot + i⟩ : Endpoint) ∈ eps ++ l.map SyncToken.ep :=
          perm.mem_iff.mpr (List.mem_map.mpr ⟨token, here, same⟩)
        rcases List.mem_append.mp member with gone | stays
        · exact .inl gone
        · obtain ⟨token', here', same'⟩ := List.mem_map.mp stays
          exact .inr (.inl ⟨q, token', by rwa [Function.update_self], same'⟩)
      · exact .inr (.inl ⟨q, token, by rwa [Function.update_of_ne isP], same⟩)
    · exact .inr (.inr left)
  · intro ep member
    obtain ⟨token, here, same⟩ := found ep member
    obtain ⟨i, bound, isEp, waits, -⟩ := requests.tokens.good p token here
    exact ⟨i, bound, same.symm.trans isEp, waits⟩
  · intro ep member q token here same
    obtain ⟨first, inP, isEp⟩ := found ep member
    rcases mem_update here with ⟨rfl, stays⟩ | ⟨other, elsewhere⟩
    · exact apart ep member ep (List.mem_map.mpr ⟨token, stays, same⟩) rfl
    · exact other (requests.tokens.apart q p token elsewhere first inP (same.trans isEp.symm))

/-- A client that the server is busy with gets its reply. -/
theorem answer (requests : Requests slot buffer (⟨slot + i⟩ :: busy) places client lost refused)
    (quiet : c.phase.waits = false) :
    Requests slot buffer busy places (Function.update client i c) lost refused := by
  have absent := requests.busyAbsent ⟨slot + i⟩ List.mem_cons_self
  obtain ⟨notBusy, busyOnce⟩ := List.nodup_cons.mp requests.busyOnce
  refine ⟨?_, ?_, ?_, ?_, busyOnce⟩
  · refine requests.tokens.imp fun p token here good => ?_
    obtain ⟨j, bound, isEp, waits, stands⟩ := good
    have other : j ≠ i := by
      rintro rfl
      exact absent p token here isEp
    exact ⟨j, bound, isEp, by rw [Function.update_of_ne other]; exact ⟨waits, stands⟩⟩
  · intro j bound waits
    have other : j ≠ i := by
      rintro rfl
      simp [quiet] at waits
    rw [Function.update_of_ne other] at waits ⊢
    rcases requests.waits j bound waits with isBusy | accounted
    · rcases List.mem_cons.mp isBusy with same | later
      · exact absurd (endpoint_inj.mp same) other
      · exact .inl later
    · exact .inr accounted
  · intro ep member
    obtain ⟨j, bound, isEp, waits⟩ := requests.busyWaits ep (List.mem_cons_of_mem _ member)
    have other : j ≠ i := by
      rintro rfl
      exact notBusy (isEp ▸ member)
    exact ⟨j, bound, isEp, by rw [Function.update_of_ne other]; exact waits⟩
  · exact fun ep member => requests.busyAbsent ep (List.mem_cons_of_mem _ member)

/-- A client that the server was busy with gets no reply. -/
theorem giveUp {ep : Endpoint} {lost' refused' : List Endpoint}
    (requests : Requests slot buffer (ep :: busy) places client lost refused)
    (more : ∀ ep ∈ lost, ep ∈ lost') (more' : ∀ ep ∈ refused, ep ∈ refused')
    (settled : ∀ i < threadNum, ep = ⟨slot + i⟩ →
      Accounted places lost' refused' ep (client i).point) :
    Requests slot buffer busy places client lost' refused' := by
  have later : ∀ {other}, other ∈ busy → other ∈ ep :: busy := List.mem_cons_of_mem ep
  refine ⟨requests.tokens, ?_, fun other member => requests.busyWaits other (later member),
    fun other member => requests.busyAbsent other (later member),
    (List.nodup_cons.mp requests.busyOnce).2⟩
  intro i bound waits
  rcases requests.waits i bound waits with isBusy | held | ⟨isListen, gone⟩ | ⟨isSend, gone⟩
  · rcases List.mem_cons.mp isBusy with same | later
    · exact .inr (same ▸ settled i bound same.symm)
    · exact .inl later
  · exact .inr (.inl held)
  · exact .inr (.inr (.inl ⟨isListen, more _ gone⟩))
  · exact .inr (.inr (.inr ⟨isSend, more' _ gone⟩))

end Requests

end Requests

/-! ### Sockets -/

/-- Where the handle of a socket is. -/
inductive HandlePlace where
  | queue (port : Nat)
  | client (i : Nat)
  deriving DecidableEq, Repr

def handlePlaces (queues : Nat → List SocketHandle) (client : Nat → SyncClient) :
    HandlePlace → List SocketHandle
  | .queue port => queues port
  | .client i => (client i).fd.toList

/-- Every open socket is in the table or belongs to one client, and a client opens one only. -/
structure Sockets (slot : Nat) (opened : SocketHandle → Prop) (listened : List Endpoint)
    (queues : Nat → List SocketHandle) (client : Nat → SyncClient) : Prop where
  held : Exclusive id opened (handlePlaces queues client)
  index : ∀ h, opened h → h.index < listened.length
  once : listened.Nodup
  begun : ∀ ep ∈ listened, ∃ i < threadNum, ep = ⟨slot + i⟩ ∧ (client i).listened = true

namespace Sockets

variable {slot : Nat} {opened opened' : SocketHandle → Prop} {listened : List Endpoint}
  {queues : Nat → List SocketHandle} {client : Nat → SyncClient} {i port : Nat} {c : SyncClient}
  {h : SocketHandle}

theorem handlePlaces_client (c : SyncClient) :
    handlePlaces queues (Function.update client i c) =
      Function.update (handlePlaces queues client) (.client i) c.fd.toList := by
  funext p
  cases p with
  | queue port => rfl
  | client j =>
    by_cases same : j = i
    · subst same
      simp only [handlePlaces, Function.update_self]
    · have different : HandlePlace.client j ≠ .client i := by simpa using same
      rw [Function.update_of_ne different]
      simp only [handlePlaces, Function.update_of_ne same]

theorem handlePlaces_queue (l : List SocketHandle) :
    handlePlaces (Function.update queues port l) client =
      Function.update (handlePlaces queues client) (.queue port) l := by
  funext p
  cases p with
  | client i => rfl
  | queue q =>
    by_cases same : q = port
    · subst same
      simp only [handlePlaces, Function.update_self]
    · have different : HandlePlace.queue q ≠ .queue port := by simpa using same
      rw [Function.update_of_ne different]
      simp only [handlePlaces, Function.update_of_ne same]

theorem begun_update (sockets : Sockets slot opened listened queues client)
    (listens : (client i).listened = true → c.listened = true) :
    ∀ ep ∈ listened, ∃ j < threadNum, ep = ⟨slot + j⟩ ∧
      (Function.update client i c j).listened = true := by
  intro ep member
  obtain ⟨j, bound, isEp, begun⟩ := sockets.begun ep member
  refine ⟨j, bound, isEp, ?_⟩
  by_cases same : j = i
  · subst same
    rw [Function.update_self]
    exact listens begun
  · rwa [Function.update_of_ne same]

theorem congr (sockets : Sockets slot opened listened queues client)
    (same : ∀ h, opened' h ↔ opened h) : Sockets slot opened' listened queues client :=
  ⟨sockets.held.imp fun _ h _ => (same h).mpr, fun h is => sockets.index h ((same h).mp is),
    sockets.once, sockets.begun⟩

/-- A client goes on, with its socket or without. -/
theorem update (sockets : Sockets slot opened listened queues client)
    (fd : c.fd = (client i).fd ∨ c.fd = none)
    (listens : (client i).listened = true → c.listened = true) :
    Sockets slot opened listened queues (Function.update client i c) := by
  refine ⟨?_, sockets.index, sockets.once, sockets.begun_update listens⟩
  rw [handlePlaces_client]
  apply sockets.held.drop
  rcases fd with same | gone
  · rw [same]
    exact .refl _
  · rw [gone]
    exact List.nil_sublist _

/-- The server opens a socket for a client. -/
theorem listen (sockets : Sockets slot opened listened queues client) (bound : i < threadNum)
    (first : (client i).listened = false) (second : c.listened = true)
    (fd : c.fd = none) (new : ¬ opened h) (least : ∀ k < h.index, opened ⟨k⟩)
    (opens : ∀ h', opened' h' ↔ h' = h ∨ opened h') :
    Sockets slot opened' (listened ++ [⟨slot + i⟩])
      (Function.update queues port (queues port ++ [h])) (Function.update client i c) := by
  have unlisted : (⟨slot + i⟩ : Endpoint) ∉ listened := by
    intro member
    obtain ⟨j, -, isEp, begun⟩ := sockets.begun _ member
    have : i = j := endpoint_inj.mp isEp
    subst this
    simp [first] at begun
  have clients := sockets.update (i := i) (.inr fd) fun _ => second
  constructor
  case held =>
    rw [handlePlaces_queue]
    have wider : Exclusive id opened' (handlePlaces queues (Function.update client i c)) :=
      clients.held.imp fun _ h' _ is => (opens h').mpr (.inr is)
    refine wider.put ?_ ((opens h).mpr (.inl rfl)) (.refl _)
    intro p h' here same
    have isOpen := clients.held.good p h' here
    rw [show h' = h from same] at isOpen
    exact new isOpen
  case index =>
    intro h' is
    rw [List.length_append, List.length_singleton]
    rcases (opens h').mp is with rfl | old
    · -- the places before the first free one are taken
      rcases Nat.eq_zero_or_pos h'.index with zero | positive
      · omega
      · have := sockets.index _ (least (h'.index - 1) (by omega))
        simp only at this
        omega
    · have := sockets.index h' old
      omega
  case once =>
    rw [List.nodup_append]
    refine ⟨sockets.once, List.nodup_singleton _, ?_⟩
    rintro ep old ep' new rfl
    exact unlisted (List.mem_singleton.mp new ▸ old)
  case begun =>
    intro ep member
    rcases List.mem_append.mp member with old | new
    · exact clients.begun ep old
    · exact ⟨i, bound, List.mem_singleton.mp new, by rw [Function.update_self]; exact second⟩

/-- The first socket of a queue is handed to a client. -/
theorem answer (sockets : Sockets slot opened listened queues client) {rest : List SocketHandle}
    (queue : queues port = h :: rest) (fd : c.fd = some h)
    (listens : (client i).listened = true → c.listened = true) :
    Sockets slot opened listened (Function.update queues port rest)
      (Function.update client i c) := by
  refine ⟨?_, sockets.index, sockets.once, sockets.begun_update listens⟩
  have front : handlePlaces queues client (.queue port) = h :: rest := queue
  have moved := sockets.held.replace (q := .client i) (b := h) (l := []) front rfl
    (fun _ _ is => is) id (List.nil_sublist _)
  rw [handlePlaces_client, handlePlaces_queue, fd]
  exact moved

/-- The first socket of a queue is given up. -/
theorem lose (sockets : Sockets slot opened listened queues client) {rest : List SocketHandle}
    (queue : queues port = h :: rest) :
    Sockets slot opened listened (Function.update queues port rest) client := by
  refine ⟨?_, sockets.index, sockets.once, sockets.begun⟩
  rw [handlePlaces_queue]
  exact sockets.held.drop (by simp [handlePlaces, queue])

/-- A client opens one socket, so there are as many as clients at most. -/
theorem index_lt (sockets : Sockets slot opened listened queues client) (is : opened h) :
    h.index < threadNum := by
  have subset : listened ⊆ createEps slot := by
    intro ep member
    obtain ⟨i, bound, rfl, -⟩ := sockets.begun ep member
    exact List.mem_map.mpr ⟨i, List.mem_range.mpr bound, rfl⟩
  have most := (sockets.once.subperm subset).length_le
  rw [createEps_length] at most
  exact Nat.lt_of_lt_of_le (sockets.index h is) most

theorem own (sockets : Sockets slot opened listened queues client) {j : Nat}
    (here : (client i).fd = some h) (there : (client j).fd = some h) : i = j := by
  have same := sockets.held.apart (.client i) (.client j) h (by simp [handlePlaces, here]) h
    (by simp [handlePlaces, there]) rfl
  simpa using same

theorem is_open (sockets : Sockets slot opened listened queues client)
    (here : (client i).fd = some h) : opened h :=
  sockets.held.good (.client i) h (by simp [handlePlaces, here])

end Sockets

/-! ### What the threads know -/

structure Clients (buffer : Nat → BufferPtr) (client : Nat → SyncClient)
    (netStackMap2 : SocketHandle → Option Nat) : Prop where
  phases : ∀ i < threadNum, (client i).Ok (buffer i) i
  known : ∀ i < threadNum, ∀ fd, (client i).point.fd = some fd → netStackMap2 fd = some i

namespace Clients

variable {buffer : Nat → BufferPtr} {client : Nat → SyncClient}
  {netStackMap2 : SocketHandle → Option Nat} {i : Nat} {c : SyncClient}

theorem update (clients : Clients buffer client netStackMap2) (ok : c.Ok (buffer i) i)
    (known : ∀ fd, c.point.fd = some fd → netStackMap2 fd = some i) :
    Clients buffer (Function.update client i c) netStackMap2 := by
  constructor
  · intro j bound
    by_cases same : j = i
    · subst same
      rw [Function.update_self]
      exact ok
    · rw [Function.update_of_ne same]
      exact clients.phases j bound
  · intro j bound fd
    by_cases same : j = i
    · subst same
      rw [Function.update_self]
      exact known fd
    · rw [Function.update_of_ne same]
      exact clients.known j bound fd

end Clients

end RootTask.Net
