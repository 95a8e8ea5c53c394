import Mathlib.Data.List.Nodup
import RootTask.Net.AsyncServer

/-!
# Serial numbers

Requests are numbered in the order in which the client submits them. What `process_req` has
taken from the queue and what was answered is apart from what is still queued, so a request
that comes out of the queue is a new one.
-/
namespace RootTask.Net

open RootTask.Runtime

/-- A reply of a type to a request, sent to its cid. -/
def isReplyTo (type : MessageType) (request reply : Request) : Bool :=
  reply.serial == request.serial && reply.item.cid == request.item.cid &&
    reply.item.msgInfo == type.toBits

def repliesTo (type : MessageType) (replies : List Request) (request : Request) : Nat :=
  replies.countP (isReplyTo type request)

section

variable {type : MessageType} {replies : List Request} {request reply : Request}

theorem repliesTo_append :
    repliesTo type (replies ++ [reply]) request =
      repliesTo type replies request + if isReplyTo type request reply then 1 else 0 := by
  simp [repliesTo, List.countP_append, List.countP_singleton]

theorem repliesTo_append_of_serial {serial : Nat} {item : IPCItem}
    (different : serial ≠ request.serial) :
    repliesTo type (replies ++ [⟨serial, item⟩]) request = repliesTo type replies request := by
  simp [repliesTo_append, isReplyTo, different]

theorem repliesTo_append_of_type (different : reply.item.msgInfo ≠ type.toBits) :
    repliesTo type (replies ++ [reply]) request = repliesTo type replies request := by
  simp [repliesTo_append, isReplyTo, different]

end

/-- The numbers of the queued requests, of those in `taken`, and of the replies of a type. -/
structure SerialsOk (type : MessageType) (queued : List Request) (submitted : Nat)
    (taken replies : List Request) : Prop where
  nodup : (queued.map (·.serial)).Nodup
  below : ∀ r ∈ queued, r.serial < submitted
  known : ∀ r ∈ taken, r.serial < submitted ∧ ∀ q ∈ queued, q.serial ≠ r.serial
  takenOnce : (taken.map (·.serial)).Nodup
  replied : ∀ a ∈ replies, a.item.msgInfo = type.toBits →
    a.serial < submitted ∧ ∀ q ∈ queued, q.serial ≠ a.serial

/-- A request that was in the queue and is nowhere else. -/
structure FreshRequest (type : MessageType) (queued : List Request) (submitted : Nat)
    (taken replies : List Request) (request : Request) : Prop where
  below : request.serial < submitted
  apart : ∀ q ∈ queued, q.serial ≠ request.serial
  untaken : ∀ r ∈ taken, r.serial ≠ request.serial
  unanswered : ∀ a ∈ replies, a.item.msgInfo = type.toBits → a.serial ≠ request.serial

namespace SerialsOk

variable {type : MessageType} {queued : List Request} {submitted : Nat}
  {taken replies : List Request}

theorem empty : SerialsOk type [] 0 [] [] := by
  constructor <;> simp

theorem unique (ok : SerialsOk type queued submitted taken replies) {r r' : Request}
    (first : r ∈ taken) (second : r' ∈ taken) (same : r.serial = r'.serial) : r = r' :=
  List.inj_on_of_nodup_map ok.takenOnce first second same

/-- A number that is apart from the queued ones stays apart from the next one. -/
private theorem apart_submit {number : Nat} (item : IPCItem)
    (apart : number < submitted ∧ ∀ q ∈ queued, q.serial ≠ number) :
    number < submitted + 1 ∧ ∀ q ∈ queued ++ [⟨submitted, item⟩], q.serial ≠ number := by
  obtain ⟨bound, apart⟩ := apart
  refine ⟨Nat.lt_succ_of_lt bound, fun q inQueue => ?_⟩
  rcases List.mem_append.mp inQueue with old | new
  · exact apart q old
  · obtain rfl := List.mem_singleton.mp new
    exact (Nat.ne_of_lt bound).symm

theorem submit (ok : SerialsOk type queued submitted taken replies) (item : IPCItem) :
    SerialsOk type (queued ++ [⟨submitted, item⟩]) (submitted + 1) taken replies := by
  constructor
  case nodup =>
    rw [List.map_append, List.nodup_append]
    refine ⟨ok.nodup, List.nodup_singleton _, ?_⟩
    rintro a old b new rfl
    obtain ⟨r, member, rfl⟩ := List.mem_map.mp old
    -- the new number is larger than all that are queued
    have bound := ok.below r member
    have last : r.serial = submitted := by simpa using new
    omega
  case below =>
    intro r member
    rcases List.mem_append.mp member with old | new
    · exact Nat.lt_succ_of_lt (ok.below r old)
    · obtain rfl := List.mem_singleton.mp new
      exact Nat.lt_succ_self submitted
  case known => exact fun r member => apart_submit item (ok.known r member)
  case takenOnce => exact ok.takenOnce
  case replied => exact fun a member isType => apart_submit item (ok.replied a member isType)

theorem pop {request : Request} {rest : List Request}
    (ok : SerialsOk type (request :: rest) submitted taken replies) :
    SerialsOk type rest submitted taken replies ∧
      FreshRequest type rest submitted taken replies request := by
  -- the numbers in the queue are distinct, so its head is apart from the rest
  obtain ⟨absent, nodup⟩ := List.nodup_cons.mp ok.nodup
  constructor
  · constructor
    case nodup => exact nodup
    case below => exact fun r member => ok.below r (List.mem_cons_of_mem _ member)
    case known =>
      intro r member
      obtain ⟨bound, apart⟩ := ok.known r member
      exact ⟨bound, fun q inQueue => apart q (List.mem_cons_of_mem _ inQueue)⟩
    case takenOnce => exact ok.takenOnce
    case replied =>
      intro a member isType
      obtain ⟨bound, apart⟩ := ok.replied a member isType
      exact ⟨bound, fun q inQueue => apart q (List.mem_cons_of_mem _ inQueue)⟩
  · constructor
    case below => exact ok.below request List.mem_cons_self
    case apart =>
      intro q inQueue same
      exact absent (List.mem_map.mpr ⟨q, inQueue, same⟩)
    case untaken =>
      intro r member same
      exact (ok.known r member).2 request List.mem_cons_self same.symm
    case unanswered =>
      intro a member isType same
      exact (ok.replied a member isType).2 request List.mem_cons_self same.symm

theorem take (ok : SerialsOk type queued submitted taken replies) {request : Request}
    (fresh : FreshRequest type queued submitted taken replies request) :
    SerialsOk type queued submitted (taken ++ [request]) replies := by
  constructor
  case nodup => exact ok.nodup
  case below => exact ok.below
  case known =>
    intro r member
    rcases List.mem_append.mp member with old | new
    · exact ok.known r old
    · obtain rfl := List.mem_singleton.mp new
      exact ⟨fresh.below, fresh.apart⟩
  case takenOnce =>
    rw [List.map_append, List.nodup_append]
    refine ⟨ok.takenOnce, List.nodup_singleton _, ?_⟩
    rintro a old b new rfl
    obtain ⟨r, member, rfl⟩ := List.mem_map.mp old
    exact fresh.untaken r member (by simpa using new)
  case replied => exact ok.replied

/-- A reply of another type, or to a request that has left the queue. -/
theorem reply (ok : SerialsOk type queued submitted taken replies) {reply : Request}
    (isKnown : reply.item.msgInfo = type.toBits →
      reply.serial < submitted ∧ ∀ q ∈ queued, q.serial ≠ reply.serial) :
    SerialsOk type queued submitted taken (replies ++ [reply]) := by
  refine ⟨ok.nodup, ok.below, ok.known, ok.takenOnce, ?_⟩
  intro a member isType
  rcases List.mem_append.mp member with old | new
  · exact ok.replied a old isType
  · obtain rfl := List.mem_singleton.mp new
    exact isKnown isType

end SerialsOk

theorem FreshRequest.repliesTo {type : MessageType} {queued : List Request} {submitted : Nat}
    {taken replies : List Request} {request : Request}
    (fresh : FreshRequest type queued submitted taken replies request) :
    repliesTo type replies request = 0 := by
  rw [Net.repliesTo, List.countP_eq_zero]
  intro a member counted
  simp only [isReplyTo, Bool.and_eq_true, beq_iff_eq] at counted
  exact fresh.unanswered a member counted.2 counted.1.1

end RootTask.Net
