import RootTask.Lib.Transition
import RootTask.Runtime.AsyncLib
import RootTask.Syscall.Requests

/-!
# The receivers of replies

`recv_reply_coroutine` and `recv_reply_coroutine_async_syscall` hand every reply in their buffer
to the coroutine that waits for it, and end after `reply_num` of them. They count in a static, one
for all instances of the first function and one per thread for the second, and nothing resets it.

An instance is cut at its accesses to what it shares: the queue, the mailbox and the executor of
its thread, the load and the store of `REPLY_COUNT += 1`, and the load of the comparison.
Instances go on in any order. The second function also prints the address in the reply to a
`RISCVPageGetAddress`.
-/
namespace RootTask.Ipc

open RootTask.Runtime RootTask.Transition RootTask.Syscall

/-! ### The address in a reply -/

/-- `paddr` as the code computes it. `+` binds tighter than `<<`, so each shift is one of the
whole sum. -/
def replyPaddr (item : IPCItem) : Word :=
  let paddr : Word := 0
  let paddr := (paddr + wide (word item.extendMsg 1)) <<< 48
  let paddr := (paddr + wide (word item.extendMsg 2)) <<< 32
  let paddr := (paddr + wide (word item.extendMsg 3)) <<< 16
  paddr + wide (word item.extendMsg 4)

/-- The words of an address, most significant first. -/
structure Carries (item : IPCItem) (paddr : Word) : Prop where
  word1 : word item.extendMsg 1 = paddr.extractLsb' 48 16
  word2 : word item.extendMsg 2 = paddr.extractLsb' 32 16
  word3 : word item.extendMsg 3 = paddr.extractLsb' 16 16
  word4 : word item.extendMsg 4 = paddr.extractLsb' 0 16

/-- The word that belongs to bit 32 is shifted by 48, and the one above it out of the sum. -/
theorem toNat_replyPaddr {item : IPCItem} {paddr : Word} (sent : Carries item paddr) :
    (replyPaddr item).toNat = paddr.toNat / 2 ^ 32 % 2 ^ 16 * 2 ^ 48 + paddr.toNat % 2 ^ 32 := by
  have bound := paddr.isLt
  simp only [replyPaddr, wide, sent.word1, sent.word2, sent.word3, sent.word4, BitVec.toNat_add,
    BitVec.toNat_shiftLeft, BitVec.toNat_setWidth, BitVec.extractLsb'_toNat, Nat.shiftLeft_eq,
    Nat.shiftRight_eq_div_pow]
  omega

/-- The address comes out right exactly below 4 GiB. -/
theorem replyPaddr_eq_iff {item : IPCItem} {paddr : Word} (sent : Carries item paddr) :
    replyPaddr item = paddr ↔ paddr.toNat < 2 ^ 32 := by
  rw [← BitVec.toNat_inj, toNat_replyPaddr sent]
  have bound := paddr.isLt
  omega

/-- A reply with the words of an address. -/
def addressReply (w1 w2 w3 w4 : BitVec 16) : IPCItem :=
  request ⟨0⟩ .riscvPageGetAddress [0, w1, w2, w3, w4]

/-- `0x1_8020_0000` is read as `0x1_0000_8020_0000`. -/
theorem replyPaddr_wrong :
    Carries (addressReply 0 1 0x8020 0) 0x180200000 ∧
      replyPaddr (addressReply 0 1 0x8020 0) = 0x1000080200000 :=
  ⟨⟨by decide, by decide, by decide, by decide⟩, by decide⟩

theorem replyPaddr_eq_iff_low : replyPaddr (addressReply 0 0 0x8020 0x1000) = 0x80201000 :=
  (replyPaddr_eq_iff ⟨by decide, by decide, by decide, by decide⟩).mpr (by decide)

/-! ### The instances -/

inductive ReceiverFn where
  | recvReplyCoroutine
  | recvReplyCoroutineAsyncSyscall
  deriving DecidableEq, Repr

/-- The statics named `REPLY_COUNT`. -/
inductive ReplyCount where
  | shared
  | threadLocal (thread : Nat)
  deriving DecidableEq, Repr

/-- Where an instance stands in its loop. -/
inductive ReceiverPoint where
  | pop
  /-- With a reply, before it is handed on. -/
  | deliver (item : IPCItem)
  /-- Before `REPLY_COUNT += 1`. -/
  | load
  /-- In the middle of it. -/
  | store (loaded : Word)
  /-- Before the comparison. -/
  | test
  /-- After an empty pop, before the store of `false`. -/
  | clear
  | yield
  | finished
  deriving DecidableEq, Repr

def ReceiverPoint.delivering : ReceiverPoint → Bool
  | .deliver _ => true
  | .pop | .load | .store _ | .test | .clear | .yield | .finished => false

/-- A reply is handed on and not yet compared. -/
def ReceiverPoint.counting : ReceiverPoint → Bool
  | .load | .store _ | .test => true
  | .pop | .deliver _ | .clear | .yield | .finished => false

structure Receiver where
  fn : ReceiverFn
  thread : Nat
  buffer : Nat
  replyNum : Word
  point : ReceiverPoint
  /-- How many replies it has handed on. -/
  delivered : Nat
  deriving DecidableEq, Repr

/-- The static that an instance counts in. -/
def Receiver.replyCount (r : Receiver) : ReplyCount :=
  match r.fn with
  | .recvReplyCoroutine => .shared
  | .recvReplyCoroutineAsyncSyscall => .threadLocal r.thread

structure Receivers (φ : Type) where
  /-- In the order in which they were started. -/
  instances : List Receiver
  buffer : Nat → NewBuffer IPCItem
  lib : Nat → AsyncState φ IPCItem
  replyCount : ReplyCount → Word
  printed : List Word

inductive ReceiversAction (φ : Type) where
  | start (fn : ReceiverFn) (thread buffer : Nat) (replyNum : Word)
  /-- An instance goes on to its next access. -/
  | advance (i : Nat)
  /-- The other side of a buffer writes a reply. -/
  | reply (buffer : Nat) (item : IPCItem)
  /-- Other coroutines of a thread run, or a resumed `yield_now` empties its mailbox. -/
  | others (thread : Nat) (lib : AsyncState φ IPCItem)

namespace Receivers

variable {φ : Type}

def init : Receivers φ where
  instances := []
  buffer := fun _ => .new
  lib := fun _ => .init
  replyCount := fun _ => 0
  printed := []

/-- Instance `i` is now `r`. -/
def put (s : Receivers φ) (i : Nat) (r : Receiver) : Receivers φ :=
  { s with instances := s.instances.set i r }

def setBuffer (s : Receivers φ) (buffer : Nat) (b : NewBuffer IPCItem) : Receivers φ :=
  { s with buffer := Function.update s.buffer buffer b }

def setCount (s : Receivers φ) (c : ReplyCount) (value : Word) : Receivers φ :=
  { s with replyCount := Function.update s.replyCount c value }

/-- What the second function prints before it hands a reply on. -/
def print (s : Receivers φ) (r : Receiver) (item : IPCItem) : Receivers φ :=
  match r.fn with
  | .recvReplyCoroutine => s
  | .recvReplyCoroutineAsyncSyscall =>
    if AsyncMessageLabel.ofU32 item.msgInfo = .riscvPageGetAddress then
      { s with printed := s.printed ++ [replyPaddr item] }
    else s

@[simp] theorem print_instances (s : Receivers φ) (r : Receiver) (item : IPCItem) :
    (s.print r item).instances = s.instances := by
  unfold print
  split
  · rfl
  · split <;> rfl

@[simp] theorem print_replyCount (s : Receivers φ) (r : Receiver) (item : IPCItem) :
    (s.print r item).replyCount = s.replyCount := by
  unfold print
  split
  · rfl
  · split <;> rfl

/-- The next access of instance `i`. -/
def advance (s : Receivers φ) (i : Nat) (r : Receiver) : Option (Receivers φ) :=
  match r.point with
  | .pop =>
    match (s.buffer r.buffer).resItems.getFirstItem with
    | some (item, items) =>
      some ((s.setBuffer r.buffer { s.buffer r.buffer with resItems := items }).put i
        { r with point := .deliver item })
    | none => some (s.put i { r with point := .clear })
  | .deliver item =>
    ((s.lib r.thread).wakeWithValue item.cid item).toOption.map fun lib =>
      (({ s with lib := Function.update s.lib r.thread lib }).print r item).put i
        { r with point := .load, delivered := r.delivered + 1 }
  | .load => some (s.put i { r with point := .store (s.replyCount r.replyCount) })
  | .store loaded =>
    some ((s.setCount r.replyCount (loaded + 1)).put i { r with point := .test })
  | .test =>
    if s.replyCount r.replyCount = r.replyNum then some (s.put i { r with point := .finished })
    else some (s.put i { r with point := .pop })
  | .clear =>
    some ((s.setBuffer r.buffer { s.buffer r.buffer with recvReplyStatus := false }).put i
      { r with point := .yield })
  | .yield => some (s.put i { r with point := .pop })
  | .finished => none

/-- A step that panics has no successor. Every instance has its own buffer. -/
def step (s : Receivers φ) : ReceiversAction φ → Option (Receivers φ)
  | .start fn thread buffer replyNum =>
    if replyNum ≠ 0 ∧ ∀ r ∈ s.instances, r.buffer ≠ buffer then
      some { s with instances := s.instances ++ [⟨fn, thread, buffer, replyNum, .pop, 0⟩] }
    else none
  | .advance i => s.instances[i]?.bind (s.advance i)
  | .reply buffer item =>
    ((s.buffer buffer).resItems.writeFreeItem item).toOption.map fun items =>
      s.setBuffer buffer { s.buffer buffer with resItems := items, recvReplyStatus := true }
  | .others thread lib => some { s with lib := Function.update s.lib thread lib }

end Receivers

namespace Receiver

/-- The replies that it has counted. -/
def counted (r : Receiver) : Nat :=
  match r.point with
  | .load | .store _ => r.delivered - 1
  | _ => r.delivered

/-- An instance that counts right. -/
def Sound (r : Receiver) : Prop :=
  match r.point with
  | .pop | .deliver _ | .clear | .yield => r.delivered < r.replyNum.toNat
  | .load | .test => 0 < r.delivered ∧ r.delivered ≤ r.replyNum.toNat
  | .store loaded => 0 < r.delivered ∧ r.delivered ≤ r.replyNum.toNat ∧
      loaded = BitVec.ofNat 64 r.counted
  | .finished => r.delivered = r.replyNum.toNat

/-- It never hands on more than `reply_num` replies, and after the last one it only counts. -/
theorem Sound.delivered_le {r : Receiver} (sound : r.Sound) :
    r.delivered ≤ r.replyNum.toNat ∧ (r.point = .finished → r.delivered = r.replyNum.toNat) ∧
      (r.delivered = r.replyNum.toNat → r.point = .finished ∨ r.point.counting = true) := by
  unfold Sound at sound
  cases point : r.point <;> simp only [point] at sound
  case load => exact ⟨sound.2, by rintro ⟨⟩, fun _ => .inr rfl⟩
  case store => exact ⟨sound.2.1, by rintro ⟨⟩, fun _ => .inr rfl⟩
  case test => exact ⟨sound.2, by rintro ⟨⟩, fun _ => .inr rfl⟩
  case finished => exact ⟨Nat.le_of_eq sound, fun _ => sound, fun _ => .inl rfl⟩
  -- elsewhere a reply is still to come
  all_goals exact ⟨Nat.le_of_lt sound, by rintro ⟨⟩, fun all => absurd all (Nat.ne_of_lt sound)⟩

end Receiver

namespace Receivers

variable {φ : Type} {s t : Receivers φ} {i : Nat} {r : Receiver}

/-- Only one instance has handed on replies for each counter, and the counter is what it has
counted. -/
structure CountsOk (s : Receivers φ) : Prop where
  sound : ∀ (i : Nat) (r : Receiver), s.instances[i]? = some r → r.Sound
  alone : ∀ (i j : Nat) (r r' : Receiver), s.instances[i]? = some r → s.instances[j]? = some r' →
    i ≠ j → r'.replyCount = r.replyCount → 0 < r.delivered → r'.delivered = 0
  count : ∀ (i : Nat) (r : Receiver), s.instances[i]? = some r → 0 < r.delivered →
    s.replyCount r.replyCount = BitVec.ofNat 64 r.counted
  zero : ∀ c, (∀ (i : Nat) (r : Receiver), s.instances[i]? = some r → r.replyCount = c →
    r.delivered = 0) → s.replyCount c = 0

theorem countsOk_init : (init : Receivers φ).CountsOk := by
  constructor <;> simp [init]

/-- No other instance has handed on replies for the counter of instance `i`. -/
def Undisturbed (s : Receivers φ) (i : Nat) (r : Receiver) : Prop :=
  ∀ r' ∈ s.instances.eraseIdx i, r'.replyCount = r.replyCount → r'.delivered = 0

instance (s : Receivers φ) (i : Nat) (r : Receiver) : Decidable (s.Undisturbed i r) :=
  inferInstanceAs (Decidable (∀ r' ∈ _, _))

theorem undisturbed_iff :
    s.Undisturbed i r ↔ ∀ (j : Nat) (r' : Receiver), s.instances[j]? = some r' → i ≠ j →
      r'.replyCount = r.replyCount → r'.delivered = 0 := by
  simp only [Undisturbed, List.mem_eraseIdx_iff_getElem?]
  constructor
  · intro quiet j r' found different
    exact quiet r' ⟨j, Ne.symm different, found⟩
  · rintro quiet r' ⟨j, different, found⟩
    exact quiet j r' found (Ne.symm different)

/-- An instance moves, with or without a store to its counter. -/
theorem CountsOk.move (ok : s.CountsOk) (here : s.instances[i]? = some r) (r' : Receiver)
    (value : Word) (same : r'.replyCount = r.replyCount) (grows : r.delivered ≤ r'.delivered)
    (sound : r'.Sound) (alone : 0 < r'.delivered → s.Undisturbed i r)
    (counted : 0 < r'.delivered → value = BitVec.ofNat 64 r'.counted)
    (kept : r'.delivered = 0 → value = s.replyCount r.replyCount) :
    ((s.setCount r.replyCount value).put i r').CountsOk := by
  have inList : i < s.instances.length := (List.getElem?_eq_some_iff.mp here).1
  have entry : ∀ (j : Nat) (q : Receiver), (s.instances.set i r')[j]? = some q →
      (j = i ∧ q = r') ∨ (i ≠ j ∧ s.instances[j]? = some q) := by
    intro j q found
    rw [List.getElem?_set] at found
    split at found
    next here => exact .inl ⟨here.symm, (Option.some.inj found).symm⟩
    next different => exact .inr ⟨different, found⟩
  have others : 0 < r'.delivered → ∀ (j : Nat) (q : Receiver), s.instances[j]? = some q →
      i ≠ j → q.replyCount = r.replyCount → q.delivered = 0 := fun positive =>
    undisturbed_iff.mp (alone positive)
  constructor
  case sound =>
    intro j q found
    rcases entry j q found with ⟨rfl, rfl⟩ | ⟨-, old⟩
    · exact sound
    · exact ok.sound j q old
  case alone =>
    intro j k q q' first second different sameCount positive
    rcases entry j q first with ⟨rfl, rfl⟩ | ⟨notJ, old⟩
    · rcases entry k q' second with ⟨rfl, rfl⟩ | ⟨notK, old'⟩
      · exact absurd rfl different
      · exact others positive k q' old' notK (sameCount.trans same)
    · rcases entry k q' second with ⟨rfl, rfl⟩ | ⟨-, old'⟩
      · -- if the moved instance had replies, this one would have none
        by_contra nonzero
        have none_ := others (Nat.pos_of_ne_zero nonzero) j q old notJ (sameCount.symm.trans same)
        omega
      · exact ok.alone j k q q' old old' different sameCount positive
  case count =>
    intro j q found positive
    rcases entry j q found with ⟨rfl, rfl⟩ | ⟨notJ, old⟩
    · simp only [put, setCount, same, Function.update_self]
      exact counted positive
    · simp only [put, setCount]
      by_cases sameCount : q.replyCount = r.replyCount
      · have none_ : r'.delivered = 0 := by
          by_contra nonzero
          have none_ := others (Nat.pos_of_ne_zero nonzero) j q old notJ sameCount
          omega
        rw [sameCount, Function.update_self, kept none_, ← sameCount]
        exact ok.count j q old positive
      · rw [Function.update_of_ne sameCount]
        exact ok.count j q old positive
  case zero =>
    intro c quiet
    have quietHere : r'.replyCount = c → r'.delivered = 0 :=
      quiet i r' (by simp [put, setCount, inList])
    have quietBefore : ∀ (j : Nat) (q : Receiver), s.instances[j]? = some q →
        q.replyCount = c → q.delivered = 0 := by
      intro j q found isC
      by_cases moved : j = i
      · subst moved
        obtain rfl := Option.some.inj (here.symm.trans found)
        have none_ := quietHere (same.trans isC)
        omega
      · refine quiet j q ?_ isC
        simpa [put, setCount, List.getElem?_set_ne (Ne.symm moved)] using found
    simp only [put, setCount]
    by_cases isC : c = r.replyCount
    · subst isC
      rw [Function.update_self, kept (quietHere same)]
      exact ok.zero _ quietBefore
    · rw [Function.update_of_ne isC]
      exact ok.zero c quietBefore

/-- The invariant is about the instances and the counters only. -/
theorem CountsOk.congr (ok : s.CountsOk) (instances : t.instances = s.instances)
    (replyCount : t.replyCount = s.replyCount) : t.CountsOk := by
  obtain ⟨sound, alone, count, zero⟩ := ok
  constructor
  · rwa [instances]
  · rwa [instances]
  · rwa [instances, replyCount]
  · rwa [instances, replyCount]

theorem CountsOk.undisturbed (ok : s.CountsOk) (here : s.instances[i]? = some r)
    (positive : 0 < r.delivered) : s.Undisturbed i r :=
  undisturbed_iff.mpr fun j r' found different same =>
    ok.alone i j r r' here found different same positive

/-- A move that neither hands on nor counts a reply. -/
theorem CountsOk.quiet {p : ReceiverPoint} (ok : s.CountsOk) (here : s.instances[i]? = some r)
    (counted : ({ r with point := p } : Receiver).counted = r.counted)
    (sound : ({ r with point := p } : Receiver).Sound) :
    (s.put i { r with point := p }).CountsOk := by
  have moved := ok.move here { r with point := p } (s.replyCount r.replyCount) rfl
    (Nat.le_refl _) sound (fun positive => ok.undisturbed here positive)
    (fun positive => by rw [counted]; exact ok.count i r here positive) fun _ => rfl
  refine moved.congr rfl ?_
  simp only [put, setCount, Function.update_eq_self]

theorem ofNat_eq_iff {n : Nat} {w : Word} (bound : n ≤ w.toNat) :
    BitVec.ofNat 64 n = w ↔ n = w.toNat := by
  have small := w.isLt
  rw [← BitVec.toNat_inj, BitVec.toNat_ofNat]
  omega

/-- The counter that an undisturbed instance is about to raise. -/
theorem CountsOk.count_delivered {item : IPCItem} (ok : s.CountsOk)
    (here : s.instances[i]? = some r) (point : r.point = .deliver item)
    (undisturbed : s.Undisturbed i r) :
    s.replyCount r.replyCount = BitVec.ofNat 64 r.delivered := by
  by_cases first : r.delivered = 0
  · -- nobody has handed on anything for this counter
    rw [first]
    refine ok.zero _ fun j q found same => ?_
    by_cases self : i = j
    · subst self
      obtain rfl := Option.some.inj (here.symm.trans found)
      exact first
    · exact undisturbed_iff.mp undisturbed j q found self same
  · have counted : r.counted = r.delivered := by simp only [Receiver.counted, point]
    rw [ok.count i r here (Nat.pos_of_ne_zero first), counted]

theorem CountsOk.advance (ok : s.CountsOk) (here : s.instances[i]? = some r)
    (allowed : r.point.delivering = true → s.Undisturbed i r)
    (moved : s.advance i r = some t) : t.CountsOk := by
  have sound := ok.sound i r here
  unfold Receivers.advance at moved
  cases point : r.point with
  | pop =>
    simp only [Receiver.Sound, point] at sound
    simp only [point] at moved
    split at moved
    · cases moved
      refine (ok.quiet (p := .deliver _) here ?_ ?_).congr rfl rfl
      · simp only [Receiver.counted, point]
      · exact sound
    · cases moved
      refine ok.quiet here ?_ ?_
      · simp only [Receiver.counted, point]
      · exact sound
  | deliver item =>
    simp only [Receiver.Sound, point] at sound
    simp only [point, Option.map_eq_some_iff] at moved
    obtain ⟨lib, -, rfl⟩ := moved
    have undisturbed : s.Undisturbed i r := allowed (by rw [point]; rfl)
    have counted := ok.count_delivered here point undisturbed
    have delivered := ok.move here { r with point := .load, delivered := r.delivered + 1 }
      (s.replyCount r.replyCount) rfl (Nat.le_succ _) ⟨Nat.succ_pos _, sound⟩
      (fun _ => undisturbed) (fun _ => counted) fun _ => rfl
    refine delivered.congr ?_ ?_
    · simp [put, setCount]
    · simp [put, setCount]
  | load =>
    simp only [Receiver.Sound, point] at sound
    simp only [point] at moved
    cases moved
    have counted := ok.count i r here sound.1
    refine ok.quiet here ?_ ?_
    · simp only [Receiver.counted, point]
    · refine ⟨sound.1, sound.2, ?_⟩
      simpa only [Receiver.counted, point] using counted
  | store loaded =>
    simp only [Receiver.Sound, Receiver.counted, point] at sound
    obtain ⟨positive, bound, rfl⟩ := sound
    simp only [point] at moved
    cases moved
    refine ok.move here _ _ rfl (Nat.le_refl _) ⟨positive, bound⟩
      (fun _ => ok.undisturbed here positive) (fun _ => ?_)
      fun none_ => absurd none_ (Nat.ne_of_gt positive)
    simp only [Receiver.counted]
    rw [show (1 : Word) = BitVec.ofNat 64 1 from rfl, ← BitVec.ofNat_add,
      Nat.sub_add_cancel positive]
  | test =>
    simp only [Receiver.Sound, point] at sound
    obtain ⟨positive, bound⟩ := sound
    have counted := ok.count i r here positive
    simp only [Receiver.counted, point] at counted
    simp only [point, counted, ofNat_eq_iff bound] at moved
    split at moved
    next last =>
      cases moved
      refine ok.quiet here ?_ last
      simp only [Receiver.counted, point]
    next more =>
      cases moved
      refine ok.quiet here ?_ (Nat.lt_of_le_of_ne bound more)
      simp only [Receiver.counted, point]
  | clear =>
    simp only [Receiver.Sound, point] at sound
    simp only [point] at moved
    cases moved
    refine (ok.quiet (p := .yield) here ?_ sound).congr rfl rfl
    simp only [Receiver.counted, point]
  | yield =>
    simp only [Receiver.Sound, point] at sound
    simp only [point] at moved
    cases moved
    refine ok.quiet here ?_ sound
    simp only [Receiver.counted, point]
  | finished =>
    simp only [point] at moved
    cases moved

theorem CountsOk.start (ok : s.CountsOk) {fn : ReceiverFn} {thread buffer : Nat} {replyNum : Word}
    (positive : replyNum ≠ 0) :
    CountsOk { s with instances := s.instances ++ [⟨fn, thread, buffer, replyNum, .pop, 0⟩] } := by
  have entry : ∀ (j : Nat) (q : Receiver),
      (s.instances ++ [⟨fn, thread, buffer, replyNum, .pop, 0⟩])[j]? = some q →
        s.instances[j]? = some q ∨ q = ⟨fn, thread, buffer, replyNum, .pop, 0⟩ := by
    intro j q found
    rw [List.getElem?_append] at found
    split at found
    · exact .inl found
    · exact .inr (List.mem_singleton.mp (List.mem_of_getElem? found))
  constructor
  case sound =>
    intro j q found
    rcases entry j q found with old | rfl
    · exact ok.sound j q old
    · simp only [Receiver.Sound]
      exact BitVec.toNat_pos_of_ne_zero positive
  case alone =>
    intro j k q q' first second different same delivered
    rcases entry j q first with old | rfl
    · rcases entry k q' second with old' | rfl
      · exact ok.alone j k q q' old old' different same delivered
      · rfl
    · exact absurd delivered (Nat.lt_irrefl 0)
  case count =>
    intro j q found delivered
    rcases entry j q found with old | rfl
    · exact ok.count j q old delivered
    · exact absurd delivered (Nat.lt_irrefl 0)
  case zero =>
    intro c quiet
    refine ok.zero c fun j q found => quiet j q ?_
    have inList : j < s.instances.length := (List.getElem?_eq_some_iff.mp found).1
    rw [List.getElem?_append_left inList]
    exact found

/-- A reply is handed on only while no other instance has handed one on for the same counter. -/
def Apart (s : Receivers φ) : ReceiversAction φ → Prop
  | .advance i => ∀ r ∈ s.instances[i]?, r.point.delivering = true → s.Undisturbed i r
  | .start _ _ _ _ | .reply _ _ | .others _ _ => True

instance (s : Receivers φ) : DecidablePred s.Apart
  | .advance i => inferInstanceAs (Decidable (∀ r ∈ s.instances[i]?, _ → s.Undisturbed i r))
  | .start _ _ _ _ | .reply _ _ | .others _ _ => .isTrue trivial

theorem CountsOk.step {a : ReceiversAction φ} (ok : s.CountsOk) (apart : s.Apart a)
    (moved : s.step a = some t) : t.CountsOk := by
  cases a with
  | start fn thread buffer replyNum =>
    simp only [Receivers.step] at moved
    split at moved
    next fresh =>
      cases moved
      exact ok.start fresh.1
    · cases moved
  | advance i =>
    obtain ⟨r, here, moved⟩ := Option.bind_eq_some_iff.mp moved
    exact ok.advance here (fun delivering => apart r here delivering) moved
  | reply buffer item =>
    simp only [Receivers.step, Option.map_eq_some_iff] at moved
    obtain ⟨items, -, rfl⟩ := moved
    exact ok.congr rfl rfl
  | others thread lib =>
    cases moved
    exact ok.congr rfl rfl

/-- In every run in which a reply is handed on only while no other instance has handed one on for
the same counter: an instance has finished only with `reply_num` replies handed on, with that many
it has finished or is counting the last one, and when it compares it finishes exactly then. -/
theorem replies_counted {s : Receivers φ} (run : Reaches step Apart init s) :
    (∀ r ∈ s.instances, r.delivered ≤ r.replyNum.toNat ∧
      (r.point = .finished → r.delivered = r.replyNum.toNat) ∧
      (r.delivered = r.replyNum.toNat → r.point = .finished ∨ r.point.counting = true)) ∧
    ∀ (i : Nat) (r : Receiver), s.instances[i]? = some r → r.point = .test →
      s.step (.advance i) = some (s.put i
        { r with point := if r.delivered = r.replyNum.toNat then .finished else .pop }) := by
  have ok : s.CountsOk :=
    run.invariant CountsOk countsOk_init fun _ _ _ ok apart moved => ok.step apart moved
  constructor
  · intro r member
    obtain ⟨i, here⟩ := List.mem_iff_getElem?.mp member
    exact (ok.sound i r here).delivered_le
  · intro i r here point
    have sound := ok.sound i r here
    simp only [Receiver.Sound, point] at sound
    have counted := ok.count i r here sound.1
    simp only [Receiver.counted, point] at counted
    simp only [Receivers.step, here, Option.bind_some, Receivers.advance, point, counted,
      ofNat_eq_iff sound.2]
    split <;> rfl

/-- One reply in a buffer, and an instance that handles it up to the comparison. -/
def receiveRun (i buffer : Nat) : List (ReceiversAction Unit) :=
  .reply buffer .new :: List.replicate 5 (.advance i)

/-- Three instances, one after the other: the second has its one reply and does not finish, and
the third finishes with two replies of four. -/
theorem replies_miscounted :
    (∃ s : Receivers Unit, Reachable step init s ∧ s.instances =
      [⟨.recvReplyCoroutine, 0, 0, 1, .finished, 1⟩, ⟨.recvReplyCoroutine, 0, 1, 1, .pop, 1⟩,
        ⟨.recvReplyCoroutine, 1, 2, 4, .finished, 2⟩]) ∧
    ∃ s : Receivers Unit, Reachable step init s ∧ s.instances =
      [⟨.recvReplyCoroutineAsyncSyscall, 0, 0, 1, .finished, 1⟩,
        ⟨.recvReplyCoroutineAsyncSyscall, 0, 1, 1, .pop, 1⟩,
        ⟨.recvReplyCoroutineAsyncSyscall, 0, 2, 4, .finished, 2⟩] := by
  constructor
  · exact reachable_of_view step (init : Receivers Unit)
      (.start .recvReplyCoroutine 0 0 1 :: receiveRun 0 0 ++
        .start .recvReplyCoroutine 0 1 1 :: receiveRun 1 1 ++
        .start .recvReplyCoroutine 1 2 4 :: receiveRun 2 2 ++ receiveRun 2 2)
      (fun s => s.instances) (by decide +kernel)
  · exact reachable_of_view step (init : Receivers Unit)
      (.start .recvReplyCoroutineAsyncSyscall 0 0 1 :: receiveRun 0 0 ++
        .start .recvReplyCoroutineAsyncSyscall 0 1 1 :: receiveRun 1 1 ++
        .start .recvReplyCoroutineAsyncSyscall 0 2 4 :: receiveRun 2 2 ++ receiveRun 2 2)
      (fun s => s.instances) (by decide +kernel)

/-- Instances of the two functions side by side, and of the second one on two threads, count
right: they have three counters. -/
theorem replies_counted_side_by_side :
    ∃ s : Receivers Unit, Reaches step Apart init s ∧ ∃ r ∈ s.instances,
      r.fn = .recvReplyCoroutineAsyncSyscall ∧ r.point = .finished ∧ r.delivered = 2 := by
  obtain ⟨s, run, seen⟩ := reaches_of_view step Apart (init : Receivers Unit)
    (.start .recvReplyCoroutine 0 0 1 :: .start .recvReplyCoroutineAsyncSyscall 0 1 2 ::
      .start .recvReplyCoroutineAsyncSyscall 1 2 1 ::
      (receiveRun 1 1 ++ receiveRun 0 0 ++ receiveRun 2 2 ++ receiveRun 1 1))
    (fun s => s.instances)
    (v := [⟨.recvReplyCoroutine, 0, 0, 1, .finished, 1⟩,
      ⟨.recvReplyCoroutineAsyncSyscall, 0, 1, 2, .finished, 2⟩,
      ⟨.recvReplyCoroutineAsyncSyscall, 1, 2, 1, .finished, 1⟩]) (by decide +kernel)
  refine ⟨s, run, ⟨.recvReplyCoroutineAsyncSyscall, 0, 1, 2, .finished, 2⟩, by simp [seen], rfl,
    rfl, ?_⟩
  exact ((replies_counted run).1 _ (by simp [seen])).2.1 rfl

end Receivers

end RootTask.Ipc
