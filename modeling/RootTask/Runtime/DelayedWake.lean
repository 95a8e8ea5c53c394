import RootTask.Runtime.ReadyQueues

/-!
# Delivery of delayed wake-ups

`actual_wake` takes the mask of delayed wake-ups and shifts it right, one bit a round. In the
round of `index` the bit of coroutine `index` stands at position 0, but when it is set the code
clears position `index`, where by then coroutine `2 * index` stands. So waking a coroutine
other than 0 cancels the wake-up of the one with twice its id.

The rest of the loop is right: what is woken was recorded, in increasing order and once, 64
rounds empty the mask, and wake-ups that interrupts record meanwhile are kept.
-/
namespace RootTask.Runtime.Executor

open Transition

variable {φ : Type}

/-! ### What the loop wakes -/

theorem delayedFrom_ge {fuel index : Nat} {mask : BitVec 64} {cid : CoroutineId}
    (member : cid ∈ delayedFrom fuel index mask) : index ≤ cid.val := by
  -- the `k`-th remaining bit is the one of coroutine `index + k`
  obtain ⟨k, at_k, -⟩ := delayedFrom_sound fuel index mask cid member
  omega

theorem delayedFrom_increasing (fuel index : Nat) (mask : BitVec 64) :
    (delayedFrom fuel index mask).Pairwise fun a b => a.val < b.val := by
  induction fuel generalizing index mask with
  | zero => exact .nil
  | succ fuel ih =>
    simp only [delayedFrom]
    split
    · exact .nil
    · split
      -- the later rounds have larger indices
      · exact .cons (fun cid later => delayedFrom_ge later) (ih _ _)
      · exact ih _ _

/-- Shifted out of the mask: an unset first bit. -/
private theorem even_first_bit {mask : BitVec 64} (even : ¬ mask &&& 1 ≠ 0) :
    mask.getLsbD 0 = false := by
  rw [not_not] at even
  exact (and_bit_eq_zero mask 0).mp even (by omega)

/-- The mask after the round of `index` in which coroutine `index` is woken. -/
private theorem getLsbD_woken_round (mask : BitVec 64) (index k : Nat) :
    ((mask &&& ~~~(1#64 <<< index)) >>> 1).getLsbD k =
      (mask.getLsbD (k + 1) && !decide (index = k + 1)) := by
  rw [BitVec.getLsbD_ushiftRight, getLsbD_and_not_bit, Nat.add_comm 1 k]
  -- clearing hits the bit that the shift then brings to `k`
  by_cases same : index = k + 1
  · by_cases inWord : index < 64
    · simp [same, same ▸ inWord]
    · simp [BitVec.getLsbD_of_ge mask (k + 1) (by omega)]
  · simp [same]

/-- A coroutine is woken if its bit was set and the coroutine of half its id was not woken
before it. -/
theorem mem_delayedFrom (fuel index k : Nat) (mask : BitVec 64) :
    (⟨index + k⟩ : CoroutineId) ∈ delayedFrom fuel index mask ↔
      k < fuel ∧ mask.getLsbD k = true ∧
        ¬ ∃ j < k, 2 * (index + j) = index + k ∧
          (⟨index + j⟩ : CoroutineId) ∈ delayedFrom fuel index mask := by
  induction fuel generalizing index mask k with
  | zero => simp [delayedFrom]
  | succ fuel ih =>
    simp only [delayedFrom]
    split
    next empty => simp [empty]
    next nonempty =>
      split
      -- coroutine `index` is woken, and position `index` is cleared:
      -- for `k = index` that is the bit of coroutine `2 * index`
      next odd =>
        have first := and_one_ne_zero odd
        cases k with
        | zero => simp [first]
        | succ k =>
          -- all but the first entry belong to the remaining rounds
          have later : ∀ j, (⟨index + (j + 1)⟩ : CoroutineId) ∈ (⟨index⟩ : CoroutineId) ::
              delayedFrom fuel (index + 1) ((mask &&& ~~~(1#64 <<< index)) >>> 1) ↔
              (⟨index + 1 + j⟩ : CoroutineId) ∈
                delayedFrom fuel (index + 1) ((mask &&& ~~~(1#64 <<< index)) >>> 1) := by
            intro j
            rw [List.mem_cons, CoroutineId.mk.injEq, Nat.add_right_comm index 1 j]
            simp [Nat.add_assoc]
          rw [later k, ih (index + 1) k, getLsbD_woken_round, Nat.add_lt_add_iff_right,
            Bool.and_eq_true, Bool.not_eq_true', decide_eq_false_iff_not]
          constructor
          · rintro ⟨inFuel, ⟨set, notDouble⟩, noHalf⟩
            refine ⟨inFuel, set, ?_⟩
            rintro ⟨j, below, double, woken⟩
            cases j with
            -- the half of `index + k + 1` is `index` itself: its bit was cleared this round
            | zero => omega
            | succ j =>
              exact noHalf ⟨j, by omega, by omega, (later j).mp woken⟩
          · rintro ⟨inFuel, set, noHalf⟩
            refine ⟨inFuel, ⟨set, fun double => ?_⟩, ?_⟩
            -- a cleared bit means that `index` is the half, and it was just woken
            · exact noHalf ⟨0, by omega, by omega, List.mem_cons_self⟩
            · rintro ⟨j, below, double, woken⟩
              exact noHalf ⟨j + 1, by omega, by omega, (later j).mpr woken⟩
      next even =>
        have first := even_first_bit even
        -- coroutine `index` itself is not woken in the remaining rounds
        have absent : (⟨index⟩ : CoroutineId) ∉ delayedFrom fuel (index + 1) (mask >>> 1) :=
          fun member => Nat.lt_irrefl index (delayedFrom_ge member)
        cases k with
        | zero => exact iff_of_false absent fun woken => Bool.noConfusion (first.symm.trans woken.2.1)
        | succ k =>
          have shifted : ∀ j, index + (j + 1) = index + 1 + j := by omega
          rw [shifted k, ih (index + 1) k, BitVec.getLsbD_ushiftRight, Nat.add_comm 1 k,
            Nat.add_lt_add_iff_right]
          refine and_congr_right fun _ => and_congr_right fun _ => not_congr ?_
          constructor
          · rintro ⟨j, below, double, woken⟩
            exact ⟨j + 1, by omega, by omega, shifted j ▸ woken⟩
          · rintro ⟨j, below, double, woken⟩
            cases j with
            | zero => exact absurd woken absent
            | succ j => exact ⟨j, by omega, by omega, shifted j ▸ woken⟩

/-- The exact effect of the clearing by absolute index. -/
theorem mem_delayedCids (mask : BitVec 64) (cid : CoroutineId) :
    cid ∈ delayedCids mask ↔ mask.getLsbD cid.val = true ∧
      ¬ ∃ i, 0 < i ∧ 2 * i = cid.val ∧ (⟨i⟩ : CoroutineId) ∈ delayedCids mask := by
  -- the loop starts with index 0 and 64 rounds
  have spec := mem_delayedFrom 64 0 cid.val mask
  simp only [Nat.zero_add] at spec
  rw [delayedCids, spec]
  constructor
  · rintro ⟨-, set, noHalf⟩
    refine ⟨set, ?_⟩
    rintro ⟨i, positive, double, woken⟩
    exact noHalf ⟨i, by omega, double, woken⟩
  · rintro ⟨set, noHalf⟩
    refine ⟨BitVec.lt_of_getLsbD set, set, ?_⟩
    rintro ⟨j, below, double, woken⟩
    exact noHalf ⟨j, by omega, double, woken⟩

/-- These calls of `wake` deliver the mask: one for each recorded coroutine, in increasing
order, and no other. -/
def Delivers (mask : BitVec 64) (calls : List CoroutineId) : Prop :=
  (calls.Pairwise fun a b => a.val < b.val) ∧ ∀ cid, cid ∈ calls ↔ mask.getLsbD cid.val = true

/-- No coroutine but 0 is recorded together with the one of twice its id. -/
def NoDoubled (mask : BitVec 64) : Prop :=
  ∀ i, 0 < i → mask.getLsbD i = true → mask.getLsbD (2 * i) = false

theorem delivers_iff (mask : BitVec 64) : Delivers mask (delayedCids mask) ↔ NoDoubled mask := by
  constructor
  · rintro ⟨-, complete⟩ i positive set
    by_contra double
    -- both would have to be woken, but waking `i` cancels `2 * i`
    have woken := (complete ⟨2 * i⟩).mpr (by simpa using double)
    exact ((mem_delayedCids mask _).mp woken).2 ⟨i, positive, rfl, (complete ⟨i⟩).mpr set⟩
  · intro noDoubled
    refine ⟨delayedFrom_increasing _ _ _, fun cid => ⟨delayedCids_sound, fun set => ?_⟩⟩
    refine (mem_delayedCids mask cid).mpr ⟨set, ?_⟩
    rintro ⟨i, positive, double, woken⟩
    -- a woken half was recorded, so with `cid` recorded the mask has a doubled pair
    have half := noDoubled i positive (delayedCids_sound woken)
    simp [double, set] at half

/-! ### The rounds of the loop -/

/-- What one round makes of the mask. -/
def nextMask (index : Nat) (mask : BitVec 64) : BitVec 64 :=
  if mask &&& 1 ≠ 0 then (mask &&& ~~~(1#64 <<< index)) >>> 1 else mask >>> 1

theorem getLsbD_nextMask {index k : Nat} {mask : BitVec 64}
    (set : (nextMask index mask).getLsbD k = true) : mask.getLsbD (k + 1) = true := by
  unfold nextMask at set
  split at set
  · rw [getLsbD_woken_round, Bool.and_eq_true] at set
    exact set.1
  · rwa [BitVec.getLsbD_ushiftRight, Nat.add_comm] at set

/-- The `while` loop of `actual_wake` ends with a result. -/
inductive Flushes : Nat → BitVec 64 → Executor φ → Except Panic (Executor φ) → Prop
  | empty {index : Nat} {e : Executor φ} : Flushes index 0 e (.ok e)
  | panicked {index : Nat} {mask : BitVec 64} {e : Executor φ} {p : Panic} (odd : mask &&& 1 ≠ 0)
      (failed : e.wake ⟨index⟩ = .error p) : Flushes index mask e (.error p)
  | woken {index : Nat} {mask : BitVec 64} {e next : Executor φ} {r : Except Panic (Executor φ)}
      (odd : mask &&& 1 ≠ 0) (woken : e.wake ⟨index⟩ = .ok next)
      (rest : Flushes (index + 1) ((mask &&& ~~~(1#64 <<< index)) >>> 1) next r) :
      Flushes index mask e r
  | skipped {index : Nat} {mask : BitVec 64} {e : Executor φ} {r : Except Panic (Executor φ)}
      (nonempty : mask ≠ 0) (even : ¬ mask &&& 1 ≠ 0)
      (rest : Flushes (index + 1) (mask >>> 1) e r) : Flushes index mask e r

/-- Each round shortens the mask by one bit, so the fuel is not what ends the loop. -/
theorem flushes_loop (fuel index : Nat) (mask : BitVec 64) (e : Executor φ)
    (short : ∀ k, fuel ≤ k → mask.getLsbD k = false) :
    Flushes index mask e (actualWakeLoop fuel index mask e) := by
  induction fuel generalizing index mask e with
  | zero =>
    -- no fuel left, and no bit left either
    obtain rfl : mask = 0 := BitVec.eq_of_getLsbD_eq fun k _ => by
      rw [short k (Nat.zero_le k)]
      exact BitVec.getLsbD_zero.symm
    exact .empty
  | succ fuel ih =>
    -- in either case of a round the remaining mask fits the remaining fuel
    have shorter : ∀ k, fuel ≤ k → (nextMask index mask).getLsbD k = false := by
      intro k beyond
      by_contra set
      have before := getLsbD_nextMask (Bool.of_not_eq_false set)
      rw [short (k + 1) (by omega)] at before
      cases before
    simp only [nextMask] at shorter
    simp only [actualWakeLoop]
    split
    next empty => rw [empty]; exact .empty
    next nonempty =>
      split
      next odd =>
        rw [if_pos odd] at shorter
        cases woken : e.wake ⟨index⟩ with
        | error p => exact .panicked odd woken
        | ok next => exact .woken odd woken (ih _ _ _ shorter)
      next even =>
        rw [if_neg even] at shorter
        exact .skipped nonempty even (ih _ _ _ shorter)

theorem flushes_actualWake (e : Executor φ) :
    Flushes 0 e.delayWakeCids { e with delayWakeCids := 0 } e.actualWake :=
  flushes_loop 64 0 _ _ fun _ beyond => BitVec.getLsbD_of_ge _ _ beyond

/-! ### Interrupts during the flush -/

/-- The wake-ups that an interrupt handler records. -/
def delayAll : List CoroutineId → Executor φ → Except Panic (Executor φ)
  | [], e => .ok e
  | cid :: rest, e => (e.delayWake cid).bind (delayAll rest)

/-- The loop of `actual_wake`, interrupted: before it tests the mask in the round of `index`,
the handler records `signals index`. -/
def interruptedLoop (signals : Nat → List CoroutineId) :
    Nat → Nat → BitVec 64 → Executor φ → Except Panic (Executor φ)
  | 0, index, _, e => delayAll (signals index) e
  | fuel + 1, index, mask, e =>
    (delayAll (signals index) e).bind fun e =>
      if mask = 0 then .ok e
      else if mask &&& 1 ≠ 0 then
        (e.wake ⟨index⟩).bind fun e =>
          interruptedLoop signals fuel (index + 1) ((mask &&& ~~~(1#64 <<< index)) >>> 1) e
      else interruptedLoop signals fuel (index + 1) (mask >>> 1) e

/-- `actual_wake` with interrupts that come after its swap. -/
def interruptedWake (e : Executor φ) (signals : Nat → List CoroutineId) :
    Except Panic (Executor φ) :=
  interruptedLoop signals 64 0 e.delayWakeCids { e with delayWakeCids := 0 }

/-- The bits of further wake-ups. -/
def noted (cids : List CoroutineId) (mask : BitVec 64) : BitVec 64 :=
  cids.foldl (fun mask cid => mask ||| (1#64 <<< cid.val)) mask

def withMask (e : Executor φ) (mask : BitVec 64) : Executor φ := { e with delayWakeCids := mask }

/-- How many rounds the loop makes. -/
def rounds : Nat → Nat → BitVec 64 → Nat
  | 0, _, _ => 0
  | fuel + 1, index, mask => if mask = 0 then 0 else rounds fuel (index + 1) (nextMask index mask) + 1

/-- All that is recorded during the flush. -/
def signalled (signals : Nat → List CoroutineId) (fuel index : Nat) (mask : BitVec 64) :
    List CoroutineId :=
  (List.range (rounds fuel index mask + 1)).flatMap fun k => signals (index + k)

theorem delayAll_eq {cids : List CoroutineId} (inWord : ∀ cid ∈ cids, cid.val < 64)
    (e : Executor φ) : delayAll cids e = .ok (e.withMask (noted cids e.delayWakeCids)) := by
  induction cids generalizing e with
  | nil => rfl
  | cons cid rest ih =>
    -- within the word `delay_wake` does not fail
    have first : e.delayWake cid = .ok (e.withMask (e.delayWakeCids ||| (1#64 <<< cid.val))) :=
      if_pos (inWord cid List.mem_cons_self)
    simp only [delayAll, first, Except.bind]
    exact ih (fun c member => inWord c (List.mem_cons_of_mem _ member)) _

/-- A wake neither reads nor writes the mask. -/
theorem wake_withMask (e : Executor φ) (cid : CoroutineId) (mask : BitVec 64) :
    (e.withMask mask).wake cid = (e.wake cid).map (·.withMask mask) := by
  simp only [wake, withMask]
  split
  · cases e.tasks cid.val with
    | none => rfl
    | some task =>
      -- the push fails or succeeds whatever the mask is
      simp only [enqueue]
      cases e.prioBitmap.set task.prio with
      | error p => rfl
      | ok bitmap =>
        dsimp only
        split
        · cases (e.readyQueue task.prio).push cid <;> rfl
        · rfl
  · rfl

theorem wakeAll_withMask (cids : List CoroutineId) (e : Executor φ) (mask : BitVec 64) :
    wakeAll cids (e.withMask mask) = (wakeAll cids e).map (·.withMask mask) := by
  induction cids generalizing e with
  | nil => rfl
  | cons cid rest ih =>
    simp only [wakeAll, wake_withMask]
    cases e.wake cid with
    | error p => rfl
    | ok next => exact ih next

theorem signalled_succ {signals : Nat → List CoroutineId} {fuel index : Nat} {mask : BitVec 64}
    (nonempty : mask ≠ 0) : signalled signals (fuel + 1) index mask =
      signals index ++ signalled signals fuel (index + 1) (nextMask index mask) := by
  simp only [signalled, rounds, if_neg nonempty]
  rw [List.range_succ_eq_map, List.flatMap_cons, List.flatMap_map]
  simp only [Nat.add_zero, Nat.succ_eq_add_one, Nat.add_comm 1, Nat.add_assoc]

theorem noted_append (xs ys : List CoroutineId) (mask : BitVec 64) :
    noted (xs ++ ys) mask = noted ys (noted xs mask) :=
  List.foldl_append

/-- Interrupts do not disturb the flush, and the flush does not disturb what they record. -/
theorem interruptedLoop_eq {signals : Nat → List CoroutineId}
    (inWord : ∀ i, ∀ cid ∈ signals i, cid.val < 64) (fuel index : Nat) (mask : BitVec 64)
    (e : Executor φ) :
    interruptedLoop signals fuel index mask e =
      (wakeAll (delayedFrom fuel index mask) e).map
        (·.withMask (noted (signalled signals fuel index mask) e.delayWakeCids)) := by
  induction fuel generalizing index mask e with
  | zero =>
    simp only [interruptedLoop, delayAll_eq (inWord index)]
    simp [signalled, rounds, delayedFrom, wakeAll, Except.map]
  | succ fuel ih =>
    simp only [interruptedLoop, delayAll_eq (inWord index), Except.bind, delayedFrom]
    split
    next empty => simp [signalled, rounds, empty, wakeAll, Except.map]
    next nonempty =>
      -- this round's signals come first, then those of the remaining rounds
      rw [signalled_succ nonempty]
      simp only [noted_append, nextMask]
      split
      next odd =>
        simp only [wakeAll, wake_withMask]
        cases e.wake ⟨index⟩ with
        | error p => rfl
        | ok next =>
          simp only [Except.map, Except.bind, ih, wakeAll_withMask]
          cases wakeAll _ next <;> rfl
      next even =>
        simp only [ih, wakeAll_withMask]
        cases wakeAll _ e <;> rfl

theorem mem_noted {cids : List CoroutineId} (inWord : ∀ cid ∈ cids, cid.val < 64)
    (mask : BitVec 64) (i : Nat) : (noted cids mask).getLsbD i = true ↔
      mask.getLsbD i = true ∨ (⟨i⟩ : CoroutineId) ∈ cids := by
  induction cids generalizing mask with
  | nil => simp [noted]
  | cons cid rest ih =>
    have tail := ih (fun c member => inWord c (List.mem_cons_of_mem _ member))
      (mask ||| (1#64 <<< cid.val))
    rw [getLsbD_or_bit _ _ _ (inWord cid List.mem_cons_self), Bool.or_eq_true,
      decide_eq_true_eq] at tail
    rw [List.mem_cons, CoroutineId.ext_iff]
    refine tail.trans ?_
    rw [or_assoc, eq_comm (a := cid.val)]

/-- A flush ends, makes the calls `delayedCids` of the recorded mask, leaves no recorded bit
behind and keeps exactly the bits that are recorded after its swap. The calls deliver the mask
if and only if no coroutine but 0 is recorded together with the one of twice its id. -/
theorem actualWake_delivers_iff (e : Executor φ) {signals : Nat → List CoroutineId}
    (inWord : ∀ i, ∀ cid ∈ signals i, cid.val < 64) :
    Flushes 0 e.delayWakeCids (e.withMask 0) e.actualWake ∧
    e.actualWake = wakeAll (delayedCids e.delayWakeCids) (e.withMask 0) ∧
    (∀ e', e.actualWake = .ok e' → e'.delayWakeCids = 0) ∧
    (∃ kept, e.interruptedWake signals = e.actualWake.map (·.withMask kept) ∧
      ∀ i, kept.getLsbD i = true ↔
        (⟨i⟩ : CoroutineId) ∈ signalled signals 64 0 e.delayWakeCids) ∧
    (Delivers e.delayWakeCids (delayedCids e.delayWakeCids) ↔
      ∀ i, 0 < i → e.delayWakeCids.getLsbD i = true →
        e.delayWakeCids.getLsbD (2 * i) = false) := by
  refine ⟨flushes_actualWake e, actualWake_eq e,
    fun e' flushed => (actualWake_same flushed).2.2, ?_, delivers_iff _⟩
  refine ⟨noted (signalled signals 64 0 e.delayWakeCids) 0, ?_, fun i => ?_⟩
  · rw [actualWake_eq]
    exact interruptedLoop_eq inWord 64 0 _ _
  · have signalsOk : ∀ cid ∈ signalled signals 64 0 e.delayWakeCids, cid.val < 64 := by
      intro cid member
      obtain ⟨k, -, signal⟩ := List.mem_flatMap.mp member
      exact inWord _ cid signal
    rw [mem_noted signalsOk]
    simp

/-- Coroutines 1 and 2 recorded together: the wake-up of 2 is lost. -/
theorem actualWake_loses_double :
    ¬ Delivers 6#64 (delayedCids 6#64) ∧
    ∃ r : RuntimeState Unit, Reachable RuntimeState.call .init r ∧
      r.executor.delayWakeCids = 6#64 ∧ (r.executor.tasks 2).isSome = true ∧
      r.executor.actualWake.toOption.map (fun e => (e.queue 0, e.delayWakeCids)) =
        some ([⟨1⟩], 0) := by
  constructor
  · rintro ⟨-, complete⟩
    have lost : (⟨2⟩ : CoroutineId) ∉ delayedCids 6#64 := by decide +kernel
    exact lost ((complete ⟨2⟩).mpr (by decide))
  · obtain ⟨r, run, seen⟩ := reachable_of_view RuntimeState.call (.init : RuntimeState Unit)
      [.spawn () 0, .spawn () 0, .spawn () 0, .fetch, .fetch, .fetch,
        .delayWake ⟨1⟩, .delayWake ⟨2⟩]
      (fun r => ((r.executor.delayWakeCids, (r.executor.tasks 2).isSome),
        r.executor.actualWake.toOption.map fun e => (e.queue 0, e.delayWakeCids)))
      (v := ((6#64, true), some ([⟨1⟩], 0))) (by decide +kernel)
    simp only [Prod.mk.injEq] at seen
    exact ⟨r, run, seen.1.1, seen.1.2, seen.2⟩

/-- Coroutines 0, 1 and 3 are all woken, and the wake-up of 2 recorded meanwhile is kept. -/
theorem actualWake_delivers_iff_three :
    Delivers 11#64 (delayedCids 11#64) ∧
    ∃ kept, ((new : Executor Unit).withMask 11#64).interruptedWake
        (fun i => if i = 1 then [⟨2⟩] else []) =
          ((new : Executor Unit).withMask 11#64).actualWake.map (·.withMask kept) ∧
      kept.getLsbD 2 = true := by
  have inWord : ∀ i, ∀ cid ∈ (if i = 1 then [⟨2⟩] else [] : List CoroutineId), cid.val < 64 := by
    intro i cid member
    split at member
    · obtain rfl := List.mem_singleton.mp member
      decide
    · simp at member
  obtain ⟨-, -, -, ⟨kept, flushed, bits⟩, delivers⟩ :=
    actualWake_delivers_iff ((new : Executor Unit).withMask 11#64) inWord
  refine ⟨delivers.mpr ?_, kept, flushed, (bits 2).mpr (by decide +kernel)⟩
  have inRange : ∀ i < 64, 0 < i → (11#64).getLsbD i = true → (11#64).getLsbD (2 * i) = false := by
    decide +kernel
  exact fun i positive set => inRange i (BitVec.lt_of_getLsbD set) positive set

end RootTask.Runtime.Executor
