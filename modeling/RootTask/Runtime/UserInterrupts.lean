import RootTask.Lib.Transition
import RootTask.Runtime.AsyncLib

/-!
# The handler of user interrupts

`uintr_handler` goes through the bits of the pending interrupts and asks for a delayed wake-up of
the coroutine that is registered for each. There are 64 vectors, and registration takes any
coroutine; the mask of delayed wake-ups has room for the ids below 64 only, and `delay_wake`
asserts that. So the coroutine that registers decides whether the handler survives.

The counter `UINT_TRIGGER`, which nothing but the log reads, is left out.
-/
namespace RootTask.Runtime

open Transition

namespace AsyncState

variable {φ T : Type}

/-- The loop of `uintr_handler`; 64 shifts empty the word, so 64 rounds of fuel suffice. -/
def uintrHandlerLoop : Nat → Nat → BitVec 64 → AsyncState φ T → Except Panic (AsyncState φ T)
  | 0, _, _, s => .ok s
  | fuel + 1, bitIndex, irqs, s =>
    if irqs = 0 then .ok s
    else if irqs &&& 1 = 1 then
      (s.wakeRecvCoroutine bitIndex).bind (uintrHandlerLoop fuel (bitIndex + 1) (irqs >>> 1))
    else uintrHandlerLoop fuel (bitIndex + 1) (irqs >>> 1) s

def uintrHandler (s : AsyncState φ T) (irqs : BitVec 64) : Except Panic (AsyncState φ T) :=
  uintrHandlerLoop 64 0 irqs s

/-! ### What the loop does -/

/-- A vector whose coroutine has a place in the mask. -/
def Wakeable (s : AsyncState φ T) (vec : Nat) : Prop :=
  ∃ cid, s.wakeMap vec = some cid ∧ cid.val < 64

/-- `t` is `s` with the delayed wake-ups of the vectors in `fired`. -/
structure Delayed (s : AsyncState φ T) (fired : Nat → Prop) (t : AsyncState φ T) : Prop where
  same : t = s.setExecutor { s.executor with delayWakeCids := t.executor.delayWakeCids }
  mask : ∀ i, t.executor.delayWakeCids.getLsbD i = true ↔
    s.executor.delayWakeCids.getLsbD i = true ∨ ∃ vec, fired vec ∧ s.wakeMap vec = some ⟨i⟩

theorem Delayed.refl (s : AsyncState φ T) {fired : Nat → Prop} (quiet : ∀ vec, ¬ fired vec) :
    Delayed s fired s :=
  ⟨rfl, fun i => by simp [quiet]⟩

/-- One delayed wake-up, and then others. -/
theorem Delayed.after {s s' t : AsyncState φ T} {vec : Nat} {fired fired' : Nat → Prop}
    (first : s.wakeRecvCoroutine vec = .ok s') (rest : Delayed s' fired t)
    (both : ∀ v, fired' v ↔ v = vec ∨ fired v) : Delayed s fired' t := by
  obtain ⟨cid, e, registered, delayed, rfl⟩ := wakeRecvCoroutine_ok first
  obtain ⟨inWord, rfl⟩ := Executor.delayWake_ok delayed
  refine ⟨rest.same, fun i => ?_⟩
  rw [rest.mask]
  simp only [setExecutor, getLsbD_or_bit _ _ _ inWord, both, Bool.or_eq_true, decide_eq_true_eq]
  constructor
  · rintro ((old | rfl) | ⟨v, isFired, owner⟩)
    · exact .inl old
    · exact .inr ⟨vec, .inl rfl, registered⟩
    · exact .inr ⟨v, .inr isFired, owner⟩
  · rintro (old | ⟨v, rfl | isFired, owner⟩)
    · exact .inl (.inl old)
    · -- the coroutine of this vector is the one that was just delayed
      obtain rfl := Option.some.inj (registered.symm.trans owner)
      exact .inl (.inr rfl)
    · exact .inr ⟨v, isFired, owner⟩

/-- The vectors that are pending when the loop is at `bitIndex`. -/
def Fired (bitIndex : Nat) (irqs : BitVec 64) (vec : Nat) : Prop :=
  ∃ k, vec = bitIndex + k ∧ irqs.getLsbD k = true

/-- The test of the loop. -/
theorem and_one_eq_one (irqs : BitVec 64) : irqs &&& 1 = 1 ↔ irqs.getLsbD 0 = true := by
  have bit := and_bit_eq_zero irqs 0
  constructor
  · intro odd
    by_contra even
    have zero := bit.mpr fun _ => by simpa using even
    simp only [BitVec.shiftLeft_zero] at zero
    rw [show (1 : BitVec 64) = 1#64 from rfl, zero] at odd
    exact absurd odd (by decide)
  · intro set
    rw [show (1 : BitVec 64) = BitVec.twoPow 64 0 from rfl, BitVec.and_twoPow, if_pos set]

theorem fired_succ {bitIndex vec : Nat} {irqs : BitVec 64} :
    Fired bitIndex irqs vec ↔
      (vec = bitIndex ∧ irqs.getLsbD 0 = true) ∨ Fired (bitIndex + 1) (irqs >>> 1) vec := by
  constructor
  · rintro ⟨k, rfl, set⟩
    cases k with
    | zero => exact .inl ⟨rfl, set⟩
    | succ k =>
      refine .inr ⟨k, by omega, ?_⟩
      rwa [BitVec.getLsbD_ushiftRight, Nat.add_comm]
  · rintro (⟨rfl, set⟩ | ⟨k, rfl, set⟩)
    · exact ⟨0, rfl, set⟩
    · refine ⟨k + 1, by omega, ?_⟩
      rwa [BitVec.getLsbD_ushiftRight, Nat.add_comm] at set

theorem not_fired_zero (bitIndex vec : Nat) : ¬ Fired bitIndex 0 vec := by
  rintro ⟨k, -, set⟩
  simp at set

/-- Shifting leaves nothing beyond the fuel of the next round. -/
theorem shifted_lt {fuel : Nat} {irqs : BitVec 64}
    (inFuel : ∀ k, irqs.getLsbD k = true → k < fuel + 1) (k : Nat)
    (set : (irqs >>> 1).getLsbD k = true) : k < fuel := by
  rw [BitVec.getLsbD_ushiftRight, Nat.add_comm] at set
  exact Nat.lt_of_succ_lt_succ (inFuel (k + 1) set)

/-- A loop that returns has delayed a wake-up for every pending vector and for no other. -/
theorem uintrHandlerLoop_ok {fuel bitIndex : Nat} {irqs : BitVec 64} {s t : AsyncState φ T}
    (inFuel : ∀ k, irqs.getLsbD k = true → k < fuel)
    (returned : uintrHandlerLoop fuel bitIndex irqs s = .ok t) :
    (∀ vec, Fired bitIndex irqs vec → s.Wakeable vec) ∧ s.Delayed (Fired bitIndex irqs) t := by
  induction fuel generalizing bitIndex irqs s with
  | zero =>
    cases returned
    have quiet : ∀ vec, ¬ Fired bitIndex irqs vec := by
      rintro vec ⟨k, -, set⟩
      exact absurd (inFuel k set) (Nat.not_lt_zero k)
    exact ⟨fun vec fired => absurd fired (quiet vec), .refl _ quiet⟩
  | succ fuel ih =>
    unfold uintrHandlerLoop at returned
    split at returned
    next zero =>
      cases returned
      subst zero
      exact ⟨fun vec fired => absurd fired (not_fired_zero _ _), .refl _ (not_fired_zero _)⟩
    · split at returned
      next odd =>
        obtain ⟨s', first, returned⟩ := bind_ok.mp returned
        obtain ⟨wakeable, delayed⟩ := ih (shifted_lt inFuel) returned
        have set := (and_one_eq_one irqs).mp odd
        refine ⟨fun vec fired => ?_, delayed.after first fun v => ?_⟩
        · obtain ⟨cid, e, registered, noted, rfl⟩ := wakeRecvCoroutine_ok first
          rcases fired_succ.mp fired with ⟨rfl, -⟩ | later
          · exact ⟨cid, registered, (Executor.delayWake_ok noted).1⟩
          · exact wakeable vec later
        · rw [fired_succ]
          simp only [set, and_true]
      next even =>
        obtain ⟨wakeable, delayed⟩ := ih (shifted_lt inFuel) returned
        have clear : ¬ irqs.getLsbD 0 = true := fun set => even ((and_one_eq_one irqs).mpr set)
        have shifted : Fired bitIndex irqs = Fired (bitIndex + 1) (irqs >>> 1) := by
          funext vec
          rw [eq_iff_iff, fired_succ]
          exact ⟨fun fired => fired.resolve_left fun here => clear here.2, .inr⟩
        rw [shifted]
        exact ⟨wakeable, delayed⟩

/-- The loop returns if the mask has room for every coroutine that it delays. -/
theorem uintrHandlerLoop_total {fuel bitIndex : Nat} {irqs : BitVec 64} {s : AsyncState φ T}
    (wakeable : ∀ vec, Fired bitIndex irqs vec → s.Wakeable vec) :
    ∃ t, uintrHandlerLoop fuel bitIndex irqs s = .ok t := by
  induction fuel generalizing bitIndex irqs s with
  | zero => exact ⟨s, rfl⟩
  | succ fuel ih =>
    unfold uintrHandlerLoop
    split
    · exact ⟨s, rfl⟩
    · split
      next odd =>
        have here : Fired bitIndex irqs bitIndex := ⟨0, rfl, (and_one_eq_one irqs).mp odd⟩
        obtain ⟨cid, registered, inWord⟩ := wakeable bitIndex here
        have first : s.wakeRecvCoroutine bitIndex = .ok (s.setExecutor { s.executor with
            delayWakeCids := s.executor.delayWakeCids ||| (1#64 <<< cid.val) }) := by
          simp only [wakeRecvCoroutine, registered, Executor.delayWake, if_pos inWord, Except.map]
        rw [first]
        exact ih fun vec later => wakeable vec (fired_succ.mpr (.inr later))
      · exact ih fun vec later => wakeable vec (fired_succ.mpr (.inr later))

/-- The handler on any state. -/
theorem uintrHandler_iff (s : AsyncState φ T) (irqs : BitVec 64) :
    (∃ t, s.uintrHandler irqs = .ok t ∧ s.Delayed (irqs.getLsbD · = true) t) ↔
      ∀ vec, irqs.getLsbD vec = true → s.Wakeable vec := by
  have pending : Fired 0 irqs = (irqs.getLsbD · = true) := by
    funext vec
    simp [Fired]
  have inFuel : ∀ k, irqs.getLsbD k = true → k < 64 := fun _ => BitVec.lt_of_getLsbD
  rw [← pending]
  constructor
  · rintro ⟨t, returned, -⟩
    have wakeable := (uintrHandlerLoop_ok inFuel returned).1
    rwa [pending] at wakeable
  · intro wakeable
    have fired : ∀ vec, Fired 0 irqs vec → s.Wakeable vec := by
      rw [pending]
      exact wakeable
    obtain ⟨t, returned⟩ : ∃ t, s.uintrHandler irqs = .ok t := uintrHandlerLoop_total fired
    exact ⟨t, returned, (uintrHandlerLoop_ok inFuel returned).2⟩

end AsyncState

/-! ### Threads that spawn and register -/

/-- The state of a thread and the successful registrations it made, each with its vector. -/
structure Registrar (φ T : Type) where
  lib : AsyncState φ T
  registered : List (Nat × CoroutineId)

inductive RegisterAction (φ : Type) where
  | spawn (future : φ) (prio : Nat)
  | registerRecvCid (cid : CoroutineId)
  | uintr (irqs : BitVec 64)
  deriving DecidableEq, Repr

namespace Registrar

variable {φ T : Type}

def init : Registrar φ T := ⟨.init, []⟩

/-- A step that panics, a registration that finds no vector and one of a dead coroutine have no
successor. -/
def step (s : Registrar φ T) : RegisterAction φ → Option (Registrar φ T)
  | .spawn future prio =>
    (s.lib.runtime.spawn future prio).toOption.map fun spawned =>
      { s with lib := { s.lib with runtime := spawned.2 } }
  | .registerRecvCid cid =>
    if (s.lib.executor.tasks cid.val).isSome then
      match s.lib.registerRecvCid cid with
      | (some vec, lib) => some ⟨lib, s.registered ++ [(vec, cid)]⟩
      | (none, _) => none
    else none
  | .uintr irqs => (s.lib.uintrHandler irqs).toOption.map fun lib => { s with lib := lib }

/-- `WAKE_MAP` holds what was registered, under vectors that are not given out again. -/
structure MapOk (s : Registrar φ T) : Prop where
  wakeMap : ∀ vec cid, s.lib.wakeMap vec = some cid ↔ (vec, cid) ∈ s.registered
  taken : ∀ vec, s.lib.wakeMap vec ≠ none → s.lib.uintVecAllocator.free vec = false

theorem mapOk_init : (init : Registrar φ T).MapOk :=
  ⟨by simp [init, AsyncState.init], by simp [init, AsyncState.init]⟩

theorem MapOk.register {s : Registrar φ T} {lib : AsyncState φ T} {vec : Nat} {cid : CoroutineId}
    (ok : s.MapOk) (returned : s.lib.registerRecvCid cid = (some vec, lib)) :
    MapOk ⟨lib, s.registered ++ [(vec, cid)]⟩ := by
  obtain ⟨impossible, -⟩ | ⟨v, allocator, same, -, allocated, rfl⟩ :=
    AsyncState.registerRecvCid_eq returned
  · cases impossible
  cases same
  obtain ⟨-, isFree, -, marked⟩ := IndexAllocator.allocate_some allocated
  -- the vector was free, so nobody was registered for it
  have unused : s.lib.wakeMap vec = none := by
    by_contra used
    simp [ok.taken vec used] at isFree
  constructor
  case wakeMap =>
    intro v c
    rw [List.mem_append, List.mem_singleton, Prod.mk.injEq]
    by_cases same : v = vec
    · subst same
      have absent : (v, c) ∉ s.registered := by
        rw [← ok.wakeMap, unused]
        simp
      simp [absent, eq_comm]
    · simp [same, ok.wakeMap]
  case taken =>
    intro v used
    rw [marked]
    by_cases same : v = vec
    · simp [same]
    · dsimp only at used
      rw [Function.update_of_ne same] at used
      simp [ok.taken v used]

theorem MapOk.step {s t : Registrar φ T} {a : RegisterAction φ} (ok : s.MapOk)
    (moved : s.step a = some t) : t.MapOk := by
  cases a with
  | spawn future prio =>
    simp only [Registrar.step, Option.map_eq_some_iff] at moved
    obtain ⟨spawned, -, rfl⟩ := moved
    exact ⟨ok.wakeMap, ok.taken⟩
  | registerRecvCid cid =>
    simp only [Registrar.step] at moved
    split at moved
    · split at moved
      next vec lib returned =>
        cases moved
        exact ok.register returned
      · cases moved
    · cases moved
  | uintr irqs =>
    simp only [Registrar.step, Option.map_eq_some_iff, toOption_eq_some] at moved
    obtain ⟨lib, returned, rfl⟩ := moved
    have delayed := AsyncState.uintrHandlerLoop_ok (fun _ => BitVec.lt_of_getLsbD) returned
    rw [delayed.2.same]
    exact ⟨ok.wakeMap, ok.taken⟩

/-- On a thread that spawned and registered coroutines in any order, for pending interrupts that
are all registered: the handler returns and adds to the mask exactly the coroutines registered
for them if and only if all these have an id below 64. -/
theorem uintrHandler_exact_iff {s : Registrar φ T} (run : Reachable step init s) {irqs : BitVec 64}
    (known : ∀ vec, irqs.getLsbD vec = true → ∃ cid, (vec, cid) ∈ s.registered) :
    (∃ t, s.lib.uintrHandler irqs = .ok t ∧
      t = s.lib.setExecutor { s.lib.executor with
        delayWakeCids := t.executor.delayWakeCids } ∧
      ∀ i, t.executor.delayWakeCids.getLsbD i = true ↔
        s.lib.executor.delayWakeCids.getLsbD i = true ∨
          ∃ vec, irqs.getLsbD vec = true ∧ (vec, ⟨i⟩) ∈ s.registered) ↔
    ∀ vec cid, irqs.getLsbD vec = true → (vec, cid) ∈ s.registered → cid.val < 64 := by
  have ok : s.MapOk := run.invariant MapOk mapOk_init fun _ _ _ ok _ moved => ok.step moved
  have handled := AsyncState.uintrHandler_iff s.lib irqs
  constructor
  · rintro ⟨t, returned, same, mask⟩ vec cid set member
    have wakeable := handled.mp ⟨t, returned, same, fun i => by simp only [mask, ok.wakeMap]⟩
    obtain ⟨cid', owner, inWord⟩ := wakeable vec set
    obtain rfl := Option.some.inj (owner.symm.trans ((ok.wakeMap vec cid).mpr member))
    exact inWord
  · intro inWord
    have wakeable : ∀ vec, irqs.getLsbD vec = true → s.lib.Wakeable vec := by
      intro vec set
      obtain ⟨cid, member⟩ := known vec set
      exact ⟨cid, (ok.wakeMap vec cid).mpr member, inWord vec cid set member⟩
    obtain ⟨t, returned, delayed⟩ := handled.mpr wakeable
    refine ⟨t, returned, delayed.same, fun i => ?_⟩
    simp only [delayed.mask, ok.wakeMap]

/-- Sixty-five coroutines are spawned and the last one registers: its interrupt is the end of the
thread, inside the handler. -/
theorem uintrHandler_panics :
    ∃ s : Registrar Unit Unit, Reachable step init s ∧ s.registered = [(0, ⟨64⟩)] ∧
      s.lib.uintrHandler 1 = .error .assertFailed := by
  obtain ⟨s, run, seen⟩ := reachable_of_view step (init : Registrar Unit Unit)
    (List.replicate 65 (.spawn () 1) ++ [.registerRecvCid ⟨64⟩])
    (fun s => (s.registered, (s.lib.uintrHandler 1).map fun _ => ()))
    (v := ([(0, ⟨64⟩)], .error .assertFailed)) (by decide +kernel)
  obtain ⟨registered, panics⟩ := Prod.mk.inj seen
  exact ⟨s, run, registered, map_error.mp panics⟩

/-- Two of three coroutines register, and both interrupts arrive at once. -/
theorem uintrHandler_exact_iff_both :
    ∃ s : Registrar Unit Unit, Reachable step init s ∧
      ∃ t, s.lib.uintrHandler 3 = .ok t ∧ t.executor.delayWakeCids.getLsbD 2 = true := by
  obtain ⟨s, run, seen⟩ := reachable_of_view step (init : Registrar Unit Unit)
    [.spawn () 0, .spawn () 1, .spawn () 1, .registerRecvCid ⟨0⟩, .registerRecvCid ⟨2⟩]
    (fun s => s.registered) (v := [(0, ⟨0⟩), (1, ⟨2⟩)]) (by decide +kernel)
  have bits : ∀ vec < 64, (3 : BitVec 64).getLsbD vec = true → vec = 0 ∨ vec = 1 := by decide
  have known : ∀ vec, (3 : BitVec 64).getLsbD vec = true → ∃ cid, (vec, cid) ∈ s.registered := by
    intro vec set
    rcases bits vec (BitVec.lt_of_getLsbD set) set with rfl | rfl
    · exact ⟨⟨0⟩, by simp [seen]⟩
    · exact ⟨⟨2⟩, by simp [seen]⟩
  obtain ⟨t, returned, -, mask⟩ := (uintrHandler_exact_iff run known).mpr (by
    intro vec cid _ member
    simp only [seen, List.mem_cons, Prod.mk.injEq, List.not_mem_nil, or_false] at member
    rcases member with ⟨-, rfl⟩ | ⟨-, rfl⟩ <;> decide)
  refine ⟨s, run, t, returned, (mask 2).mpr (.inr ⟨1, by decide, by simp [seen]⟩)⟩

end Registrar

end RootTask.Runtime
