import RootTask.Lib.Least
import RootTask.Lib.Refinement
import RootTask.Runtime.Utils

/-!
# Bitmaps as sets

`IndexAllocator` packs the set of outstanding indices into bytes, `BitMap4096` a set of
positions into two levels of words. Both are sets of numbers below a bound, and both hand out
a least element: the first one the least index that is not outstanding, the second one the
least position of the set.
-/
namespace RootTask.Runtime

open RootTask.Transition RootTask.Refinement RootTask.Least

/-- What a call returns: nothing, or a number if it has found one. -/
inductive SetResult where
  | done
  | taken (number : Option Nat)
  deriving DecidableEq, Repr

/-! ### Outstanding indices -/

/-- A call of `allocate`, or of `release` with an index below `SIZE`. -/
inductive AllocatorCall (SIZE : Nat) where
  | allocate
  | release (index : Fin SIZE)
  deriving DecidableEq

/-- The indices handed out and not given back. `allocate` takes the least of the others. -/
def outstandingSet {SIZE : Nat} (s : Finset (Fin SIZE)) :
    AllocatorCall SIZE → SetResult × Finset (Fin SIZE)
  | .allocate =>
    match least sᶜ with
    | some index => (.taken (some index.val), insert index s)
    | none => (.taken none, s)
  | .release index => (.done, s.erase index)

namespace IndexAllocator

variable {SIZE : Nat}

def call (a : IndexAllocator SIZE) :
    AllocatorCall SIZE → Except Panic (SetResult × IndexAllocator SIZE)
  | .allocate =>
    match a.allocate with
    | some (index, a) => .ok (.taken (some index), a)
    | none => .ok (.taken none, a)
  | .release index => (a.release index).map fun a => (.done, a)

/-- The bits of the outstanding indices are set, those of the other ones are not. -/
def Marks (a : IndexAllocator SIZE) (s : Finset (Fin SIZE)) : Prop :=
  ∀ i : Fin SIZE, a.free i = true ↔ i ∉ s

theorem marks_new : (new : IndexAllocator SIZE).Marks ∅ := by
  intro i
  simp

variable {a : IndexAllocator SIZE} {s : Finset (Fin SIZE)}

theorem Marks.allocate_none (marks : a.Marks s) : a.allocate = none ↔ s = Finset.univ := by
  rw [IndexAllocator.allocate_none, Finset.eq_univ_iff_forall]
  constructor
  · intro all i
    have taken := all i i.isLt
    by_contra absent
    rw [(marks i).mpr absent] at taken
    cases taken
  · intro all i bound
    have taken := marks ⟨i, bound⟩
    simpa [all] using taken

/-- `allocate` hands out the least index that is not outstanding, and marks no other one. -/
theorem Marks.allocate_some (marks : a.Marks s) {index : Nat} {after : IndexAllocator SIZE}
    (returned : a.allocate = some (index, after)) :
    ∃ bound : index < SIZE, IsLeast {i | i ∉ s} ⟨index, bound⟩ ∧
      after.Marks (insert ⟨index, bound⟩ s) ∧
      ∀ i, after.free i = (a.free i && !decide (i = index)) := by
  obtain ⟨bound, free, least, effect⟩ := IndexAllocator.allocate_some returned
  refine ⟨bound, ⟨(marks ⟨index, bound⟩).mp free, fun i absent => ?_⟩, fun i => ?_, effect⟩
  · -- a smaller one that is not outstanding would have been found first
    by_contra smaller
    have taken := least i (not_le.mp smaller)
    rw [(marks i).mpr absent] at taken
    cases taken
  · rw [effect]
    simp [← marks i, Fin.ext_iff, and_comm]

/-- `release` gives back its index and no other one, and does nothing if it is not outstanding. -/
theorem Marks.release (marks : a.Marks s) (index : Fin SIZE) :
    ∃ after, a.release index = .ok after ∧ after.Marks (s.erase index) ∧
      (∀ i, after.free i = (a.free i || decide (i = index.val))) ∧ (index ∉ s → after = a) := by
  obtain ⟨after, returned⟩ := release_total (a := a) index.isLt
  have effect := release_ok returned
  refine ⟨after, returned, fun i => ?_, effect, fun absent => ?_⟩
  · rw [effect]
    simp only [Bool.or_eq_true, marks i, decide_eq_true_eq, Finset.mem_erase, ne_eq, ← Fin.ext_iff]
    tauto
  · exact release_of_free ((marks index).mpr absent) returned

theorem call_simulates : Simulates (@call SIZE) outstandingSet Marks := by
  intro a s c marks
  cases c with
  | allocate =>
    cases returned : a.allocate with
    | none =>
      have all := marks.allocate_none.mp returned
      have nothing : least sᶜ = none := least_compl_eq_none.mpr all
      simp only [call, outstandingSet, returned, nothing]
      exact ⟨a, rfl, marks⟩
    | some result =>
      obtain ⟨index, after⟩ := result
      obtain ⟨bound, first, next, -⟩ := marks.allocate_some returned
      have found : least sᶜ = some ⟨index, bound⟩ := least_compl_eq_some.mpr first
      simp only [call, outstandingSet, returned, found]
      exact ⟨after, rfl, next⟩
  | release index =>
    obtain ⟨after, returned, next, -⟩ := marks.release index
    simp only [call, outstandingSet, returned]
    exact ⟨after, rfl, next⟩

/-- An outstanding index is not handed out as long as it is not given back. -/
theorem outstandingSet_excludes {index : Fin SIZE} (member : index ∈ s)
    {later : List (AllocatorCall SIZE)} (kept : .release index ∉ later) :
    .taken (some index.val) ∉ (trace outstandingSet s later).1 := by
  refine trace_excludes (fun s => index ∈ s) (fun c => c ≠ .release index) _ ?_ member
    fun c inside same => kept (same ▸ inside)
  intro s c member notReleased
  cases c with
  | allocate =>
    simp only [outstandingSet]
    cases found : least sᶜ with
    | none => simp [member]
    | some other =>
      have absent : other ∉ s := (least_compl_eq_some.mp found).1
      have different : other ≠ index := fun same => absent (same ▸ member)
      simp [member, Fin.val_inj, different]
  | release other =>
    have different : index ≠ other := fun same => notReleased (same ▸ rfl)
    simp [outstandingSet, member, different]

/-- Over every sequence of calls from `new`: the bits are exactly the outstanding indices;
`allocate` hands out the least other one and marks it alone, or finds none exactly if all are
outstanding; `release` frees its index alone; and no outstanding index is handed out again
before it is released. -/
theorem refines_outstandingSet (calls : List (AllocatorCall SIZE)) :
    ∃ (results : List SetResult) (a : IndexAllocator SIZE) (s : Finset (Fin SIZE)),
      run call new calls = .ok (results, a) ∧
      trace outstandingSet ∅ calls = (results, s) ∧
      (∀ i : Fin SIZE, a.free i = true ↔ i ∉ s) ∧
      (∀ index after, a.allocate = some (index, after) →
        ∃ bound : index < SIZE, IsLeast {i | i ∉ s} ⟨index, bound⟩ ∧
          ∀ i, after.free i = (a.free i && !decide (i = index))) ∧
      (a.allocate = none ↔ s = Finset.univ) ∧
      (s = Finset.univ → a.call .allocate = .ok (.taken none, a)) ∧
      (∀ index : Fin SIZE, ∃ after, a.release index = .ok after ∧
        (∀ i, after.free i = (a.free i || decide (i = index.val))) ∧
        (index ∉ s → after = a)) ∧
      ∀ index ∈ s, ∀ later, .release index ∉ later → ∀ results' after,
        run call a later = .ok (results', after) → .taken (some index.val) ∉ results' := by
  obtain ⟨a, returned, marks⟩ := call_simulates.run marks_new calls
  refine ⟨_, a, _, returned, rfl, marks, fun index after found => ?_, marks.allocate_none,
    fun all => ?_, fun index => ?_, fun index member later kept results' after ran => ?_⟩
  · obtain ⟨bound, first, -, effect⟩ := marks.allocate_some found
    exact ⟨bound, first, effect⟩
  · simp only [call, marks.allocate_none.mpr all]
  · obtain ⟨after, freed, -, effect, unchanged⟩ := marks.release index
    exact ⟨after, freed, effect, unchanged⟩
  · obtain ⟨after', ran', -⟩ := call_simulates.run marks later
    cases ran.symm.trans ran'
    exact outstandingSet_excludes member kept

end IndexAllocator

/-! ### Positions below 4096 -/

/-- A call of `set` or `clear` with a position below 4096, or of `fetch`. -/
inductive BitMapCall where
  | set (pos : Fin 4096)
  | clear (pos : Fin 4096)
  | fetch
  deriving DecidableEq

/-- A set of positions. `fetch` takes the least one out. -/
def positionSet (s : Finset (Fin 4096)) : BitMapCall → SetResult × Finset (Fin 4096)
  | .set pos => (.done, insert pos s)
  | .clear pos => (.done, s.erase pos)
  | .fetch =>
    match least s with
    | some pos => (.taken (some pos.val), s.erase pos)
    | none => (.taken none, s)

namespace BitMap4096

def call (b : BitMap4096) : BitMapCall → Except Panic (SetResult × BitMap4096)
  | .set pos => (b.set pos).map fun b => (.done, b)
  | .clear pos => (b.clear pos).map fun b => (.done, b)
  | .fetch => b.fetch.map fun (pos, b) => (.taken pos, b)

/-! #### Words and bits -/

/-- The word of a position. -/
def wordOf (pos : Fin 4096) : Fin 64 := ⟨pos.val / 64, by omega⟩

def bit (b : BitMap4096) (pos : Fin 4096) : Bool :=
  (b.l2 (wordOf pos)).data.getLsbD (pos.val % 64)

theorem l1Index_eq (pos : Fin 4096) : pos.val >>> 6 = (wordOf pos).val :=
  Nat.shiftRight_eq_div_pow pos.val 6

theorem l2Index_eq (pos : Nat) : pos &&& 0b00111111 = pos % 64 :=
  Nat.and_two_pow_sub_one_eq_mod pos 6

theorem word_eq (b : BitMap4096) (i : Fin 64) : b.word i.val = .ok (b.l2 i) := dif_pos i.isLt

theorem setWord_eq (b : BitMap4096) (i : Fin 64) (word : BitMap64) :
    b.setWord i.val word = .ok { b with l2 := Function.update b.l2 i word } := dif_pos i.isLt

/-- Another word with one bit changed changes one position. -/
theorem bit_update {b : BitMap4096} {pos : Fin 4096} {word : BitMap64} {value : Bool}
    (written : word.data.getLsbD (pos.val % 64) = value)
    (rest : ∀ j, j ≠ pos.val % 64 →
      word.data.getLsbD j = (b.l2 (wordOf pos)).data.getLsbD j)
    (l1 : BitMap64) (q : Fin 4096) :
    bit ⟨l1, Function.update b.l2 (wordOf pos) word⟩ q = if q = pos then value else b.bit q := by
  simp only [bit]
  by_cases same : wordOf q = wordOf pos
  · rw [same, Function.update_self]
    split
    next here => rw [here, written]
    next elsewhere =>
      have words : q.val / 64 = pos.val / 64 := congrArg Fin.val same
      have bits : q.val % 64 ≠ pos.val % 64 := fun bits => elsewhere (Fin.ext (by omega))
      exact rest _ bits
  · have different : q ≠ pos := fun eq => same (congrArg wordOf eq)
    rw [Function.update_of_ne same, if_neg different]

/-- The positions of the set have their bit set, and the summary says which words have any. -/
structure Describes (b : BitMap4096) (s : Finset (Fin 4096)) : Prop where
  members : ∀ pos, b.bit pos = true ↔ pos ∈ s
  summary : ∀ i : Fin 64, b.l1.data.getLsbD i.val = true ↔ (b.l2 i).data ≠ 0

theorem describes_new : new.Describes ∅ := by
  refine ⟨fun pos => ?_, fun i => ?_⟩
  · simp [bit, new]
  · simp [new, BitMap64.new]

variable {b : BitMap4096} {s : Finset (Fin 4096)}

/-- A position changes, with its word and the summary bit of the word. -/
theorem Describes.update (describes : b.Describes s) {pos : Fin 4096} {l1 word : BitMap64}
    {value : Bool} {t : Finset (Fin 4096)}
    (written : word.data.getLsbD (pos.val % 64) = value)
    (rest : ∀ j, j ≠ pos.val % 64 →
      word.data.getLsbD j = (b.l2 (wordOf pos)).data.getLsbD j)
    (members : ∀ q, q ∈ t ↔ if q = pos then value = true else q ∈ s)
    (summary : l1.data.getLsbD (wordOf pos).val = true ↔ word.data ≠ 0)
    (others : ∀ i, i ≠ wordOf pos → l1.data.getLsbD i.val = b.l1.data.getLsbD i.val) :
    Describes ⟨l1, Function.update b.l2 (wordOf pos) word⟩ t := by
  refine ⟨fun q => ?_, fun i => ?_⟩
  · rw [bit_update written rest, members]
    split
    · rfl
    · exact describes.members q
  · by_cases here : i = wordOf pos
    · simpa only [here, Function.update_self] using summary
    · simpa only [Function.update_of_ne here, others i here] using describes.summary i

theorem Describes.set (describes : b.Describes s) (pos : Fin 4096) :
    ∃ after, b.set pos = .ok after ∧ after.Describes (insert pos s) := by
  have low : pos.val % 64 < 64 := Nat.mod_lt _ (by omega)
  obtain ⟨l1, setL1⟩ := BitMap64.set_total b.l1 (wordOf pos).isLt
  obtain ⟨word, setWord⟩ := BitMap64.set_total (b.l2 (wordOf pos)) low
  have summary := (BitMap64.set_ok setL1).2
  have bits := (BitMap64.set_ok setWord).2
  have written : word.data.getLsbD (pos.val % 64) = true := by simp [bits]
  refine ⟨⟨l1, Function.update b.l2 (wordOf pos) word⟩, ?_,
    describes.update written (fun j apart => by simp [bits, apart.symm]) ?_ ?_ ?_⟩
  · simp only [BitMap4096.set, l1Index_eq, l2Index_eq, setL1, Except.bind, word_eq, setWord,
      setWord_eq]
  · intro q
    by_cases here : q = pos <;> simp [here]
  · -- the word has a bit now, and its summary bit is set with it
    have nonzero : word.data ≠ 0 := by
      intro zero
      rw [word.data_eq_zero.mp zero] at written
      cases written
    exact iff_of_true (by simp only [summary, decide_true, Bool.or_true]) nonzero
  · intro i elsewhere
    have apart : (wordOf pos).val ≠ i.val := Fin.val_ne_of_ne elsewhere.symm
    simp only [summary, apart, decide_false, Bool.or_false]

theorem Describes.clear (describes : b.Describes s) (pos : Fin 4096) :
    ∃ after, b.clear pos = .ok after ∧ after.Describes (s.erase pos) := by
  have low : pos.val % 64 < 64 := Nat.mod_lt _ (by omega)
  obtain ⟨l1, clearL1⟩ := BitMap64.clear_total b.l1 (wordOf pos).isLt
  obtain ⟨word, clearWord⟩ := BitMap64.clear_total (b.l2 (wordOf pos)) low
  have summary := BitMap64.clear_ok clearL1
  have bits := BitMap64.clear_ok clearWord
  have written : word.data.getLsbD (pos.val % 64) = false := by simp [bits]
  have rest : ∀ j, j ≠ pos.val % 64 →
      word.data.getLsbD j = (b.l2 (wordOf pos)).data.getLsbD j := by
    intro j apart
    simp [bits, apart.symm]
  have members : ∀ q, q ∈ s.erase pos ↔ if q = pos then false = true else q ∈ s := by
    intro q
    by_cases here : q = pos <;> simp [here]
  by_cases zero : word.data = 0
  · -- the last bit of the word is gone, and the summary bit goes with it
    refine ⟨⟨l1, Function.update b.l2 (wordOf pos) word⟩, ?_, describes.update written rest members
      (iff_of_false ?_ (not_not.mpr zero)) ?_⟩
    · simp only [BitMap4096.clear, l1Index_eq, l2Index_eq, Except.bind, word_eq, clearWord,
        setWord_eq, zero, beq_self_eq_true, if_true, clearL1, Except.map]
    · simp only [summary, decide_true, Bool.not_true, Bool.and_false, Bool.false_eq_true,
        not_false_eq_true]
    · intro i elsewhere
      have apart : (wordOf pos).val ≠ i.val := Fin.val_ne_of_ne elsewhere.symm
      simp only [summary, apart, decide_false, Bool.not_false, Bool.and_true]
  · -- what is left in the word was there before
    have before : (b.l2 (wordOf pos)).data ≠ 0 := by
      intro nothing
      apply zero
      rw [BitMap64.data_eq_zero] at nothing ⊢
      simp [bits, nothing]
    refine ⟨⟨b.l1, Function.update b.l2 (wordOf pos) word⟩, ?_, describes.update written rest members
      (iff_of_true ((describes.summary _).mpr before) zero) fun _ _ => rfl⟩
    simp only [BitMap4096.clear, l1Index_eq, l2Index_eq, Except.bind, word_eq, clearWord,
      setWord_eq, beq_eq_false_iff_ne.mpr zero, Bool.false_eq_true, if_false]

/-! #### The searches -/

/-- A position from its word and its bit. -/
def position (i : Fin 64) (j : Nat) (bound : j < 64) : Fin 4096 := ⟨(i.val <<< 6) + j, by
  rw [Nat.shiftLeft_eq]
  omega⟩

theorem position_div_mod (i : Fin 64) {j : Nat} (bound : j < 64) :
    (position i j bound).val / 64 = i.val ∧ (position i j bound).val % 64 = j := by
  simp only [position, Nat.shiftLeft_eq]
  omega

theorem bit_position (b : BitMap4096) (i : Fin 64) {j : Nat} (bound : j < 64) :
    b.bit (position i j bound) = (b.l2 i).data.getLsbD j := by
  obtain ⟨word, low⟩ := position_div_mod i bound
  have same : wordOf (position i j bound) = i := Fin.ext word
  rw [bit, same, low]

/-- A position comes before all those of later words, and before those of its own word that
have a higher bit. -/
theorem position_le {i : Fin 64} {j : Nat} {bound : j < 64} {q : Fin 4096}
    (words : i ≤ wordOf q) (bits : i = wordOf q → j ≤ q.val % 64) : position i j bound ≤ q := by
  obtain ⟨word, low⟩ := position_div_mod i bound
  rw [Fin.le_def] at words ⊢
  rw [Fin.ext_iff] at bits
  simp only [wordOf] at words bits
  omega

/-- The summary names the word of every member. -/
theorem Describes.flagged (describes : b.Describes s) {q : Fin 4096} (member : q ∈ s) :
    b.l1.data.getLsbD (wordOf q).val = true := by
  rw [describes.summary]
  intro zero
  have set := (describes.members q).mpr member
  rw [bit, (BitMap64.data_eq_zero _).mp zero] at set
  cases set

theorem Describes.eq_empty (describes : b.Describes s)
    (clear : ∀ i, b.l1.data.getLsbD i = false) : s = ∅ := by
  refine Finset.eq_empty_of_forall_notMem fun q member => ?_
  have flag := describes.flagged member
  rw [clear] at flag
  cases flag

theorem Describes.findFirstOne (describes : b.Describes s) :
    (s = ∅ ∧ b.findFirstOne = .ok 4096) ∨
    ∃ pos, IsLeast (↑s : Set (Fin 4096)) pos ∧ b.findFirstOne = .ok pos.val := by
  rcases b.l1.findFirstOne_cases with ⟨none_, clear⟩ | ⟨below, flagged, before⟩
  · left
    refine ⟨describes.eq_empty clear, ?_⟩
    simp only [BitMap4096.findFirstOne, none_, beq_self_eq_true, if_true]
    rfl
  · right
    -- the summary is exact: the first word that it names has a bit
    obtain ⟨i, first⟩ : ∃ i : Fin 64, i.val = b.l1.findFirstOne := ⟨⟨_, below⟩, rfl⟩
    rw [← first] at below flagged before
    rcases (b.l2 i).findFirstOne_cases with ⟨-, clear⟩ | ⟨bound, set, least⟩
    · exact absurd ((b.l2 i).data_eq_zero.mpr clear) ((describes.summary i).mp flagged)
    refine ⟨position i _ bound, ⟨?_, fun q member => ?_⟩, ?_⟩
    · rw [Finset.mem_coe, ← describes.members, bit_position]
      exact set
    · have flag := describes.flagged member
      apply position_le
      · by_contra earlier
        rw [before _ (not_le.mp earlier)] at flag
        cases flag
      · intro same
        by_contra earlier
        have bit := (describes.members q).mpr member
        rw [BitMap4096.bit, ← same, least _ (not_le.mp earlier)] at bit
        cases bit
    · have ne : (b.l1.findFirstOne == 64) = false := by
        rw [← first, beq_eq_false_iff_ne]
        omega
      simp only [BitMap4096.findFirstOne, ne, Bool.false_eq_true, if_false]
      rw [← first, word_eq]
      rfl

/-- A search over all indices finds the first one that has a value. -/
private theorem findSome?_finRange {n : Nat} {f : Fin n → Option Nat} {value : Nat}
    (found : (List.finRange n).findSome? f = some value) :
    ∃ i, f i = some value ∧ ∀ j < i, f j = none := by
  obtain ⟨before, i, after, split, here, nothing⟩ := List.findSome?_eq_some_iff.mp found
  refine ⟨i, here, fun j earlier => ?_⟩
  have member : j ∈ before ++ i :: after := split ▸ List.mem_finRange j
  have increasing : List.Pairwise (· < ·) (before ++ i :: after) :=
    split ▸ List.pairwise_lt_finRange n
  rcases List.mem_append.mp member with inside | outside
  · exact nothing j inside
  · have later : ∀ k ∈ after, i < k :=
      (List.pairwise_cons.mp (List.pairwise_append.mp increasing).2.1).1
    rcases List.mem_cons.mp outside with rfl | outside
    · exact absurd earlier (lt_irrefl j)
    · exact absurd (earlier.trans (later j outside)) (lt_irrefl j)

/-- The loop of `find_first_zero` goes on only after a full word. -/
private theorem full_of_skipped {word : BitMap64} {base : Nat}
    (skipped : (if word.findFirstZero < 64 then some (base + word.findFirstZero) else none) = none)
    {j : Nat} (bound : j < 64) : word.data.getLsbD j = true := by
  rcases word.findFirstZero_cases with ⟨-, set⟩ | ⟨found, -, -⟩
  · exact set j bound
  · simp [found] at skipped

theorem Describes.findFirstZero (describes : b.Describes s) :
    (s = Finset.univ ∧ b.findFirstZero = 4096) ∨
    ∃ pos, IsLeast {q | q ∉ s} pos ∧ b.findFirstZero = pos.val := by
  unfold BitMap4096.findFirstZero
  generalize search : (List.finRange 64).findSome? _ = result
  cases result with
  | none =>
    left
    refine ⟨Finset.eq_univ_iff_forall.mpr fun q => ?_, rfl⟩
    rw [← describes.members]
    have skipped := List.findSome?_eq_none_iff.mp search (wordOf q) (List.mem_finRange _)
    exact full_of_skipped skipped (Nat.mod_lt _ (by omega))
  | some value =>
    right
    obtain ⟨i, here, earlier⟩ := findSome?_finRange search
    rcases (b.l2 i).findFirstZero_cases with ⟨none_, -⟩ | ⟨bound, clear, before⟩
    · simp [none_] at here
    simp only [bound, if_true, Option.some.injEq] at here
    refine ⟨position i _ bound, ⟨?_, fun q absent => ?_⟩, here.symm⟩
    · change ¬ position i _ bound ∈ s
      rw [← describes.members, bit_position, clear]
      exact Bool.false_ne_true
    · have clear : b.bit q = false := by
        rw [← Bool.not_eq_true, describes.members]
        exact absent
      apply position_le
      · by_contra smaller
        have skipped := earlier (wordOf q) (not_le.mp smaller)
        rw [BitMap4096.bit, full_of_skipped skipped (Nat.mod_lt _ (by omega))] at clear
        cases clear
      · intro same
        by_contra smaller
        rw [BitMap4096.bit, ← same, before _ (not_le.mp smaller)] at clear
        cases clear

theorem Describes.empty (describes : b.Describes s) : b.empty = true ↔ s = ∅ := by
  rw [BitMap4096.empty, BitMap64.empty, beq_iff_eq, BitMap64.data_eq_zero]
  constructor
  · exact describes.eq_empty
  · rintro rfl i
    by_contra flag
    rw [Bool.not_eq_false] at flag
    have inRange : i < 64 := BitVec.lt_of_getLsbD flag
    -- a word that the summary names has a member
    rcases (b.l2 ⟨i, inRange⟩).findFirstOne_cases with ⟨-, clear⟩ | ⟨bound, set, -⟩
    · exact (describes.summary ⟨i, inRange⟩).mp flag ((BitMap64.data_eq_zero _).mpr clear)
    · rw [← bit_position b ⟨i, inRange⟩ bound, describes.members] at set
      exact Finset.notMem_empty _ set

/-- `get` looks at the summary first, which is set for the word of every member. -/
theorem Describes.get (describes : b.Describes s) (pos : Fin 4096) :
    b.get pos = .ok (decide (pos ∈ s)) := by
  have inRange := (wordOf pos).isLt
  simp only [BitMap4096.get, l1Index_eq, l2Index_eq, inRange, if_true, word_eq, Except.map,
    BitMap64.get_eq]
  by_cases flag : b.l1.data.getLsbD (wordOf pos).val = true
  · rw [if_pos flag]
    congr 1
    apply Bool.eq_iff_iff.mpr
    rw [decide_eq_true_eq]
    exact describes.members pos
  · have absent : pos ∉ s := fun member => flag (describes.flagged member)
    rw [if_neg flag, decide_eq_false absent]

theorem Describes.fetch (describes : b.Describes s) :
    (s = ∅ ∧ b.fetch = .ok (none, b)) ∨
    ∃ pos after, IsLeast (↑s : Set (Fin 4096)) pos ∧ b.fetch = .ok (some pos.val, after) ∧
      after.Describes (s.erase pos) := by
  rcases describes.findFirstOne with ⟨nothing, searched⟩ | ⟨pos, first, searched⟩
  · left
    refine ⟨nothing, ?_⟩
    simp only [BitMap4096.fetch, searched, Except.bind]
    rfl
  · right
    obtain ⟨after, cleared, next⟩ := describes.clear pos
    have inRange : ¬ pos.val ≥ 4096 := by omega
    refine ⟨pos, after, first, ?_, next⟩
    simp only [BitMap4096.fetch, searched, Except.bind, if_neg inRange, cleared, Except.map]

/-! #### Refinement -/

theorem call_simulates : Simulates call positionSet Describes := by
  intro b s c describes
  cases c with
  | set pos =>
    obtain ⟨after, returned, next⟩ := describes.set pos
    simp only [call, positionSet, returned]
    exact ⟨after, rfl, next⟩
  | clear pos =>
    obtain ⟨after, returned, next⟩ := describes.clear pos
    simp only [call, positionSet, returned]
    exact ⟨after, rfl, next⟩
  | fetch =>
    rcases describes.fetch with ⟨nothing, returned⟩ | ⟨pos, after, first, returned, next⟩
    · simp only [call, positionSet, least_eq_none.mpr nothing, returned]
      exact ⟨b, rfl, describes⟩
    · simp only [call, positionSet, least_eq_some.mpr first, returned]
      exact ⟨after, rfl, next⟩

theorem trace_fetch_empty (k : Nat) :
    trace positionSet ∅ (List.replicate k .fetch) = (List.replicate k (.taken none), ∅) := by
  have nothing : least (∅ : Finset (Fin 4096)) = none := least_eq_none.mpr rfl
  induction k with
  | zero => rfl
  | succ k ih => simp only [List.replicate_succ, trace, positionSet, nothing, ih]

/-- Fetching as often as there are members takes them all out in increasing order, and then
there is nothing to fetch. -/
theorem trace_fetch (s : Finset (Fin 4096)) (k : Nat) :
    trace positionSet s (List.replicate (s.card + k) .fetch) =
      (s.sort.map (fun pos => .taken (some pos.val)) ++ List.replicate k (.taken none), ∅) := by
  generalize size : s.card = n
  induction n generalizing s with
  | zero =>
    rw [Finset.card_eq_zero] at size
    subst size
    simpa using trace_fetch_empty k
  | succ n ih =>
    cases found : least s with
    | none => simp [least_eq_none.mp found] at size
    | some pos =>
      have rest := ih (s.erase pos) (by
        rw [Finset.card_erase_of_mem (least_eq_some.mp found).1, size, Nat.add_sub_cancel])
      rw [Nat.add_right_comm, List.replicate_succ, sort_of_least found]
      simp only [trace, positionSet, found, rest, List.map_cons, List.cons_append]

/-- Over every sequence of calls from `new` with positions below 4096: the summary is exact,
`get`, `empty` and the two searches are those of the set that the calls describe, and `fetch`
takes its least element out, so that fetching on gives all of it in increasing order. -/
theorem refines_positionSet (calls : List BitMapCall) :
    ∃ (results : List SetResult) (b : BitMap4096) (s : Finset (Fin 4096)),
      run call new calls = .ok (results, b) ∧
      trace positionSet ∅ calls = (results, s) ∧
      (∀ i : Fin 64, b.l1.data.getLsbD i.val = true ↔ (b.l2 i).data ≠ 0) ∧
      (∀ pos : Fin 4096, b.get pos = .ok (decide (pos ∈ s))) ∧
      (b.empty = true ↔ s = ∅) ∧
      ((s = ∅ ∧ b.findFirstOne = .ok 4096) ∨
        ∃ pos, IsLeast (↑s : Set (Fin 4096)) pos ∧ b.findFirstOne = .ok pos.val) ∧
      ((s = Finset.univ ∧ b.findFirstZero = 4096) ∨
        ∃ pos, IsLeast {q | q ∉ s} pos ∧ b.findFirstZero = pos.val) ∧
      ((s = ∅ ∧ b.fetch = .ok (none, b)) ∨
        ∃ pos after, IsLeast (↑s : Set (Fin 4096)) pos ∧ b.fetch = .ok (some pos.val, after) ∧
          ∀ q : Fin 4096, after.get q = .ok (decide (q ∈ s.erase pos))) ∧
      ∀ k, ∃ drained, run call b (List.replicate (s.card + k) .fetch) =
        .ok (s.sort.map (fun pos => .taken (some pos.val)) ++ List.replicate k (.taken none),
          drained) ∧ drained.empty = true := by
  obtain ⟨b, returned, describes⟩ := call_simulates.run describes_new calls
  refine ⟨_, b, _, returned, rfl, describes.summary, describes.get, describes.empty,
    describes.findFirstOne, describes.findFirstZero, ?_, fun k => ?_⟩
  · rcases describes.fetch with nothing | ⟨pos, after, first, fetched, next⟩
    · exact Or.inl nothing
    · exact Or.inr ⟨pos, after, first, fetched, next.get⟩
  · obtain ⟨drained, fetched, next⟩ := call_simulates.run describes
      (List.replicate ((trace positionSet ∅ calls).2.card + k) .fetch)
    rw [trace_fetch] at fetched next
    exact ⟨drained, fetched, next.empty.mpr rfl⟩

end BitMap4096

end RootTask.Runtime
