import RootTask.Syscall.Requests

/-!
# Strings in chunks

The loop of `seL4_Putstring` as it runs, with the check of every index and of the subtraction
that gives the length of the last chunk. It returns for every length, and what it sends is
`putstring`. The chunks are then read off the items and put together again.

A length that is a multiple of 7 ends with an item whose chunk is empty.
-/
namespace RootTask.Syscall

open RootTask.Runtime RootTask.Transition

/-! ### The loop -/

section Loop

variable (cid : CoroutineId) (data : List (BitVec 16))

/-- The inner loop, `n` rounds from `j` on: `extend_msg[j + 1] = data[offset + j]`. -/
def copyChunk (offset : Nat) :
    Nat → Nat → Vector (BitVec 16) maxIpcMsgLen → Except Panic (Vector (BitVec 16) maxIpcMsgLen)
  | 0, _, m => .ok m
  | n + 1, j, m =>
    match data[offset + j]? with
    | none => .error .indexOutOfBounds
    | some c =>
      if inItem : j + 1 < maxIpcMsgLen then copyChunk offset n (j + 1) (m.set (j + 1) c)
      else .error .indexOutOfBounds

/-- The length of the chunk of round `i`. -/
def chunkLen (i : Nat) : Except Panic Nat :=
  if i < data.length / 7 then .ok 7
  -- `length - 7 * i`
  else if 7 * i ≤ data.length then .ok (data.length - 7 * i)
  else .error .overflow

def putstringItem (i : Nat) : Except Panic IPCItem :=
  (chunkLen data i).bind fun num =>
    (copyChunk data (i * 7) num 0 (extendMsg [BitVec.ofNat 16 num])).map
      fun m => ⟨cid, AsyncMessageLabel.putString.toU32, m⟩

/-- The outer loop, `n` rounds from `i` on, with the items that it submits. -/
def putstringLoop : Nat → Nat → Except Panic (List IPCItem)
  | 0, _ => .ok []
  | n + 1, i =>
    (putstringItem cid data i).bind fun item =>
      (putstringLoop n (i + 1)).map fun items => item :: items

/-- `seL4_Putstring`. -/
def seL4Putstring : Except Panic (List IPCItem) :=
  putstringLoop cid data (data.length / 7 + 1) 0

end Loop

variable {cid : CoroutineId} {data : List (BitVec 16)}

/-! ### What the loop sends -/

/-- A round of the inner loop that stays in the string and in the item writes one word. -/
theorem copyChunk_ok (offset : Nat) {n j : Nat} {m : Vector (BitVec 16) maxIpcMsgLen}
    (inData : offset + (j + n) ≤ data.length) (inItem : j + n ≤ 7) :
    ∃ m', copyChunk data offset n j m = .ok m' ∧ ∀ i (inRange : i < maxIpcMsgLen),
      m'[i] = if j < i ∧ i ≤ j + n then data.getD (offset + (i - 1)) 0 else m[i] := by
  induction n generalizing j m with
  | zero =>
    refine ⟨m, rfl, fun i inRange => ?_⟩
    rw [if_neg (by omega)]
  | succ n ih =>
    have here : offset + j < data.length := by omega
    have next : j + 1 < maxIpcMsgLen := Nat.lt_of_le_of_lt (show j + 1 ≤ 7 by omega) (by decide)
    obtain ⟨m', copied, words⟩ := ih (j := j + 1) (m := m.set (j + 1) data[offset + j])
      (by omega) (by omega)
    refine ⟨m', ?_, fun i inRange => ?_⟩
    · simp only [copyChunk, List.getElem?_eq_getElem here, dif_pos next, copied]
    · rw [words i inRange]
      by_cases written : i = j + 1
      · -- the word of this round is not touched again
        subst written
        rw [if_neg (by omega), if_pos (by omega), Vector.getElem_set_self]
        simp [here]
      · rw [Vector.getElem_set_ne _ _ (Ne.symm written)]
        congr 1
        simp only [eq_iff_iff]
        omega

theorem chunkLen_ok {i : Nat} (inRange : i < data.length / 7 + 1) :
    ∃ num, chunkLen data i = .ok num ∧
      num = (if i < data.length / 7 then 7 else data.length - 7 * i) ∧
      num ≤ 7 ∧ i * 7 + num ≤ data.length := by
  unfold chunkLen
  split
  · exact ⟨7, rfl, rfl, Nat.le_refl _, by omega⟩
  · have fits : 7 * i ≤ data.length := by omega
    exact ⟨data.length - 7 * i, if_pos fits, rfl, by omega, by omega⟩

/-- A round of the outer loop sends the item of its chunk. -/
theorem putstringItem_ok {i : Nat} (inRange : i < data.length / 7 + 1) :
    putstringItem cid data i = .ok (putstringRound cid data (i * 7)
      (if i < data.length / 7 then 7 else data.length - 7 * i)) := by
  obtain ⟨num, measured, same, short, inData⟩ := chunkLen_ok inRange
  rw [← same]
  have inBounds : i * 7 + (0 + num) ≤ data.length ∧ 0 + num ≤ 7 := by omega
  obtain ⟨m, copied, words⟩ := copyChunk_ok (i * 7) (m := extendMsg [BitVec.ofNat 16 num])
    inBounds.1 inBounds.2
  simp only [putstringItem, measured, Except.bind, copied, Except.map, putstringRound, request]
  congr 2
  apply Vector.ext
  intro k inItem
  rw [words k inItem, getElem_extendMsg, getElem_extendMsg]
  cases k with
  | zero => simp
  | succ k =>
    by_cases written : k < num
    · rw [if_pos (by omega)]
      simp [written]
    · rw [if_neg (by omega)]
      simp [written]

theorem putstringLoop_ok {n i : Nat} (inRange : i + n ≤ data.length / 7 + 1) :
    putstringLoop cid data n i = .ok ((List.range' i n).map fun k =>
      putstringRound cid data (k * 7)
        (if k < data.length / 7 then 7 else data.length - 7 * k)) := by
  induction n generalizing i with
  | zero => rfl
  | succ n ih =>
    have here : i < data.length / 7 + 1 := by omega
    simp only [putstringLoop, putstringItem_ok here, Except.bind, ih (i := i + 1) (by omega),
      Except.map, List.range'_succ, List.map_cons]

/-- No index is out of range and no subtraction underflows, and the items are those of
`putstring`. -/
theorem seL4Putstring_ok (cid : CoroutineId) (data : List (BitVec 16)) :
    seL4Putstring cid data = .ok (putstring cid data) := by
  rw [seL4Putstring, putstringLoop_ok (by omega), putstring, List.range_eq_range']

/-! ### Putting the chunks together -/

/-- The characters of an item. -/
def chunkOf (item : IPCItem) : List (BitVec 16) :=
  (List.range (word item.extendMsg 0).toNat).map fun j => word item.extendMsg (j + 1)

/-- The item of a round carries its part of the string, and nothing behind it. -/
theorem chunkOf_round (cid : CoroutineId) {offset num : Nat} (short : num ≤ 7)
    (inData : offset + num ≤ data.length) :
    chunkOf (putstringRound cid data offset num) = (data.drop offset).take num ∧
    (word (putstringRound cid data offset num).extendMsg 0).toNat = num ∧
    ∀ i (inRange : i < maxIpcMsgLen), num < i →
      (putstringRound cid data offset num).extendMsg[i] = 0 := by
  have length : ((data.drop offset).take num).length = num := by
    rw [List.length_take, List.length_drop]
    omega
  rw [Operation.putstringRound_chunk]
  generalize (data.drop offset).take num = chunk at length
  subst length
  refine ⟨read_chunk short, ?_, fun i inRange behind => ?_⟩
  · simp only [putstringRound, request, word_extendMsg _ 0 (by decide), List.getD_cons_zero,
      BitVec.toNat_ofNat]
    omega
  · simp only [putstringRound, request, getElem_extendMsg]
    rw [List.getD_eq_default]
    simp only [List.length_cons, List.length_map, List.length_range]
    exact behind

/-- The chunks of the rounds from `i` on are the rest of the string. -/
theorem flatten_chunks {n i : Nat} (rest : i + n = data.length / 7 + 1) :
    ((List.range' i n).map fun k => (data.drop (k * 7)).take
      (if k < data.length / 7 then 7 else data.length - 7 * k)).flatten = data.drop (i * 7) := by
  induction n generalizing i with
  | zero =>
    -- nothing is left after the last round
    simp only [List.range'_zero, List.map_nil, List.flatten_nil]
    rw [List.drop_eq_nil_of_le (by omega)]
  | succ n ih =>
    rw [List.range'_succ, List.map_cons, List.flatten_cons, ih (by omega)]
    split
    · have next : data.drop ((i + 1) * 7) = (data.drop (i * 7)).drop 7 := by
        rw [List.drop_drop, Nat.add_mul]
      rw [next, List.take_append_drop]
    · -- the last round takes all that is left
      rw [List.take_of_length_le (by rw [List.length_drop]; omega),
        List.drop_eq_nil_of_le (i := (i + 1) * 7) (by omega), List.append_nil]

/-- For a string of any length, `seL4_Putstring` returns without an index out of range or an
underflow, each item has the length of its chunk, at most 7, then the chunk and then zeros, and
the chunks in the order of submission are the string. -/
theorem putstring_lossless (cid : CoroutineId) (data : List (BitVec 16)) :
    ∃ items, seL4Putstring cid data = .ok items ∧
      (∀ item ∈ items, item.cid = cid ∧ item.msgInfo = AsyncMessageLabel.putString.toU32 ∧
        (word item.extendMsg 0).toNat ≤ 7 ∧
        ∀ i (inRange : i < maxIpcMsgLen), (word item.extendMsg 0).toNat < i →
          item.extendMsg[i] = 0) ∧
      (items.map chunkOf).flatten = data := by
  refine ⟨_, seL4Putstring_ok cid data, ?_, ?_⟩
  · intro item member
    obtain ⟨i, inRange, rfl⟩ := List.mem_map.mp member
    obtain ⟨num, -, same, short, inData⟩ := chunkLen_ok (List.mem_range.mp inRange)
    dsimp only
    rw [← same]
    obtain ⟨-, length, behind⟩ := chunkOf_round cid short inData
    rw [length]
    exact ⟨rfl, rfl, short, behind⟩
  · have read : (putstring cid data).map chunkOf = (List.range (data.length / 7 + 1)).map fun k =>
        (data.drop (k * 7)).take (if k < data.length / 7 then 7 else data.length - 7 * k) := by
      rw [putstring, List.map_map]
      apply List.map_congr_left
      intro i inRange
      obtain ⟨num, -, same, short, inData⟩ := chunkLen_ok (List.mem_range.mp inRange)
      simp only [Function.comp_apply]
      rw [← same]
      exact (chunkOf_round cid short inData).1
    rw [read, List.range_eq_range', flatten_chunks (Nat.zero_add _), Nat.zero_mul, List.drop_zero]

end RootTask.Syscall
