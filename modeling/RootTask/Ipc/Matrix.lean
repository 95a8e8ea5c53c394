import Mathlib.Data.BitVec
import Mathlib.Data.Matrix.Mul
import Mathlib.Algebra.BigOperators.Fin
import RootTask.Lib.Loop
import RootTask.Runtime.Utils

/-!
# The workload of the IPC tests

`matrix.rs`: both servers of `ipc_test.rs` compute `matrix_test::<MATRIX_SIZE>` for every request.
Whether an overflow panics or wraps depends on how the crate is built (`cargo build` panics, with
`--release` it wraps), so the functions take the build's `overflow-checks` as a parameter.

## Main result

`matrix_test_exact`: the sixteenth power of the initial matrix, taken modulo `2 ^ 64`, which is the
power itself up to size 3; a checked build panics from size 4 on, which is `MATRIX_SIZE`.
-/
namespace RootTask.Ipc

open RootTask.Runtime RootTask.Outcome RootTask.Loop

/-- `[[u64; N]; N]`. -/
abbrev U64Matrix (n : Nat) : Type := Matrix (Fin n) (Fin n) (BitVec 64)

/-- The result of an operation on 64-bit numbers. -/
def arith (overflowChecks : Bool) (x : Nat) : Except Panic (BitVec 64) :=
  if overflowChecks = true ∧ 2 ^ 64 ≤ x then .error .overflow else .ok (BitVec.ofNat 64 x)

namespace U64Matrix

variable {n : Nat} {overflowChecks : Bool}

/-- `matrix[i][j] = v`. -/
def set (m : U64Matrix n) (i j : Fin n) (v : BitVec 64) : U64Matrix n :=
  .of fun i' j' => if i' = i ∧ j' = j then v else m i' j'

def initMatrix (overflowChecks : Bool) (n : Nat) : Except Panic (U64Matrix n) :=
  loop n (fun i m => loop n (fun j m =>
    (arith overflowChecks (i * n)).bind fun row =>
      (arith overflowChecks (row.toNat + j)).bind fun index =>
        (arith overflowChecks (index.toNat + 1)).map fun v => m.set i j v) m) 0

def matrixMultiply (overflowChecks : Bool) (m₁ m₂ : U64Matrix n) : Except Panic (U64Matrix n) :=
  loop n (fun i result => loop n (fun j result => loop n (fun k result =>
    (arith overflowChecks ((m₁ i k).toNat * (m₂ k j).toNat)).bind fun product =>
      (arith overflowChecks ((result i j).toNat + product.toNat)).map fun v => result.set i j v)
    result) result) 0

def matrixTest (overflowChecks : Bool) (n : Nat) : Except Panic (U64Matrix n) :=
  (initMatrix overflowChecks n).bind fun a =>
    loop 4 (fun _ a => matrixMultiply overflowChecks a a) a

/-! ### Numbers and what is stored of them -/

/-- What `init_matrix` is meant to compute. -/
def initial (n : Nat) : Matrix (Fin n) (Fin n) ℕ := .of fun i j => i * n + j + 1

/-- Every entry can be stored. -/
def Fits (a : Matrix (Fin n) (Fin n) ℕ) : Prop := ∀ i j, a i j < 2 ^ 64

instance (a : Matrix (Fin n) (Fin n) ℕ) : Decidable (Fits a) :=
  have : DecidablePred fun i => ∀ j, a i j < 2 ^ 64 := fun i =>
    Nat.decidableForallFin fun j => a i j < 2 ^ 64
  Nat.decidableForallFin fun i => ∀ j, a i j < 2 ^ 64

theorem Fits.not {a : Matrix (Fin n) (Fin n) ℕ} {i j : Fin n} (large : 2 ^ 64 ≤ a i j) :
    ¬ Fits a :=
  fun fits => absurd (fits i j) (Nat.not_lt.mpr large)

/-- `v` is what the build has for `x`: the number itself when overflows are checked, else its low
bits. -/
def Stands (overflowChecks : Bool) (v : BitVec 64) (x : ℕ) : Prop :=
  v = BitVec.ofNat 64 x ∧ (overflowChecks = true → x < 2 ^ 64)

namespace Stands

variable {v w : BitVec 64} {x y : ℕ}

theorem toNat_mod (stands : Stands overflowChecks v x) : v.toNat = x % 2 ^ 64 := by
  rw [stands.1, BitVec.toNat_ofNat]

/-- Numbers are only added and multiplied, so that it does not matter when the high bits go. -/
theorem of_arith {z : ℕ} (same : z % 2 ^ 64 = x % 2 ^ 64) (most : z ≤ x)
    (exact : overflowChecks = true → z = x) :
    Meets (fun e => e = .overflow ∧ overflowChecks = true ∧ 2 ^ 64 ≤ x)
      (fun v => Stands overflowChecks v x) (arith overflowChecks z) := by
  unfold arith
  split
  next large => exact ⟨rfl, large.1, large.2.trans most⟩
  next small =>
    refine ⟨BitVec.eq_of_toNat_eq ?_, fun checks => ?_⟩
    · rw [BitVec.toNat_ofNat, BitVec.toNat_ofNat, same]
    · rw [← exact checks]
      exact Nat.not_le.mp fun large => small ⟨checks, large⟩

theorem toNat_le (stands : Stands overflowChecks v x) : v.toNat ≤ x := by
  rw [stands.toNat_mod]
  exact Nat.mod_le _ _

theorem toNat_eq (stands : Stands overflowChecks v x) (checks : overflowChecks = true) :
    v.toNat = x := by
  rw [stands.toNat_mod, Nat.mod_eq_of_lt (stands.2 checks)]

theorem add (first : Stands overflowChecks v x) (second : Stands overflowChecks w y) :
    Meets (fun e => e = .overflow ∧ overflowChecks = true ∧ 2 ^ 64 ≤ x + y)
      (fun u => Stands overflowChecks u (x + y)) (arith overflowChecks (v.toNat + w.toNat)) := by
  refine of_arith ?_ (Nat.add_le_add first.toNat_le second.toNat_le) fun checks => ?_
  · rw [first.toNat_mod, second.toNat_mod, ← Nat.add_mod]
  · rw [first.toNat_eq checks, second.toNat_eq checks]

theorem add_nat (first : Stands overflowChecks v x) (y : ℕ) :
    Meets (fun e => e = .overflow ∧ overflowChecks = true ∧ 2 ^ 64 ≤ x + y)
      (fun u => Stands overflowChecks u (x + y)) (arith overflowChecks (v.toNat + y)) := by
  refine of_arith ?_ (Nat.add_le_add_right first.toNat_le y) fun checks => ?_
  · rw [first.toNat_mod, Nat.mod_add_mod]
  · rw [first.toNat_eq checks]

theorem mul (first : Stands overflowChecks v x) (second : Stands overflowChecks w y) :
    Meets (fun e => e = .overflow ∧ overflowChecks = true ∧ 2 ^ 64 ≤ x * y)
      (fun u => Stands overflowChecks u (x * y)) (arith overflowChecks (v.toNat * w.toNat)) := by
  refine of_arith ?_ (Nat.mul_le_mul first.toNat_le second.toNat_le) fun checks => ?_
  · rw [first.toNat_mod, second.toNat_mod, ← Nat.mul_mod]
  · rw [first.toNat_eq checks, second.toNat_eq checks]

end Stands

/-! ### Filling a matrix -/

def Holds (overflowChecks : Bool) (m : U64Matrix n) (a : Matrix (Fin n) (Fin n) ℕ) : Prop :=
  ∀ i j, Stands overflowChecks (m i j) (a i j)

/-- The matrix of numbers when the loops are at row `i` and column `j`, where they have got to
`x`. -/
def upTo (target : Matrix (Fin n) (Fin n) ℕ) (i j : Nat) (x : ℕ) : Matrix (Fin n) (Fin n) ℕ :=
  .of fun i' j' =>
    if i'.val = i ∧ j'.val = j then x
    else if i'.val < i ∨ (i'.val = i ∧ j'.val < j) then target i' j' else 0

section Filling

variable {target : Matrix (Fin n) (Fin n) ℕ} {m : U64Matrix n} {allowed : Panic → Prop}

theorem upTo_here (i j : Fin n) (x : ℕ) : upTo target i j x i j = x := by
  simp [upTo]

/-- The next column. -/
theorem upTo_next (i j : Fin n) : upTo target i j (target i j) = upTo target i (j + 1) 0 := by
  ext i' j'
  simp only [upTo, Matrix.of_apply]
  by_cases here : i' = i ∧ j' = j
  · obtain ⟨rfl, rfl⟩ := here
    simp
  · rw [Fin.ext_iff, Fin.ext_iff] at here
    grind

/-- The next row. -/
theorem upTo_wrap (i : Nat) : upTo target i n 0 = upTo target (i + 1) 0 0 := by
  ext i' j'
  have inside := j'.isLt
  simp only [upTo, Matrix.of_apply]
  grind

theorem upTo_all : upTo target n 0 0 = target := by
  ext i' j'
  have inside := i'.isLt
  simp only [upTo, Matrix.of_apply]
  grind

theorem Holds.set {i j : Fin n} {x y : ℕ} {v : BitVec 64}
    (before : Holds overflowChecks m (upTo target i j x)) (stands : Stands overflowChecks v y) :
    Holds overflowChecks (m.set i j v) (upTo target i j y) := by
  intro i' j'
  have entry := before i' j'
  simp only [U64Matrix.set, upTo, Matrix.of_apply] at entry ⊢
  by_cases here : i' = i ∧ j' = j
  · rw [if_pos here, if_pos ⟨congrArg Fin.val here.1, congrArg Fin.val here.2⟩]
    exact stands
  · have elsewhere : ¬ (i'.val = i.val ∧ j'.val = j.val) := by
      rwa [Fin.val_inj, Fin.val_inj]
    rw [if_neg elsewhere] at entry ⊢
    rwa [if_neg here]

/-- Both functions go through the rows and columns of a new matrix and bring each entry to its
value. -/
theorem fill_meets {cell : Fin n → Fin n → U64Matrix n → Except Panic (U64Matrix n)}
    (fills : ∀ (i j : Fin n) (m : U64Matrix n), Holds overflowChecks m (upTo target i j 0) →
      Meets allowed (fun m => Holds overflowChecks m (upTo target i j (target i j)))
        (cell i j m)) :
    Meets allowed (fun m => Holds overflowChecks m target)
      (loop n (fun i m => loop n (fun j m => cell i j m) m) 0) := by
  have zero : Holds overflowChecks (0 : U64Matrix n) (upTo target 0 0 0) := by
    intro i j
    have entry : upTo target 0 0 0 i j = 0 := by simp [upTo]
    rw [entry]
    exact ⟨rfl, fun _ => by decide⟩
  refine (loop_meets (fun i m => Holds overflowChecks m (upTo target i 0 0)) zero
    fun i m before => ?_).mono fun m done => ?_
  · refine (loop_meets (fun j m => Holds overflowChecks m (upTo target i j 0)) before
      fun j m before => ?_).mono fun m done => ?_
    · rw [← upTo_next]
      exact fills i j m before
    · rwa [← upTo_wrap]
  · rwa [upTo_all] at done

end Filling

/-! ### The functions -/

theorem initMatrix_meets (overflowChecks : Bool) (n : Nat) :
    Meets (fun e => e = .overflow ∧ overflowChecks = true ∧ 2 ^ 64 ≤ n * n)
      (fun m => Holds overflowChecks m (initial n)) (initMatrix overflowChecks n) := by
  refine fill_meets fun i j m before => ?_
  have most : i * n + j + 1 ≤ n * n := by
    have rows := Nat.mul_le_mul_right n (Nat.succ_le_of_lt i.isLt)
    rw [Nat.succ_mul] at rows
    have column := j.isLt
    omega
  have large : ∀ {x}, x ≤ i * n + j + 1 → ∀ e : Panic,
      e = .overflow ∧ overflowChecks = true ∧ 2 ^ 64 ≤ x →
      e = .overflow ∧ overflowChecks = true ∧ 2 ^ 64 ≤ n * n :=
    fun small e ⟨isOverflow, checks, above⟩ =>
      ⟨isOverflow, checks, above.trans (small.trans most)⟩
  have row := (Stands.of_arith rfl (Nat.le_refl (i * n)) fun _ => rfl).allow (large (by omega))
  refine row.bind fun row isRow =>
    ((isRow.add_nat j).allow (large (by omega))).bind fun index isIndex =>
      ((isIndex.add_nat 1).allow (large (Nat.le_refl _))).map fun v isV => ?_
  exact before.set isV

/-- The first terms of an entry of the product. -/
def firstTerms (a b : Matrix (Fin n) (Fin n) ℕ) (i j : Fin n) (k : Nat) : ℕ :=
  ∑ l with l.val < k, a i l * b l j

section Product

variable (a b : Matrix (Fin n) (Fin n) ℕ) (i j : Fin n)

theorem firstTerms_zero : firstTerms a b i j 0 = 0 := by
  simp [firstTerms]

theorem firstTerms_succ (k : Fin n) :
    firstTerms a b i j (k + 1) = firstTerms a b i j k + a i k * b k j := by
  have more : Finset.univ.filter (fun l : Fin n => l.val < k + 1) =
      insert k (Finset.univ.filter fun l : Fin n => l.val < k) := by
    ext l
    simp only [Finset.mem_filter, Finset.mem_univ, true_and, Finset.mem_insert, Fin.ext_iff]
    omega
  rw [firstTerms, more, Finset.sum_insert (by simp), Nat.add_comm]
  rfl

theorem firstTerms_all : firstTerms a b i j n = (a * b) i j := by
  simp [firstTerms, Matrix.mul_apply]

theorem firstTerms_le (k : Nat) : firstTerms a b i j k ≤ (a * b) i j := by
  rw [← firstTerms_all]
  refine Finset.sum_le_sum_of_subset fun l _ => ?_
  simp

end Product

theorem matrixMultiply_meets {m₁ m₂ : U64Matrix n} {a b : Matrix (Fin n) (Fin n) ℕ}
    (first : Holds overflowChecks m₁ a) (second : Holds overflowChecks m₂ b) :
    Meets (fun e => e = .overflow ∧ overflowChecks = true ∧ ¬ Fits (a * b))
      (fun m => Holds overflowChecks m (a * b)) (matrixMultiply overflowChecks m₁ m₂) := by
  refine fill_meets fun i j m before => ?_
  rw [← firstTerms_zero a b i j] at before
  rw [← firstTerms_all]
  refine loop_meets (fun k m => Holds overflowChecks m (upTo (a * b) i j (firstTerms a b i j k)))
    before fun k m before => ?_
  have most := firstTerms_le a b i j (k + 1)
  rw [firstTerms_succ] at most ⊢
  have large : ∀ {x}, x ≤ firstTerms a b i j k + a i k * b k j → ∀ e : Panic,
      e = .overflow ∧ overflowChecks = true ∧ 2 ^ 64 ≤ x →
      e = .overflow ∧ overflowChecks = true ∧ ¬ Fits (a * b) :=
    fun small e ⟨isOverflow, checks, above⟩ =>
      ⟨isOverflow, checks, Fits.not (above.trans (small.trans most))⟩
  have sum := before i j
  rw [upTo_here] at sum
  have product := ((first i k).mul (second k j)).allow (large (Nat.le_add_left _ _))
  refine product.bind fun product isProduct =>
    ((sum.add isProduct).allow (large (Nat.le_refl _))).map fun v isV => ?_
  exact before.set isV

/-! ### The four squarings -/

def square (a : Matrix (Fin n) (Fin n) ℕ) : Matrix (Fin n) (Fin n) ℕ := a * a

theorem square_iterate (a : Matrix (Fin n) (Fin n) ℕ) (k : Nat) : square^[k] a = a ^ 2 ^ k := by
  have power : (square : Matrix (Fin n) (Fin n) ℕ → _) = fun a => a ^ 2 := by
    funext a
    exact (sq a).symm
  rw [power, pow_iterate]

/-- A panic means that the initial matrix, or one of its four squarings, does not fit. -/
theorem matrixTest_meets (overflowChecks : Bool) (n : Nat) :
    Meets (fun e => e = .overflow ∧ overflowChecks = true ∧
        (2 ^ 64 ≤ n * n ∨ ∃ k : Fin 4, ¬ Fits (square^[k + 1] (initial n))))
      (fun c => Holds overflowChecks c (square^[4] (initial n))) (matrixTest overflowChecks n) := by
  have init := (initMatrix_meets overflowChecks n).allow fun e ⟨isOverflow, checks, large⟩ =>
    And.intro isOverflow (And.intro checks
      (Or.inl (b := ∃ k : Fin 4, ¬ Fits (square^[k + 1] (initial n))) large))
  refine init.bind fun a isInitial => loop_meets (fun k (a : U64Matrix n) =>
    Holds overflowChecks a (square^[k] (initial n))) isInitial fun k a before => ?_
  rw [Function.iterate_succ_apply']
  refine (matrixMultiply_meets before before).allow fun e ⟨isOverflow, checks, large⟩ => ?_
  refine ⟨isOverflow, checks, .inr ⟨k, ?_⟩⟩
  rwa [Function.iterate_succ_apply']

/-- Up to size 3 everything fits. -/
theorem square_small : ∀ (n : Fin 4) (k : Fin 4), Fits (square^[k + 1] (initial n)) := by
  decide +kernel

/-- The square of a matrix whose entries in some rows and columns are at least `c`. -/
theorem square_large {a : Matrix (Fin n) (Fin n) ℕ} {s : Finset (Fin n)} {c : ℕ}
    (above : ∀ i ∈ s, ∀ j ∈ s, c ≤ a i j) :
    ∀ i ∈ s, ∀ j ∈ s, s.card * (c * c) ≤ square a i j := by
  intro i hi j hj
  calc s.card * (c * c)
      ≤ ∑ l ∈ s, a i l * a l j :=
        Finset.card_nsmul_le_sum s _ _ fun l hl =>
          Nat.mul_le_mul (above i hi l hl) (above l hl j hj)
    _ ≤ ∑ l, a i l * a l j := Finset.sum_le_sum_of_subset (Finset.subset_univ s)
    _ = square a i j := (Matrix.mul_apply).symm

/-- From size 4 on, the four entries in the corner are at least 11, and squaring takes `c` to at
least `2 * c * c` there. -/
theorem square_overflow (large : 4 ≤ n) : ¬ Fits (square^[4] (initial n)) := by
  let p : Fin n := ⟨n - 2, by omega⟩
  let q : Fin n := ⟨n - 1, by omega⟩
  have apart : p ≠ q := by
    rw [Ne, Fin.mk.injEq]
    omega
  have inCorner : ∀ i ∈ ({p, q} : Finset (Fin n)), 2 ≤ i.val := by
    intro i hi
    rcases Finset.mem_insert.mp hi with rfl | last
    · exact Nat.le_sub_of_add_le large
    · rw [Finset.mem_singleton.mp last]
      exact Nat.le_sub_of_add_le (by omega)
  have corner : ∀ i ∈ ({p, q} : Finset (Fin n)), ∀ j ∈ ({p, q} : Finset (Fin n)),
      11 ≤ initial n i j := by
    intro i hi j hj
    have rows := Nat.mul_le_mul (inCorner i hi) large
    have column := inCorner j hj
    change 11 ≤ i * n + j + 1
    omega
  have fourth := square_large (square_large (square_large (square_large corner)))
  rw [Finset.card_pair apart] at fourth
  have here := Finset.mem_insert_self p {q}
  exact Fits.not (le_trans (by decide) (fourth p here p here))

/-- `matrix_test::<N>` computes the sixteenth power of the matrix that `init_matrix` fills, of
which 64 bits hold every entry only for `N < 4`: a build that checks for overflows panics for every
other `N`. -/
theorem matrix_test_exact (overflowChecks : Bool) (n : Nat) :
    matrixTest overflowChecks n =
      (if overflowChecks = true ∧ 4 ≤ n then .error .overflow
      else .ok ((initial n ^ 16).map (BitVec.ofNat 64))) ∧
    (Fits (initial n ^ 16) ↔ n < 4) := by
  have meets := matrixTest_meets overflowChecks n
  have power : square^[4] (initial n) = initial n ^ 16 := square_iterate (initial n) 4
  constructor
  · split
    next fails =>
      cases returned : matrixTest overflowChecks n with
      | ok c =>
        have held := meets.result returned
        exact absurd (fun i j => (held i j).2 fails.1) (square_overflow fails.2)
      | error e => rw [(meets.failure returned).1]
    next succeeds =>
      cases returned : matrixTest overflowChecks n with
      | ok c =>
        have held := meets.result returned
        rw [power] at held
        exact congrArg Except.ok (Matrix.ext fun i j => (held i j).1)
      | error e =>
        obtain ⟨-, checks, unfit⟩ := meets.failure returned
        have below : n < 4 := Nat.not_le.mp fun size => succeeds ⟨checks, size⟩
        obtain large | ⟨k, large⟩ := unfit
        · have small : n * n ≤ 3 * 3 := Nat.mul_le_mul (by omega) (by omega)
          omega
        · exact absurd (square_small ⟨n, below⟩ k) large
  · rw [← power]
    exact ⟨fun fits => Nat.not_le.mp fun large => square_overflow large fits,
      fun small => square_small ⟨n, small⟩ 3⟩

end U64Matrix

end RootTask.Ipc
