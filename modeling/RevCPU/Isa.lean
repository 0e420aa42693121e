import RevCPU.Manual
import RevCPU.RegFile
/-!
The manual's meaning of the base instructions, for either register width, written without looking
at the simulator. An instruction makes at most one memory access; the access goes to RevMem, so a
faulting address faults here as it does there. `size` is the length of the encoding, which is what
the PC advances by and what a link register skips.
-/
namespace RevCPU.Isa
open Mem RegFile Manual

/-- One integer width: its registers and its PC. -/
structure Xlen (w : Nat) where
  x : RevRegFile → BitVec 8 → BitVec w
  setX : RevRegFile → BitVec 8 → BitVec w → RevRegFile
  pc : RevRegFile → BitVec w
  setPC : RevRegFile → BitVec w → RevRegFile

def rv32 : Xlen 32 where
  x := RevRegFile.x32
  setX := RevRegFile.setX32
  pc := RevRegFile.rv32PC
  setPC := fun regs pc => { regs with rv32PC := pc }

def rv64 : Xlen 64 where
  x := RevRegFile.x64
  setX := RevRegFile.setX64
  pc := RevRegFile.rv64PC
  setPC := fun regs pc => { regs with rv64PC := pc }

inductive IsaAccess where
  | none
  | load (addr : BitVec 64) (len : Nat)
  | store (addr : BitVec 64) (len : Nat) (value : BitVec 64)
deriving DecidableEq

/-- The access of an instruction and the registers after it, from the value loaded. -/
structure IsaPlan where
  access : IsaAccess
  finish : BitVec 64 → RevRegFile

def IsaPlan.done (regs : RevRegFile) : IsaPlan := { access := .none, finish := fun _ => regs }

def IsaPlan.run (plan : IsaPlan) (hart : Nat) (mem : RevMem) :
    Except MemFault (RevRegFile × RevMem) :=
  match plan.access with
  | .none => .ok (plan.finish 0, mem)
  | .load addr len =>
    match mem.readMem hart addr.toNat len (fun _ => 0) 0 with
    | .error fault => .error fault
    | .ok (reply, mem) => .ok (plan.finish (word64 reply.target), mem)
  | .store addr len value =>
    match mem.writeMem hart addr.toNat len (bytesOf value) with
    | .error fault => .error fault
    | .ok mem => .ok (plan.finish 0, mem)

section Values
variable {w : Nat}

def onWords (op : BitVec 32 → BitVec 32 → BitVec 32) (a b : BitVec w) : BitVec w :=
  (op (a.setWidth 32) (b.setWidth 32)).signExtend w

def divS {n : Nat} (a b : BitVec n) : BitVec n := if b = 0 then -1#n else a.sdiv b

def divU {n : Nat} (a b : BitVec n) : BitVec n := if b = 0 then -1#n else a / b

def remS {n : Nat} (a b : BitVec n) : BitVec n := if b = 0 then a else a.srem b

def remU {n : Nat} (a b : BitVec n) : BitVec n := if b = 0 then a else a % b

def highHalf (product : BitVec (w + w)) : BitVec w := product.extractLsb' w w

def rValue : ROp → BitVec w → BitVec w → BitVec w
  | .add, a, b => a + b
  | .sub, a, b => a - b
  | .sll, a, b => a <<< (b.toNat % w)
  | .slt, a, b => if a.slt b then 1 else 0
  | .sltu, a, b => if a < b then 1 else 0
  | .xor, a, b => a ^^^ b
  | .srl, a, b => a >>> (b.toNat % w)
  | .sra, a, b => a.sshiftRight (b.toNat % w)
  | .or, a, b => a ||| b
  | .and, a, b => a &&& b
  | .addw, a, b => onWords (· + ·) a b
  | .subw, a, b => onWords (· - ·) a b
  | .sllw, a, b => onWords (fun a b => a <<< (b.toNat % 32)) a b
  | .srlw, a, b => onWords (fun a b => a >>> (b.toNat % 32)) a b
  | .sraw, a, b => onWords (fun a b => a.sshiftRight (b.toNat % 32)) a b
  | .mul, a, b => a * b
  | .mulh, a, b => highHalf (a.signExtend (w + w) * b.signExtend (w + w))
  | .mulhsu, a, b => highHalf (a.signExtend (w + w) * b.setWidth (w + w))
  | .mulhu, a, b => highHalf (a.setWidth (w + w) * b.setWidth (w + w))
  | .div, a, b => divS a b
  | .divu, a, b => divU a b
  | .rem, a, b => remS a b
  | .remu, a, b => remU a b
  | .mulw, a, b => onWords (· * ·) a b
  | .divw, a, b => onWords divS a b
  | .divuw, a, b => onWords divU a b
  | .remw, a, b => onWords remS a b
  | .remuw, a, b => onWords remU a b

def shiftValue : ShiftOp → BitVec w → Nat → BitVec w
  | .slli, a, shamt => a <<< shamt
  | .srli, a, shamt => a >>> shamt
  | .srai, a, shamt => a.sshiftRight shamt

def shiftWValue : ShiftWOp → BitVec 32 → Nat → BitVec 32
  | .slliw, a, shamt => a <<< shamt
  | .srliw, a, shamt => a >>> shamt
  | .sraiw, a, shamt => a.sshiftRight shamt

def taken : BOp → BitVec w → BitVec w → Bool
  | .beq, a, b => a == b
  | .bne, a, b => a != b
  | .blt, a, b => a.slt b
  | .bge, a, b => !a.slt b
  | .bltu, a, b => decide (a < b)
  | .bgeu, a, b => decide (b ≤ a)

def storeLen : SOp → Nat
  | .sb => 1 | .sh => 2 | .sw => 4 | .sd => 8

end Values

/-- The base instructions and the loads and stores of F and D. -/
inductive Base where
  | int (insn : Insn)
  | flw (rd rs1 : BitVec 5) (imm : BitVec 12)
  | fsw (rs1 rs2 : BitVec 5) (imm : BitVec 12)
  | fld (rd rs1 : BitVec 5) (imm : BitVec 12)
  | fsd (rs1 rs2 : BitVec 5) (imm : BitVec 12)
deriving DecidableEq

section Step
variable {w : Nat} (mode : Xlen w) (size : Nat) (regs : RevRegFile)

def reg (index : BitVec 5) : BitVec w := mode.x regs (index.setWidth 8)

def next : BitVec w := mode.pc regs + BitVec.ofNat w size

/-- The value goes to rd and the PC to the next instruction. -/
def retire (rd : BitVec 5) (value : BitVec w) : RevRegFile :=
  mode.setPC (mode.setX regs (rd.setWidth 8) value) (next mode size regs)

def skip : RevRegFile := mode.setPC regs (next mode size regs)

def effective (rs1 : BitVec 5) (imm : BitVec 12) : BitVec 64 :=
  (reg mode regs rs1 + imm.signExtend w).setWidth 64

def loadInt (rd rs1 : BitVec 5) (imm : BitVec 12) (len : Nat) (value : BitVec 64 → BitVec w) :
    IsaPlan where
  access := .load (effective mode regs rs1 imm) len
  finish := fun loaded => retire mode size regs rd (value loaded)

def iStep (op : IOp) (rd rs1 : BitVec 5) (imm : BitVec 12) : IsaPlan :=
  let a := reg mode regs rs1
  let b := imm.signExtend w
  match op with
  | .jalr =>
    .done (mode.setPC (mode.setX regs (rd.setWidth 8) (next mode size regs)) ((a + b) &&& ~~~1#w))
  | .lb => loadInt mode size regs rd rs1 imm 1 fun v => (v.setWidth 8).signExtend w
  | .lh => loadInt mode size regs rd rs1 imm 2 fun v => (v.setWidth 16).signExtend w
  | .lw => loadInt mode size regs rd rs1 imm 4 fun v => (v.setWidth 32).signExtend w
  | .ld => loadInt mode size regs rd rs1 imm 8 fun v => v.setWidth w
  | .lbu => loadInt mode size regs rd rs1 imm 1 fun v => (v.setWidth 8).setWidth w
  | .lhu => loadInt mode size regs rd rs1 imm 2 fun v => (v.setWidth 16).setWidth w
  | .lwu => loadInt mode size regs rd rs1 imm 4 fun v => (v.setWidth 32).setWidth w
  | .addi => .done (retire mode size regs rd (a + b))
  | .slti => .done (retire mode size regs rd (if a.slt b then 1 else 0))
  | .sltiu => .done (retire mode size regs rd (if a < b then 1 else 0))
  | .xori => .done (retire mode size regs rd (a ^^^ b))
  | .ori => .done (retire mode size regs rd (a ||| b))
  | .andi => .done (retire mode size regs rd (a &&& b))
  | .addiw => .done (retire mode size regs rd (onWords (· + ·) a b))

def intStep : Insn → IsaPlan
  | .r op rd rs1 rs2 =>
    .done (retire mode size regs rd (rValue op (reg mode regs rs1) (reg mode regs rs2)))
  | .i op rd rs1 imm => iStep mode size regs op rd rs1 imm
  | .shift op rd rs1 shamt =>
    .done (retire mode size regs rd (shiftValue op (reg mode regs rs1) shamt.toNat))
  | .shiftW op rd rs1 shamt =>
    .done (retire mode size regs rd
      ((shiftWValue op ((reg mode regs rs1).setWidth 32) shamt.toNat).signExtend w))
  | .s op rs1 rs2 imm =>
    { access := .store (effective mode regs rs1 imm) (storeLen op)
        (((reg mode regs rs2).setWidth (8 * storeLen op)).setWidth 64)
      finish := fun _ => skip mode size regs }
  | .b op rs1 rs2 imm =>
    if taken op (reg mode regs rs1) (reg mode regs rs2) then
      .done (mode.setPC regs (mode.pc regs + (imm ++ 0#1).signExtend w))
    else .done (skip mode size regs)
  | .u .lui rd imm => .done (retire mode size regs rd ((imm ++ 0#12).signExtend w))
  | .u .auipc rd imm =>
    .done (retire mode size regs rd (mode.pc regs + (imm ++ 0#12).signExtend w))
  | .jal rd imm =>
    .done (mode.setPC (mode.setX regs (rd.setWidth 8) (next mode size regs))
      (mode.pc regs + (imm ++ 0#1).signExtend w))

def isaStep : Base → IsaPlan
  | .int insn => intStep mode size regs insn
  | .flw rd rs1 imm =>
    { access := .load (effective mode regs rs1 imm) 4
      finish := fun loaded => skip mode size (regs.setSPF (rd.setWidth 8) (loaded.setWidth 32)) }
  | .fsw rs1 rs2 imm =>
    { access := .store (effective mode regs rs1 imm) 4 ((regs.spf (rs2.setWidth 8)).setWidth 64)
      finish := fun _ => skip mode size regs }
  | .fld rd rs1 imm =>
    { access := .load (effective mode regs rs1 imm) 8
      finish := fun loaded => skip mode size (regs.setDPF (rd.setWidth 8) loaded) }
  | .fsd rs1 rs2 imm =>
    { access := .store (effective mode regs rs1 imm) 8 (regs.dpf (rs2.setWidth 8))
      finish := fun _ => skip mode size regs }

end Step

theorem branchStep_done {w : Nat} (mode : Xlen w) (size : Nat) (regs : RevRegFile) (op : BOp)
    (rs1 rs2 : BitVec 5) (imm : BitVec 12) :
    isaStep mode size regs (.int (.b op rs1 rs2 imm)) =
      .done (if taken op (reg mode regs rs1) (reg mode regs rs2) then
        mode.setPC regs (mode.pc regs + (imm ++ 0#1).signExtend w) else skip mode size regs) :=
  (apply_ite IsaPlan.done _ _ _).symm

/-- A table function's call, without the buffer it passes. -/
def eraseAccess : Access → IsaAccess
  | .none => .none
  | .read addr len _ _ => .load addr len
  | .write addr len data => .store addr len (word64 data)

/-- A table function does what the manual says: the same access, and on every memory the same
registers and memory afterwards, or the same fault. -/
structure Means (plan : Plan) (isa : IsaPlan) : Prop where
  access : eraseAccess plan.access = isa.access
  run : ∀ hart mem, plan.run hart mem = isa.run hart mem

-- Without an access the two sides agree exactly when they leave the same registers.
theorem means_done_iff (regs other : RevRegFile) :
    Means (Plan.done regs) (IsaPlan.done other) ↔ regs = other := by
  constructor
  · intro means
    have ran := means.run 0 (RevMem.new 0 0 0 0)
    simp only [Plan.run, IsaPlan.run, Plan.done, IsaPlan.done, Except.ok.injEq, Prod.mk.injEq] at ran
    exact ran.1
  · rintro rfl
    exact ⟨rfl, fun _ _ => rfl⟩

/-- What is used of a width: x0 takes no write, and register and PC writes can be read back. -/
structure Lawful {w : Nat} (mode : Xlen w) : Prop where
  setX_zero : ∀ regs value, mode.setX regs 0 value = regs
  setPC_inj : ∀ regs pc other, mode.setPC regs pc = mode.setPC regs other ↔ pc = other
  setX_same : ∀ regs index value pc, index ≠ 0 →
    (mode.setPC (mode.setX regs index value) pc = mode.setPC regs pc ↔ mode.x regs index = value)
  names : ∀ index other, other ≠ 0 →
    (∀ regs, (mode.x regs index).setWidth 32 = (mode.x regs other).setWidth 32) → index = other

theorem lawful64 : Lawful rv64 where
  setX_zero := fun _ _ => rfl
  setPC_inj := fun regs pc other => ⟨congrArg RevRegFile.rv64PC, fun same => by rw [same]⟩
  setX_same := by
    intro regs index value pc nonzero
    constructor
    · intro same
      have read := congrArg (fun after => after.x64 index) same
      exact read.symm.trans ((regs.x64_setX64 index value).trans (if_neg nonzero))
    · rintro rfl
      simp only [rv64, RevRegFile.setX64, RevRegFile.x64, if_neg nonzero, Function.update_eq_self]
  names := by
    intro index other nonzero same
    -- a register file in which only `other` holds 1
    have marked := same { (default : RevRegFile) with rv64 := fun i => if i = other then 1 else 0 }
    by_contra apart
    simp only [rv64, RevRegFile.x64, if_neg nonzero, if_neg apart, if_true, ite_self] at marked
    exact absurd marked (by decide)

theorem lawful32 : Lawful rv32 where
  setX_zero := fun _ _ => rfl
  setPC_inj := fun regs pc other => ⟨congrArg RevRegFile.rv32PC, fun same => by rw [same]⟩
  setX_same := by
    intro regs index value pc nonzero
    constructor
    · intro same
      have read := congrArg (fun after => after.x32 index) same
      exact read.symm.trans ((regs.x32_setX32 index value).trans (if_neg nonzero))
    · rintro rfl
      simp only [rv32, RevRegFile.setX32, RevRegFile.x32, if_neg nonzero, Function.update_eq_self]
  names := by
    intro index other nonzero same
    -- a register file in which only `other` holds 1
    have marked := same { (default : RevRegFile) with rv32 := fun i => if i = other then 1 else 0 }
    by_contra apart
    simp only [rv32, RevRegFile.x32, if_neg nonzero, if_neg apart, if_true, ite_self] at marked
    exact absurd marked (by decide)

section Retire
variable (regs : RevRegFile) (inst : InstTable.RevInst) {n : Nat} (size : inst.instSize = n)
include size

theorem step64_retire (rd : BitVec 5) (value : BitVec 64) :
    (regs.setX64 (rd.setWidth 8) value).step64 inst = retire rv64 n regs rd value := by
  simp [RevRegFile.step64, retire, rv64, next, size]

theorem step64_skip : regs.step64 inst = skip rv64 n regs := by
  simp [RevRegFile.step64, skip, rv64, next, size]

theorem step32_retire (rd : BitVec 5) (value : BitVec 32) :
    (regs.setX32 (rd.setWidth 8) value).step32 inst = retire rv32 n regs rd value := by
  simp [RevRegFile.step32, retire, rv32, next, size]

theorem step32_skip : regs.step32 inst = skip rv32 n regs := by
  simp [RevRegFile.step32, skip, rv32, next, size]

omit inst size in
-- Two results in a register other than x0 can be told apart.
theorem retire_inj_of {w : Nat} (mode : Xlen w)
    (read : ∀ index value pc, index ≠ 0 →
      mode.x (mode.setPC (mode.setX regs index value) pc) index = value)
    (rd : BitVec 5) (nonzero : rd ≠ 0) (value other : BitVec w) :
    retire mode n regs rd value = retire mode n regs rd other ↔ value = other := by
  have index : rd.setWidth 8 ≠ 0 := by
    intro zero
    exact nonzero (by bv_omega)
  constructor
  · intro same
    have left := read (rd.setWidth 8) value (next mode n regs) index
    have right := read (rd.setWidth 8) other (next mode n regs) index
    exact left.symm.trans ((congrArg (fun after => mode.x after (rd.setWidth 8)) same).trans right)
  · rintro rfl
    rfl

omit inst size in
theorem retire_inj (rd : BitVec 5) (nonzero : rd ≠ 0) (value other : BitVec 64) :
    retire rv64 n regs rd value = retire rv64 n regs rd other ↔ value = other :=
  retire_inj_of regs rv64
    (fun index value _ apart => (regs.x64_setX64 index value).trans (if_neg apart)) rd nonzero value
    other

omit inst size in
theorem retire_iff (rd : BitVec 5) (value other : BitVec 64) :
    retire rv64 n regs rd value = retire rv64 n regs rd other ↔ rd = 0 ∨ value = other := by
  by_cases zero : rd = 0
  · subst zero
    exact iff_of_true rfl (.inl rfl)
  · rw [or_iff_right zero]
    exact retire_inj regs rd zero value other

omit inst size in
theorem retire_iff_narrow (rd : BitVec 5) (value other : BitVec 32) :
    retire rv32 n regs rd value = retire rv32 n regs rd other ↔ rd = 0 ∨ value = other := by
  by_cases zero : rd = 0
  · subst zero
    exact iff_of_true rfl (.inl rfl)
  · rw [or_iff_right zero]
    exact retire_inj_of regs rv32
      (fun index value _ apart => (regs.x32_setX32 index value).trans (if_neg apart)) rd zero value
      other

end Retire
end RevCPU.Isa
