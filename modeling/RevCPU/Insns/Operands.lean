import RevCPU.Insns.Float
/-!
The registers a table function uses. A compressed function rewrites the fields of the instruction
and calls a full-width one; a full-width function finds each register it uses in a field, in one of
the two files. Where a load or a partial store lands in the old contents of its own destination,
the destination does not count as read.
-/
namespace RevCPU.Insns.Operands
open Feature InstTable RegFile

/-- A register: `float` tells the floating file from the integer file. -/
@[ext]
structure Reg where
  float : Bool
  index : BitVec 8
deriving DecidableEq, Repr

/-- The file of each field a full-width function uses, `none` for a field it does not use. -/
structure Fields where
  rd : Option Bool := none
  rs1 : Option Bool := none
  rs2 : Option Bool := none
  rs3 : Option Bool := none
deriving DecidableEq, Repr

namespace Fields

def unused : Fields := {}

-- Named after the operands in assembly order: `x` for the integer file, `f` for the other.
def x : Fields := { rd := some false }

def xx : Fields := { rd := some false, rs1 := some false }

def xxx : Fields := { rd := some false, rs1 := some false, rs2 := some false }

def sources : Fields := { rs1 := some false, rs2 := some false }

def ff : Fields := { rd := some true, rs1 := some true }

def fff : Fields := { rd := some true, rs1 := some true, rs2 := some true }

def ffff : Fields := { rd := some true, rs1 := some true, rs2 := some true, rs3 := some true }

def xf : Fields := { rd := some false, rs1 := some true }

def xff : Fields := { rd := some false, rs1 := some true, rs2 := some true }

def fx : Fields := { rd := some true, rs1 := some false }

def floatStore : Fields := { rs1 := some false, rs2 := some true }

end Fields

section Functions
open Fields

def rv32iFields : RV32IFunc → Fields
  | .lui | .auipc | .jal => x
  | .jalr | .lb | .lh | .lw | .lbu | .lhu => xx
  | .addi | .slti | .sltiu | .xori | .ori | .andi | .slli | .srli | .srai => xx
  | .beq | .bne | .blt | .bge | .bltu | .bgeu => sources
  | .sb | .sh | .sw => sources
  | .add | .sub | .sll | .slt | .sltu | .f_xor | .srl | .sra | .f_or | .f_and => xxx
  | _ => unused

def rv64iFields : RV64IFunc → Fields
  | .lwu | .ld | .addiw | .slliw | .srliw | .sraiw => xx
  | .sd => sources
  | .addw | .subw | .sllw | .srlw | .sraw => xxx
  | _ => unused

def rv32aFields : RV32AFunc → Fields
  | .lrw => xx
  | _ => xxx

def rv64aFields : RV64AFunc → Fields
  | .lrd => xx
  | _ => xxx

def rv32fFields : RV32FFunc → Fields
  | .flw => fx
  | .fsw => floatStore
  | .fmadds | .fmsubs | .fnmsubs | .fnmadds => ffff
  | .fadds | .fsubs | .fmuls | .fdivs | .fmins | .fmaxs | .fsgnjs | .fsgnjns | .fsgnjxs => fff
  | .fsqrts => ff
  | .fcvtws | .fcvtwus | .fmvxw | .fclasss => xf
  | .feqs | .flts | .fles => xff
  | .fcvtsw | .fcvtswu | .fmvwx => fx
  | _ => unused

def rv64fFields : RV64FFunc → Fields
  | .fcvtls | .fcvtlus => xf
  | .fcvtsl | .fcvtslu => fx

-- The comparisons read rs1 twice and never rs2; fclassd only advances the PC.
def rv32dFields : RV32DFunc → Fields
  | .fld => fx
  | .fsd => floatStore
  | .fmaddd | .fmsubd | .fnmsubd | .fnmaddd => ffff
  | .faddd | .fsubd | .fmuld | .fdivd | .fmind | .fmaxd | .fsgnjd | .fsgnjnd | .fsgnjxd => fff
  | .fsqrtd | .fcvtsd => ff
  | .feqd | .fltd | .fled | .fcvtwd | .fcvtwud => xf
  | .fcvtdw | .fcvtdwu => fx
  | _ => unused

-- fmvdx has the body of fmvxd.
def rv64dFields : RV64DFunc → Fields
  | .fcvtld | .fcvtlud | .fcvtwd | .fmvxd | .fmvdx => xf
  | .fcvtdl | .fcvtdlu => fx

def fields : ImplFunc → Fields
  | .null => unused
  | .rv32i func => rv32iFields func
  | .rv64i func => rv64iFields func
  | .rv32m _ | .rv64m _ => xxx
  | .rv32a func => rv32aFields func
  | .rv64a func => rv64aFields func
  | .rv32f func => rv32fFields func
  | .rv64f func => rv64fFields func
  | .rv32d func => rv32dFields func
  | .rv64d func => rv64dFields func
  | .rv64p _ => xx

end Functions

section Trampolines
variable (inst : RevInst)

-- The field rewrites that several trampolines share.
def onStack : RevInst := { inst with rs1 := 2 }

def loadFields : RevInst := { inst with rd := cRegMap inst.rd, rs1 := cRegMap inst.rs1 }

-- The stores but c.sd take rs2 from rd, which the CS format does not set.
def storeFields : RevInst := { inst with rs2 := cRegMap inst.rd, rs1 := cRegMap inst.rs1 }

def shiftFields : RevInst := { inst with rd := cRegMap inst.rd, rs1 := cRegMap inst.rd }

def arithFields : RevInst :=
  { inst with rd := cRegMap inst.rd, rs1 := cRegMap inst.rd, rs2 := cRegMap inst.rs2 }

def branchFields : RevInst := { inst with rs2 := 0, rs1 := cRegMap inst.rs1 }

/-- The full-width function that runs in the end and the register fields it is given. Without an
immediate c.addi4spn only advances the PC, as ebreak does. -/
def expandRV32I : RV32IFunc → RV32IFunc × RevInst
  | .caddi4spn =>
    if inst.imm = 0 then (.ebreak, inst)
    else (.addi, { inst with rs1 := 2, rd := cRegMap inst.rd })
  | .clwsp => (.lw, onStack inst)
  | .cswsp => (.sw, onStack inst)
  | .clw => (.lw, loadFields inst)
  | .csw => (.sw, storeFields inst)
  | .cj => (.jal, { inst with rd := 0 })
  | .cjal => (.jal, { inst with rd := 1 })
  | .CRFUNC_1000 =>
    if inst.rs2 ≠ 0 then (.add, { inst with rs1 := 0 }) else (.jalr, { inst with rs2 := 0 })
  | .CRFUNC_1001 =>
    if inst.rs1 = 0 ∧ inst.rd = 0 then (.ebreak, inst)
    else if inst.rs2 = 0 ∧ inst.rd ≠ 0 then (.jalr, { inst with rd := 1 })
    else (.add, inst)
  | .cbeqz => (.beq, branchFields inst)
  | .cbnez => (.bne, branchFields inst)
  | .cli => (.addi, { inst with rs1 := 0 })
  | .CIFUNC => if inst.rd = 2 then (.addi, inst) else (.lui, inst)
  | .caddi => (.addi, { inst with rs1 := inst.rd })
  | .cslli => (.slli, { inst with rs1 := inst.rd })
  | .csrli => (.srli, shiftFields inst)
  | .csrai => (.srai, shiftFields inst)
  | .candi => (.andi, shiftFields inst)
  | .cand => (.f_and, arithFields inst)
  | .cor => (.f_or, arithFields inst)
  | .cxor => (.f_xor, arithFields inst)
  | .csub => (.sub, arithFields inst)
  | func => (func, inst)

def expandRV64I : RV64IFunc → RV64IFunc × RevInst
  | .cldsp => (.ld, onStack inst)
  | .csdsp => (.sd, onStack inst)
  | .cld => (.ld, loadFields inst)
  | .csd => (.sd, { inst with rs2 := cRegMap inst.rs2, rs1 := cRegMap inst.rs1 })
  | .caddiw => (.addiw, { inst with rs1 := inst.rd })
  | .caddw => (.addw, arithFields inst)
  | .csubw => (.subw, arithFields inst)
  | func => (func, inst)

def expandRV32F : RV32FFunc → RV32FFunc × RevInst
  | .cflwsp => (.flw, onStack inst)
  | .cfswsp => (.fsw, onStack inst)
  | .cflw => (.flw, loadFields inst)
  | .cfsw => (.fsw, storeFields inst)
  | func => (func, inst)

def expandRV32D : RV32DFunc → RV32DFunc × RevInst
  | .cfldsp => (.fld, onStack inst)
  | .cfsdsp => (.fsd, onStack inst)
  | .cfld => (.fld, loadFields inst)
  | .cfsd => (.fsd, storeFields inst)
  | func => (func, inst)

def expand : ImplFunc → ImplFunc × RevInst
  | .rv32i func => (.rv32i (expandRV32I inst func).1, (expandRV32I inst func).2)
  | .rv64i func => (.rv64i (expandRV64I inst func).1, (expandRV64I inst func).2)
  | .rv32f func => (.rv32f (expandRV32F inst func).1, (expandRV32F inst func).2)
  | .rv32d func => (.rv32d (expandRV32D inst func).1, (expandRV32D inst func).2)
  | func => (func, inst)

def named (file : Option Bool) (index : BitVec 8) : List Reg :=
  file.toList.map fun float => { float := float, index := index }

def dests (func : ImplFunc) : List Reg :=
  let (base, inst) := expand inst func
  named (fields base).rd inst.rd

def sources (func : ImplFunc) : List Reg :=
  let (base, inst) := expand inst func
  named (fields base).rs1 inst.rs1 ++ named (fields base).rs2 inst.rs2 ++
    named (fields base).rs3 inst.rs3

theorem mem_named (file : Option Bool) (index : BitVec 8) (reg : Reg) :
    reg ∈ named file index ↔ file = some reg.float ∧ index = reg.index := by
  cases file with
  | none => simp [named]
  | some float =>
    obtain ⟨other, place⟩ := reg
    simp [named, eq_comm]

theorem mem_dests (func : ImplFunc) (reg : Reg) : reg ∈ dests inst func ↔
    (fields (expand inst func).1).rd = some reg.float ∧ (expand inst func).2.rd = reg.index :=
  mem_named _ _ reg

theorem mem_sources (func : ImplFunc) (reg : Reg) : reg ∈ sources inst func ↔
    ((fields (expand inst func).1).rs1 = some reg.float ∧ (expand inst func).2.rs1 = reg.index) ∨
    ((fields (expand inst func).1).rs2 = some reg.float ∧ (expand inst func).2.rs2 = reg.index) ∨
    ((fields (expand inst func).1).rs3 = some reg.float ∧ (expand inst func).2.rs3 = reg.index) := by
  rw [← mem_named, ← mem_named, ← mem_named, ← or_assoc]
  exact List.mem_append.trans (or_congr_left List.mem_append)

end Trampolines
section Plans
variable (narrow : BitVec 64 → BitVec 32) (feature : RevFeature) (regs : RevRegFile) (inst : RevInst)

end Plans

end RevCPU.Insns.Operands
