import RevCPU.Insns.RV64I
/-!
The loads and stores of include/insns/RV32F.h and RV32D.h with their compressed trampolines, and the
table from function pointers to the functions modelled so far. The conversion of a double to a
float, which a single store performs where the D registers hold singles, is a parameter.
-/
namespace RevCPU.Insns
open Feature InstTable Mem RegFile

namespace RV32F
variable (narrow : BitVec 64 → BitVec 32) (feature : RevFeature) (regs : RevRegFile) (inst : RevInst)

def flw : Plan :=
  if isRV32D feature then
    { access := .read (RV32I.address feature regs inst inst.imm) 4 (bytesOf (regs.dpf inst.rd)) 0
      finish := fun target => (regs.setDPF inst.rd (word64 target)).step feature inst
      randCost := true }
  else
    { access := .read (RV32I.address feature regs inst inst.imm) 4 (bytesOf (regs.spf inst.rd)) 0
      finish := fun target => (regs.setSPF inst.rd (word32 target)).step feature inst
      randCost := true }

def fsw : Plan where
  access := .write (RV32I.address feature regs inst inst.imm) 4
    (bytesOf (if isRV32D feature then narrow (regs.dpf inst.rs2) else regs.spf inst.rs2))
  finish := fun _ => regs.step feature inst

def cflwsp : Plan := flw feature regs { inst with rs1 := 2 }

def cfswsp : Plan := fsw narrow feature regs { inst with rs1 := 2 }

def cflw : Plan := flw feature regs { inst with rd := cRegMap inst.rd, rs1 := cRegMap inst.rs1 }

def cfsw : Plan :=
  fsw narrow feature regs { inst with rs2 := cRegMap inst.rd, rs1 := cRegMap inst.rs1 }

end RV32F

namespace RV32D
variable (feature : RevFeature) (regs : RevRegFile) (inst : RevInst)

def fld : Plan where
  access := .read (RV32I.address feature regs inst inst.imm) 8 (bytesOf (regs.dpf inst.rd)) 0
  finish := fun target => (regs.setDPF inst.rd (word64 target)).step feature inst

-- The immediate is added as it stands, without sign extension.
def fsd : Plan where
  access := .write
    (if isRV32 feature then (regs.x32 inst.rs1 + inst.imm).setWidth 64
      else regs.x64 inst.rs1 + inst.imm.setWidth 64) 8 (bytesOf (regs.dpf inst.rs2))
  finish := fun _ => regs.step feature inst

def cfldsp : Plan := fld feature regs { inst with rs1 := 2 }

def cfsdsp : Plan := fsd feature regs { inst with rs1 := 2 }

def cfld : Plan := fld feature regs { inst with rd := cRegMap inst.rd, rs1 := cRegMap inst.rs1 }

def cfsd : Plan := fsd feature regs { inst with rs2 := cRegMap inst.rd, rs1 := cRegMap inst.rs1 }

end RV32D

section Table
variable (narrow : BitVec 64 → BitVec 32) (feature : RevFeature) (regs : RevRegFile) (inst : RevInst)

def execRV32I : RV32IFunc → Option Plan
  | .lui => some (RV32I.lui feature regs inst)
  | .jal => some (RV32I.jal feature regs inst)
  | .jalr => some (RV32I.jalr feature regs inst)
  | .beq => some (RV32I.beq feature regs inst)
  | .bne => some (RV32I.bne feature regs inst)
  | .lw => some (RV32I.lw feature regs inst)
  | .sw => some (RV32I.sw feature regs inst)
  | .addi => some (RV32I.addi feature regs inst)
  | .andi => some (RV32I.andi feature regs inst)
  | .slli => some (RV32I.slli feature regs inst)
  | .srli => some (RV32I.srli feature regs inst)
  | .srai => some (RV32I.srai feature regs inst)
  | .add => some (RV32I.add feature regs inst)
  | .sub => some (RV32I.sub feature regs inst)
  | .f_xor => some (RV32I.f_xor feature regs inst)
  | .f_or => some (RV32I.f_or feature regs inst)
  | .f_and => some (RV32I.f_and feature regs inst)
  | .ebreak => some (RV32I.ebreak feature regs inst)
  | .caddi4spn => some (RV32I.caddi4spn feature regs inst)
  | .clwsp => some (RV32I.clwsp feature regs inst)
  | .cswsp => some (RV32I.cswsp feature regs inst)
  | .clw => some (RV32I.clw feature regs inst)
  | .csw => some (RV32I.csw feature regs inst)
  | .cj => some (RV32I.cj feature regs inst)
  | .cjal => some (RV32I.cjal feature regs inst)
  | .CRFUNC_1000 => some (RV32I.crFunc1000 feature regs inst)
  | .CRFUNC_1001 => some (RV32I.crFunc1001 feature regs inst)
  | .cbeqz => some (RV32I.cbeqz feature regs inst)
  | .cbnez => some (RV32I.cbnez feature regs inst)
  | .cli => some (RV32I.cli feature regs inst)
  | .CIFUNC => some (RV32I.ciFunc feature regs inst)
  | .caddi => some (RV32I.caddi feature regs inst)
  | .cslli => some (RV32I.cslli feature regs inst)
  | .csrli => some (RV32I.csrli feature regs inst)
  | .csrai => some (RV32I.csrai feature regs inst)
  | .candi => some (RV32I.candi feature regs inst)
  | .cand => some (RV32I.cand feature regs inst)
  | .cor => some (RV32I.cor feature regs inst)
  | .cxor => some (RV32I.cxor feature regs inst)
  | .csub => some (RV32I.csub feature regs inst)
  | _ => none

def execRV64I : RV64IFunc → Option Plan
  | .ld => some (RV64I.ld regs inst)
  | .sd => some (RV64I.sd regs inst)
  | .addiw => some (RV64I.addiw regs inst)
  | .addw => some (RV64I.addw regs inst)
  | .subw => some (RV64I.subw regs inst)
  | .cldsp => some (RV64I.cldsp regs inst)
  | .csdsp => some (RV64I.csdsp regs inst)
  | .cld => some (RV64I.cld regs inst)
  | .csd => some (RV64I.csd regs inst)
  | .caddiw => some (RV64I.caddiw regs inst)
  | .caddw => some (RV64I.caddw regs inst)
  | .csubw => some (RV64I.csubw regs inst)
  | _ => none

def execRV32F : RV32FFunc → Option Plan
  | .flw => some (RV32F.flw feature regs inst)
  | .fsw => some (RV32F.fsw narrow feature regs inst)
  | .cflwsp => some (RV32F.cflwsp feature regs inst)
  | .cfswsp => some (RV32F.cfswsp narrow feature regs inst)
  | .cflw => some (RV32F.cflw feature regs inst)
  | .cfsw => some (RV32F.cfsw narrow feature regs inst)
  | _ => none

def execRV32D : RV32DFunc → Option Plan
  | .fld => some (RV32D.fld feature regs inst)
  | .fsd => some (RV32D.fsd feature regs inst)
  | .cfldsp => some (RV32D.cfldsp feature regs inst)
  | .cfsdsp => some (RV32D.cfsdsp feature regs inst)
  | .cfld => some (RV32D.cfld feature regs inst)
  | .cfsd => some (RV32D.cfsd feature regs inst)
  | _ => none

/-- The plan of a row's function, absent for the functions this development does not model. -/
def execFunc : ImplFunc → Option Plan
  | .rv32i func => execRV32I feature regs inst func
  | .rv64i func => execRV64I regs inst func
  | .rv32f func => execRV32F narrow feature regs inst func
  | .rv32d func => execRV32D feature regs inst func
  | _ => none

end Table
end RevCPU.Insns
