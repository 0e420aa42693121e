import RevCPU.Insns.RV64I
import RevCPU.MemCtrl
/-!
The other integer loads of RV32I.h and RV64I.h. Each but lwu passes the destination register itself
as the target of the read and then masks and extends what it finds there.
-/
namespace RevCPU.Insns
open Feature InstTable Mem RegFile

namespace RV32I
variable (feature : RevFeature) (regs : RevRegFile) (inst : RevInst)

def lb : Plan :=
  if isRV32 feature then
    { access := .read (address feature regs inst inst.imm) 1 (bytesOf (regs.x32 inst.rd)) F_SEXT32
      finish := fun target =>
        let regs := regs.setX32 inst.rd (word32 target)
        let regs := regs.setX32 inst.rd (regs.x32 inst.rd &&& 0xFF)
        let regs := regs.setX32 inst.rd (sextImm (regs.x32 inst.rd) 8)
        regs.step32 inst
      randCost := true }
  else
    { access := .read (address feature regs inst inst.imm) 1 (bytesOf (regs.x64 inst.rd)) F_SEXT64
      finish := fun target =>
        let regs := regs.setX64 inst.rd (word64 target)
        let regs := regs.setX64 inst.rd (regs.x64 inst.rd &&& 0xFF)
        let regs := regs.setX64 inst.rd (sext (regs.x64 inst.rd) 8)
        regs.step64 inst
      randCost := true }

def lh : Plan :=
  if isRV32 feature then
    { access := .read (address feature regs inst inst.imm) 2 (bytesOf (regs.x32 inst.rd)) F_SEXT32
      finish := fun target =>
        let regs := regs.setX32 inst.rd (word32 target)
        let regs := regs.setX32 inst.rd (regs.x32 inst.rd &&& 0xFFFF)
        let regs := regs.setX32 inst.rd (sextImm (regs.x32 inst.rd) 16)
        regs.step32 inst
      randCost := true }
  else
    { access := .read (address feature regs inst inst.imm) 2 (bytesOf (regs.x64 inst.rd)) F_SEXT64
      finish := fun target =>
        let regs := regs.setX64 inst.rd (word64 target)
        let regs := regs.setX64 inst.rd (regs.x64 inst.rd &&& 0xFFFF)
        let regs := regs.setX64 inst.rd (sext (regs.x64 inst.rd) 16)
        regs.step64 inst
      randCost := true }

def lbu : Plan :=
  if isRV32 feature then
    { access := .read (address feature regs inst inst.imm) 1 (bytesOf (regs.x32 inst.rd)) 0
      finish := fun target =>
        let regs := regs.setX32 inst.rd (word32 target)
        let regs := regs.setX32 inst.rd (regs.x32 inst.rd &&& 0xFF)
        regs.step32 inst
      randCost := true }
  else
    { access := .read (address feature regs inst inst.imm) 1 (bytesOf (regs.x64 inst.rd)) 0
      finish := fun target =>
        let regs := regs.setX64 inst.rd (word64 target)
        let regs := regs.setX64 inst.rd (regs.x64 inst.rd &&& 0xFF)
        regs.step64 inst
      randCost := true }

-- The 32-bit arm masks the register of the other file.
def lhu : Plan :=
  if isRV32 feature then
    { access := .read (address feature regs inst inst.imm) 2 (bytesOf (regs.x32 inst.rd)) 0
      finish := fun target =>
        let regs := regs.setX32 inst.rd (word32 target)
        let regs := regs.setX64 inst.rd (regs.x64 inst.rd &&& 0xFFFF)
        regs.step32 inst
      randCost := true }
  else
    { access := .read (address feature regs inst inst.imm) 2 (bytesOf (regs.x64 inst.rd)) 0
      finish := fun target =>
        let regs := regs.setX64 inst.rd (word64 target)
        let regs := regs.setX64 inst.rd (regs.x64 inst.rd &&& 0xFFFF)
        regs.step64 inst
      randCost := true }

end RV32I

/-- The target is the local variable `val`, which is 0 before the read. -/
def RV64I.lwu (regs : RevRegFile) (inst : RevInst) : Plan where
  access := .read (regs.x64 inst.rs1 + (tdU32 inst.imm 12).signExtend 64) 4 (bytesOf (0 : BitVec 32))
    MemCtrl.F_ZEXT64
  finish := fun target =>
    let regs := regs.setX64 inst.rd 0
    let regs := regs.setX64 inst.rd (regs.x64 inst.rd ||| (word32 target).setWidth 64)
    regs.step64 inst
  randCost := true

end RevCPU.Insns
