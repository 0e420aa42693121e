import RevCPU.Insns.RV32M
/-! The functions of include/insns/RV64M.h, which convert their operands from the low words. -/
namespace RevCPU.Insns.RV64M
open Feature InstTable Mem RegFile RV32M
variable (regs : RevRegFile) (inst : RevInst)

def mulw : Plan :=
  let regs := regs.setX64 inst.rd
    (dtU64 (tdU64 (regs.x64 inst.rs1) 32 * tdU64 (regs.x64 inst.rs2) 32) 32 &&& 0xFFFFFFFF)
  let regs := regs.setX64 inst.rd (sext (regs.x64 inst.rd) 32)
  .done (regs.step64 inst)

-- `INT32_MIN` is compared with a 64-bit value, `-1` with its low word.
def divw : Option Plan :=
  let lhs := tdU64 (regs.x64 inst.rs1 &&& 0xFFFFFFFF) 32
  let rhs := tdU64 (regs.x64 inst.rs2 &&& 0xFFFFFFFF) 32
  if rhs = 0 then
    some <| .done <| (regs.setX64 inst.rd (BitVec.allOnes 64)).step64 inst
  else if lhs = (BitVec.intMin 32).signExtend 64 ∧ rhs.setWidth 32 = -1#32 then
    some <| .done <| (regs.setX64 inst.rd (dtU64 (lhs &&& 0xFFFFFFFF) 32)).step64 inst
  else
    (hostDiv lhs rhs).map fun quotient =>
      .done <| (regs.setX64 inst.rd (dtU64 (quotient &&& 0xFFFFFFFF) 32)).step64 inst

def divuw : Option Plan :=
  let lhs := regs.x64 inst.rs1 &&& 0xFFFFFFFF
  let rhs := regs.x64 inst.rs2 &&& 0xFFFFFFFF
  if rhs = 0 then
    let regs := regs.setX64 inst.rd 0xFFFFFFFF
    let regs := regs.setX64 inst.rd (sext (regs.x64 inst.rd) 32)
    some (.done (regs.step64 inst))
  else
    (hostDivU lhs rhs).map fun quotient =>
      .done <| (regs.setX64 inst.rd (sext (quotient &&& 0xFFFFFFFF) 32)).step64 inst

-- For a zero divisor the whole register is copied.
def remw : Option Plan :=
  let lhs := tdU64 (regs.x64 inst.rs1 &&& 0xFFFFFFFF) 32
  let rhs := tdU64 (regs.x64 inst.rs2 &&& 0xFFFFFFFF) 32
  if rhs = 0 then
    some <| .done <| (regs.setX64 inst.rd (regs.x64 inst.rs1)).step64 inst
  else if lhs = (BitVec.intMin 32).signExtend 64 ∧ rhs.setWidth 32 = -1#32 then
    some <| .done <| (regs.setX64 inst.rd 0).step64 inst
  else
    (hostRem lhs rhs).map fun remainder =>
      .done <| (regs.setX64 inst.rd (dtU64 (remainder &&& 0xFFFFFFFF) 32)).step64 inst

-- Here also for a divisor whose register has bit 63 set.
def remuw : Option Plan :=
  let lhs := regs.x64 inst.rs1 &&& 0xFFFFFFFF
  let rhs := regs.x64 inst.rs2 &&& 0xFFFFFFFF
  let signRhs := (regs.x64 inst.rs2 &&& 0x8000000000000000) >>> 63
  if rhs = 0 ∨ 0 < signRhs then
    some <| .done <| (regs.setX64 inst.rd (regs.x64 inst.rs1)).step64 inst
  else
    (hostRemU lhs rhs).map fun remainder =>
      .done <| (regs.setX64 inst.rd (sext (remainder &&& 0xFFFFFFFF) 32)).step64 inst

end RevCPU.Insns.RV64M
