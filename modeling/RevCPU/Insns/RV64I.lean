import RevCPU.Insns.RV32I
/-! The functions of include/insns/RV64I.h, without lwu, which is with the narrow loads. -/
namespace RevCPU.Insns.RV64I
open Feature InstTable Mem RegFile
variable (feature : RevFeature) (regs : RevRegFile) (inst : RevInst)

def ld : Plan where
  access := .read (regs.x64 inst.rs1 + (tdU32 inst.imm 12).signExtend 64) 8
    (bytesOf (regs.x64 inst.rd)) 0
  finish := fun target => (regs.setX64 inst.rd (word64 target)).step64 inst
  randCost := true

def sd : Plan where
  access := .write (regs.x64 inst.rs1 + tdU64 (inst.imm.setWidth 64) 12) 8
    (bytesOf (regs.x64 inst.rs2))
  finish := fun _ => regs.step64 inst

def addiw : Plan :=
  let regs := regs.setX64 inst.rd
    ((dtU32 (tdU32 ((regs.x64 inst.rs1).setWidth 32) 32 + tdU32 inst.imm 12) 32).setWidth 64)
  let regs := regs.setX64 inst.rd (regs.x64 inst.rd &&& 0xFFFFFFFF)
  let regs := regs.setX64 inst.rd (sext (regs.x64 inst.rd) 32)
  .done (regs.step64 inst)

def slliw : Plan :=
  let regs := regs.setX64 inst.rd
    (sext ((regs.x64 inst.rs1 <<< (inst.imm &&& 0b0111111)) &&& 0xFFFFFFFF) 32)
  let regs := regs.setX64 inst.rd (sext (regs.x64 inst.rd) 64)
  .done (regs.step64 inst)

-- For a zero amount rd is cleared before rs1 is read.
def srliw : Plan :=
  if inst.imm &&& 0b111111 = 0 then
    let regs := regs.setX64 inst.rd 0
    let regs := regs.setX64 inst.rd
      (regs.x64 inst.rd ||| (regs.x64 inst.rs1 &&& 0xFFFFFFFF))
    let regs := regs.setX64 inst.rd (sext (regs.x64 inst.rd) 32)
    .done (regs.step64 inst)
  else
    let srcTrunc : BitVec 32 := (regs.x64 inst.rs1 &&& 0xFFFFFFFF).setWidth 32
    let dest := srcTrunc >>> (inst.imm &&& 0b111111)
    let regs := regs.setX64 inst.rd 0
    let regs := regs.setX64 inst.rd (regs.x64 inst.rd ||| dest.setWidth 64)
    .done (regs.step64 inst)

/-- The last two statements of sraiw and sraw: `shifted` goes to rd, and rs1, read again, says what
its upper half becomes. `1<<31` is an `int`, so `tmp` keeps the whole upper half of rs1. -/
def signPatched (shifted : BitVec 32) : Plan :=
  let tmp := regs.x64 inst.rs1 &&& 0xFFFFFFFF80000000
  let regs := regs.setX64 inst.rd (sext (shifted.signExtend 64 ||| tmp) 32)
  let regs := regs.setX64 inst.rd (sext (regs.x64 inst.rd) 32)
  let regs := regs.setX64 inst.rd
    (if regs.x64 inst.rs1 &&& 0x80000000 ≠ 0 then
      (regs.x64 inst.rd &&& 0xFFFFFFFF) ||| 0xFFFFFFFF00000000
    else regs.x64 inst.rd &&& 0xFFFFFFFF)
  .done (regs.step64 inst)

def sraiw : Plan :=
  let srcTrunc : BitVec 32 := (regs.x64 inst.rs1 &&& 0xFFFFFFFF).setWidth 32
  signPatched regs inst (srcTrunc.sshiftRight (inst.imm &&& 0b1111111).toNat)

def addw : Plan :=
  let regs := regs.setX64 inst.rd
    ((dtU32 (tdU32 ((regs.x64 inst.rs1).setWidth 32) 32 +
      tdU32 ((regs.x64 inst.rs2).setWidth 32) 32) 32).setWidth 64)
  let regs := regs.setX64 inst.rd (sext (regs.x64 inst.rd) 32)
  .done (regs.step64 inst)

def subw : Plan :=
  let regs := regs.setX64 inst.rd
    ((dtU32 (tdU32 ((regs.x64 inst.rs1).setWidth 32) 32 -
      tdU32 ((regs.x64 inst.rs2).setWidth 32) 32) 32).setWidth 64)
  let regs := regs.setX64 inst.rd (sext (regs.x64 inst.rd) 32)
  .done (regs.step64 inst)

def sllw : Plan :=
  let regs := regs.setX64 inst.rd
    (sext ((regs.x64 inst.rs1 <<< (regs.x64 inst.rs2 &&& 0b11111)) &&& 0xFFFFFFFF) 64)
  let regs := regs.setX64 inst.rd (sext (regs.x64 inst.rd) 32)
  .done (regs.step64 inst)

def srlw : Plan :=
  let srcTrunc := regs.x64 inst.rs1 &&& 0xFFFFFFFF
  let regs := regs.setX64 inst.rd (srcTrunc >>> (regs.x64 inst.rs2 &&& 0b11111))
  let regs := regs.setX64 inst.rd (sext (regs.x64 inst.rd) 32)
  .done (regs.step64 inst)

/-- `overshift x n` is `x >> n` on an `int32_t` for an amount of 32 or more, to which C++ gives no
value; the function keeps six bits of the amount. -/
def sraw (overshift : BitVec 32 → Nat → BitVec 32) : Plan :=
  let srcTrunc : BitVec 32 := (regs.x64 inst.rs1 &&& 0xFFFFFFFF).setWidth 32
  let amount := (regs.x64 inst.rs2 &&& 0b111111).toNat
  signPatched regs inst
    (if amount < 32 then srcTrunc.sshiftRight amount else overshift srcTrunc amount)

-- Compressed instructions; the two stack-relative ones scale the offset once more.

def cldsp : Plan := ld regs { inst with rs1 := 2, imm := (inst.imm &&& 0b111111) * 8 }

def csdsp : Plan := sd regs { inst with rs1 := 2, imm := (inst.imm &&& 0b111111) * 8 }

def cld : Plan :=
  ld regs
    { inst with rd := cRegMap inst.rd, rs1 := cRegMap inst.rs1, imm := inst.imm &&& 0b11111111 }

def csd : Plan :=
  sd regs
    { inst with rs2 := cRegMap inst.rs2, rs1 := cRegMap inst.rs1, imm := inst.imm &&& 0b11111111 }

def caddiw : Plan :=
  addiw regs { inst with rs1 := inst.rd, imm := sextImm (inst.imm &&& 0b111111) 6 }

def caddw : Plan := addw regs (RV32I.caFields inst)

def csubw : Plan := subw regs (RV32I.caFields inst)

end RevCPU.Insns.RV64I
