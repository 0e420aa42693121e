import RevCPU.RegFile
/-!
The functions of include/insns/RV32I.h that the compressed instructions reach and the other
register arithmetic: the base functions and, after them, the trampolines that rewrite a compressed
instruction's fields and call one. Signed additions of the source are taken modulo the word size.
-/
namespace RevCPU.Insns.RV32I
open Feature InstTable Mem RegFile
variable (feature : RevFeature) (regs : RevRegFile) (inst : RevInst)

def lui : Plan :=
  if isRV32 feature then
    .done <| ((regs.setX32 inst.rd 0).setX32 inst.rd (inst.imm <<< 12)).step32 inst
  else
    .done <| ((regs.setX64 inst.rd 0).setX64 inst.rd
      (sext ((inst.imm <<< 12).setWidth 64) 32)).step64 inst

def auipc : Plan :=
  if isRV32 feature then
    .done <| ((regs.setX32 inst.rd 0).setX32 inst.rd
      ((inst.imm <<< 12) + dtU32 regs.rv32PC 32)).step32 inst
  else
    let tmp := sext ((inst.imm <<< 12).setWidth 64) 32
    .done <| ((regs.setX64 inst.rd 0).setX64 inst.rd (tmp + dtU64 regs.rv64PC 64)).step64 inst

def jal : Plan :=
  if isRV32 feature then
    let regs := regs.setX32 inst.rd (regs.rv32PC + BitVec.ofNat 32 inst.instSize)
    let regs := { regs with rv32PC := regs.rv32PC + tdU32 inst.imm 20 }
    .done (regs.setX32 0 0)
  else
    let tmp := tdU64 (inst.imm.setWidth 64) 20
    let regs := regs.setX64 inst.rd (regs.rv64PC + BitVec.ofNat 64 inst.instSize)
    let regs := { regs with rv64PC := regs.rv64PC + tmp }
    .done (regs.setX64 0 0)

def jalr : Plan :=
  if isRV32 feature then
    let tmp := regs.rv32PC + BitVec.ofNat 32 inst.instSize
    let regs := { regs with
      rv32PC := (tdU32 (regs.x32 inst.rs1) 32 + tdU32 inst.imm 12) &&& ~~~1#32 }
    .done ((regs.setX32 inst.rd tmp).setX32 0 0)
  else
    let tmp := regs.rv64PC + BitVec.ofNat 64 inst.instSize
    let regs := { regs with
      rv64PC := (tdU64 (regs.x64 inst.rs1) 64 + tdU64 (inst.imm.setWidth 64) 12) &&& ~~~1#64 }
    .done ((regs.setX64 inst.rd tmp).setX64 0 0)

def beq : Plan :=
  if isRV32 feature then
    if regs.x32 inst.rs1 = regs.x32 inst.rs2 then
      .done { regs with rv32PC := regs.rv32PC + tdU32 inst.imm 13 }
    else .done (regs.step32 inst)
  else
    if regs.x64 inst.rs1 = regs.x64 inst.rs2 then
      .done { regs with rv64PC := regs.rv64PC + tdU64 (inst.imm.setWidth 64) 13 }
    else .done (regs.step64 inst)

def bne : Plan :=
  if isRV32 feature then
    if regs.x32 inst.rs1 ≠ regs.x32 inst.rs2 then
      .done { regs with rv32PC := regs.rv32PC + tdU32 inst.imm 13 }
    else .done (regs.step32 inst)
  else
    if regs.x64 inst.rs1 ≠ regs.x64 inst.rs2 then
      .done { regs with rv64PC := regs.rv64PC + tdU64 (inst.imm.setWidth 64) 13 }
    else .done (regs.step64 inst)

/-- The body of the other conditional branches, which differ in the comparison. -/
def branch (narrow : BitVec 32 → BitVec 32 → Bool) (wide : BitVec 64 → BitVec 64 → Bool) : Plan :=
  if isRV32 feature then
    if narrow (regs.x32 inst.rs1) (regs.x32 inst.rs2) then
      .done { regs with rv32PC := regs.rv32PC + tdU32 inst.imm 13 }
    else .done (regs.step32 inst)
  else
    if wide (regs.x64 inst.rs1) (regs.x64 inst.rs2) then
      .done { regs with rv64PC := regs.rv64PC + tdU64 (inst.imm.setWidth 64) 13 }
    else .done (regs.step64 inst)

def blt : Plan := branch feature regs inst BitVec.slt BitVec.slt

def bge : Plan := branch feature regs inst (fun a b => b.sle a) (fun a b => b.sle a)

def bltu : Plan := branch feature regs inst BitVec.ult BitVec.ult

def bgeu : Plan := branch feature regs inst (fun a b => b.ule a) (fun a b => b.ule a)

theorem beq_branch : beq feature regs inst = branch feature regs inst (· == ·) (· == ·) := by
  simp only [beq, branch, beq_iff_eq]

theorem bne_branch : bne feature regs inst = branch feature regs inst (· != ·) (· != ·) := by
  simp only [bne, branch, bne_iff_ne]

-- `(uint64_t)(R->RVxx[rs1] + (int32_t)(td_u32(imm, 12)))`
def address (imm : BitVec 32) : BitVec 64 :=
  if isRV32 feature then (regs.x32 inst.rs1 + tdU32 imm 12).setWidth 64
  else regs.x64 inst.rs1 + (tdU32 imm 12).signExtend 64

def lw : Plan :=
  if isRV32 feature then
    { access := .read (address feature regs inst inst.imm) 4 (bytesOf (regs.x32 inst.rd)) F_SEXT32
      finish := fun target =>
        let regs := regs.setX32 inst.rd (word32 target)
        let regs := regs.setX32 inst.rd (regs.x32 inst.rd &&& 0xFFFFFFFF)
        let regs := regs.setX32 inst.rd (sextImm (regs.x32 inst.rd) 32)
        regs.step32 inst
      randCost := true }
  else
    { access := .read (address feature regs inst inst.imm) 4 (bytesOf (regs.x64 inst.rd)) F_SEXT64
      finish := fun target =>
        let regs := regs.setX64 inst.rd (word64 target)
        let regs := regs.setX64 inst.rd (regs.x64 inst.rd &&& 0xFFFFFFFF)
        let regs := regs.setX64 inst.rd (sext (regs.x64 inst.rd) 32)
        regs.step64 inst
      randCost := true }

def sb : Plan :=
  if isRV32 feature then
    { access := .write (address feature regs inst inst.imm) 1
        (bytesOf ((regs.x32 inst.rs2).setWidth 8))
      finish := fun _ => regs.step32 inst }
  else
    { access := .write (address feature regs inst inst.imm) 1
        (bytesOf ((regs.x64 inst.rs2).setWidth 8))
      finish := fun _ => regs.step64 inst }

-- The halfword goes through an `int64_t`.
def sh : Plan :=
  if isRV32 feature then
    let tmp : BitVec 64 := ((regs.x32 inst.rs2).setWidth 16).setWidth 64
    { access := .write (address feature regs inst inst.imm) 2 (bytesOf (tmp.setWidth 16))
      finish := fun _ => regs.step32 inst }
  else
    let tmp : BitVec 64 := ((regs.x64 inst.rs2).setWidth 16).setWidth 64
    { access := .write (address feature regs inst inst.imm) 2 (bytesOf (tmp.setWidth 16))
      finish := fun _ => regs.step64 inst }

def sw : Plan :=
  if isRV32 feature then
    { access := .write (address feature regs inst inst.imm) 4 (bytesOf (regs.x32 inst.rs2))
      finish := fun _ => regs.step32 inst }
  else
    { access := .write (address feature regs inst inst.imm) 4
        (bytesOf ((regs.x64 inst.rs2).setWidth 32))
      finish := fun _ => regs.step64 inst }

def addi : Plan :=
  if isRV32 feature then
    .done <| (regs.setX32 inst.rd
      (dtU32 (tdU32 (regs.x32 inst.rs1) 32 + tdU32 inst.imm 12) 32)).step32 inst
  else
    .done <| (regs.setX64 inst.rd
      (dtU64 (tdU64 (regs.x64 inst.rs1) 64 + tdU64 (inst.imm.setWidth 64) 12) 64)).step64 inst

def slti : Plan :=
  if isRV32 feature then
    .done <| (regs.setX32 inst.rd
      (if (tdU32 (regs.x32 inst.rs1) 32).slt (tdU32 inst.imm 12) then 1 else 0)).step32 inst
  else
    .done <| (regs.setX64 inst.rd
      (if (tdU64 (regs.x64 inst.rs1) 64).slt (tdU64 (inst.imm.setWidth 64) 12) then 1
        else 0)).step64 inst

def sltiu : Plan :=
  if isRV32 feature then
    .done <| (regs.setX32 inst.rd
      (if regs.x32 inst.rs1 < sextImm inst.imm 12 then 1 else 0)).step32 inst
  else
    .done <| (regs.setX64 inst.rd
      (if regs.x64 inst.rs1 < sext (inst.imm.setWidth 64) 12 then 1 else 0)).step64 inst

def xori : Plan :=
  if isRV32 feature then
    .done <| (regs.setX32 inst.rd (regs.x32 inst.rs1 ^^^ sextImm inst.imm 12)).step32 inst
  else
    .done <| (regs.setX64 inst.rd
      (regs.x64 inst.rs1 ^^^ sext (inst.imm.setWidth 64) 12)).step64 inst

def ori : Plan :=
  if isRV32 feature then
    .done <| (regs.setX32 inst.rd (regs.x32 inst.rs1 ||| sextImm inst.imm 12)).step32 inst
  else
    .done <| (regs.setX64 inst.rd
      (regs.x64 inst.rs1 ||| sext (inst.imm.setWidth 64) 12)).step64 inst

def andi : Plan :=
  if isRV32 feature then
    .done <| (regs.setX32 inst.rd (regs.x32 inst.rs1 &&& sextImm inst.imm 12)).step32 inst
  else
    .done <| (regs.setX64 inst.rd
      (regs.x64 inst.rs1 &&& sext (inst.imm.setWidth 64) 12)).step64 inst

def slli : Plan :=
  if isRV32 feature then
    .done <| (regs.setX32 inst.rd (regs.x32 inst.rs1 <<< (inst.imm &&& 0x1F))).step32 inst
  else
    .done <| (regs.setX64 inst.rd (regs.x64 inst.rs1 <<< (inst.imm &&& 0x3F))).step64 inst

def srli : Plan :=
  if isRV32 feature then
    .done <| (regs.setX32 inst.rd (regs.x32 inst.rs1 >>> (inst.imm &&& 0x1F))).step32 inst
  else
    .done <| (regs.setX64 inst.rd (regs.x64 inst.rs1 >>> (inst.imm &&& 0x3F))).step64 inst

def srai : Plan :=
  if isRV32 feature then
    let regs := regs.setX32 inst.rd
      ((sext (((regs.x32 inst.rs1).sshiftRight (inst.imm &&& 0x1F).toNat).signExtend 64)
        32).setWidth 32)
    let regs := regs.setX32 inst.rd (sextImm (regs.x32 inst.rd) 32)
    .done (regs.step32 inst)
  else
    let regs := regs.setX64 inst.rd
      (sext ((regs.x64 inst.rs1).sshiftRight (inst.imm &&& 0x3F).toNat) 64)
    let regs := regs.setX64 inst.rd (sext (regs.x64 inst.rd) 64)
    .done (regs.step64 inst)

def add : Plan :=
  if isRV32 feature then
    .done <| (regs.setX32 inst.rd
      (dtU32 (tdU32 (regs.x32 inst.rs1) 32 + tdU32 (regs.x32 inst.rs2) 32) 32)).step32 inst
  else
    .done <| (regs.setX64 inst.rd
      (dtU64 (tdU64 (regs.x64 inst.rs1) 64 + tdU64 (regs.x64 inst.rs2) 64) 64)).step64 inst

def sub : Plan :=
  if isRV32 feature then
    .done <| (regs.setX32 inst.rd
      (dtU32 (tdU32 (regs.x32 inst.rs1) 32 - tdU32 (regs.x32 inst.rs2) 32) 32)).step32 inst
  else
    .done <| (regs.setX64 inst.rd
      (dtU64 (tdU64 (regs.x64 inst.rs1) 64 - tdU64 (regs.x64 inst.rs2) 64) 64)).step64 inst

def sll : Plan :=
  if isRV32 feature then
    .done <| (regs.setX32 inst.rd
      (regs.x32 inst.rs1 <<< (regs.x32 inst.rs2 &&& 0b11111))).step32 inst
  else
    .done <| (regs.setX64 inst.rd
      (regs.x64 inst.rs1 <<< (regs.x64 inst.rs2 &&& 0b111111))).step64 inst

-- The 64-bit arm is a copy of the 32-bit one: it compares the low words.
def slt : Plan :=
  if isRV32 feature then
    .done <| (regs.setX32 inst.rd
      (if (tdU32 (regs.x32 inst.rs1) 32).slt (tdU32 (regs.x32 inst.rs2) 32) then 1
        else 0)).step32 inst
  else
    .done <| (regs.setX64 inst.rd
      (if (tdU32 ((regs.x64 inst.rs1).setWidth 32) 32).slt
          (tdU32 ((regs.x64 inst.rs2).setWidth 32) 32) then 1 else 0)).step64 inst

def sltu : Plan :=
  if isRV32 feature then
    .done <| (regs.setX32 inst.rd
      (if regs.x32 inst.rs1 < regs.x32 inst.rs2 then 1 else 0)).step32 inst
  else
    .done <| (regs.setX64 inst.rd
      (if regs.x64 inst.rs1 < regs.x64 inst.rs2 then 1 else 0)).step64 inst

def f_xor : Plan :=
  if isRV32 feature then
    .done <| (regs.setX32 inst.rd
      (sextImm (regs.x32 inst.rs1 ^^^ regs.x32 inst.rs2) 32)).step32 inst
  else
    .done <| (regs.setX64 inst.rd (sext (regs.x64 inst.rs1 ^^^ regs.x64 inst.rs2) 64)).step64 inst

/-- `overshift` is `(1ULL) << 64` in ZEXT64, to which C++ gives no value. The 64-bit arm keeps five
bits of the shift amount. -/
def srl (overshift : BitVec 64) : Plan :=
  if isRV32 feature then
    let regs := regs.setX32 inst.rd
      (((regs.x32 inst.rs1 >>> (regs.x32 inst.rs2 &&& 0b11111)).setWidth 64 &&&
        0xFFFFFFFF).setWidth 32)
    let regs := regs.setX32 inst.rd (sextImm (regs.x32 inst.rd) 32)
    .done (regs.step32 inst)
  else
    let regs := regs.setX64 inst.rd
      ((regs.x64 inst.rs1 >>> (regs.x64 inst.rs2 &&& 0b11111)) &&& (overshift - 1))
    let regs := regs.setX64 inst.rd (sext (regs.x64 inst.rd) 64)
    .done (regs.step64 inst)

def sra : Plan :=
  if isRV32 feature then
    let regs := regs.setX32 inst.rd
      ((sext (((regs.x32 inst.rs1).sshiftRight
        (regs.x32 inst.rs2 &&& 0b11111).toNat).signExtend 64) 32).setWidth 32)
    let regs := regs.setX32 inst.rd (sextImm (regs.x32 inst.rd) 32)
    .done (regs.step32 inst)
  else
    let regs := regs.setX64 inst.rd
      (sext ((regs.x64 inst.rs1).sshiftRight (regs.x64 inst.rs2 &&& 0b111111).toNat) 64)
    let regs := regs.setX64 inst.rd (sext (regs.x64 inst.rd) 64)
    .done (regs.step64 inst)

def f_or : Plan :=
  if isRV32 feature then
    .done <| (regs.setX32 inst.rd (regs.x32 inst.rs1 ||| regs.x32 inst.rs2)).step32 inst
  else
    .done <| (regs.setX64 inst.rd (regs.x64 inst.rs1 ||| regs.x64 inst.rs2)).step64 inst

def f_and : Plan :=
  if isRV32 feature then
    .done <| (regs.setX32 inst.rd
      (sextImm (regs.x32 inst.rs1 &&& regs.x32 inst.rs2) 32)).step32 inst
  else
    .done <| (regs.setX64 inst.rd (sext (regs.x64 inst.rs1 &&& regs.x64 inst.rs2) 64)).step64 inst

def ebreak : Plan := .done (regs.step feature inst)

-- Compressed instructions

def caddi4spn : Plan :=
  let inst := { inst with rs1 := 2, rd := cRegMap inst.rd }
  if inst.imm = 0 then .done (regs.step feature inst)
  else addi feature regs { inst with imm := (inst.imm &&& 0b11111111) * 4 }

def clwsp : Plan := lw feature regs { inst with rs1 := 2, imm := inst.imm &&& 0b11111111 }

def cswsp : Plan := sw feature regs { inst with rs1 := 2, imm := inst.imm &&& 0b11111111 }

def clw : Plan :=
  lw feature regs
    { inst with rd := cRegMap inst.rd, rs1 := cRegMap inst.rs1, imm := inst.imm &&& 0b1111111 }

-- rs2 is taken from rd, which the CS format does not set.
def csw : Plan :=
  sw feature regs
    { inst with rs2 := cRegMap inst.rd, rs1 := cRegMap inst.rs1, imm := inst.imm &&& 0b1111111 }

def cj : Plan :=
  jal feature regs
    { inst with rd := 0, imm := sextImm ((inst.jumpTarget &&& 0b111111111111).setWidth 32) 12 }

def cjal : Plan := jal feature regs { inst with rd := 1, imm := inst.jumpTarget.setWidth 32 }

def cjr : Plan := jalr feature regs { inst with rs2 := 0 }

def cmv : Plan := add feature regs { inst with rs1 := 0 }

def crFunc1000 : Plan :=
  if inst.rs2 ≠ 0 then cmv feature regs inst else cjr feature regs inst

def crFunc1001 : Plan :=
  if inst.rs1 = 0 ∧ inst.rd = 0 then ebreak feature regs inst
  else if inst.rs2 = 0 ∧ inst.rd ≠ 0 then jalr feature regs { inst with rd := 1 }
  else add feature regs inst

def cbeqz : Plan :=
  beq feature regs
    { inst with
      rs2 := 0, rs1 := cRegMap inst.rs1
      imm := sextImm ((inst.offset &&& 0b111111111).setWidth 32) 9 }

def cbnez : Plan :=
  bne feature regs
    { inst with
      rs2 := 0, rs1 := cRegMap inst.rs1
      imm := sextImm ((inst.offset &&& 0b111111111).setWidth 32) 9 }

def cli : Plan := addi feature regs { inst with rs1 := 0, imm := sextImm (inst.imm &&& 0b111111) 6 }

def ciFunc : Plan :=
  if inst.rd = 2 then
    addi feature regs { inst with imm := sextImm (inst.imm &&& 0b1111111111) 10 }
  else
    lui feature regs { inst with imm := sextImm (inst.imm &&& 0b111111) 6 }

def caddi : Plan :=
  addi feature regs { inst with imm := sextImm (inst.imm &&& 0b111111) 6, rs1 := inst.rd }

def cslli : Plan := slli feature regs { inst with rs1 := inst.rd }

def csrli : Plan := srli feature regs { inst with rd := cRegMap inst.rd, rs1 := cRegMap inst.rd }

def csrai : Plan := srai feature regs { inst with rd := cRegMap inst.rd, rs1 := cRegMap inst.rd }

def candi : Plan :=
  andi feature regs
    { inst with
      rd := cRegMap inst.rd, rs1 := cRegMap inst.rd
      imm := sextImm (inst.imm &&& 0b0111111) 6 }

/-- The fields of the CA trampolines: rd', which is also rs1, and rs2'. -/
def caFields : RevInst :=
  { inst with rd := cRegMap inst.rd, rs1 := cRegMap inst.rd, rs2 := cRegMap inst.rs2 }

def cand : Plan := f_and feature regs (caFields inst)

def cor : Plan := f_or feature regs (caFields inst)

def cxor : Plan := f_xor feature regs (caFields inst)

def csub : Plan := sub feature regs (caFields inst)

end RevCPU.Insns.RV32I
