import RevCPU.RegFile
/-!
The functions of include/insns/RV32M.h. Signed overflow of a product or a negation is taken modulo
the word size. A division the host would trap on has no value, and neither has the function then.
-/
namespace RevCPU.Insns.RV32M
open Feature InstTable Mem RegFile

def mulhuImpl (a b : BitVec 64) : BitVec 64 :=
  let a0 := (a.setWidth 32).setWidth 64
  let a1 := a >>> 32
  let b0 := (b.setWidth 32).setWidth 64
  let b1 := b >>> 32
  -- The partial products are computed in 64 bits.
  let pp1 := (a0 * b0).setWidth 128
  let pp2 := (a1 * b0).setWidth 128
  let pp3 := (a0 * b1).setWidth 128
  let pp4 := (a1 * b1).setWidth 128
  let sum := pp1 + (pp2 <<< 32) + (pp3 <<< 32) + (pp4 <<< 64)
  (sum >>> 64).setWidth 64

/-- The product of two magnitudes, negated: the complement, plus 1 where the low half is 0. -/
def mulhImpl (a b : BitVec 64) : BitVec 64 :=
  let negate := a.slt 0 != b.slt 0
  let res := mulhuImpl (if a.slt 0 then -a else a) (if b.slt 0 then -b else b)
  if negate then ~~~res + (if a * b = 0 then 1 else 0) else res

def mulhsuImpl (a b : BitVec 64) : BitVec 64 :=
  let negate := a.slt 0
  let res := mulhuImpl (if a.slt 0 then -a else a) b
  if negate then ~~~res + (if a * b = 0 then 1 else 0) else res

-- Division of the host: no value for a zero divisor nor for the quotient that does not fit.
section Host
variable {n : Nat} (lhs rhs : BitVec n)

def hostTraps : Bool := rhs = 0 || (lhs = BitVec.intMin n && rhs = -1)

def hostDiv : Option (BitVec n) := if hostTraps lhs rhs then none else some (lhs.sdiv rhs)

def hostRem : Option (BitVec n) := if hostTraps lhs rhs then none else some (lhs.srem rhs)

def hostDivU : Option (BitVec n) := if rhs = 0 then none else some (lhs / rhs)

def hostRemU : Option (BitVec n) := if rhs = 0 then none else some (lhs % rhs)

end Host

variable (feature : RevFeature) (regs : RevRegFile) (inst : RevInst)

def mul : Plan :=
  if isRV32 feature then
    .done <| (regs.setX32 inst.rd
      (dtU32 (tdU32 (regs.x32 inst.rs1) 32 * tdU32 (regs.x32 inst.rs2) 32) 32)).step32 inst
  else
    .done <| (regs.setX64 inst.rd
      (dtU64 (tdU64 (regs.x64 inst.rs1) 64 * tdU64 (regs.x64 inst.rs2) 64) 64)).step64 inst

-- The 32-bit arm takes the high half of the 64-bit arm's product of two unsigned words.
def mulh : Plan :=
  if isRV32 feature then
    let product := mulhImpl ((tdU32 (regs.x32 inst.rs1) 32).setWidth 64)
      ((tdU32 (regs.x32 inst.rs2) 32).setWidth 64)
    .done <| (regs.setX32 inst.rd
      (dtU32 ((product.sshiftRight 32).setWidth 32) 32)).step32 inst
  else
    .done <| (regs.setX64 inst.rd
      (dtU64 (mulhImpl (tdU64 (regs.x64 inst.rs1) 64) (tdU64 (regs.x64 inst.rs2) 64))
        64)).step64 inst

/-- `overshift x` is `x >> 32` on a `uint32_t`, to which C++ gives no value. -/
def mulhsu (overshift : BitVec 32 → BitVec 32) : Plan :=
  if isRV32 feature then
    .done <| (regs.setX32 inst.rd
      (dtU32 (overshift (tdU32 (regs.x32 inst.rs1) 32 * tdU32 (regs.x32 inst.rs2) 32))
        32)).step32 inst
  else
    .done <| (regs.setX64 inst.rd
      (dtU64 (mulhsuImpl (tdU64 (regs.x64 inst.rs1) 32) (regs.x64 inst.rs2)) 32)).step64 inst

def mulhu (overshift : BitVec 32 → BitVec 32) : Plan :=
  if isRV32 feature then
    .done <| (regs.setX32 inst.rd
      (dtU32 (overshift (tdU32 (regs.x32 inst.rs1) 32 * tdU32 (regs.x32 inst.rs2) 32))
        32)).step32 inst
  else
    .done <| (regs.setX64 inst.rd
      (dtU64 (mulhuImpl (regs.x64 inst.rs1) (regs.x64 inst.rs2)) 64)).step64 inst

def div : Option Plan :=
  if isRV32 feature then
    let lhs := tdU32 (regs.x32 inst.rs1) 32
    let rhs := tdU32 (regs.x32 inst.rs2) 32
    if rhs = 0 then
      some <| .done <| (regs.setX32 inst.rd (BitVec.allOnes 32)).step32 inst
    else if lhs = BitVec.intMin 32 ∧ rhs = -1 then
      some <| .done <| (regs.setX32 inst.rd (dtU32 lhs 32)).step32 inst
    else
      (hostDiv lhs rhs).map fun quotient =>
        .done <| (regs.setX32 inst.rd (dtU32 quotient 32)).step32 inst
  else
    let lhs := tdU64 (regs.x64 inst.rs1) 64
    let rhs := tdU64 (regs.x64 inst.rs2) 64
    if rhs = 0 then
      some <| .done <| (regs.setX64 inst.rd (BitVec.allOnes 64)).step64 inst
    else if lhs = BitVec.intMin 64 ∧ rhs = -1 then
      some <| .done <| (regs.setX64 inst.rd (dtU64 lhs 64)).step64 inst
    else
      (hostDiv lhs rhs).map fun quotient =>
        .done <| (regs.setX64 inst.rd (dtU64 quotient 64)).step64 inst

def divu : Option Plan :=
  if isRV32 feature then
    let lhs := regs.x32 inst.rs1
    let rhs := regs.x32 inst.rs2
    if rhs = 0 then
      some <| .done <| (regs.setX32 inst.rd (BitVec.allOnes 32)).step32 inst
    else
      (hostDivU lhs rhs).map fun quotient =>
        .done <| (regs.setX32 inst.rd (sextImm quotient 32)).step32 inst
  else
    let lhs := regs.x64 inst.rs1
    let rhs := regs.x64 inst.rs2
    if rhs = 0 then
      some <| .done <| (regs.setX64 inst.rd (BitVec.allOnes 64)).step64 inst
    else
      (hostDivU lhs rhs).map fun quotient =>
        .done <| (regs.setX64 inst.rd (sext quotient 64)).step64 inst

def rem : Option Plan :=
  if isRV32 feature then
    let lhs := tdU32 (regs.x32 inst.rs1) 32
    let rhs := tdU32 (regs.x32 inst.rs2) 32
    if rhs = 0 then
      some <| .done <| (regs.setX32 inst.rd (dtU32 lhs 32)).step32 inst
    else if lhs = BitVec.intMin 32 ∧ rhs = -1 then
      some <| .done <| (regs.setX32 inst.rd 0).step32 inst
    else
      (hostRem lhs rhs).map fun remainder =>
        .done <| (regs.setX32 inst.rd (dtU32 remainder 32)).step32 inst
  else
    let lhs := tdU64 (regs.x64 inst.rs1) 64
    let rhs := tdU64 (regs.x64 inst.rs2) 64
    if rhs = 0 then
      some <| .done <| (regs.setX64 inst.rd (dtU64 lhs 64)).step64 inst
    else if lhs = BitVec.intMin 64 ∧ rhs = -1 then
      some <| .done <| (regs.setX64 inst.rd 0).step64 inst
    else
      (hostRem lhs rhs).map fun remainder =>
        .done <| (regs.setX64 inst.rd (dtU64 remainder 64)).step64 inst

-- Both arms take the top bit of the divisor for a reason to return the dividend; the 32-bit arm
-- reads that bit from the 64-bit file.
def remu : Option Plan :=
  if isRV32 feature then
    let lhs := (((regs.x32 inst.rs1).setWidth 64) &&& 0xFFFFFFFF).setWidth 32
    let rhs := (((regs.x32 inst.rs2).setWidth 64) &&& 0xFFFFFFFF).setWidth 32
    let signRhs := (regs.x64 inst.rs2 &&& 0x80000000) >>> 31
    if rhs = 0 ∨ 0 < signRhs then
      some <| .done <| (regs.setX32 inst.rd (regs.x32 inst.rs1)).step32 inst
    else
      (hostRemU lhs rhs).map fun remainder =>
        .done <| (regs.setX32 inst.rd (sextImm remainder 32)).step32 inst
  else
    let lhs := regs.x64 inst.rs1
    let rhs := regs.x64 inst.rs2
    let signRhs := (regs.x64 inst.rs2 &&& 0x8000000000000000) >>> 63
    if rhs = 0 ∨ 0 < signRhs then
      some <| .done <| (regs.setX64 inst.rd (regs.x64 inst.rs1)).step64 inst
    else
      (hostRemU lhs rhs).map fun remainder =>
        .done <| (regs.setX64 inst.rd (sext remainder 64)).step64 inst

end RevCPU.Insns.RV32M
