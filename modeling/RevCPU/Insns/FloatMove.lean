import RevCPU.Insns.Float
/-!
The functions of RV32F.h, RV32D.h and RV64D.h that move bits between registers. Where `IsRV32D`
holds, a single lives in the low half of a D register, else in an F register; the arms of a single
function are otherwise copies of one another, but for one of fsgnjxs.
-/
namespace RevCPU.Insns
open Feature InstTable RegFile

section Singles
variable (feature : RevFeature) (regs : RevRegFile) (index : BitVec 8)

/-- `memcpy(&tmp, &R->xPF[index], 4)`. -/
def copySingle : BitVec 32 :=
  if isRV32D feature then (regs.dpf index).setWidth 32 else regs.spf index

/-- `memcpy(&R->xPF[index], &tmp, 4)`: the upper half of a D register stays. -/
def putSingle (value : BitVec 32) : RevRegFile :=
  if isRV32D feature then regs.setDPF index ((regs.dpf index).extractLsb' 32 32 ++ value)
  else regs.setSPF index value

end Singles

namespace RV32F
variable (feature : RevFeature) (regs : RevRegFile) (inst : RevInst)

def fsgnjs : Plan :=
  let tmp := copySingle feature regs inst.rs1
  let tmp := tmp &&& ~~~(1#32 <<< 31)
  let tmp2 := copySingle feature regs inst.rs2
  let tmp := tmp ||| (tmp2 &&& (1#32 <<< 31))
  .done ((putSingle feature regs inst.rd tmp).step feature inst)

def fsgnjns : Plan :=
  let tmp := copySingle feature regs inst.rs1
  let tmp := tmp &&& ~~~(1#32 <<< 31)
  let tmp2 := copySingle feature regs inst.rs2
  let tmp2 := tmp2 &&& (1#32 <<< 31)
  let tmp2 := tmp2 ^^^ (1#32 <<< 31)
  let tmp := tmp ||| tmp2
  .done ((putSingle feature regs inst.rd tmp).step feature inst)

-- The arm for RV32 without D does not clear the sign of the first operand.
def fsgnjxs : Plan :=
  let tmp := copySingle feature regs inst.rs1
  let tmp2 := copySingle feature regs inst.rs2
  if isRV32D feature = false ∧ isRV32 feature = true then
    let tmp := tmp ||| ((tmp &&& (1#32 <<< 31)) ^^^ (tmp2 &&& (1#32 <<< 31)))
    .done ((putSingle feature regs inst.rd tmp).step feature inst)
  else
    let tmp2 := tmp2 &&& (1#32 <<< 31)
    let tmp2 := (tmp &&& (1#32 <<< 31)) ^^^ tmp2
    let tmp := (tmp &&& ~~~(1#32 <<< 31)) ||| tmp2
    .done ((putSingle feature regs inst.rd tmp).step feature inst)

def fmvxw : Plan :=
  let bits := copySingle feature regs inst.rs1
  if isRV32 feature then
    .done ((regs.setX32 inst.rd bits).step32 inst)
  else
    let regs := regs.setX64 inst.rd ((regs.x64 inst.rd).extractLsb' 32 32 ++ bits)
    let regs := regs.setX64 inst.rd (regs.x64 inst.rd &&& ((1#64 <<< 32) - 1))
    let regs := regs.setX64 inst.rd (sext (regs.x64 inst.rd) 32)
    .done (regs.step64 inst)

def fmvwx : Plan :=
  if isRV32 feature then
    .done ((putSingle feature regs inst.rd (regs.x32 inst.rs1)).step32 inst)
  else
    .done ((putSingle feature regs inst.rd ((regs.x64 inst.rs1).setWidth 32)).step64 inst)

end RV32F

namespace RV32D
variable (feature : RevFeature) (regs : RevRegFile) (inst : RevInst)

def fsgnjd : Plan :=
  let tmp := regs.dpf inst.rs1
  let tmp := tmp &&& ~~~(1#64 <<< 63)
  let tmp2 := regs.dpf inst.rs2
  let tmp := tmp ||| (tmp2 &&& (1#64 <<< 63))
  .done ((regs.setDPF inst.rd tmp).step feature inst)

-- The complement in `tmp2 ^= ~(1ULL<<63)` is of the mask.
def fsgnjnd : Plan :=
  let tmp := regs.dpf inst.rs1
  let tmp := tmp &&& ~~~(1#64 <<< 63)
  let tmp2 := regs.dpf inst.rs2
  let tmp2 := tmp2 ^^^ ~~~(1#64 <<< 63)
  let tmp := tmp ||| (tmp2 &&& (1#64 <<< 63))
  .done ((regs.setDPF inst.rd tmp).step feature inst)

def fsgnjxd : Plan :=
  let tmp := regs.dpf inst.rs1
  let tmp := tmp &&& ~~~(1#64 <<< 63)
  let tmp2 := regs.dpf inst.rs2
  let tmp := tmp ||| ((tmp &&& (1#64 <<< 63)) ^^^ (tmp2 &&& (1#64 <<< 63)))
  .done ((regs.setDPF inst.rd tmp).step feature inst)

end RV32D

namespace RV64D
variable (regs : RevRegFile) (inst : RevInst)

def fmvxd : Plan :=
  .done ((regs.setX64 inst.rd (regs.dpf inst.rs1)).step64 inst)

-- The same two registers, copied the same way.
def fmvdx : Plan :=
  .done ((regs.setX64 inst.rd (regs.dpf inst.rs1)).step64 inst)

end RV64D
end RevCPU.Insns
