import RevCPU.Isa
/-!
The manual's compressed instructions: their operands, their 16-bit encodings, which encodings are
reserved, and the 32-bit instruction each one expands to. As in `Manual`, a scaled offset is kept
without its low zero bits. The four groups follow the four ways an instruction can act: arithmetic
with an immediate, arithmetic on registers, control transfer, memory access.
-/
namespace RevCPU.ManualCompressed
open Manual Isa

/-- Every compressed format is laid over these fields: bits 15:13, 12, 11:7, 6:2 and 1:0. -/
def cword (funct3 : BitVec 3) (bit : BitVec 1) (mid low : BitVec 5) (op : BitVec 2) : BitVec 16 :=
  funct3 ++ bit ++ mid ++ low ++ op

/-- The eight registers x8 .. x15 of a 3-bit field. -/
def creg (index : BitVec 3) : BitVec 5 := 0b01#2 ++ index

theorem creg_nonzero (index : BitVec 3) : creg index ≠ 0 := by
  revert index
  decide

inductive CImmOp where
  | addi | addiw | li | lui | slli
deriving DecidableEq, Repr

-- funct3, op
def CImmOp.code : CImmOp → BitVec 3 × BitVec 2
  | .addi => (0b000, 0b01)
  | .addiw => (0b001, 0b01)
  | .li => (0b010, 0b01)
  | .lui => (0b011, 0b01)
  | .slli => (0b000, 0b10)

inductive CImm where
  | ci (op : CImmOp) (rd : BitVec 5) (imm : BitVec 6)
  | addi16sp (imm : BitVec 6)                    -- nzimm[9:4]
  | addi4spn (rd : BitVec 3) (uimm : BitVec 8)   -- nzuimm[9:2]
deriving DecidableEq, Repr

namespace CImm

def encode : CImm → BitVec 16
  | .ci op rd imm =>
    cword op.code.1 (imm.extractLsb' 5 1) rd (imm.extractLsb' 0 5) op.code.2
  | .addi16sp imm =>
    cword 0b011 (imm.extractLsb' 5 1) 2
      (imm.extractLsb' 0 1 ++ imm.extractLsb' 2 1 ++ imm.extractLsb' 3 2 ++ imm.extractLsb' 1 1)
      0b01
  | .addi4spn rd uimm =>
    cword 0b000 (uimm.extractLsb' 3 1) (uimm.extractLsb' 2 1 ++ uimm.extractLsb' 4 4)
      (uimm.extractLsb' 0 1 ++ uimm.extractLsb' 1 1 ++ rd) 0b00

-- The encodings the manual does not reserve; c.lui with rd = 2 is c.addi16sp.
def Legal : CImm → Prop
  | .ci .addiw rd _ => rd ≠ 0
  | .ci .lui rd imm => rd ≠ 2 ∧ imm ≠ 0
  | .ci _ _ _ => True
  | .addi16sp imm => imm ≠ 0
  | .addi4spn _ uimm => uimm ≠ 0

def expand : CImm → Base
  | .ci .addi rd imm => .int (.i .addi rd rd (imm.signExtend 12))
  | .ci .addiw rd imm => .int (.i .addiw rd rd (imm.signExtend 12))
  | .ci .li rd imm => .int (.i .addi rd 0 (imm.signExtend 12))
  | .ci .lui rd imm => .int (.u .lui rd (imm.signExtend 20))
  | .ci .slli rd imm => .int (.shift .slli rd rd imm)
  | .addi16sp imm => .int (.i .addi 2 2 ((imm ++ 0#4).signExtend 12))
  | .addi4spn rd uimm => .int (.i .addi (creg rd) 2 ((uimm ++ 0#2).setWidth 12))

end CImm

inductive CBOp where
  | srli | srai | andi
deriving DecidableEq, Repr

inductive CAOp where
  | sub | xor | or | and | subw | addw
deriving DecidableEq, Repr

def CBOp.funct2 : CBOp → BitVec 2
  | .srli => 0b00 | .srai => 0b01 | .andi => 0b10

-- bit 12, funct2
def CAOp.code : CAOp → BitVec 1 × BitVec 2
  | .sub => (0, 0b00)
  | .xor => (0, 0b01)
  | .or => (0, 0b10)
  | .and => (0, 0b11)
  | .subw => (1, 0b00)
  | .addw => (1, 0b01)

def CAOp.base : CAOp → ROp
  | .sub => .sub | .xor => .xor | .or => .or | .and => .and | .subw => .subw | .addw => .addw

inductive CReg where
  | cb (op : CBOp) (rd : BitVec 3) (imm : BitVec 6)
  | ca (op : CAOp) (rd rs2 : BitVec 3)
  | mv (rd rs2 : BitVec 5)
  | add (rd rs2 : BitVec 5)
deriving DecidableEq, Repr

namespace CReg

def encode : CReg → BitVec 16
  | .cb op rd imm =>
    cword 0b100 (imm.extractLsb' 5 1) (op.funct2 ++ rd) (imm.extractLsb' 0 5) 0b01
  | .ca op rd rs2 =>
    cword 0b100 op.code.1 (0b11#2 ++ rd) (op.code.2 ++ rs2) 0b01
  | .mv rd rs2 => cword 0b100 0 rd rs2 0b10
  | .add rd rs2 => cword 0b100 1 rd rs2 0b10

def Legal : CReg → Prop
  | .mv _ rs2 | .add _ rs2 => rs2 ≠ 0
  | _ => True

def expand : CReg → Base
  | .cb .srli rd imm => .int (.shift .srli (creg rd) (creg rd) imm)
  | .cb .srai rd imm => .int (.shift .srai (creg rd) (creg rd) imm)
  | .cb .andi rd imm => .int (.i .andi (creg rd) (creg rd) (imm.signExtend 12))
  | .ca op rd rs2 => .int (.r op.base (creg rd) (creg rd) (creg rs2))
  | .mv rd rs2 => .int (.r .add rd 0 rs2)
  | .add rd rs2 => .int (.r .add rd rd rs2)

end CReg

inductive CJump where
  | j (imm : BitVec 11)                            -- offset[11:1]
  | jal (imm : BitVec 11)
  | jr (rs1 : BitVec 5)
  | jalr (rs1 : BitVec 5)
  | beqz (rs1 : BitVec 3) (imm : BitVec 8)         -- offset[8:1]
  | bnez (rs1 : BitVec 3) (imm : BitVec 8)
deriving DecidableEq, Repr

namespace CJump

def jumpWord (funct3 : BitVec 3) (imm : BitVec 11) : BitVec 16 :=
  cword funct3 (imm.extractLsb' 10 1)
    (imm.extractLsb' 3 1 ++ imm.extractLsb' 7 2 ++ imm.extractLsb' 9 1 ++ imm.extractLsb' 5 1)
    (imm.extractLsb' 6 1 ++ imm.extractLsb' 0 3 ++ imm.extractLsb' 4 1) 0b01

def branchWord (funct3 : BitVec 3) (rs1 : BitVec 3) (imm : BitVec 8) : BitVec 16 :=
  cword funct3 (imm.extractLsb' 7 1) (imm.extractLsb' 2 2 ++ rs1)
    (imm.extractLsb' 5 2 ++ imm.extractLsb' 0 2 ++ imm.extractLsb' 4 1) 0b01

def encode : CJump → BitVec 16
  | .j imm => jumpWord 0b101 imm
  | .jal imm => jumpWord 0b001 imm
  | .jr rs1 => cword 0b100 0 rs1 0 0b10
  | .jalr rs1 => cword 0b100 1 rs1 0 0b10
  | .beqz rs1 imm => branchWord 0b110 rs1 imm
  | .bnez rs1 imm => branchWord 0b111 rs1 imm

def Legal : CJump → Prop
  | .jr rs1 | .jalr rs1 => rs1 ≠ 0
  | _ => True

def expand : CJump → Base
  | .j imm => .int (.jal 0 (imm.signExtend 20))
  | .jal imm => .int (.jal 1 (imm.signExtend 20))
  | .jr rs1 => .int (.i .jalr 0 rs1 0)
  | .jalr rs1 => .int (.i .jalr 1 rs1 0)
  | .beqz rs1 imm => .int (.b .beq (creg rs1) 0 (imm.signExtend 12))
  | .bnez rs1 imm => .int (.b .bne (creg rs1) 0 (imm.signExtend 12))

end CJump

/-- The register class and size of an access. -/
inductive CMemOp where
  | w | d | fw | fd
deriving DecidableEq, Repr

def CMemOp.isDouble : CMemOp → Bool
  | .d | .fd => true
  | .w | .fw => false

-- funct3 of a load; a store has it plus 4. On RV32 the code of c.ld is c.flw's.
def CMemOp.funct3 : CMemOp → BitVec 3
  | .w => 0b010 | .d => 0b011 | .fw => 0b011 | .fd => 0b001

def CMemOp.isFloat : CMemOp → Bool
  | .fw | .fd => true
  | .w | .d => false

inductive CMem where
  | loadSP (op : CMemOp) (rd : BitVec 5) (uimm : BitVec 6)
  | storeSP (op : CMemOp) (rs2 : BitVec 5) (uimm : BitVec 6)
  | load (op : CMemOp) (rd rs1 : BitVec 3) (uimm : BitVec 5)
  | store (op : CMemOp) (rs1 rs2 : BitVec 3) (uimm : BitVec 5)
deriving DecidableEq, Repr

namespace CMem

def encode : CMem → BitVec 16
  | .loadSP op rd uimm =>
    if op.isDouble then
      cword op.funct3 (uimm.extractLsb' 2 1) rd (uimm.extractLsb' 0 2 ++ uimm.extractLsb' 3 3) 0b10
    else
      cword op.funct3 (uimm.extractLsb' 3 1) rd (uimm.extractLsb' 0 3 ++ uimm.extractLsb' 4 2) 0b10
  | .storeSP op rs2 uimm =>
    if op.isDouble then
      cword (op.funct3 + 4) (uimm.extractLsb' 2 1)
        (uimm.extractLsb' 0 2 ++ uimm.extractLsb' 3 3) rs2 0b10
    else
      cword (op.funct3 + 4) (uimm.extractLsb' 3 1)
        (uimm.extractLsb' 0 3 ++ uimm.extractLsb' 4 2) rs2 0b10
  | .load op rd rs1 uimm =>
    if op.isDouble then
      cword op.funct3 (uimm.extractLsb' 2 1) (uimm.extractLsb' 0 2 ++ rs1)
        (uimm.extractLsb' 3 2 ++ rd) 0b00
    else
      cword op.funct3 (uimm.extractLsb' 3 1) (uimm.extractLsb' 1 2 ++ rs1)
        (uimm.extractLsb' 0 1 ++ uimm.extractLsb' 4 1 ++ rd) 0b00
  | .store op rs1 rs2 uimm =>
    if op.isDouble then
      cword (op.funct3 + 4) (uimm.extractLsb' 2 1) (uimm.extractLsb' 0 2 ++ rs1)
        (uimm.extractLsb' 3 2 ++ rs2) 0b00
    else
      cword (op.funct3 + 4) (uimm.extractLsb' 3 1) (uimm.extractLsb' 1 2 ++ rs1)
        (uimm.extractLsb' 0 1 ++ uimm.extractLsb' 4 1 ++ rs2) 0b00

def op : CMem → CMemOp
  | .loadSP op _ _ | .storeSP op _ _ | .load op _ _ _ | .store op _ _ _ => op

-- The integer stack loads reserve rd = 0.
def Legal : CMem → Prop
  | .loadSP op rd _ => op.isFloat = true ∨ rd ≠ 0
  | _ => True

/-- The byte offset: the operand scaled by the access size, zero-extended. -/
def offset {w : Nat} (op : CMemOp) (uimm : BitVec w) : BitVec 12 :=
  if op.isDouble then (uimm ++ 0#3).setWidth 12 else (uimm ++ 0#2).setWidth 12

def loadBase : CMemOp → BitVec 5 → BitVec 5 → BitVec 12 → Base
  | .w, rd, rs1, imm => .int (.i .lw rd rs1 imm)
  | .d, rd, rs1, imm => .int (.i .ld rd rs1 imm)
  | .fw, rd, rs1, imm => .flw rd rs1 imm
  | .fd, rd, rs1, imm => .fld rd rs1 imm

def storeBase : CMemOp → BitVec 5 → BitVec 5 → BitVec 12 → Base
  | .w, rs1, rs2, imm => .int (.s .sw rs1 rs2 imm)
  | .d, rs1, rs2, imm => .int (.s .sd rs1 rs2 imm)
  | .fw, rs1, rs2, imm => .fsw rs1 rs2 imm
  | .fd, rs1, rs2, imm => .fsd rs1 rs2 imm

def expand : CMem → Base
  | .loadSP op rd uimm => loadBase op rd 2 (offset op uimm)
  | .storeSP op rs2 uimm => storeBase op 2 rs2 (offset op uimm)
  | .load op rd rs1 uimm => loadBase op (creg rd) (creg rs1) (offset op uimm)
  | .store op rs1 rs2 uimm => storeBase op (creg rs1) (creg rs2) (offset op uimm)

end CMem
end RevCPU.ManualCompressed
