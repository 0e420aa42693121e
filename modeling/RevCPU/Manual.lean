import Mathlib.Data.BitVec
/-!
The RISC-V manual's own view of RV64I without SYSTEM and FENCE, and of RV64M: the instructions,
their mnemonics and their 32-bit encodings. Nothing here comes from the simulator's source; the
decoder is compared with these definitions. Branch and jump offsets are even, so an offset is kept
without its bit 0.
-/
namespace RevCPU.Manual

inductive ROp where
  | add | sub | sll | slt | sltu | xor | srl | sra | or | and
  | addw | subw | sllw | srlw | sraw
  | mul | mulh | mulhsu | mulhu | div | divu | rem | remu
  | mulw | divw | divuw | remw | remuw
deriving DecidableEq, Repr

inductive IOp where
  | jalr | lb | lh | lw | lbu | lhu | lwu | ld
  | addi | slti | sltiu | xori | ori | andi | addiw
deriving DecidableEq, Repr

inductive ShiftOp where
  | slli | srli | srai
deriving DecidableEq, Repr

inductive ShiftWOp where
  | slliw | srliw | sraiw
deriving DecidableEq, Repr

inductive SOp where
  | sb | sh | sw | sd
deriving DecidableEq, Repr

inductive BOp where
  | beq | bne | blt | bge | bltu | bgeu
deriving DecidableEq, Repr

inductive UOp where
  | lui | auipc
deriving DecidableEq, Repr

inductive Insn where
  | r (op : ROp) (rd rs1 rs2 : BitVec 5)
  | i (op : IOp) (rd rs1 : BitVec 5) (imm : BitVec 12)
  | shift (op : ShiftOp) (rd rs1 : BitVec 5) (shamt : BitVec 6)
  | shiftW (op : ShiftWOp) (rd rs1 : BitVec 5) (shamt : BitVec 5)
  | s (op : SOp) (rs1 rs2 : BitVec 5) (imm : BitVec 12)
  | b (op : BOp) (rs1 rs2 : BitVec 5) (imm : BitVec 12)
  | u (op : UOp) (rd : BitVec 5) (imm : BitVec 20)
  | jal (rd : BitVec 5) (imm : BitVec 20)
deriving DecidableEq, Repr

/-- The six fields every format is laid over. -/
def word (funct7 : BitVec 7) (rs2 rs1 : BitVec 5) (funct3 : BitVec 3) (rd : BitVec 5)
    (opcode : BitVec 7) : BitVec 32 :=
  funct7 ++ rs2 ++ rs1 ++ funct3 ++ rd ++ opcode

/-- The two formats whose upper 20 bits are one immediate string. -/
def upperWord (imm : BitVec 20) (rd : BitVec 5) (opcode : BitVec 7) : BitVec 32 :=
  imm ++ rd ++ opcode

-- funct7, funct3, opcode
def ROp.code : ROp → BitVec 7 × BitVec 3 × BitVec 7
  | .add => (0b0000000, 0b000, 0b0110011)
  | .sub => (0b0100000, 0b000, 0b0110011)
  | .sll => (0b0000000, 0b001, 0b0110011)
  | .slt => (0b0000000, 0b010, 0b0110011)
  | .sltu => (0b0000000, 0b011, 0b0110011)
  | .xor => (0b0000000, 0b100, 0b0110011)
  | .srl => (0b0000000, 0b101, 0b0110011)
  | .sra => (0b0100000, 0b101, 0b0110011)
  | .or => (0b0000000, 0b110, 0b0110011)
  | .and => (0b0000000, 0b111, 0b0110011)
  | .addw => (0b0000000, 0b000, 0b0111011)
  | .subw => (0b0100000, 0b000, 0b0111011)
  | .sllw => (0b0000000, 0b001, 0b0111011)
  | .srlw => (0b0000000, 0b101, 0b0111011)
  | .sraw => (0b0100000, 0b101, 0b0111011)
  | .mul => (0b0000001, 0b000, 0b0110011)
  | .mulh => (0b0000001, 0b001, 0b0110011)
  | .mulhsu => (0b0000001, 0b010, 0b0110011)
  | .mulhu => (0b0000001, 0b011, 0b0110011)
  | .div => (0b0000001, 0b100, 0b0110011)
  | .divu => (0b0000001, 0b101, 0b0110011)
  | .rem => (0b0000001, 0b110, 0b0110011)
  | .remu => (0b0000001, 0b111, 0b0110011)
  | .mulw => (0b0000001, 0b000, 0b0111011)
  | .divw => (0b0000001, 0b100, 0b0111011)
  | .divuw => (0b0000001, 0b101, 0b0111011)
  | .remw => (0b0000001, 0b110, 0b0111011)
  | .remuw => (0b0000001, 0b111, 0b0111011)

-- funct3, opcode
def IOp.code : IOp → BitVec 3 × BitVec 7
  | .jalr => (0b000, 0b1100111)
  | .lb => (0b000, 0b0000011)
  | .lh => (0b001, 0b0000011)
  | .lw => (0b010, 0b0000011)
  | .lbu => (0b100, 0b0000011)
  | .lhu => (0b101, 0b0000011)
  | .lwu => (0b110, 0b0000011)
  | .ld => (0b011, 0b0000011)
  | .addi => (0b000, 0b0010011)
  | .slti => (0b010, 0b0010011)
  | .sltiu => (0b011, 0b0010011)
  | .xori => (0b100, 0b0010011)
  | .ori => (0b110, 0b0010011)
  | .andi => (0b111, 0b0010011)
  | .addiw => (0b000, 0b0011011)

-- funct6, funct3
def ShiftOp.code : ShiftOp → BitVec 6 × BitVec 3
  | .slli => (0b000000, 0b001)
  | .srli => (0b000000, 0b101)
  | .srai => (0b010000, 0b101)

-- funct7, funct3
def ShiftWOp.code : ShiftWOp → BitVec 7 × BitVec 3
  | .slliw => (0b0000000, 0b001)
  | .srliw => (0b0000000, 0b101)
  | .sraiw => (0b0100000, 0b101)

def SOp.funct3 : SOp → BitVec 3
  | .sb => 0b000 | .sh => 0b001 | .sw => 0b010 | .sd => 0b011

def BOp.funct3 : BOp → BitVec 3
  | .beq => 0b000 | .bne => 0b001 | .blt => 0b100 | .bge => 0b101 | .bltu => 0b110 | .bgeu => 0b111

def UOp.opcode : UOp → BitVec 7
  | .lui => 0b0110111 | .auipc => 0b0010111

def encode : Insn → BitVec 32
  | .r op rd rs1 rs2 => word op.code.1 rs2 rs1 op.code.2.1 rd op.code.2.2
  | .i op rd rs1 imm =>
    word (imm.extractLsb' 5 7) (imm.extractLsb' 0 5) rs1 op.code.1 rd op.code.2
  | .shift op rd rs1 shamt =>
    word (op.code.1 ++ shamt.extractLsb' 5 1) (shamt.extractLsb' 0 5) rs1 op.code.2 rd 0b0010011
  | .shiftW op rd rs1 shamt => word op.code.1 shamt rs1 op.code.2 rd 0b0011011
  | .s op rs1 rs2 imm =>
    word (imm.extractLsb' 5 7) rs2 rs1 op.funct3 (imm.extractLsb' 0 5) 0b0100011
  | .b op rs1 rs2 imm =>
    -- imm[12|10:5] and imm[4:1|11] of the offset `imm ++ 0#1`
    word (imm.extractLsb' 11 1 ++ imm.extractLsb' 4 6) rs2 rs1 op.funct3
      (imm.extractLsb' 0 4 ++ imm.extractLsb' 10 1) 0b1100011
  | .u op rd imm => upperWord imm rd op.opcode
  | .jal rd imm =>
    -- imm[20|10:1|11|19:12] of the offset `imm ++ 0#1`
    upperWord (imm.extractLsb' 19 1 ++ imm.extractLsb' 0 10 ++ imm.extractLsb' 10 1 ++
      imm.extractLsb' 11 8) rd 0b1101111

def ROp.mnemonic : ROp → String
  | .add => "add" | .sub => "sub" | .sll => "sll" | .slt => "slt" | .sltu => "sltu"
  | .xor => "xor" | .srl => "srl" | .sra => "sra" | .or => "or" | .and => "and"
  | .addw => "addw" | .subw => "subw" | .sllw => "sllw" | .srlw => "srlw" | .sraw => "sraw"
  | .mul => "mul" | .mulh => "mulh" | .mulhsu => "mulhsu" | .mulhu => "mulhu"
  | .div => "div" | .divu => "divu" | .rem => "rem" | .remu => "remu"
  | .mulw => "mulw" | .divw => "divw" | .divuw => "divuw" | .remw => "remw" | .remuw => "remuw"

def IOp.mnemonic : IOp → String
  | .jalr => "jalr" | .lb => "lb" | .lh => "lh" | .lw => "lw" | .lbu => "lbu" | .lhu => "lhu"
  | .lwu => "lwu" | .ld => "ld" | .addi => "addi" | .slti => "slti" | .sltiu => "sltiu"
  | .xori => "xori" | .ori => "ori" | .andi => "andi" | .addiw => "addiw"

def ShiftOp.mnemonic : ShiftOp → String
  | .slli => "slli" | .srli => "srli" | .srai => "srai"

def ShiftWOp.mnemonic : ShiftWOp → String
  | .slliw => "slliw" | .srliw => "srliw" | .sraiw => "sraiw"

def SOp.mnemonic : SOp → String
  | .sb => "sb" | .sh => "sh" | .sw => "sw" | .sd => "sd"

def BOp.mnemonic : BOp → String
  | .beq => "beq" | .bne => "bne" | .blt => "blt" | .bge => "bge" | .bltu => "bltu"
  | .bgeu => "bgeu"

def UOp.mnemonic : UOp → String
  | .lui => "lui" | .auipc => "auipc"

inductive Op where
  | r (op : ROp) | i (op : IOp) | shift (op : ShiftOp) | shiftW (op : ShiftWOp)
  | s (op : SOp) | b (op : BOp) | u (op : UOp) | jal
deriving DecidableEq, Repr

def Insn.op : Insn → Op
  | .r op _ _ _ => .r op
  | .i op _ _ _ => .i op
  | .shift op _ _ _ => .shift op
  | .shiftW op _ _ _ => .shiftW op
  | .s op _ _ _ => .s op
  | .b op _ _ _ => .b op
  | .u op _ _ => .u op
  | .jal _ _ => .jal

def Op.mnemonic : Op → String
  | .r op => op.mnemonic
  | .i op => op.mnemonic
  | .shift op => op.mnemonic
  | .shiftW op => op.mnemonic
  | .s op => op.mnemonic
  | .b op => op.mnemonic
  | .u op => op.mnemonic
  | .jal => "jal"

def Op.isMul : Op → Bool
  | .r op => op.code.1 == 0b0000001
  | _ => false

-- The register operands; an operand the format lacks reads 0.
def Insn.rd : Insn → BitVec 5
  | .r _ rd _ _ | .i _ rd _ _ | .shift _ rd _ _ | .shiftW _ rd _ _ | .u _ rd _ | .jal rd _ => rd
  | .s .. | .b .. => 0

def Insn.rs1 : Insn → BitVec 5
  | .r _ _ rs1 _ | .i _ _ rs1 _ | .shift _ _ rs1 _ | .shiftW _ _ rs1 _ | .s _ rs1 _ _
  | .b _ rs1 _ _ => rs1
  | .u .. | .jal .. => 0

def Insn.rs2 : Insn → BitVec 5
  | .r _ _ _ rs2 | .s _ _ rs2 _ | .b _ _ rs2 _ => rs2
  | _ => 0

/-- What a decoded immediate has to be: the raw immediate bits in place, or for a shift a value
whose low bits are the shift amount. -/
def Insn.ImmIs : Insn → BitVec 32 → Prop
  | .r .., _ => True
  | .i _ _ _ imm, value => value = imm.setWidth 32
  | .shift _ _ _ shamt, value => value.setWidth 6 = shamt
  | .shiftW _ _ _ shamt, value => value.setWidth 5 = shamt
  | .s _ _ _ imm, value => value = imm.setWidth 32
  | .b _ _ _ imm, value => value = (imm ++ 0#1).setWidth 32
  | .u _ _ imm, value => value = imm.setWidth 32
  | .jal _ imm, value => value = (imm ++ 0#1).setWidth 32

end RevCPU.Manual
