import RevCPU.Manual
/-!
The manual's encodings of RV32F, RV32D, RV64F and RV64D. `fmvxw` is given the older spelling
FMV.X.S, the one the simulator's table uses for the same instruction.
-/
namespace RevCPU.ManualFloat
open Manual

inductive FOp where
  | flw | fsw | fmadds | fmsubs | fnmsubs | fnmadds | fadds | fsubs | fmuls | fdivs | fsqrts
  | fsgnjs | fsgnjns | fsgnjxs | fmins | fmaxs | fcvtws | fcvtwus | fmvxw | feqs | flts | fles
  | fclasss | fcvtsw | fcvtswu | fmvwx
  | fcvtls | fcvtlus | fcvtsl | fcvtslu
  | fld | fsd | fmaddd | fmsubd | fnmsubd | fnmaddd | faddd | fsubd | fmuld | fdivd | fsqrtd
  | fsgnjd | fsgnjnd | fsgnjxd | fmind | fmaxd | fcvtsd | fcvtds | feqd | fltd | fled | fclassd
  | fcvtwd | fcvtwud | fcvtdw | fcvtdwu
  | fcvtld | fcvtlud | fmvxd | fcvtdl | fcvtdlu | fmvdx
deriving DecidableEq, Repr

inductive Rm where
  | rne | rtz | rdn | rup | rmm | dyn
deriving DecidableEq, Repr

def Rm.bits : Rm → BitVec 3
  | .rne => 0b000 | .rtz => 0b001 | .rdn => 0b010 | .rup => 0b011 | .rmm => 0b100 | .dyn => 0b111

/-- The encoding of an operation: which fields are codes and which are operands. -/
inductive Layout where
  | load (width : BitVec 3)
  | store (width : BitVec 3)
  | fused (opcode : BitVec 7) (fmt : BitVec 2)
  | arith (funct7 : BitVec 7)
  | convert (funct7 : BitVec 7) (code : BitVec 5)
  | compare (funct7 : BitVec 7) (funct3 : BitVec 3)
  | move (funct7 : BitVec 7) (funct3 : BitVec 3)

def FOp.layout : FOp → Layout
  | .flw => .load 0b010
  | .fsw => .store 0b010
  | .fmadds => .fused 0b1000011 0b00
  | .fmsubs => .fused 0b1000111 0b00
  | .fnmsubs => .fused 0b1001011 0b00
  | .fnmadds => .fused 0b1001111 0b00
  | .fadds => .arith 0b0000000
  | .fsubs => .arith 0b0000100
  | .fmuls => .arith 0b0001000
  | .fdivs => .arith 0b0001100
  | .fsqrts => .convert 0b0101100 0b00000
  | .fsgnjs => .compare 0b0010000 0b000
  | .fsgnjns => .compare 0b0010000 0b001
  | .fsgnjxs => .compare 0b0010000 0b010
  | .fmins => .compare 0b0010100 0b000
  | .fmaxs => .compare 0b0010100 0b001
  | .fcvtws => .convert 0b1100000 0b00000
  | .fcvtwus => .convert 0b1100000 0b00001
  | .fmvxw => .move 0b1110000 0b000
  | .feqs => .compare 0b1010000 0b010
  | .flts => .compare 0b1010000 0b001
  | .fles => .compare 0b1010000 0b000
  | .fclasss => .move 0b1110000 0b001
  | .fcvtsw => .convert 0b1101000 0b00000
  | .fcvtswu => .convert 0b1101000 0b00001
  | .fmvwx => .move 0b1111000 0b000
  | .fcvtls => .convert 0b1100000 0b00010
  | .fcvtlus => .convert 0b1100000 0b00011
  | .fcvtsl => .convert 0b1101000 0b00010
  | .fcvtslu => .convert 0b1101000 0b00011
  | .fld => .load 0b011
  | .fsd => .store 0b011
  | .fmaddd => .fused 0b1000011 0b01
  | .fmsubd => .fused 0b1000111 0b01
  | .fnmsubd => .fused 0b1001011 0b01
  | .fnmaddd => .fused 0b1001111 0b01
  | .faddd => .arith 0b0000001
  | .fsubd => .arith 0b0000101
  | .fmuld => .arith 0b0001001
  | .fdivd => .arith 0b0001101
  | .fsqrtd => .convert 0b0101101 0b00000
  | .fsgnjd => .compare 0b0010001 0b000
  | .fsgnjnd => .compare 0b0010001 0b001
  | .fsgnjxd => .compare 0b0010001 0b010
  | .fmind => .compare 0b0010101 0b000
  | .fmaxd => .compare 0b0010101 0b001
  | .fcvtsd => .convert 0b0100000 0b00001
  | .fcvtds => .convert 0b0100001 0b00000
  | .feqd => .compare 0b1010001 0b010
  | .fltd => .compare 0b1010001 0b001
  | .fled => .compare 0b1010001 0b000
  | .fclassd => .move 0b1110001 0b001
  | .fcvtwd => .convert 0b1100001 0b00000
  | .fcvtwud => .convert 0b1100001 0b00001
  | .fcvtdw => .convert 0b1101001 0b00000
  | .fcvtdwu => .convert 0b1101001 0b00001
  | .fcvtld => .convert 0b1100001 0b00010
  | .fcvtlud => .convert 0b1100001 0b00011
  | .fmvxd => .move 0b1110001 0b000
  | .fcvtdl => .convert 0b1101001 0b00010
  | .fcvtdlu => .convert 0b1101001 0b00011
  | .fmvdx => .move 0b1111001 0b000

def FOp.mnemonic : FOp → String
  | .flw => "flw" | .fsw => "fsw"
  | .fmadds => "fmadd.s" | .fmsubs => "fmsub.s" | .fnmsubs => "fnmsub.s" | .fnmadds => "fnmadd.s"
  | .fadds => "fadd.s" | .fsubs => "fsub.s" | .fmuls => "fmul.s" | .fdivs => "fdiv.s"
  | .fsqrts => "fsqrt.s" | .fsgnjs => "fsgnj.s" | .fsgnjns => "fsgnjn.s" | .fsgnjxs => "fsgnjx.s"
  | .fmins => "fmin.s" | .fmaxs => "fmax.s" | .fcvtws => "fcvt.w.s" | .fcvtwus => "fcvt.wu.s"
  | .fmvxw => "fmv.x.s" | .feqs => "feq.s" | .flts => "flt.s" | .fles => "fle.s"
  | .fclasss => "fclass.s" | .fcvtsw => "fcvt.s.w" | .fcvtswu => "fcvt.s.wu" | .fmvwx => "fmv.w.x"
  | .fcvtls => "fcvt.l.s" | .fcvtlus => "fcvt.lu.s" | .fcvtsl => "fcvt.s.l"
  | .fcvtslu => "fcvt.s.lu" | .fld => "fld" | .fsd => "fsd"
  | .fmaddd => "fmadd.d" | .fmsubd => "fmsub.d" | .fnmsubd => "fnmsub.d" | .fnmaddd => "fnmadd.d"
  | .faddd => "fadd.d" | .fsubd => "fsub.d" | .fmuld => "fmul.d" | .fdivd => "fdiv.d"
  | .fsqrtd => "fsqrt.d" | .fsgnjd => "fsgnj.d" | .fsgnjnd => "fsgnjn.d" | .fsgnjxd => "fsgnjx.d"
  | .fmind => "fmin.d" | .fmaxd => "fmax.d" | .fcvtsd => "fcvt.s.d" | .fcvtds => "fcvt.d.s"
  | .feqd => "feq.d" | .fltd => "flt.d" | .fled => "fle.d" | .fclassd => "fclass.d"
  | .fcvtwd => "fcvt.w.d" | .fcvtwud => "fcvt.wu.d" | .fcvtdw => "fcvt.d.w"
  | .fcvtdwu => "fcvt.d.wu" | .fcvtld => "fcvt.l.d" | .fcvtlud => "fcvt.lu.d"
  | .fmvxd => "fmv.x.d" | .fcvtdl => "fcvt.d.l" | .fcvtdlu => "fcvt.d.lu" | .fmvdx => "fmv.d.x"

def FOp.needs64 : FOp → Bool
  | .fcvtls | .fcvtlus | .fcvtsl | .fcvtslu | .fcvtld | .fcvtlud | .fmvxd | .fcvtdl | .fcvtdlu
  | .fmvdx => true
  | _ => false

def FOp.hasRm (op : FOp) : Bool :=
  match op.layout with
  | .fused .. | .arith _ | .convert .. => true
  | _ => false

/-- An operation with all its operands; a layout uses the ones it has. -/
structure FInsn where
  op : FOp
  rd : BitVec 5
  rs1 : BitVec 5
  rs2 : BitVec 5
  rs3 : BitVec 5
  imm : BitVec 12
  rm : Rm
deriving DecidableEq, Repr

def encodeFloat (insn : FInsn) : BitVec 32 :=
  match insn.op.layout with
  | .load width =>
    word (insn.imm.extractLsb' 5 7) (insn.imm.extractLsb' 0 5) insn.rs1 width insn.rd 0b0000111
  | .store width =>
    word (insn.imm.extractLsb' 5 7) insn.rs2 insn.rs1 width (insn.imm.extractLsb' 0 5) 0b0100111
  | .fused opcode fmt => word (insn.rs3 ++ fmt) insn.rs2 insn.rs1 insn.rm.bits insn.rd opcode
  | .arith funct7 => word funct7 insn.rs2 insn.rs1 insn.rm.bits insn.rd 0b1010011
  | .convert funct7 code => word funct7 code insn.rs1 insn.rm.bits insn.rd 0b1010011
  | .compare funct7 funct3 => word funct7 insn.rs2 insn.rs1 funct3 insn.rd 0b1010011
  | .move funct7 funct3 => word funct7 0b00000 insn.rs1 funct3 insn.rd 0b1010011

end RevCPU.ManualFloat
