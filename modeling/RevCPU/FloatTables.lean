import RevCPU.InstTable
namespace RevCPU.FloatTables
/-! The tables of RV32F, RV64F, RV32D and RV64D, row by row, as in IntTables. The row of
fcvt.d.s names `fcvtsd`, as the source does. -/
open InstTable

def rev32FInstDefaults : RevInstEntry :=
  { rdClass := .RegFLOAT, rs1Class := .RegFLOAT, rs2Class := .RegFLOAT }

def rev64FInstDefaults : RevInstEntry :=
  { opcode := 0b1010011, rdClass := .RegFLOAT, rs1Class := .RegFLOAT, rs2Class := .RegUNKNOWN }

def rev32DInstDefaults : RevInstEntry :=
  { rdClass := .RegFLOAT, rs1Class := .RegFLOAT, rs2Class := .RegFLOAT }

def rev64DInstDefaults : RevInstEntry :=
  { opcode := 0b1010011, rdClass := .RegFLOAT, rs1Class := .RegFLOAT, rs2Class := .RegUNKNOWN }

def rv32FTable : List RevInstEntry :=
  [
    { rev32FInstDefaults with
      mnemonic := "flw %rd, $imm(%rs1)", opcode := 0b0000111, funct3 := 0b010, rdClass := .RegGPR,
      rs1Class := .RegGPR, rs2Class := .RegUNKNOWN, format := .RVTypeI, func := .rv32f .flw },
    { rev32FInstDefaults with
      mnemonic := "fsw %rs2, $imm(%rs1)", opcode := 0b0100111, funct3 := 0b010,
      rdClass := .RegIMM, rs1Class := .RegGPR, format := .RVTypeS, func := .rv32f .fsw },
    { rev32FInstDefaults with
      mnemonic := "fmadd.s %rd, %rs1, %rs2, %rs3", opcode := 0b1000011, rs3Class := .RegFLOAT,
      format := .RVTypeR4, func := .rv32f .fmadds },
    { rev32FInstDefaults with
      mnemonic := "fmsub.s %rd, %rs1, %rs2, %rs3", opcode := 0b1000111, rs3Class := .RegFLOAT,
      format := .RVTypeR4, func := .rv32f .fmsubs },
    { rev32FInstDefaults with
      mnemonic := "fnmsub.s %rd, %rs1, %rs2, %rs3", opcode := 0b1001011, rs3Class := .RegFLOAT,
      format := .RVTypeR4, func := .rv32f .fnmsubs },
    { rev32FInstDefaults with
      mnemonic := "fnmadd.s %rd, %rs1, %rs2, %rs3", opcode := 0b1001111, rs3Class := .RegFLOAT,
      format := .RVTypeR4, func := .rv32f .fnmadds },
    { rev32FInstDefaults with
      mnemonic := "fadd.s %rd, %rs1, %rs2", opcode := 0b1010011, func := .rv32f .fadds },
    { rev32FInstDefaults with
      mnemonic := "fsub.s %rd, %rs1, %rs2", opcode := 0b1010011, funct7 := 0b0000100,
      func := .rv32f .fsubs },
    { rev32FInstDefaults with
      mnemonic := "fmul.s %rd, %rs1, %rs2", opcode := 0b1010011, funct7 := 0b0001000,
      func := .rv32f .fmuls },
    { rev32FInstDefaults with
      mnemonic := "fdiv.s %rd, %rs1, %rs2", opcode := 0b1010011, funct7 := 0b0001100,
      func := .rv32f .fdivs },
    { rev32FInstDefaults with
      mnemonic := "fsqrt.s %rd, %rs1", opcode := 0b1010011, funct7 := 0b0101100,
      rs2Class := .RegUNKNOWN, func := .rv32f .fsqrts },
    { rev32FInstDefaults with
      mnemonic := "fmin.s %rd, %rs1, %rs2", opcode := 0b1010011, funct7 := 0b0010100,
      func := .rv32f .fmins },
    { rev32FInstDefaults with
      mnemonic := "fmax.s %rd, %rs1, %rs2", opcode := 0b1010011, funct3 := 0b001,
      funct7 := 0b0010100, func := .rv32f .fmaxs },
    { rev32FInstDefaults with
      mnemonic := "fsgnj.s %rd, %rs1, %rs2", opcode := 0b1010011, funct7 := 0b0010000,
      func := .rv32f .fsgnjs },
    { rev32FInstDefaults with
      mnemonic := "fsgnjn.s %rd, %rs1, %rs2", opcode := 0b1010011, funct3 := 0b001,
      funct7 := 0b0010000, func := .rv32f .fsgnjns },
    { rev32FInstDefaults with
      mnemonic := "fsgnjx.s %rd, %rs1, %rs2", opcode := 0b1010011, funct3 := 0b010,
      funct7 := 0b0010000, func := .rv32f .fsgnjxs },
    { rev32FInstDefaults with
      mnemonic := "fcvt.w.s %rd, %rs1", opcode := 0b1010011, funct7 := 0b1100000,
      rs2Class := .RegUNKNOWN, func := .rv32f .fcvtws },
    { rev32FInstDefaults with
      mnemonic := "fcvt.wu.s %rd, %rs1", opcode := 0b1010011, funct7 := 0b1100000,
      rs2Class := .RegUNKNOWN, func := .rv32f .fcvtwus, fpcvtOp := 0b00001 },
    { rev32FInstDefaults with
      mnemonic := "fmv.x.s %rd, %rs1", opcode := 0b1010011, funct7 := 0b1110000,
      rs2Class := .RegUNKNOWN, func := .rv32f .fmvxw },
    { rev32FInstDefaults with
      mnemonic := "feq.s %rd, %rs1, %rs2", opcode := 0b1010011, funct3 := 0b010,
      funct7 := 0b1010000, func := .rv32f .feqs },
    { rev32FInstDefaults with
      mnemonic := "flt.s %rd, %rs1, %rs2", opcode := 0b1010011, funct3 := 0b001,
      funct7 := 0b1010000, func := .rv32f .flts },
    { rev32FInstDefaults with
      mnemonic := "fle.s %rd, %rs1, %rs2", opcode := 0b1010011, funct7 := 0b1010000,
      func := .rv32f .fles },
    { rev32FInstDefaults with
      mnemonic := "fclass.s %rd, %rs1", opcode := 0b1010011, funct3 := 0b001, funct7 := 0b1110000,
      rs2Class := .RegUNKNOWN, func := .rv32f .fclasss },
    { rev32FInstDefaults with
      mnemonic := "fcvt.s.w %rd, %rs1", opcode := 0b1010011, funct7 := 0b1101000,
      rs2Class := .RegUNKNOWN, func := .rv32f .fcvtsw },
    { rev32FInstDefaults with
      mnemonic := "fcvt.s.wu %rd, %rs1", opcode := 0b1010011, funct7 := 0b1101000,
      rs2Class := .RegUNKNOWN, func := .rv32f .fcvtswu, fpcvtOp := 0b00001 },
    { rev32FInstDefaults with
      mnemonic := "fmv.w.x %rd, %rs1", opcode := 0b1010011, funct7 := 0b1111000,
      rs2Class := .RegUNKNOWN, func := .rv32f .fmvwx } ]

def rv32FCOTable : List RevInstEntry :=
  [
    { mnemonic := "c.flwsp %rd, $imm", opcode := 0b10, funct3 := 0b011, rdClass := .RegFLOAT,
      imm := .FVal, format := .RVCTypeCI, func := .rv32f .cflwsp, compressed := true },
    { mnemonic := "c.fswsp %rs2, $imm", opcode := 0b10, funct3 := 0b111, rs2Class := .RegFLOAT,
      imm := .FVal, format := .RVCTypeCSS, func := .rv32f .cfswsp, compressed := true },
    { mnemonic := "c.flw %rd, %rs1, $imm", funct3 := 0b011, rdClass := .RegFLOAT, imm := .FVal,
      format := .RVCTypeCL, func := .rv32f .cflw, compressed := true },
    { mnemonic := "c.fsw %rs2, %rs1, $imm", funct3 := 0b111, rs2Class := .RegFLOAT, imm := .FVal,
      format := .RVCTypeCS, func := .rv32f .cfsw, compressed := true } ]

def rv64FTable : List RevInstEntry :=
  [
    { rev64FInstDefaults with
      mnemonic := "fcvt.l.s  %rd, %rs1", funct7 := 0b1100000, func := .rv64f .fcvtls,
      fpcvtOp := 0b00010 },
    { rev64FInstDefaults with
      mnemonic := "fcvt.lu.s %rd, %rs1", funct7 := 0b1100000, func := .rv64f .fcvtlus,
      fpcvtOp := 0b00011 },
    { rev64FInstDefaults with
      mnemonic := "fcvt.s.l %rd, %rs1", funct7 := 0b1101000, func := .rv64f .fcvtsl,
      fpcvtOp := 0b00010 },
    { rev64FInstDefaults with
      mnemonic := "fcvt.s.lu %rd, %rs1", funct7 := 0b1101000, func := .rv64f .fcvtslu,
      fpcvtOp := 0b00011 } ]

def rv32DTable : List RevInstEntry :=
  [
    { rev32DInstDefaults with
      mnemonic := "fld %rd, $imm(%rs1)", opcode := 0b0000111, funct3 := 0b011,
      rs1Class := .RegGPR, rs2Class := .RegGPR, format := .RVTypeI, func := .rv32d .fld },
    { rev32DInstDefaults with
      mnemonic := "fsd %rs2, $imm(%rs1)", opcode := 0b0100111, funct3 := 0b011,
      rdClass := .RegIMM, format := .RVTypeS, func := .rv32d .fsd },
    { rev32DInstDefaults with
      mnemonic := "fmadd.d %rd, %rs1, %rs2, %rs3", opcode := 0b1000011, rs3Class := .RegFLOAT,
      format := .RVTypeR4, func := .rv32d .fmaddd },
    { rev32DInstDefaults with
      mnemonic := "fmsub.d %rd, %rs1, %rs2, %rs3", opcode := 0b1000111, rs3Class := .RegFLOAT,
      format := .RVTypeR4, func := .rv32d .fmsubd },
    { rev32DInstDefaults with
      mnemonic := "fnmsub.d %rd, %rs1, %rs2, %rs3", opcode := 0b1001011, rs3Class := .RegFLOAT,
      format := .RVTypeR4, func := .rv32d .fnmsubd },
    { rev32DInstDefaults with
      mnemonic := "fnmadd.d %rd, %rs1, %rs2, %rs3", opcode := 0b1001111, rs3Class := .RegFLOAT,
      format := .RVTypeR4, func := .rv32d .fnmaddd },
    { rev32DInstDefaults with
      mnemonic := "fadd.d %rd, %rs1, %rs2", opcode := 0b1010011, funct7 := 0b0000001,
      func := .rv32d .faddd },
    { rev32DInstDefaults with
      mnemonic := "fsub.d %rd, %rs1, %rs2", opcode := 0b1010011, funct7 := 0b0000101,
      func := .rv32d .fsubd },
    { rev32DInstDefaults with
      mnemonic := "fmul.d %rd, %rs1, %rs2", opcode := 0b1010011, funct7 := 0b0001001,
      func := .rv32d .fmuld },
    { rev32DInstDefaults with
      mnemonic := "fdiv.d %rd, %rs1, %rs2", opcode := 0b1010011, funct7 := 0b0001101,
      func := .rv32d .fdivd },
    { rev32DInstDefaults with
      mnemonic := "fsqrt.d %rd, %rs1", opcode := 0b1010011, funct7 := 0b0101101,
      rs2Class := .RegUNKNOWN, func := .rv32d .fsqrtd },
    { rev32DInstDefaults with
      mnemonic := "fmin.d %rd, %rs1, %rs2", opcode := 0b1010011, funct7 := 0b0010101,
      func := .rv32d .fmind },
    { rev32DInstDefaults with
      mnemonic := "fmax.d %rd, %rs1, %rs2", opcode := 0b1010011, funct3 := 0b001,
      funct7 := 0b0010101, func := .rv32d .fmaxd },
    { rev32DInstDefaults with
      mnemonic := "fsgnj.d %rd, %rs1, %rs2", opcode := 0b1010011, funct7 := 0b0010001,
      func := .rv32d .fsgnjd },
    { rev32DInstDefaults with
      mnemonic := "fsgnjn.d %rd, %rs1, %rs2", opcode := 0b1010011, funct3 := 0b001,
      funct7 := 0b0010001, func := .rv32d .fsgnjnd },
    { rev32DInstDefaults with
      mnemonic := "fsgnjx.d %rd, %rs1, %rs2", opcode := 0b1010011, funct3 := 0b010,
      funct7 := 0b0010001, func := .rv32d .fsgnjxd },
    { rev32DInstDefaults with
      mnemonic := "fcvt.s.d %rd, %rs1", opcode := 0b1010011, funct7 := 0b0100000,
      rs2Class := .RegUNKNOWN, func := .rv32d .fcvtsd },
    { rev32DInstDefaults with
      mnemonic := "fcvt.d.s %rd, %rs1", opcode := 0b1010011, funct7 := 0b0100001,
      rs2Class := .RegUNKNOWN, func := .rv32d .fcvtsd },
    { rev32DInstDefaults with
      mnemonic := "feq.d %rd, %rs1, %rs2", opcode := 0b1010011, funct3 := 0b010,
      funct7 := 0b1010001, func := .rv32d .feqd },
    { rev32DInstDefaults with
      mnemonic := "flt.d %rd, %rs1, %rs2", opcode := 0b1010011, funct3 := 0b001,
      funct7 := 0b1010001, func := .rv32d .fltd },
    { rev32DInstDefaults with
      mnemonic := "fle.d %rd, %rs1, %rs2", opcode := 0b1010011, funct7 := 0b1010001,
      func := .rv32d .fled },
    { rev32DInstDefaults with
      mnemonic := "fclass.d %rd, %rs1", opcode := 0b1010011, funct3 := 0b001, funct7 := 0b1110001,
      rs2Class := .RegUNKNOWN, func := .rv32d .fclassd },
    { rev32DInstDefaults with
      mnemonic := "fcvt.w.d %rd, %rs1", opcode := 0b1010011, funct7 := 0b1100001,
      rs2Class := .RegUNKNOWN, func := .rv32d .fcvtwd },
    { rev32DInstDefaults with
      mnemonic := "fcvt.wu.d %rd, %rs1", opcode := 0b1010011, funct7 := 0b1100001,
      rs2Class := .RegUNKNOWN, func := .rv32d .fcvtwud },
    { rev32DInstDefaults with
      mnemonic := "fcvt.d.w %rd, %rs1", opcode := 0b1010011, funct7 := 0b1101001,
      rs2Class := .RegUNKNOWN, func := .rv32d .fcvtdw },
    { rev32DInstDefaults with
      mnemonic := "fcvt.d.wu %rd, %rs1", opcode := 0b1010011, funct7 := 0b1101001,
      rs2Class := .RegUNKNOWN, func := .rv32d .fcvtdwu } ]

def rv32DCTable : List RevInstEntry :=
  [
    { mnemonic := "c.fldsp %rd, $imm", opcode := 0b10, funct3 := 0b001, rdClass := .RegFLOAT,
      imm := .FVal, format := .RVCTypeCI, func := .rv32d .cfldsp, compressed := true },
    { mnemonic := "c.fsdsp %rs1, $imm", opcode := 0b10, funct3 := 0b101, rs2Class := .RegFLOAT,
      imm := .FVal, format := .RVCTypeCSS, func := .rv32d .cfsdsp, compressed := true },
    { mnemonic := "c.fld %rd, %rs1, $imm", funct3 := 0b001, rdClass := .RegFLOAT, imm := .FVal,
      format := .RVCTypeCL, func := .rv32d .cfld, compressed := true },
    { mnemonic := "c.fsd %rs2, %rs1, $imm", funct3 := 0b101, imm := .FVal, format := .RVCTypeCS,
      func := .rv32d .cfsd, compressed := true } ]

def rv64DTable : List RevInstEntry :=
  [
    { rev64DInstDefaults with
      mnemonic := "fcvt.l.d %rd, %rs1", funct7 := 0b1100001, func := .rv64d .fcvtld },
    { rev64DInstDefaults with
      mnemonic := "fcvt.lu.d %rd, %rs1", funct7 := 0b1100001, func := .rv64d .fcvtlud },
    { rev64DInstDefaults with
      mnemonic := "fcvt.d.l %rd, %rs1", funct7 := 0b1101001, func := .rv64d .fcvtdl },
    { rev64DInstDefaults with
      mnemonic := "fcvt.d.lu %rd, %rs1", funct7 := 0b1101001, func := .rv64d .fcvtdlu },
    { rev64DInstDefaults with
      mnemonic := "fmv.x.d %rd, %rs1", funct7 := 0b1110001, func := .rv64d .fmvxd },
    { rev64DInstDefaults with
      mnemonic := "fmv.d.x %rd, %rs1", funct7 := 0b1111001, func := .rv64d .fmvdx },
    { rev64DInstDefaults with
      mnemonic := "fcvt.w.d %rd, %rs1", funct7 := 0b1100001, func := .rv64d .fcvtwd } ]

end RevCPU.FloatTables
