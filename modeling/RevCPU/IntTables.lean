import RevCPU.InstTable
namespace RevCPU.IntTables
/-! The tables of RV32I, RV64I, RV32M, RV64M, RV32A, RV64A and RV64P, row by row. A setter whose
argument equals the row's default policy is not repeated. -/
open InstTable

def revMInstDefaults : RevInstEntry := { opcode := 0b0110011, funct7 := 0b0000001 }

def rev64MInstDefaults : RevInstEntry := { opcode := 0b0111011, funct7 := 0b0000001 }

def rev64AInstDefaults : RevInstEntry :=
  { opcode := 0b0101111, funct3 := 0b011, rs2Class := .RegUNKNOWN }

def rev64PInstDefaults : RevInstEntry :=
  { opcode := 0b1110111, rs2Class := .RegUNKNOWN, imm := .FImm, format := .RVTypeI }

def rv32ITable : List RevInstEntry :=
  [
    { mnemonic := "lui %rd, $imm", opcode := 0b0110111, rs1Class := .RegUNKNOWN,
      rs2Class := .RegUNKNOWN, format := .RVTypeU, func := .rv32i .lui },
    { mnemonic := "auipc %rd, $imm", opcode := 0b0010111, rs1Class := .RegUNKNOWN,
      rs2Class := .RegUNKNOWN, format := .RVTypeU, func := .rv32i .auipc },
    { mnemonic := "jal %rd, $imm", opcode := 0b1101111, rs1Class := .RegUNKNOWN,
      rs2Class := .RegUNKNOWN, format := .RVTypeJ, func := .rv32i .jal },
    { mnemonic := "jalr %rd, %rs1, $imm", opcode := 0b1100111, rs2Class := .RegUNKNOWN,
      imm := .FImm, format := .RVTypeI, func := .rv32i .jalr },
    { mnemonic := "beq %rs1, %rs2, $imm", opcode := 0b1100011, rdClass := .RegIMM,
      format := .RVTypeB, func := .rv32i .beq },
    { mnemonic := "bne %rs1, %rs2, $imm", opcode := 0b1100011, funct3 := 0b001,
      rdClass := .RegIMM, format := .RVTypeB, func := .rv32i .bne },
    { mnemonic := "blt %rs1, %rs2, $imm", opcode := 0b1100011, funct3 := 0b100,
      rdClass := .RegIMM, format := .RVTypeB, func := .rv32i .blt },
    { mnemonic := "bge %rs1, %rs2, $imm", opcode := 0b1100011, funct3 := 0b101,
      rdClass := .RegIMM, format := .RVTypeB, func := .rv32i .bge },
    { mnemonic := "bltu %rs1, %rs2, $imm", opcode := 0b1100011, funct3 := 0b110,
      rdClass := .RegIMM, format := .RVTypeB, func := .rv32i .bltu },
    { mnemonic := "bgeu %rs1, %rs2, $imm", opcode := 0b1100011, funct3 := 0b111,
      rdClass := .RegIMM, format := .RVTypeB, func := .rv32i .bgeu },
    { mnemonic := "lb %rd, $imm(%rs1)", opcode := 0b0000011, rs2Class := .RegUNKNOWN,
      imm := .FImm, format := .RVTypeI, func := .rv32i .lb },
    { mnemonic := "lh %rd, $imm(%rs1)", opcode := 0b0000011, funct3 := 0b001,
      rs2Class := .RegUNKNOWN, imm := .FImm, format := .RVTypeI, func := .rv32i .lh },
    { mnemonic := "lw %rd, $imm(%rs1)", opcode := 0b0000011, funct3 := 0b010,
      rs2Class := .RegUNKNOWN, imm := .FImm, format := .RVTypeI, func := .rv32i .lw },
    { mnemonic := "lbu %rd, $imm(%rs1)", opcode := 0b0000011, funct3 := 0b100,
      rs2Class := .RegUNKNOWN, imm := .FImm, format := .RVTypeI, func := .rv32i .lbu },
    { mnemonic := "lhu %rd, $imm(%rs1)", opcode := 0b0000011, funct3 := 0b101,
      rs2Class := .RegUNKNOWN, imm := .FImm, format := .RVTypeI, func := .rv32i .lhu },
    { mnemonic := "sb %rs2, $imm(%rs1)", opcode := 0b0100011, rdClass := .RegIMM,
      format := .RVTypeS, func := .rv32i .sb },
    { mnemonic := "sh %rs2, $imm(%rs1)", opcode := 0b0100011, funct3 := 0b001, rdClass := .RegIMM,
      format := .RVTypeS, func := .rv32i .sh },
    { mnemonic := "sw %rs2, $imm(%rs1)", opcode := 0b0100011, funct3 := 0b010, rdClass := .RegIMM,
      format := .RVTypeS, func := .rv32i .sw },
    { mnemonic := "addi %rd, %rs1, $imm", opcode := 0b0010011, rs2Class := .RegUNKNOWN,
      imm := .FImm, format := .RVTypeI, func := .rv32i .addi },
    { mnemonic := "slti %rd, %rs1, $imm", opcode := 0b0010011, funct3 := 0b010,
      rs2Class := .RegUNKNOWN, imm := .FImm, format := .RVTypeI, func := .rv32i .slti },
    { mnemonic := "sltiu %rd, %rs1, $imm", opcode := 0b0010011, funct3 := 0b011,
      rs2Class := .RegUNKNOWN, imm := .FImm, format := .RVTypeI, func := .rv32i .sltiu },
    { mnemonic := "xori %rd, %rs1, $imm", opcode := 0b0010011, funct3 := 0b100,
      rs2Class := .RegUNKNOWN, imm := .FImm, format := .RVTypeI, func := .rv32i .xori },
    { mnemonic := "ori %rd, %rs1, $imm", opcode := 0b0010011, funct3 := 0b110,
      rs2Class := .RegUNKNOWN, imm := .FImm, format := .RVTypeI, func := .rv32i .ori },
    { mnemonic := "andi %rd, %rs1, $imm", opcode := 0b0010011, funct3 := 0b111,
      rs2Class := .RegUNKNOWN, imm := .FImm, format := .RVTypeI, func := .rv32i .andi },
    { mnemonic := "slli %rd, %rs1, $imm", opcode := 0b0010011, funct3 := 0b001,
      rs2Class := .RegUNKNOWN, imm := .FImm, format := .RVTypeI, func := .rv32i .slli },
    { mnemonic := "srli %rd, %rs1, $imm", opcode := 0b0010011, funct3 := 0b101,
      rs2Class := .RegUNKNOWN, imm := .FImm, format := .RVTypeI, func := .rv32i .srli },
    { mnemonic := "srai %rd, %rs1, $imm", opcode := 0b0010011, funct3 := 0b101,
      funct7 := 0b0010000, rs2Class := .RegUNKNOWN, imm := .FImm, format := .RVTypeI,
      func := .rv32i .srai },
    { mnemonic := "add %rd, %rs1, %rs2", opcode := 0b0110011, func := .rv32i .add },
    { mnemonic := "sub %rd, %rs1, %rs2", opcode := 0b0110011, funct7 := 0b0100000,
      func := .rv32i .sub },
    { mnemonic := "sll %rd, %rs1, %rs2", opcode := 0b0110011, funct3 := 0b001,
      func := .rv32i .sll },
    { mnemonic := "slt %rd, %rs1, %rs2", opcode := 0b0110011, funct3 := 0b010,
      func := .rv32i .slt },
    { mnemonic := "sltu %rd, %rs1, %rs2", opcode := 0b0110011, funct3 := 0b011,
      func := .rv32i .sltu },
    { mnemonic := "xor %rd, %rs1, %rs2", opcode := 0b0110011, funct3 := 0b100,
      func := .rv32i .f_xor },
    { mnemonic := "srl %rd, %rs1, %rs2", opcode := 0b0110011, funct3 := 0b101,
      func := .rv32i .srl },
    { mnemonic := "sra %rd, %rs1, %rs2", opcode := 0b0110011, funct3 := 0b101,
      funct7 := 0b0100000, func := .rv32i .sra },
    { mnemonic := "or %rd, %rs1, %rs2", opcode := 0b0110011, funct3 := 0b110,
      func := .rv32i .f_or },
    { mnemonic := "and %rd, %rs1, %rs2", opcode := 0b0110011, funct3 := 0b111,
      func := .rv32i .f_and },
    { mnemonic := "fence", opcode := 0b0001111, rdClass := .RegUNKNOWN, rs1Class := .RegUNKNOWN,
      rs2Class := .RegUNKNOWN, imm := .FVal, format := .RVTypeI, func := .rv32i .fence },
    { mnemonic := "fence.i", opcode := 0b0001111, funct3 := 0b001, rdClass := .RegUNKNOWN,
      rs1Class := .RegUNKNOWN, rs2Class := .RegUNKNOWN, format := .RVTypeI,
      func := .rv32i .fencei },
    { mnemonic := "ecall", opcode := 0b1110011, rdClass := .RegUNKNOWN, rs1Class := .RegUNKNOWN,
      rs2Class := .RegUNKNOWN, imm := .FEnc, format := .RVTypeI, func := .rv32i .ecall },
    { mnemonic := "ebreak", opcode := 0b1110011, rdClass := .RegUNKNOWN, rs1Class := .RegUNKNOWN,
      rs2Class := .RegUNKNOWN, imm12 := 0b000000000001, imm := .FEnc, format := .RVTypeI,
      func := .rv32i .ebreak },
    { mnemonic := "csrrw %rd, %rs1, $imm", opcode := 0b1110011, funct3 := 0b001,
      rs2Class := .RegUNKNOWN, imm := .FVal, format := .RVTypeU, func := .rv32i .csrrw },
    { mnemonic := "csrrs %rd, %rs1, $imm", opcode := 0b1110011, funct3 := 0b010,
      rs2Class := .RegUNKNOWN, imm := .FVal, format := .RVTypeU, func := .rv32i .csrrs },
    { mnemonic := "csrrc %rd, %rs1, $imm", opcode := 0b1110011, funct3 := 0b011,
      rs2Class := .RegUNKNOWN, imm := .FVal, format := .RVTypeU, func := .rv32i .csrrc },
    { mnemonic := "csrrwi %rd, %rs1, $imm", opcode := 0b1110011, funct3 := 0b101,
      rs2Class := .RegUNKNOWN, imm := .FVal, format := .RVTypeU, func := .rv32i .csrrwi },
    { mnemonic := "csrrsi %rd, %rs1, $imm", opcode := 0b1110011, funct3 := 0b110,
      rs2Class := .RegUNKNOWN, imm := .FVal, format := .RVTypeU, func := .rv32i .csrrsi },
    { mnemonic := "csrrci %rd, %rs1, $imm", opcode := 0b1110011, funct3 := 0b111,
      rs2Class := .RegUNKNOWN, imm := .FVal, format := .RVTypeU, func := .rv32i .csrrci } ]

def rv32ICTable : List RevInstEntry :=
  [
    { mnemonic := "c.addi4spn %rd, $imm", imm := .FVal, format := .RVCTypeCIW,
      func := .rv32i .caddi4spn, compressed := true },
    { mnemonic := "c.lwsp %rd, $imm", opcode := 0b10, funct3 := 0b010, imm := .FVal,
      format := .RVCTypeCI, func := .rv32i .clwsp, compressed := true },
    { mnemonic := "c.swsp %rs2, $imm", opcode := 0b10, funct3 := 0b110, imm := .FVal,
      format := .RVCTypeCSS, func := .rv32i .cswsp, compressed := true },
    { mnemonic := "c.lw %rd, $rs1, $imm", funct3 := 0b010, imm := .FVal, format := .RVCTypeCL,
      func := .rv32i .clw, compressed := true },
    { mnemonic := "c.sw %rs2, %rs1, $imm", funct3 := 0b110, imm := .FVal, format := .RVCTypeCS,
      func := .rv32i .csw, compressed := true },
    { mnemonic := "c.j $imm", opcode := 0b01, funct3 := 0b101, imm := .FVal, format := .RVCTypeCJ,
      func := .rv32i .cj, compressed := true },
    { mnemonic := "c.jr %rs1", opcode := 0b10, funct4 := 0b1000, format := .RVCTypeCR,
      func := .rv32i .CRFUNC_1000, compressed := true },
    { mnemonic := "c.jalr %rs1", opcode := 0b10, funct4 := 0b1001, format := .RVCTypeCR,
      func := .rv32i .CRFUNC_1001, compressed := true },
    { mnemonic := "c.beqz %rs1, $imm", opcode := 0b01, funct3 := 0b110, imm := .FVal,
      format := .RVCTypeCB, func := .rv32i .cbeqz, compressed := true },
    { mnemonic := "c.bnez %rs1, $imm", opcode := 0b01, funct3 := 0b111, imm := .FVal,
      format := .RVCTypeCB, func := .rv32i .cbnez, compressed := true },
    { mnemonic := "c.li %rd, $imm", opcode := 0b01, funct3 := 0b010, imm := .FVal,
      format := .RVCTypeCI, func := .rv32i .cli, compressed := true },
    { mnemonic := "c.lui %rd, $imm", opcode := 0b01, funct3 := 0b011, imm := .FVal,
      format := .RVCTypeCI, func := .rv32i .CIFUNC, compressed := true },
    { mnemonic := "c.addi %rd, $imm", opcode := 0b01, imm := .FVal, format := .RVCTypeCI,
      func := .rv32i .caddi, compressed := true },
    { mnemonic := "c.slli %rd, $imm", opcode := 0b10, imm := .FVal, format := .RVCTypeCI,
      func := .rv32i .cslli, compressed := true },
    { mnemonic := "c.srli %rd, $imm", opcode := 0b01, funct3 := 0b100, imm := .FVal,
      format := .RVCTypeCB, func := .rv32i .csrli, compressed := true },
    { mnemonic := "c.srai %rd, $imm", opcode := 0b01, funct2 := 0b01, funct3 := 0b100,
      imm := .FVal, format := .RVCTypeCB, func := .rv32i .csrai, compressed := true },
    { mnemonic := "c.andi %rd, $imm", opcode := 0b01, funct2 := 0b10, funct3 := 0b100,
      imm := .FVal, format := .RVCTypeCB, func := .rv32i .candi, compressed := true },
    { mnemonic := "c.and %rd,%rs1", opcode := 0b01, funct2 := 0b11, funct6 := 0b100011,
      format := .RVCTypeCA, func := .rv32i .cand, compressed := true },
    { mnemonic := "c.or %rd,%rs1", opcode := 0b01, funct2 := 0b10, funct6 := 0b100011,
      format := .RVCTypeCA, func := .rv32i .cor, compressed := true },
    { mnemonic := "c.xor %rd,%rs1", opcode := 0b01, funct2 := 0b01, funct6 := 0b100011,
      format := .RVCTypeCA, func := .rv32i .cxor, compressed := true },
    { mnemonic := "c.sub %rd,%rs1", opcode := 0b01, funct6 := 0b100011, format := .RVCTypeCA,
      func := .rv32i .csub, compressed := true } ]

def rv32ICOTable : List RevInstEntry :=
  [
    { mnemonic := "c.jal $imm", opcode := 0b01, funct3 := 0b001, format := .RVCTypeCJ,
      func := .rv32i .cjal, compressed := true } ]

def rv64ITable : List RevInstEntry :=
  [
    { mnemonic := "lwu %rd, $imm(%rs1)", opcode := 0b0000011, funct3 := 0b110,
      rs2Class := .RegUNKNOWN, imm := .FImm, format := .RVTypeI, func := .rv64i .lwu },
    { mnemonic := "ld %rd, $imm(%rs1)", opcode := 0b0000011, funct3 := 0b011,
      rs2Class := .RegUNKNOWN, imm := .FImm, format := .RVTypeI, func := .rv64i .ld },
    { mnemonic := "sd %rs2, $imm(%rs1)", opcode := 0b0100011, funct3 := 0b011, rdClass := .RegIMM,
      format := .RVTypeS, func := .rv64i .sd },
    { mnemonic := "addiw %rd, %rs1, $imm", opcode := 0b0011011, rs2Class := .RegUNKNOWN,
      imm := .FImm, format := .RVTypeI, func := .rv64i .addiw },
    { mnemonic := "slliw %rd, %rs1, $imm", opcode := 0b0011011, funct3 := 0b001,
      rs2Class := .RegUNKNOWN, imm := .FImm, format := .RVTypeI, func := .rv64i .slliw },
    { mnemonic := "srliw %rd, %rs1, $imm", opcode := 0b0011011, funct3 := 0b101,
      rs2Class := .RegUNKNOWN, imm := .FImm, func := .rv64i .srliw },
    { mnemonic := "sraiw %rd, %rs1, $imm", opcode := 0b0011011, funct3 := 0b101,
      funct7 := 0b0100000, rs2Class := .RegUNKNOWN, imm := .FImm, func := .rv64i .sraiw },
    { mnemonic := "addw %rd, %rs1, %rs2", opcode := 0b0111011, func := .rv64i .addw },
    { mnemonic := "subw %rd, %rs1, %rs2", opcode := 0b0111011, funct7 := 0b0100000,
      func := .rv64i .subw },
    { mnemonic := "sllw %rd, %rs1, %rs2", opcode := 0b0111011, funct3 := 0b001,
      func := .rv64i .sllw },
    { mnemonic := "srlw %rd, %rs1, %rs2", opcode := 0b0111011, funct3 := 0b101,
      func := .rv64i .srlw },
    { mnemonic := "sraw %rd, %rs1, %rs2", opcode := 0b0111011, funct3 := 0b101,
      funct7 := 0b0100000, func := .rv64i .sraw } ]

def rv64ICTable : List RevInstEntry :=
  [
    { mnemonic := "c.ldsp %rd, $imm", opcode := 0b10, funct3 := 0b011, imm := .FVal,
      format := .RVCTypeCI, func := .rv64i .cldsp, compressed := true },
    { mnemonic := "c.sdsp %rs2, $imm", opcode := 0b10, funct3 := 0b111, imm := .FVal,
      format := .RVCTypeCSS, func := .rv64i .csdsp, compressed := true },
    { mnemonic := "c.ld %rd, %rs1, $imm", funct3 := 0b011, imm := .FVal, format := .RVCTypeCL,
      func := .rv64i .cld, compressed := true },
    { mnemonic := "c.sd %rs2, %rs1, $imm", funct3 := 0b111, imm := .FVal, format := .RVCTypeCS,
      func := .rv64i .csd, compressed := true },
    { mnemonic := "c.addiw %rd, $imm", opcode := 0b01, funct3 := 0b001, imm := .FVal,
      format := .RVCTypeCI, func := .rv64i .caddiw, compressed := true },
    { mnemonic := "c.addw %rd,%rs1", opcode := 0b01, funct2 := 0b01, funct6 := 0b100111,
      format := .RVCTypeCA, func := .rv64i .caddw, compressed := true },
    { mnemonic := "c.subw %rd,%rs1", opcode := 0b01, funct6 := 0b100111, format := .RVCTypeCA,
      func := .rv64i .csubw, compressed := true } ]

def rv32MTable : List RevInstEntry :=
  [
    { revMInstDefaults with
      mnemonic := "mul %rd, %rs1, %rs2", func := .rv32m .mul },
    { revMInstDefaults with
      mnemonic := "mulh %rd, %rs1, %rs2", funct3 := 0b001, func := .rv32m .mulh },
    { revMInstDefaults with
      mnemonic := "mulhsu %rd, %rs1, %rs2", funct3 := 0b010, func := .rv32m .mulhsu },
    { revMInstDefaults with
      mnemonic := "mulhu %rd, %rs1, %rs2", funct3 := 0b011, func := .rv32m .mulhu },
    { revMInstDefaults with
      mnemonic := "div %rd, %rs1, %rs2", funct3 := 0b100, func := .rv32m .div },
    { revMInstDefaults with
      mnemonic := "divu %rd, %rs1, %rs2", funct3 := 0b101, func := .rv32m .divu },
    { revMInstDefaults with
      mnemonic := "rem %rd, %rs1, %rs2", funct3 := 0b110, func := .rv32m .rem },
    { revMInstDefaults with
      mnemonic := "remu %rd, %rs1, %rs20", funct3 := 0b111, func := .rv32m .remu } ]

def rv64MTable : List RevInstEntry :=
  [
    { rev64MInstDefaults with
      mnemonic := "mulw %rd, %rs1, %rs2", func := .rv64m .mulw },
    { rev64MInstDefaults with
      mnemonic := "divw %rd, %rs1, %rs2", funct3 := 0b100, func := .rv64m .divw },
    { rev64MInstDefaults with
      mnemonic := "divuw %rd, %rs1, %rs2", funct3 := 0b101, func := .rv64m .divuw },
    { rev64MInstDefaults with
      mnemonic := "remw %rd, %rs1, %rs2", funct3 := 0b110, func := .rv64m .remw },
    { rev64MInstDefaults with
      mnemonic := "remuw %rd, %rs1, %rs2", funct3 := 0b111, func := .rv64m .remuw } ]

def rv32ATable : List RevInstEntry :=
  [
    { mnemonic := "lr.w %rd, (%rs1)", opcode := 0b0101111, funct3 := 0b010, funct7 := 0b00010,
      rs2Class := .RegUNKNOWN, func := .rv32a .lrw },
    { mnemonic := "sc.w %rd, %rs1, %rs2", opcode := 0b0101111, funct3 := 0b010, funct7 := 0b00011,
      func := .rv32a .scw },
    { mnemonic := "amoswap.w %rd, %rs1, %rs2", opcode := 0b0101111, funct3 := 0b010,
      funct7 := 0b00001, func := .rv32a .amoswapw },
    { mnemonic := "amoadd.w %rd, %rs1, %rs2", opcode := 0b0101111, funct3 := 0b010,
      func := .rv32a .amoaddw },
    { mnemonic := "amoxor.w %rd, %rs1, %rs2", opcode := 0b0101111, funct3 := 0b010,
      funct7 := 0b00100, func := .rv32a .amoxorw },
    { mnemonic := "amoand.w %rd, %rs1, %rs2", opcode := 0b0101111, funct3 := 0b010,
      funct7 := 0b01100, func := .rv32a .amoandw },
    { mnemonic := "amoor.w %rd, %rs1, %rs2", opcode := 0b0101111, funct3 := 0b010,
      funct7 := 0b01000, func := .rv32a .amoorw },
    { mnemonic := "amomin.w %rd, %rs1, %rs2", opcode := 0b0101111, funct3 := 0b010,
      funct7 := 0b10000, func := .rv32a .amominw },
    { mnemonic := "amomax.w %rd, %rs1, %rs2", opcode := 0b0101111, funct3 := 0b010,
      funct7 := 0b10100, func := .rv32a .amomaxw },
    { mnemonic := "amominu.w %rd, %rs1, %rs2", opcode := 0b0101111, funct3 := 0b010,
      funct7 := 0b11000, func := .rv32a .amominuw },
    { mnemonic := "amomaxu.w %rd, %rs1, %rs2", opcode := 0b0101111, funct3 := 0b010,
      funct7 := 0b11100, func := .rv32a .amomaxuw } ]

def rv64ATable : List RevInstEntry :=
  [
    { rev64AInstDefaults with
      mnemonic := "lr.d %rd, (%rs1)", funct7 := 0b00010, rs1Class := .RegUNKNOWN,
      func := .rv64a .lrd },
    { rev64AInstDefaults with
      mnemonic := "sc.d %rd, %rs1, %rs2", funct7 := 0b00011, func := .rv64a .scd },
    { rev64AInstDefaults with
      mnemonic := "amoswap.d %rd, %rs1, %rs2", funct7 := 0b00001, func := .rv64a .amoswapd },
    { rev64AInstDefaults with
      mnemonic := "amoadd.d %rd, %rs1, %rs2", func := .rv64a .amoaddd },
    { rev64AInstDefaults with
      mnemonic := "amoxor.d %rd, %rs1, %rs2", funct7 := 0b00100, func := .rv64a .amoxord },
    { rev64AInstDefaults with
      mnemonic := "amoand.d %rd, %rs1, %rs2", funct7 := 0b01100, func := .rv64a .amoandd },
    { rev64AInstDefaults with
      mnemonic := "amoor.d %rd, %rs1, %rs2", funct7 := 0b01000, func := .rv64a .amoord },
    { rev64AInstDefaults with
      mnemonic := "amomin.d %rd, %rs1, %rs2", funct7 := 0b10000, func := .rv64a .amomind },
    { rev64AInstDefaults with
      mnemonic := "amomax.d %rd, %rs1, %rs2", funct7 := 0b10100, func := .rv64a .amomaxd },
    { rev64AInstDefaults with
      mnemonic := "amominu.d %rd, %rs1, %rs2", funct7 := 0b11000, func := .rv64a .amominud },
    { rev64AInstDefaults with
      mnemonic := "amomaxu.d %rd, %rs1, %rs2", funct7 := 0b11100, func := .rv64a .amomaxud } ]

def rv64PTable : List RevInstEntry :=
  [
    { rev64PInstDefaults with
      mnemonic := "future %rd, $imm(%rs1)", funct3 := 0b111, func := .rv64p .future },
    { rev64PInstDefaults with
      mnemonic := "rfuture %rd, $imm(%rs1)", funct3 := 0b101, func := .rv64p .rfuture },
    { rev64PInstDefaults with
      mnemonic := "sfuture %rd, $imm(%rs1)", funct3 := 0b100, func := .rv64p .sfuture } ]

end RevCPU.IntTables
