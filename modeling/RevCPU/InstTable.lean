import Mathlib.Data.BitVec
namespace RevCPU.InstTable
/-! The data of include/RevInstTable.h: instruction formats, register classes, the decoded
instruction `RevInst` and the table row `RevInstEntry`. A row's function pointer is a constructor
of `ImplFunc`, one per static function that some table names; the instruction modules interpret it.
The disassembly text is kept whole because the mnemonic is read out of it. -/

inductive RevInstF where
  | RVTypeUNKNOWN | RVTypeR | RVTypeI | RVTypeS | RVTypeU | RVTypeB | RVTypeJ | RVTypeR4
  | RVCTypeCR | RVCTypeCI | RVCTypeCSS | RVCTypeCIW | RVCTypeCL | RVCTypeCS | RVCTypeCA
  | RVCTypeCB | RVCTypeCJ
deriving DecidableEq, Repr

inductive RevRegClass where
  | RegUNKNOWN | RegIMM | RegGPR | RegCSR | RegFLOAT
deriving DecidableEq, Repr

inductive RevImmFunc where
  | FUnk | FImm | FEnc | FVal
deriving DecidableEq, Repr

-- The static member functions of one class of include/insns, in the order its tables name them.
inductive RV32IFunc where
  | lui | auipc | jal | jalr | beq | bne | blt | bge | bltu | bgeu | lb | lh | lw | lbu | lhu
  | sb | sh | sw | addi | slti | sltiu | xori | ori | andi | slli | srli | srai | add | sub | sll
  | slt | sltu | f_xor | srl | sra | f_or | f_and | fence | fencei | ecall | ebreak | csrrw
  | csrrs | csrrc | csrrwi | csrrsi | csrrci | caddi4spn | clwsp | cswsp | clw | csw | cj
  | CRFUNC_1000 | CRFUNC_1001 | cbeqz | cbnez | cli | CIFUNC | caddi | cslli | csrli | csrai
  | candi | cand | cor | cxor | csub | cjal
deriving DecidableEq, Repr

inductive RV64IFunc where
  | lwu | ld | sd | addiw | slliw | srliw | sraiw | addw | subw | sllw | srlw | sraw | cldsp
  | csdsp | cld | csd | caddiw | caddw | csubw
deriving DecidableEq, Repr

inductive RV32MFunc where
  | mul | mulh | mulhsu | mulhu | div | divu | rem | remu
deriving DecidableEq, Repr

inductive RV64MFunc where
  | mulw | divw | divuw | remw | remuw
deriving DecidableEq, Repr

inductive RV32AFunc where
  | lrw | scw | amoswapw | amoaddw | amoxorw | amoandw | amoorw | amominw | amomaxw | amominuw
  | amomaxuw
deriving DecidableEq, Repr

inductive RV64AFunc where
  | lrd | scd | amoswapd | amoaddd | amoxord | amoandd | amoord | amomind | amomaxd | amominud
  | amomaxud
deriving DecidableEq, Repr

inductive RV32FFunc where
  | flw | fsw | fmadds | fmsubs | fnmsubs | fnmadds | fadds | fsubs | fmuls | fdivs | fsqrts
  | fmins | fmaxs | fsgnjs | fsgnjns | fsgnjxs | fcvtws | fcvtwus | fmvxw | feqs | flts | fles
  | fclasss | fcvtsw | fcvtswu | fmvwx | cflwsp | cfswsp | cflw | cfsw
deriving DecidableEq, Repr

inductive RV64FFunc where
  | fcvtls | fcvtlus | fcvtsl | fcvtslu
deriving DecidableEq, Repr

inductive RV32DFunc where
  | fld | fsd | fmaddd | fmsubd | fnmsubd | fnmaddd | faddd | fsubd | fmuld | fdivd | fsqrtd
  | fmind | fmaxd | fsgnjd | fsgnjnd | fsgnjxd | fcvtsd | feqd | fltd | fled | fclassd | fcvtwd
  | fcvtwud | fcvtdw | fcvtdwu | cfldsp | cfsdsp | cfld | cfsd
deriving DecidableEq, Repr

inductive RV64DFunc where
  | fcvtld | fcvtlud | fcvtdl | fcvtdlu | fmvxd | fmvdx | fcvtwd
deriving DecidableEq, Repr

inductive RV64PFunc where
  | future | rfuture | sfuture
deriving DecidableEq, Repr

/-- A table row's `func` pointer. -/
inductive ImplFunc where
  | null
  | rv32i (func : RV32IFunc) | rv64i (func : RV64IFunc)
  | rv32m (func : RV32MFunc) | rv64m (func : RV64MFunc)
  | rv32a (func : RV32AFunc) | rv64a (func : RV64AFunc)
  | rv32f (func : RV32FFunc) | rv64f (func : RV64FFunc)
  | rv32d (func : RV32DFunc) | rv64d (func : RV64DFunc)
  | rv64p (func : RV64PFunc)
deriving DecidableEq, Repr

/-- A decoded instruction. `hazard` is the cell behind the `bool *`: absent before the first
execution, `some true` while a read is outstanding. -/
structure RevInst where
  opcode : BitVec 8
  funct2 : BitVec 8
  funct3 : BitVec 8
  funct4 : BitVec 8
  funct6 : BitVec 8
  funct7 : BitVec 8
  rd : BitVec 8
  rs1 : BitVec 8
  rs2 : BitVec 8
  rs3 : BitVec 8
  imm : BitVec 32
  fmt : BitVec 8
  rm : BitVec 8
  aq : BitVec 8
  rl : BitVec 8
  offset : BitVec 16
  jumpTarget : BitVec 16
  instSize : Nat
  compressed : Bool
  cost : BitVec 32
  entry : Nat
  hazard : Option Bool
deriving DecidableEq, Repr, Inhabited

/-- `ResetInst`: `cost` and `entry` survive, the register fields become an invalid index. -/
def resetInst (inst : RevInst) : RevInst :=
  { inst with
    opcode := 0, funct2 := 0, funct3 := 0, funct4 := 0, funct6 := 0, funct7 := 0
    rd := 0xFF, rs1 := 0xFF, rs2 := 0xFF, rs3 := 0xFF
    imm := 0, fmt := 0, rm := 0, aq := 0, rl := 0, offset := 0, jumpTarget := 0
    instSize := 0, compressed := false, hazard := none }

/-- `CRegMap[reg]`: an absent key of the map reads as a value-initialised 0. -/
def cRegMap (reg : BitVec 8) : BitVec 8 := if reg.toNat < 8 then reg + 8 else 0

structure RevInstEntry where
  mnemonic : String := "nop"
  cost : BitVec 32 := 1
  opcode : BitVec 8 := 0
  funct2 : BitVec 8 := 0
  funct3 : BitVec 8 := 0
  funct4 : BitVec 8 := 0
  funct6 : BitVec 8 := 0
  funct7 : BitVec 8 := 0
  offset : BitVec 16 := 0
  jumpTarget : BitVec 16 := 0
  rdClass : RevRegClass := .RegGPR
  rs1Class : RevRegClass := .RegGPR
  rs2Class : RevRegClass := .RegGPR
  rs3Class : RevRegClass := .RegUNKNOWN
  imm12 : BitVec 16 := 0
  imm : RevImmFunc := .FUnk
  format : RevInstF := .RVTypeR
  func : ImplFunc := .null
  compressed : Bool := false
  fpcvtOp : BitVec 8 := 0
deriving DecidableEq, Repr

/-- `ExtractMnemonic`: the disassembly text up to its first blank. -/
def extractMnemonic (entry : RevInstEntry) : List Char := entry.mnemonic.toList.takeWhile (· ≠ ' ')

/-- `CompressCEncoding`. -/
def compressCEncoding (entry : RevInstEntry) : BitVec 32 :=
  entry.opcode.setWidth 32 ||| (entry.funct2.setWidth 32 <<< 2) |||
    (entry.funct3.setWidth 32 <<< 4) ||| (entry.funct4.setWidth 32 <<< 8) |||
    (entry.funct6.setWidth 32 <<< 12)

/-- `CompressEncoding`. -/
def compressEncoding (entry : RevInstEntry) : BitVec 32 :=
  entry.opcode.setWidth 32 ||| (entry.funct3.setWidth 32 <<< 8) |||
    (entry.funct7.setWidth 32 <<< 11) ||| (entry.imm12.setWidth 32 <<< 18) |||
    (entry.fpcvtOp.setWidth 32 <<< 30)

end RevCPU.InstTable
