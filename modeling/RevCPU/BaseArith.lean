import RevCPU.DecodeBase
import RevCPU.Insns.RV32I
import RevCPU.Isa
/-!
The integer arithmetic of RV32I.h against the manual, from the encoded word to the registers after
it. Each function is specified once per width by the register it writes and the value. On RV32 and
for the immediate forms of RV64 the values are the manual's; of the register forms of RV64, slt
compares low words and srl keeps five bits of its shift amount.
-/
namespace RevCPU.BaseArith
open Feature InstTable IntTables Seed Decode DecodeCompressed DecodeBase RegFile Insns Manual Isa

/-- `DecodeInst`, then the function of the row it found. -/
def basePlan (exec : RevInst → ImplFunc → Option Plan) (feature : RevFeature)
    (coProc : Option (BitVec 32 → Bool)) (junk : RevInst) (fetched : BitVec 32) : Option Plan :=
  match decodeInst feature (seedInstTable feature) coProc none junk fetched with
  | .error _ => none
  | .ok decoded =>
    match (seedInstTable feature).instTable[decoded.entry]? with
    | none => none
    | some row => exec decoded.inst row.func

/-- Decoding the word of `insn` and running its function does what the manual says of it. -/
def BaseAgrees {w : Nat} (mode : Xlen w) (exec : RevInst → ImplFunc → Option Plan)
    (feature : RevFeature) (coProc : Option (BitVec 32 → Bool)) (junk : RevInst)
    (regs : RevRegFile) (insn : Insn) : Prop :=
  ∃ plan, basePlan exec feature coProc junk (encode insn) = some plan ∧
    Means plan (isaStep mode 4 regs (.int insn))

def execAlu (overshift : BitVec 64) (feature : RevFeature) (regs : RevRegFile) (inst : RevInst) :
    ImplFunc → Option Plan
  | .rv32i .lui => some (RV32I.lui feature regs inst)
  | .rv32i .auipc => some (RV32I.auipc feature regs inst)
  | .rv32i .addi => some (RV32I.addi feature regs inst)
  | .rv32i .slti => some (RV32I.slti feature regs inst)
  | .rv32i .sltiu => some (RV32I.sltiu feature regs inst)
  | .rv32i .xori => some (RV32I.xori feature regs inst)
  | .rv32i .ori => some (RV32I.ori feature regs inst)
  | .rv32i .andi => some (RV32I.andi feature regs inst)
  | .rv32i .slli => some (RV32I.slli feature regs inst)
  | .rv32i .srli => some (RV32I.srli feature regs inst)
  | .rv32i .srai => some (RV32I.srai feature regs inst)
  | .rv32i .add => some (RV32I.add feature regs inst)
  | .rv32i .sub => some (RV32I.sub feature regs inst)
  | .rv32i .sll => some (RV32I.sll feature regs inst)
  | .rv32i .slt => some (RV32I.slt feature regs inst)
  | .rv32i .sltu => some (RV32I.sltu feature regs inst)
  | .rv32i .f_xor => some (RV32I.f_xor feature regs inst)
  | .rv32i .srl => some (RV32I.srl feature regs inst overshift)
  | .rv32i .sra => some (RV32I.sra feature regs inst)
  | .rv32i .f_or => some (RV32I.f_or feature regs inst)
  | .rv32i .f_and => some (RV32I.f_and feature regs inst)
  | _ => none

inductive ImmOp where
  | addi | slti | sltiu | xori | ori | andi
deriving DecidableEq, Repr

inductive RegOp where
  | add | sub | sll | slt | sltu | xor | srl | sra | or | and
deriving DecidableEq, Repr

def ImmOp.toIOp : ImmOp → IOp
  | .addi => .addi | .slti => .slti | .sltiu => .sltiu | .xori => .xori | .ori => .ori
  | .andi => .andi

def RegOp.toROp : RegOp → ROp
  | .add => .add | .sub => .sub | .sll => .sll | .slt => .slt | .sltu => .sltu | .xor => .xor
  | .srl => .srl | .sra => .sra | .or => .or | .and => .and

/-- The upper-immediate and register-immediate instructions, with `n` bits of shift amount. -/
inductive AluImm (n : Nat) where
  | upper (op : UOp) (rd : BitVec 5) (imm : BitVec 20)
  | arith (op : ImmOp) (rd rs1 : BitVec 5) (imm : BitVec 12)
  | shift (op : ShiftOp) (rd rs1 : BitVec 5) (shamt : BitVec n)
deriving DecidableEq, Repr

def AluImm.toInsn {n : Nat} : AluImm n → Insn
  | .upper op rd imm => .u op rd imm
  | .arith op rd rs1 imm => .i op.toIOp rd rs1 imm
  | .shift op rd rs1 shamt => .shift op rd rs1 (shamt.setWidth 6)

-- The function the tables name for an operation.
def upperFunc : UOp → ImplFunc
  | .lui => .rv32i .lui | .auipc => .rv32i .auipc

def immFunc : ImmOp → ImplFunc
  | .addi => .rv32i .addi | .slti => .rv32i .slti | .sltiu => .rv32i .sltiu
  | .xori => .rv32i .xori | .ori => .rv32i .ori | .andi => .rv32i .andi

def shiftFunc : ShiftOp → ImplFunc
  | .slli => .rv32i .slli | .srli => .rv32i .srli | .srai => .rv32i .srai

def regFunc : RegOp → ImplFunc
  | .add => .rv32i .add | .sub => .rv32i .sub | .sll => .rv32i .sll | .slt => .rv32i .slt
  | .sltu => .rv32i .sltu | .xor => .rv32i .f_xor | .srl => .rv32i .srl | .sra => .rv32i .sra
  | .or => .rv32i .f_or | .and => .rv32i .f_and

/-- The row of an operation in RV32I's table opens its fields and names `func`. -/
def rowNames (op : Op) (func : ImplFunc) : Bool :=
  (rv32ITable.find? (isEnc (opKey op))).any fun row => rowFits op row && decide (row.func = func)

/-- The row of an operation in `table` opens its fields and satisfies `want`. -/
def rowWith (table : List RevInstEntry) (op : Op) (want : RevInstEntry → Bool) : Bool :=
  (table.find? (isEnc (opKey op))).any fun row => rowFits op row && want row

section Table
variable (feature : RevFeature) (base : isModeEnabled feature .RV_I = true)

include base in
theorem rv32i_rows_first :
    rv32ITable <+: (enabledExts feature).flatMap fun call => call.1.table := by
  by_cases wide : feature.xlen = 64
  · exact (List.prefix_append _ _).trans (base_rows_first feature wide base)
  · simp only [enabledExts, Seed.when, base, ↓reduceIte, beq_iff_eq, wide, List.append_assoc,
      List.flatMap_append]
    exact List.prefix_append _ _

/-- An operation with a row in the tables that come first is decoded and run through the first such
row; `want` is what else is used of that row. -/
theorem basePlan_row (exec : RevInst → ImplFunc → Option Plan)
    (coProc : Option (BitVec 32 → Bool)) (junk : RevInst) (insn : Insn)
    (table : List RevInstEntry) (want : RevInstEntry → Bool)
    (first : table <+: (enabledExts feature).flatMap fun call => call.1.table)
    (listed : rowWith table insn.op want = true) :
    ∃ row inst, rowFits insn.op row = true ∧ want row = true ∧
      decodeFormat junk (encode insn) row = .ok inst ∧ Carries insn inst ∧
      basePlan exec feature coProc junk (encode insn) = exec inst row.func := by
  obtain ⟨row, earliest, fits⟩ := (Option.any_eq_true _ _).mp listed
  obtain ⟨fits, wanted⟩ := (Bool.and_eq_true _ _).mp fits
  have found : (seedInstTable feature).instTable.find? (isEnc (opKey insn.op)) = some row := by
    rw [find_enc_instTable]
    exact first.find?_eq_some earliest
  obtain ⟨inst, formatted, carries⟩ := decodeFormat_carries insn row junk fits
  rw [← encWith_encode] at found
  obtain ⟨entry, -, position, decoded⟩ :=
    decodeWide_found (seedInstTable feature) coProc junk (encode insn) row inst found formatted
  refine ⟨row, inst, fits, wanted, formatted, carries, ?_⟩
  rw [basePlan, decodeInst_wide _ _ _ _ _ (encode_full_width insn), decoded]
  simp only [position]

theorem baseAgrees_row {w : Nat} (mode : Xlen w) (exec : RevInst → ImplFunc → Option Plan)
    (coProc : Option (BitVec 32 → Bool)) (junk : RevInst) (regs : RevRegFile) (insn : Insn)
    (condition : Prop) (table : List RevInstEntry) (want : RevInstEntry → Bool)
    (first : table <+: (enabledExts feature).flatMap fun call => call.1.table)
    (listed : rowWith table insn.op want = true)
    (runs : ∀ row inst, rowFits insn.op row = true → want row = true →
      decodeFormat junk (encode insn) row = .ok inst → Carries insn inst →
      ∃ plan, exec inst row.func = some plan ∧
        (Means plan (isaStep mode 4 regs (.int insn)) ↔ condition)) :
    BaseAgrees mode exec feature coProc junk regs insn ↔ condition := by
  obtain ⟨row, inst, fits, wanted, formatted, carries, whole⟩ :=
    basePlan_row feature exec coProc junk insn table want first listed
  obtain ⟨plan, ran, meaning⟩ := runs row inst fits wanted formatted carries
  simp [BaseAgrees, whole, ran, meaning]

include base in
/-- An operation whose row in RV32I's table names `func` is decoded and run through `func`. -/
theorem baseAgrees_iff {w : Nat} (mode : Xlen w) (exec : RevInst → ImplFunc → Option Plan)
    (coProc : Option (BitVec 32 → Bool)) (junk : RevInst) (regs : RevRegFile) (insn : Insn)
    (func : ImplFunc) (condition : Prop) (listed : rowNames insn.op func = true)
    (runs : ∀ inst, Carries insn inst → ∃ plan, exec inst func = some plan ∧
      (Means plan (isaStep mode 4 regs (.int insn)) ↔ condition)) :
    BaseAgrees mode exec feature coProc junk regs insn ↔ condition := by
  apply baseAgrees_row feature mode exec coProc junk regs insn condition rv32ITable
    (fun row => decide (row.func = func)) (rv32i_rows_first feature base) listed
  intro row inst _ named _ carries
  rw [of_decide_eq_true named]
  exact runs inst carries

end Table

section Values
variable (feature : RevFeature) (regs : RevRegFile) (inst : RevInst) {n : Nat}
variable (rd rs1 rs2 : BitVec 5) (size : inst.instSize = n) (dest : inst.rd = rd.setWidth 8)
variable (left : inst.rs1 = rs1.setWidth 8) (right : inst.rs2 = rs2.setWidth 8)

-- Extending a value to the width it has changes nothing.
theorem sext_full (x : BitVec 64) : sext x 64 = x := by
  have same := sext_setWidth x (by decide) (by decide)
  rwa [BitVec.setWidth_eq, BitVec.signExtend_eq] at same

theorem sextImm_full (x : BitVec 32) : sextImm x 32 = x := by
  have same := sextImm_setWidth x (by decide) (by decide)
  rwa [BitVec.setWidth_eq, BitVec.signExtend_eq] at same

-- Flipping bit 31 twice leaves the low word.
theorem sext_low (x : BitVec 64) : (sext x 32).setWidth 32 = x.setWidth 32 := by
  have top : (BitVec.twoPow 64 (32 - 1)).setWidth 32 = BitVec.twoPow 32 (32 - 1) := by decide
  have same := Bits.xorSub_setWidth (w := 32) (x.setWidth 32) (by decide) (by decide)
  rw [BitVec.setWidth_eq, BitVec.signExtend_eq, Bits.xorSub] at same
  rw [sext, Bits.xorSub, BitVec.sub_eq_add_neg, BitVec.setWidth_add _ _ (by decide),
    BitVec.setWidth_neg_of_le (by decide), BitVec.setWidth_xor, top, ← BitVec.sub_eq_add_neg, same]

-- A 32-bit value computed in 64 bits and stored in 32: the upper half plays no part.
theorem sext_word (x : BitVec 32) : (sext (x.signExtend 64) 32).setWidth 32 = x := by
  rw [sext_low, Bits.setWidth_signExtend x (by decide), BitVec.signExtend_eq]

theorem word_mask (x : BitVec 32) : (x.setWidth 64 &&& 0xFFFFFFFF).setWidth 32 = x := by
  have masked : x.setWidth 64 &&& 0xFFFFFFFF = ((x.setWidth 64).setWidth 32).setWidth 64 :=
    low_mask _ 32
  rw [masked, BitVec.setWidth_setWidth_of_le _ (by decide), BitVec.setWidth_eq,
    BitVec.setWidth_setWidth (by decide), BitVec.setWidth_eq]

-- The low bits of a shift amount are its remainder.
theorem shift_mask_wide (x : BitVec 64) : (x &&& 0b111111).toNat = x.toNat % 64 := by
  have masked : x &&& 0b111111 = (x.setWidth 6).setWidth 64 := low_mask x 6
  rw [masked, BitVec.toNat_setWidth_of_le (by decide), BitVec.toNat_setWidth]

theorem shift_mask_five (x : BitVec 64) : (x &&& 0b11111).toNat = x.toNat % 32 := by
  have masked : x &&& 0b11111 = (x.setWidth 5).setWidth 64 := low_mask x 5
  rw [masked, BitVec.toNat_setWidth_of_le (by decide), BitVec.toNat_setWidth]

theorem shift_mask_narrow (x : BitVec 32) : (x &&& 0b11111).toNat = x.toNat % 32 := by
  have masked : x &&& 0b11111 = (x.setWidth 5).setWidth 32 := low_mask x 5
  rw [masked, BitVec.toNat_setWidth_of_le (by decide), BitVec.toNat_setWidth]

section Wide
variable (wide : isRV32 feature = false)
include wide size dest

theorem lui_wide : RV32I.lui feature regs inst =
    .done (retire rv64 n regs rd (sext ((inst.imm <<< 12).setWidth 64) 32)) := by
  simp only [RV32I.lui, wide, dest, RevRegFile.setX64_setX64, step64_retire regs inst size]
  rfl

theorem auipc_wide : RV32I.auipc feature regs inst =
    .done (retire rv64 n regs rd (sext ((inst.imm <<< 12).setWidth 64) 32 + regs.rv64PC)) := by
  simp only [RV32I.auipc, wide, dest, dtU64, twosComplement_full, RevRegFile.setX64_setX64,
    step64_retire regs inst size]
  rfl

include left

theorem addi_wide : RV32I.addi feature regs inst =
    .done (retire rv64 n regs rd (reg rv64 regs rs1 + tdU64 (inst.imm.setWidth 64) 12)) := by
  simp only [RV32I.addi, wide, tdU64, dtU64, twosComplement_full, dest, left,
    step64_retire regs inst size]
  rfl

theorem slti_wide : RV32I.slti feature regs inst =
    .done (retire rv64 n regs rd
      (if (reg rv64 regs rs1).slt (tdU64 (inst.imm.setWidth 64) 12) then 1 else 0)) := by
  simp only [RV32I.slti, wide, tdU64, twosComplement_full, dest, left, step64_retire regs inst size]
  rfl

theorem sltiu_wide : RV32I.sltiu feature regs inst =
    .done (retire rv64 n regs rd
      (if reg rv64 regs rs1 < sext (inst.imm.setWidth 64) 12 then 1 else 0)) := by
  simp only [RV32I.sltiu, wide, dest, left, step64_retire regs inst size]
  rfl

theorem xori_wide : RV32I.xori feature regs inst =
    .done (retire rv64 n regs rd (reg rv64 regs rs1 ^^^ sext (inst.imm.setWidth 64) 12)) := by
  simp only [RV32I.xori, wide, dest, left, step64_retire regs inst size]
  rfl

theorem ori_wide : RV32I.ori feature regs inst =
    .done (retire rv64 n regs rd (reg rv64 regs rs1 ||| sext (inst.imm.setWidth 64) 12)) := by
  simp only [RV32I.ori, wide, dest, left, step64_retire regs inst size]
  rfl

theorem andi_wide : RV32I.andi feature regs inst =
    .done (retire rv64 n regs rd (reg rv64 regs rs1 &&& sext (inst.imm.setWidth 64) 12)) := by
  simp only [RV32I.andi, wide, dest, left, step64_retire regs inst size]
  rfl

theorem slli_wide : RV32I.slli feature regs inst =
    .done (retire rv64 n regs rd (reg rv64 regs rs1 <<< (inst.imm &&& 0x3F).toNat)) := by
  simp only [RV32I.slli, wide, dest, left, BitVec.shiftLeft_eq', step64_retire regs inst size]
  rfl

theorem srli_wide : RV32I.srli feature regs inst =
    .done (retire rv64 n regs rd (reg rv64 regs rs1 >>> (inst.imm &&& 0x3F).toNat)) := by
  simp only [RV32I.srli, wide, dest, left, BitVec.ushiftRight_eq', step64_retire regs inst size]
  rfl

theorem srai_wide : RV32I.srai feature regs inst =
    .done (retire rv64 n regs rd ((reg rv64 regs rs1).sshiftRight (inst.imm &&& 0x3F).toNat)) := by
  simp only [RV32I.srai, wide, dest, left, sext_full, RevRegFile.setX64_update _ _ _ (fun x => x),
    step64_retire regs inst size]
  rfl

include right

theorem add_wide : RV32I.add feature regs inst =
    .done (retire rv64 n regs rd (reg rv64 regs rs1 + reg rv64 regs rs2)) := by
  simp only [RV32I.add, wide, tdU64, dtU64, twosComplement_full, dest, left, right,
    step64_retire regs inst size]
  rfl

theorem sub_wide : RV32I.sub feature regs inst =
    .done (retire rv64 n regs rd (reg rv64 regs rs1 - reg rv64 regs rs2)) := by
  simp only [RV32I.sub, wide, tdU64, dtU64, twosComplement_full, dest, left, right,
    step64_retire regs inst size]
  rfl

theorem sll_wide : RV32I.sll feature regs inst =
    .done (retire rv64 n regs rd (reg rv64 regs rs1 <<< ((reg rv64 regs rs2).toNat % 64))) := by
  simp only [RV32I.sll, wide, dest, left, right, BitVec.shiftLeft_eq', shift_mask_wide,
    step64_retire regs inst size]
  rfl

theorem slt_wide : RV32I.slt feature regs inst =
    .done (retire rv64 n regs rd
      (if ((reg rv64 regs rs1).setWidth 32).slt ((reg rv64 regs rs2).setWidth 32) then 1
        else 0)) := by
  simp only [RV32I.slt, wide, tdU32, twosComplement_full, dest, left, right,
    step64_retire regs inst size]
  rfl

theorem sltu_wide : RV32I.sltu feature regs inst =
    .done (retire rv64 n regs rd (if reg rv64 regs rs1 < reg rv64 regs rs2 then 1 else 0)) := by
  simp only [RV32I.sltu, wide, dest, left, right, step64_retire regs inst size]
  rfl

theorem xor_wide : RV32I.f_xor feature regs inst =
    .done (retire rv64 n regs rd (reg rv64 regs rs1 ^^^ reg rv64 regs rs2)) := by
  simp only [RV32I.f_xor, wide, sext_full, dest, left, right, step64_retire regs inst size]
  rfl

theorem srl_wide (overshift : BitVec 64) : RV32I.srl feature regs inst overshift =
    .done (retire rv64 n regs rd
      ((reg rv64 regs rs1 >>> ((reg rv64 regs rs2).toNat % 32)) &&& (overshift - 1))) := by
  simp only [RV32I.srl, wide, dest, left, right, BitVec.ushiftRight_eq', shift_mask_five, sext_full,
    RevRegFile.setX64_update _ _ _ (fun x => x), step64_retire regs inst size]
  rfl

theorem sra_wide : RV32I.sra feature regs inst =
    .done (retire rv64 n regs rd
      ((reg rv64 regs rs1).sshiftRight ((reg rv64 regs rs2).toNat % 64))) := by
  simp only [RV32I.sra, wide, dest, left, right, shift_mask_wide, sext_full,
    RevRegFile.setX64_update _ _ _ (fun x => x), step64_retire regs inst size]
  rfl

theorem or_wide : RV32I.f_or feature regs inst =
    .done (retire rv64 n regs rd (reg rv64 regs rs1 ||| reg rv64 regs rs2)) := by
  simp only [RV32I.f_or, wide, dest, left, right, step64_retire regs inst size]
  rfl

theorem and_wide : RV32I.f_and feature regs inst =
    .done (retire rv64 n regs rd (reg rv64 regs rs1 &&& reg rv64 regs rs2)) := by
  simp only [RV32I.f_and, wide, sext_full, dest, left, right, step64_retire regs inst size]
  rfl

end Wide

section Narrow
variable (narrow : isRV32 feature = true)
include narrow size dest

theorem lui_narrow : RV32I.lui feature regs inst =
    .done (retire rv32 n regs rd (inst.imm <<< 12)) := by
  simp only [RV32I.lui, narrow, dest, RevRegFile.setX32_setX32, step32_retire regs inst size]
  rfl

theorem auipc_narrow : RV32I.auipc feature regs inst =
    .done (retire rv32 n regs rd (inst.imm <<< 12 + regs.rv32PC)) := by
  simp only [RV32I.auipc, narrow, dest, dtU32, twosComplement_full, RevRegFile.setX32_setX32,
    step32_retire regs inst size]
  rfl

include left

theorem addi_narrow : RV32I.addi feature regs inst =
    .done (retire rv32 n regs rd (reg rv32 regs rs1 + tdU32 inst.imm 12)) := by
  simp only [RV32I.addi, narrow, tdU32, dtU32, twosComplement_full, dest, left,
    step32_retire regs inst size]
  rfl

theorem slti_narrow : RV32I.slti feature regs inst =
    .done (retire rv32 n regs rd
      (if (reg rv32 regs rs1).slt (tdU32 inst.imm 12) then 1 else 0)) := by
  simp only [RV32I.slti, narrow, tdU32, twosComplement_full, dest, left,
    step32_retire regs inst size]
  rfl

theorem sltiu_narrow : RV32I.sltiu feature regs inst =
    .done (retire rv32 n regs rd (if reg rv32 regs rs1 < sextImm inst.imm 12 then 1 else 0)) := by
  simp only [RV32I.sltiu, narrow, dest, left, step32_retire regs inst size]
  rfl

theorem xori_narrow : RV32I.xori feature regs inst =
    .done (retire rv32 n regs rd (reg rv32 regs rs1 ^^^ sextImm inst.imm 12)) := by
  simp only [RV32I.xori, narrow, dest, left, step32_retire regs inst size]
  rfl

theorem ori_narrow : RV32I.ori feature regs inst =
    .done (retire rv32 n regs rd (reg rv32 regs rs1 ||| sextImm inst.imm 12)) := by
  simp only [RV32I.ori, narrow, dest, left, step32_retire regs inst size]
  rfl

theorem andi_narrow : RV32I.andi feature regs inst =
    .done (retire rv32 n regs rd (reg rv32 regs rs1 &&& sextImm inst.imm 12)) := by
  simp only [RV32I.andi, narrow, dest, left, step32_retire regs inst size]
  rfl

theorem slli_narrow : RV32I.slli feature regs inst =
    .done (retire rv32 n regs rd (reg rv32 regs rs1 <<< (inst.imm &&& 0x1F).toNat)) := by
  simp only [RV32I.slli, narrow, dest, left, BitVec.shiftLeft_eq', step32_retire regs inst size]
  rfl

theorem srli_narrow : RV32I.srli feature regs inst =
    .done (retire rv32 n regs rd (reg rv32 regs rs1 >>> (inst.imm &&& 0x1F).toNat)) := by
  simp only [RV32I.srli, narrow, dest, left, BitVec.ushiftRight_eq', step32_retire regs inst size]
  rfl

theorem srai_narrow : RV32I.srai feature regs inst =
    .done (retire rv32 n regs rd ((reg rv32 regs rs1).sshiftRight (inst.imm &&& 0x1F).toNat)) := by
  simp only [RV32I.srai, narrow, dest, left, sext_word, sextImm_full,
    RevRegFile.setX32_update _ _ _ (fun x => x), step32_retire regs inst size]
  rfl

include right

theorem add_narrow : RV32I.add feature regs inst =
    .done (retire rv32 n regs rd (reg rv32 regs rs1 + reg rv32 regs rs2)) := by
  simp only [RV32I.add, narrow, tdU32, dtU32, twosComplement_full, dest, left, right,
    step32_retire regs inst size]
  rfl

theorem sub_narrow : RV32I.sub feature regs inst =
    .done (retire rv32 n regs rd (reg rv32 regs rs1 - reg rv32 regs rs2)) := by
  simp only [RV32I.sub, narrow, tdU32, dtU32, twosComplement_full, dest, left, right,
    step32_retire regs inst size]
  rfl

theorem sll_narrow : RV32I.sll feature regs inst =
    .done (retire rv32 n regs rd (reg rv32 regs rs1 <<< ((reg rv32 regs rs2).toNat % 32))) := by
  simp only [RV32I.sll, narrow, dest, left, right, BitVec.shiftLeft_eq', shift_mask_narrow,
    step32_retire regs inst size]
  rfl

theorem slt_narrow : RV32I.slt feature regs inst =
    .done (retire rv32 n regs rd
      (if (reg rv32 regs rs1).slt (reg rv32 regs rs2) then 1 else 0)) := by
  simp only [RV32I.slt, narrow, tdU32, twosComplement_full, dest, left, right,
    step32_retire regs inst size]
  rfl

theorem sltu_narrow : RV32I.sltu feature regs inst =
    .done (retire rv32 n regs rd (if reg rv32 regs rs1 < reg rv32 regs rs2 then 1 else 0)) := by
  simp only [RV32I.sltu, narrow, dest, left, right, step32_retire regs inst size]
  rfl

theorem xor_narrow : RV32I.f_xor feature regs inst =
    .done (retire rv32 n regs rd (reg rv32 regs rs1 ^^^ reg rv32 regs rs2)) := by
  simp only [RV32I.f_xor, narrow, sextImm_full, dest, left, right, step32_retire regs inst size]
  rfl

theorem srl_narrow (overshift : BitVec 64) : RV32I.srl feature regs inst overshift =
    .done (retire rv32 n regs rd (reg rv32 regs rs1 >>> ((reg rv32 regs rs2).toNat % 32))) := by
  simp only [RV32I.srl, narrow, dest, left, right, BitVec.ushiftRight_eq', shift_mask_narrow,
    word_mask, sextImm_full, RevRegFile.setX32_update _ _ _ (fun x => x),
    step32_retire regs inst size]
  rfl

theorem sra_narrow : RV32I.sra feature regs inst =
    .done (retire rv32 n regs rd
      ((reg rv32 regs rs1).sshiftRight ((reg rv32 regs rs2).toNat % 32))) := by
  simp only [RV32I.sra, narrow, dest, left, right, shift_mask_narrow, sext_word, sextImm_full,
    RevRegFile.setX32_update _ _ _ (fun x => x), step32_retire regs inst size]
  rfl

theorem or_narrow : RV32I.f_or feature regs inst =
    .done (retire rv32 n regs rd (reg rv32 regs rs1 ||| reg rv32 regs rs2)) := by
  simp only [RV32I.f_or, narrow, dest, left, right, step32_retire regs inst size]
  rfl

theorem and_narrow : RV32I.f_and feature regs inst =
    .done (retire rv32 n regs rd (reg rv32 regs rs1 &&& reg rv32 regs rs2)) := by
  simp only [RV32I.f_and, narrow, sextImm_full, dest, left, right, step32_retire regs inst size]
  rfl

end Narrow
end Values

section Immediates
variable (imm : BitVec 12)

theorem tdU64_imm : tdU64 ((imm.setWidth 32).setWidth 64) 12 = imm.signExtend 64 := by
  rw [BitVec.setWidth_setWidth (by decide)]
  exact twosComplement_setWidth imm (by decide) (by decide)

theorem sext_imm : sext ((imm.setWidth 32).setWidth 64) 12 = imm.signExtend 64 := by
  rw [BitVec.setWidth_setWidth (by decide)]
  exact sext_setWidth imm (by decide) (by decide)

theorem tdU32_imm : tdU32 (imm.setWidth 32) 12 = imm.signExtend 32 :=
  twosComplement_setWidth imm (by decide) (by decide)

theorem sextImm_imm : sextImm (imm.setWidth 32) 12 = imm.signExtend 32 :=
  sextImm_setWidth imm (by decide) (by decide)

theorem upper_shift (imm : BitVec 20) : imm.setWidth 32 <<< 12 = imm ++ 0#12 := by
  apply BitVec.eq_of_getLsbD_eq
  intro i inside
  simp only [BitVec.getLsbD_shiftLeft, BitVec.getLsbD_setWidth, BitVec.getLsbD_append]
  by_cases low : i < 12
  · simp [low]
  · simp [low, inside, show i - 12 < 32 by omega]

-- The shift functions use the low six or five bits of the immediate.
theorem shamt_mask (imm : BitVec 32) (shamt : BitVec 6) (low : imm.setWidth 6 = shamt) :
    (imm &&& 0x3F).toNat = shamt.toNat := by
  have masked : imm &&& 0x3F = shamt.setWidth 32 := low ▸ low_mask imm 6
  rw [masked, BitVec.toNat_setWidth_of_le (by decide)]

theorem shamt_mask_narrow (imm : BitVec 32) (shamt : BitVec 5)
    (low : imm.setWidth 6 = shamt.setWidth 6) : (imm &&& 0x1F).toNat = shamt.toNat := by
  have five : imm.setWidth 5 = shamt := by
    have cut := congrArg (BitVec.setWidth 5) low
    rwa [BitVec.setWidth_setWidth_of_le _ (by decide), BitVec.setWidth_setWidth (by decide),
      BitVec.setWidth_eq] at cut
  have masked : imm &&& 0x1F = shamt.setWidth 32 := five ▸ low_mask imm 5
  rw [masked, BitVec.toNat_setWidth_of_le (by decide)]

end Immediates

def AluImm.func {n : Nat} : AluImm n → ImplFunc
  | .upper op _ _ => upperFunc op
  | .arith op _ _ _ => immFunc op
  | .shift op _ _ _ => shiftFunc op

section Meaning
variable (overshift : BitVec 64) (feature : RevFeature) (regs : RevRegFile) (inst : RevInst)

/-- The registers the manual leaves behind an instruction without a memory access. -/
def meant {w : Nat} (mode : Xlen w) (insn : Insn) : RevRegFile :=
  (isaStep mode 4 regs (.int insn)).finish 0

theorem aluImm_wide (wide : isRV32 feature = false) (insn : AluImm 6)
    (carries : Carries insn.toInsn inst) :
    execAlu overshift feature regs inst insn.func = some (.done (meant regs rv64 insn.toInsn)) := by
  obtain ⟨dest, left, -, value, size, -⟩ := carries
  cases insn with
  | upper op rd imm =>
    have placed : sext ((inst.imm <<< 12).setWidth 64) 32 = (imm ++ 0#12).signExtend 64 := by
      rw [show inst.imm = imm.setWidth 32 from value, upper_shift]
      exact sext_setWidth (imm ++ 0#12) (by decide) (by decide)
    cases op with
    | lui =>
      refine congrArg some ((lui_wide feature regs inst rd size dest wide).trans ?_)
      rw [placed]
      rfl
    | auipc =>
      refine congrArg some ((auipc_wide feature regs inst rd size dest wide).trans ?_)
      rw [placed, BitVec.add_comm]
      rfl
  | arith op rd rs1 imm =>
    have same : inst.imm = imm.setWidth 32 := value
    cases op with
    | addi =>
      refine congrArg some ((addi_wide feature regs inst rd rs1 size dest left wide).trans ?_)
      rw [same, tdU64_imm]
      rfl
    | slti =>
      refine congrArg some ((slti_wide feature regs inst rd rs1 size dest left wide).trans ?_)
      rw [same, tdU64_imm]
      rfl
    | sltiu =>
      refine congrArg some ((sltiu_wide feature regs inst rd rs1 size dest left wide).trans ?_)
      rw [same, sext_imm]
      rfl
    | xori =>
      refine congrArg some ((xori_wide feature regs inst rd rs1 size dest left wide).trans ?_)
      rw [same, sext_imm]
      rfl
    | ori =>
      refine congrArg some ((ori_wide feature regs inst rd rs1 size dest left wide).trans ?_)
      rw [same, sext_imm]
      rfl
    | andi =>
      refine congrArg some ((andi_wide feature regs inst rd rs1 size dest left wide).trans ?_)
      rw [same, sext_imm]
      rfl
  | shift op rd rs1 shamt =>
    have amount : (inst.imm &&& 0x3F).toNat = (shamt.setWidth 6).toNat :=
      shamt_mask inst.imm _ value
    cases op with
    | slli =>
      refine congrArg some ((slli_wide feature regs inst rd rs1 size dest left wide).trans ?_)
      rw [amount]
      rfl
    | srli =>
      refine congrArg some ((srli_wide feature regs inst rd rs1 size dest left wide).trans ?_)
      rw [amount]
      rfl
    | srai =>
      refine congrArg some ((srai_wide feature regs inst rd rs1 size dest left wide).trans ?_)
      rw [amount]
      rfl

theorem aluImm_narrow (narrow : isRV32 feature = true) (insn : AluImm 5)
    (carries : Carries insn.toInsn inst) :
    execAlu overshift feature regs inst insn.func = some (.done (meant regs rv32 insn.toInsn)) := by
  obtain ⟨dest, left, -, value, size, -⟩ := carries
  cases insn with
  | upper op rd imm =>
    have placed : inst.imm <<< 12 = (imm ++ 0#12).signExtend 32 := by
      rw [show inst.imm = imm.setWidth 32 from value, upper_shift, BitVec.signExtend_eq]
    cases op with
    | lui =>
      refine congrArg some ((lui_narrow feature regs inst rd size dest narrow).trans ?_)
      rw [placed]
      rfl
    | auipc =>
      refine congrArg some ((auipc_narrow feature regs inst rd size dest narrow).trans ?_)
      rw [placed, BitVec.add_comm]
      rfl
  | arith op rd rs1 imm =>
    have same : inst.imm = imm.setWidth 32 := value
    cases op with
    | addi =>
      refine congrArg some ((addi_narrow feature regs inst rd rs1 size dest left narrow).trans ?_)
      rw [same, tdU32_imm]
      rfl
    | slti =>
      refine congrArg some ((slti_narrow feature regs inst rd rs1 size dest left narrow).trans ?_)
      rw [same, tdU32_imm]
      rfl
    | sltiu =>
      refine congrArg some ((sltiu_narrow feature regs inst rd rs1 size dest left narrow).trans ?_)
      rw [same, sextImm_imm]
      rfl
    | xori =>
      refine congrArg some ((xori_narrow feature regs inst rd rs1 size dest left narrow).trans ?_)
      rw [same, sextImm_imm]
      rfl
    | ori =>
      refine congrArg some ((ori_narrow feature regs inst rd rs1 size dest left narrow).trans ?_)
      rw [same, sextImm_imm]
      rfl
    | andi =>
      refine congrArg some ((andi_narrow feature regs inst rd rs1 size dest left narrow).trans ?_)
      rw [same, sextImm_imm]
      rfl
  | shift op rd rs1 shamt =>
    have amount : (inst.imm &&& 0x1F).toNat = (shamt.setWidth 6).toNat := by
      rw [shamt_mask_narrow inst.imm shamt value, BitVec.toNat_setWidth_of_le (by decide)]
    cases op with
    | slli =>
      refine congrArg some ((slli_narrow feature regs inst rd rs1 size dest left narrow).trans ?_)
      rw [amount]
      rfl
    | srli =>
      refine congrArg some ((srli_narrow feature regs inst rd rs1 size dest left narrow).trans ?_)
      rw [amount]
      rfl
    | srai =>
      refine congrArg some ((srai_narrow feature regs inst rd rs1 size dest left narrow).trans ?_)
      rw [amount]
      rfl

def regValue : RegOp → BitVec 64 → BitVec 64 → BitVec 64
  | .slt, a, b => if (a.setWidth 32).slt (b.setWidth 32) then 1 else 0
  | .srl, a, b => (a >>> (b.toNat % 32)) &&& (overshift - 1)
  | op, a, b => rValue op.toROp a b

section Register
variable (op : RegOp) (rd rs1 rs2 : BitVec 5)
variable (carries : Carries (.r op.toROp rd rs1 rs2) inst)
include carries

theorem aluReg_wide (wide : isRV32 feature = false) :
    execAlu overshift feature regs inst (regFunc op) =
      some (.done (retire rv64 4 regs rd
        (regValue overshift op (reg rv64 regs rs1) (reg rv64 regs rs2)))) := by
  obtain ⟨dest, left, right, -, size, -⟩ := carries
  cases op with
  | add => exact congrArg some (add_wide feature regs inst rd rs1 rs2 size dest left right wide)
  | sub => exact congrArg some (sub_wide feature regs inst rd rs1 rs2 size dest left right wide)
  | sll => exact congrArg some (sll_wide feature regs inst rd rs1 rs2 size dest left right wide)
  | slt => exact congrArg some (slt_wide feature regs inst rd rs1 rs2 size dest left right wide)
  | sltu => exact congrArg some (sltu_wide feature regs inst rd rs1 rs2 size dest left right wide)
  | xor => exact congrArg some (xor_wide feature regs inst rd rs1 rs2 size dest left right wide)
  | srl =>
    exact congrArg some
      (srl_wide feature regs inst rd rs1 rs2 size dest left right wide overshift)
  | sra => exact congrArg some (sra_wide feature regs inst rd rs1 rs2 size dest left right wide)
  | or => exact congrArg some (or_wide feature regs inst rd rs1 rs2 size dest left right wide)
  | and => exact congrArg some (and_wide feature regs inst rd rs1 rs2 size dest left right wide)

theorem aluReg_narrow (narrow : isRV32 feature = true) :
    execAlu overshift feature regs inst (regFunc op) =
      some (.done (meant regs rv32 (.r op.toROp rd rs1 rs2))) := by
  obtain ⟨dest, left, right, -, size, -⟩ := carries
  cases op with
  | add => exact congrArg some (add_narrow feature regs inst rd rs1 rs2 size dest left right narrow)
  | sub => exact congrArg some (sub_narrow feature regs inst rd rs1 rs2 size dest left right narrow)
  | sll => exact congrArg some (sll_narrow feature regs inst rd rs1 rs2 size dest left right narrow)
  | slt => exact congrArg some (slt_narrow feature regs inst rd rs1 rs2 size dest left right narrow)
  | sltu =>
    exact congrArg some (sltu_narrow feature regs inst rd rs1 rs2 size dest left right narrow)
  | xor => exact congrArg some (xor_narrow feature regs inst rd rs1 rs2 size dest left right narrow)
  | srl =>
    exact congrArg some
      (srl_narrow feature regs inst rd rs1 rs2 size dest left right narrow overshift)
  | sra => exact congrArg some (sra_narrow feature regs inst rd rs1 rs2 size dest left right narrow)
  | or => exact congrArg some (or_narrow feature regs inst rd rs1 rs2 size dest left right narrow)
  | and => exact congrArg some (and_narrow feature regs inst rd rs1 rs2 size dest left right narrow)

end Register
end Meaning

section Conditions
variable (overshift a b : BitVec 64)

/-- The order of the low words is the order of the whole: where the upper words agree the low ones
have the same sign, elsewhere the two pairs of words are ordered alike. -/
def LowOrdered : Prop :=
  if a.extractLsb' 32 32 = b.extractLsb' 32 32 then a.getLsbD 31 = b.getLsbD 31
  else (a.extractLsb' 32 32).slt (b.extractLsb' 32 32) = (a.setWidth 32).slt (b.setWidth 32)

/-- The mask of ZEXT64 takes from `a`, shifted by the five bits the code keeps, what the sixth bit
of the amount would have taken. -/
def ShiftKept : Prop :=
  let kept := a >>> (b.toNat % 32)
  kept &&& (overshift - 1#64) = if b.getLsbD 5 then kept >>> 32 else kept

def RegKept : RegOp → Prop
  | .slt => LowOrdered a b
  | .srl => ShiftKept overshift a b
  | _ => True

instance : Decidable (LowOrdered a b) := inferInstanceAs (Decidable (ite _ _ _))

theorem lowOrdered_iff :
    (a.setWidth 32).slt (b.setWidth 32) = a.slt b ↔ LowOrdered a b := by
  have halves : ∀ x : BitVec 64, x.extractLsb' 32 32 ++ x.setWidth 32 = x := by
    intro x
    apply BitVec.eq_of_getLsbD_eq
    intro i inside
    simp only [BitVec.getLsbD_append, BitVec.getLsbD_extractLsb', BitVec.getLsbD_setWidth]
    by_cases low : i < 32
    · simp [low]
    · simp [low, show i - 32 < 32 by omega, show 32 + (i - 32) = i by omega]
  have whole : a.slt b = if a.extractLsb' 32 32 = b.extractLsb' 32 32 then
      (a.setWidth 32).ult (b.setWidth 32)
      else (a.extractLsb' 32 32).slt (b.extractLsb' 32 32) := by
    rw [← Bits.slt_append _ _ _ _ (by decide), halves a, halves b]
  have sign : ∀ x : BitVec 64, (x.setWidth 32).msb = x.getLsbD 31 := by
    intro x
    simp [BitVec.msb_eq_getLsbD_last]
  rw [whole, LowOrdered]
  by_cases equal : a.extractLsb' 32 32 = b.extractLsb' 32 32
  · rw [if_pos equal, if_pos equal, BitVec.slt_eq_ult, sign, sign]
    cases a.getLsbD 31 <;> cases b.getLsbD 31 <;> simp
  · rw [if_neg equal, if_neg equal]
    exact eq_comm

theorem sixth_bit : b.toNat % 64 = b.toNat % 32 + if b.getLsbD 5 then 32 else 0 := by
  have bit : b.getLsbD 5 = decide (b.toNat / 32 % 2 = 1) := by
    rw [BitVec.getLsbD, Nat.testBit_eq_decide_div_mod_eq]
  by_cases set : b.toNat / 32 % 2 = 1
  · rw [bit, decide_eq_true set, if_pos rfl]
    omega
  · rw [bit, decide_eq_false set, if_neg Bool.false_ne_true]
    omega

theorem shiftKept_iff :
    (a >>> (b.toNat % 32)) &&& (overshift - 1) = a >>> (b.toNat % 64) ↔
      ShiftKept overshift a b := by
  rw [sixth_bit, ShiftKept, BitVec.shiftRight_add]
  cases b.getLsbD 5 <;> simp

-- With the value 0 that GCC folds the shift to, the mask keeps everything.
theorem shiftKept_zero : ShiftKept 0 a b ↔ b.getLsbD 5 = false ∨ a.toNat < 2 ^ (b.toNat % 32) := by
  have every : ∀ x : BitVec 64, x &&& (0 - 1#64) = x := by
    intro x
    rw [show 0 - 1#64 = BitVec.allOnes 64 by decide, BitVec.and_allOnes]
  rw [ShiftKept, every]
  cases sixth : b.getLsbD 5 with
  | false => simp
  | true =>
    have value : (a >>> (b.toNat % 32)).toNat = a.toNat / 2 ^ (b.toNat % 32) := by
      rw [BitVec.toNat_ushiftRight, Nat.shiftRight_eq_div_pow]
    simp only [if_true, Bool.true_eq_false, false_or]
    rw [← BitVec.toNat_inj, BitVec.toNat_ushiftRight (a >>> (b.toNat % 32)) 32, value,
      Nat.shiftRight_eq_div_pow, ← Nat.div_eq_zero_iff_lt (Nat.two_pow_pos _)]
    omega

theorem regValue_iff (op : RegOp) :
    regValue overshift op a b = rValue op.toROp a b ↔ RegKept overshift a b op := by
  cases op with
  | slt =>
    refine Iff.trans ?_ (lowOrdered_iff a b)
    simp only [regValue, RegOp.toROp, rValue]
    cases (a.setWidth 32).slt (b.setWidth 32) <;> cases a.slt b <;> decide
  | srl => exact shiftKept_iff overshift a b
  | _ => exact iff_of_true rfl trivial

end Conditions

section Agreement
variable (overshift : BitVec 64) (feature : RevFeature) (coProc : Option (BitVec 32 → Bool))
variable (junk : RevInst) (regs : RevRegFile) (base : isModeEnabled feature .RV_I = true)

theorem imm_named {n : Nat} (insn : AluImm n) : rowNames insn.toInsn.op insn.func = true := by
  have upper : ∀ op, rowNames (.u op) (upperFunc op) = true := by
    intro op
    cases op <;> decide
  have arith : ∀ op : ImmOp, rowNames (.i op.toIOp) (immFunc op) = true := by
    intro op
    cases op <;> decide
  have shift : ∀ op, rowNames (.shift op) (shiftFunc op) = true := by
    intro op
    cases op <;> decide
  cases insn with
  | upper op => exact upper op
  | arith op => exact arith op
  | shift op => exact shift op

theorem reg_named (op : RegOp) : rowNames (.r op.toROp) (regFunc op) = true := by
  cases op <;> decide

theorem imm_meant {w n : Nat} (mode : Xlen w) (insn : AluImm n) :
    isaStep mode 4 regs (.int insn.toInsn) = .done (meant regs mode insn.toInsn) := by
  cases insn with
  | upper op => cases op <;> rfl
  | arith op => cases op <;> rfl
  | shift op => cases op <;> rfl

include base in
/-- Every upper-immediate and register-immediate instruction of RV64, with any operands. -/
theorem immediate_meets_isa (wide : feature.xlen = 64) (insn : AluImm 6) :
    BaseAgrees rv64 (execAlu overshift feature regs) feature coProc junk regs insn.toInsn := by
  have rv : isRV32 feature = false := by simp [isRV32, wide]
  refine (baseAgrees_iff feature base rv64 _ coProc junk regs insn.toInsn insn.func True
    (imm_named insn) ?_).mpr trivial
  intro inst carries
  refine ⟨_, aluImm_wide overshift feature regs inst rv insn carries, iff_of_true ?_ trivial⟩
  rw [imm_meant, means_done_iff]

theorem immediate_meets_isa_srai :
    BaseAgrees rv64 (execAlu 0 { features := 2, xlen := 64, minCost := 1, maxCost := 1 } default)
      { features := 2, xlen := 64, minCost := 1, maxCost := 1 } none default default
      (AluImm.shift .srai 5 5 40#6).toInsn :=
  immediate_meets_isa 0 { features := 2, xlen := 64, minCost := 1, maxCost := 1 } none default
    default (by decide) rfl (.shift .srai 5 5 40#6)

include base in
-- The comparison is one of values, unless the destination is x0.
theorem register_agrees_iff (wide : feature.xlen = 64) (op : RegOp) (rd rs1 rs2 : BitVec 5) :
    BaseAgrees rv64 (execAlu overshift feature regs) feature coProc junk regs
        (.r op.toROp rd rs1 rs2) ↔
      rd = 0 ∨ regValue overshift op (reg rv64 regs rs1) (reg rv64 regs rs2) =
        rValue op.toROp (reg rv64 regs rs1) (reg rv64 regs rs2) := by
  have rv : isRV32 feature = false := by simp [isRV32, wide]
  refine baseAgrees_iff feature base rv64 _ coProc junk regs _ (regFunc op) _ (reg_named op) ?_
  intro inst carries
  refine ⟨_, aluReg_wide overshift feature regs inst op rd rs1 rs2 carries rv, ?_⟩
  exact (means_done_iff _ _).trans (retire_iff regs rd _ _)

include base in
/-- A register form of RV64 means what the manual says exactly where the low words decide slt and
the five bits of srl suffice, or the result is dropped. -/
theorem register_meets_isa_iff (wide : feature.xlen = 64) (op : RegOp) (rd rs1 rs2 : BitVec 5) :
    BaseAgrees rv64 (execAlu overshift feature regs) feature coProc junk regs
        (.r op.toROp rd rs1 rs2) ↔
      rd = 0 ∨ RegKept overshift (reg rv64 regs rs1) (reg rv64 regs rs2) op := by
  rw [register_agrees_iff overshift feature coProc junk regs base wide, regValue_iff]

/-- Two negative numbers: the upper words agree and so do the signs of the lower ones. -/
theorem register_meets_isa_iff_slt :
    BaseAgrees rv64
      (execAlu 0 { features := 2, xlen := 64, minCost := 1, maxCost := 1 }
        { (default : RevRegFile) with rv64 := fun index => if index = 6 then -7 else -3 })
      { features := 2, xlen := 64, minCost := 1, maxCost := 1 } none default
      { (default : RevRegFile) with rv64 := fun index => if index = 6 then -7 else -3 }
      (.r RegOp.slt.toROp 5 6 7) :=
  (register_meets_isa_iff 0 { features := 2, xlen := 64, minCost := 1, maxCost := 1 } none default
    { (default : RevRegFile) with rv64 := fun index => if index = 6 then -7 else -3 } (by decide)
    rfl .slt 5 6 7).mpr (.inr (by decide : LowOrdered (-7) (-3)))

/-- slt x5, x6, x7 on x6 = 2^32 - 1 and x7 = 0 yields 1, and srl x5, x6, x7 shifts 2^40 by 0 when
x7 = 32. -/
theorem register_slt_low_words :
    ¬ BaseAgrees rv64
      (execAlu 0 { features := 2, xlen := 64, minCost := 1, maxCost := 1 }
        { (default : RevRegFile) with rv64 := fun index => if index = 6 then 0xFFFFFFFF else 0 })
      { features := 2, xlen := 64, minCost := 1, maxCost := 1 } none default
      { (default : RevRegFile) with rv64 := fun index => if index = 6 then 0xFFFFFFFF else 0 }
      (.r RegOp.slt.toROp 5 6 7) ∧
    ¬ BaseAgrees rv64
      (execAlu 0 { features := 2, xlen := 64, minCost := 1, maxCost := 1 }
        { (default : RevRegFile) with rv64 := fun index => if index = 6 then 2 ^ 40 else 32 })
      { features := 2, xlen := 64, minCost := 1, maxCost := 1 } none default
      { (default : RevRegFile) with rv64 := fun index => if index = 6 then 2 ^ 40 else 32 }
      (.r RegOp.srl.toROp 5 6 7) := by
  constructor
  · rw [register_agrees_iff _ _ _ _ _ (by decide) rfl]
    decide
  · rw [register_agrees_iff _ _ _ _ _ (by decide) rfl]
    decide

inductive AluNarrow where
  | immediate (insn : AluImm 5)
  | register (op : RegOp) (rd rs1 rs2 : BitVec 5)
deriving DecidableEq, Repr

def AluNarrow.toInsn : AluNarrow → Insn
  | .immediate insn => insn.toInsn
  | .register op rd rs1 rs2 => .r op.toROp rd rs1 rs2

include base in
/-- Every arithmetic instruction of RV32, with any operands; the RV64 registers stay. -/
theorem narrow_meets_isa (narrow : feature.xlen = 32) (insn : AluNarrow) :
    BaseAgrees rv32 (execAlu overshift feature regs) feature coProc junk regs insn.toInsn := by
  have rv : isRV32 feature = true := by simp [isRV32, narrow]
  cases insn with
  | immediate insn =>
    refine (baseAgrees_iff feature base rv32 _ coProc junk regs insn.toInsn insn.func True
      (imm_named insn) ?_).mpr trivial
    intro inst carries
    refine ⟨_, aluImm_narrow overshift feature regs inst rv insn carries, iff_of_true ?_ trivial⟩
    rw [imm_meant, means_done_iff]
  | register op rd rs1 rs2 =>
    refine (baseAgrees_iff feature base rv32 _ coProc junk regs (.r op.toROp rd rs1 rs2)
      (regFunc op) True (reg_named op) ?_).mpr trivial
    intro inst carries
    refine ⟨_, aluReg_narrow overshift feature regs inst op rd rs1 rs2 carries rv,
      iff_of_true ?_ trivial⟩
    exact (means_done_iff _ (meant regs rv32 (.r op.toROp rd rs1 rs2))).mpr rfl

theorem narrow_meets_isa_sra :
    BaseAgrees rv32 (execAlu 0 { features := 2, xlen := 32, minCost := 1, maxCost := 1 } default)
      { features := 2, xlen := 32, minCost := 1, maxCost := 1 } none default default
      (AluNarrow.register .sra 5 5 5).toInsn :=
  narrow_meets_isa 0 { features := 2, xlen := 32, minCost := 1, maxCost := 1 } none default default
    (by decide) rfl (.register .sra 5 5 5)

end Agreement
end RevCPU.BaseArith
