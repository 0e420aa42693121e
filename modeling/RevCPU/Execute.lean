import RevCPU.BaseMem
import RevCPU.CompressedArith
import RevCPU.CompressedJump
import RevCPU.CompressedMem
import RevCPU.ControlTransfer
import RevCPU.Divide
import RevCPU.WordArith
/-!
The table functions as one, and the code of an RV64IMC program: 32-bit and 16-bit instructions with
their encodings. Where an instruction is kept, what DecodeInst makes of its word and the function of
the row it finds mean what the manual says of it.
-/
namespace RevCPU.Execute
open Feature InstTable Seed Decode DecodeCompressed RegFile Insns Manual ManualCompressed Isa
open BaseArith (BaseAgrees basePlan)
open CompressedDecode (Agrees compressedPlan)

/-- What the table functions leave to the host: three shifts past the width of their operand, and the
conversion of a double. -/
structure Host where
  shift64 : BitVec 64
  shift32 : BitVec 32 → Nat → BitVec 32
  high32 : BitVec 32 → BitVec 32
  convert : BitVec 64 → BitVec 32

section Functions
variable (host : Host) (feature : RevFeature) (regs : RevRegFile) (inst : RevInst)

/-- The function that a row names; a trap of the host's division and what is not modelled have none. -/
def tableFunc (func : ImplFunc) : Option Plan :=
  (BaseArith.execAlu host.shift64 feature regs inst func).or <|
  (WordArith.execWord host.shift32 regs inst func).or <|
  (ControlTransfer.execTransfer feature regs inst func).or <|
  (Multiply.execMul host.high32 feature regs inst func).or <|
  (Divide.execDiv feature regs inst func).or <|
  (BaseMem.execMem feature regs inst func).or <|
  execFunc host.convert feature regs inst func

variable {func : ImplFunc} {plan : Plan}

theorem tableFunc_alu (ran : BaseArith.execAlu host.shift64 feature regs inst func = some plan) :
    tableFunc host feature regs inst func = some plan := by
  rw [tableFunc, ran, Option.some_or]

theorem tableFunc_word (ran : WordArith.execWord host.shift32 regs inst func = some plan) :
    tableFunc host feature regs inst func = some plan := by
  cases func with
  | rv64i func => exact (congrArg (Option.or · _) ran).trans rfl
  | _ => cases ran

theorem tableFunc_transfer (ran : ControlTransfer.execTransfer feature regs inst func = some plan) :
    tableFunc host feature regs inst func = some plan := by
  cases func with
  | rv32i func => cases func <;> first | exact ran | cases ran
  | _ => cases ran

theorem tableFunc_mul (ran : Multiply.execMul host.high32 feature regs inst func = some plan) :
    tableFunc host feature regs inst func = some plan := by
  cases func with
  | rv32m func => exact (congrArg (Option.or · _) ran).trans rfl
  | rv64m func => exact (congrArg (Option.or · _) ran).trans rfl
  | _ => cases ran

theorem tableFunc_div (ran : Divide.execDiv feature regs inst func = some plan) :
    tableFunc host feature regs inst func = some plan := by
  cases func with
  | rv32m func => cases func <;> exact (congrArg (Option.or · _) ran).trans rfl
  | rv64m func => cases func <;> exact (congrArg (Option.or · _) ran).trans rfl
  | _ => cases ran

theorem tableFunc_mem (ran : BaseMem.execMem feature regs inst func = some plan) :
    tableFunc host feature regs inst func = some plan := by
  cases func with
  | rv32i func => cases func <;> first | exact ran | cases ran
  | rv64i func => cases func <;> first | exact ran | cases ran
  | _ => cases ran

theorem tableFunc_compressed (ran : execFunc host.convert feature regs inst func = some plan) :
    tableFunc host feature regs inst func = some plan := by
  cases func with
  | rv32i func => cases func <;> first | exact ran | cases ran
  | rv64i func => cases func <;> first | exact ran | cases ran
  | rv32f func => exact ran
  | rv32d func => exact ran
  | _ => cases ran

end Functions

/-- An instruction as the pipeline hands it on: the fields of the pipeline are not read. -/
theorem tableFunc_stamped (host : Host) (feature : RevFeature) (regs : RevRegFile) (inst : RevInst)
    (entry : Nat) (cost : BitVec 32) (hazard : Option Bool) (func : ImplFunc) :
    tableFunc host feature regs { inst with entry := entry, cost := cost, hazard := hazard } func =
      tableFunc host feature regs inst func := by
  cases func with
  | rv32i func => cases func <;> rfl
  | rv64i func => cases func <;> rfl
  | rv32m func => cases func <;> rfl
  | rv64m func => cases func <;> rfl
  | rv32f func => cases func <;> rfl
  | rv32d func => cases func <;> rfl
  | _ => rfl

section Plans
variable (feature : RevFeature) (coProc : Option (BitVec 32 → Bool)) (junk : RevInst)

theorem basePlan_widens {exec wider : RevInst → ImplFunc → Option Plan}
    (widens : ∀ inst func plan, exec inst func = some plan → wider inst func = some plan)
    {word : BitVec 32} {plan : Plan}
    (planned : basePlan exec feature coProc junk word = some plan) :
    basePlan wider feature coProc junk word = some plan := by
  rw [basePlan] at planned ⊢
  split at planned
  · cases planned
  · split at planned
    · cases planned
    · exact widens _ _ plan planned

theorem basePlan_short (narrow : BitVec 64 → BitVec 32) (regs : RevRegFile) {word : BitVec 32}
    (nonzero : word.setWidth 16 ≠ 0) (short : word.setWidth 16 &&& 0b11 ≠ 0b11#16) :
    basePlan (fun inst func => execFunc narrow feature regs inst func) feature coProc junk word =
      compressedPlan narrow feature coProc junk regs word := by
  have whole : word ≠ 0 := by
    rintro rfl
    exact nonzero rfl
  have half : ¬ opcodeOf word &&& 0b11 = 0b11 := by
    intro full
    have masked : opcodeOf word &&& 0b11 = word &&& 0b11 := by
      rw [opcodeOf, BitVec.and_assoc]
      rfl
    rw [masked] at full
    have low := congrArg (BitVec.setWidth 16) full
    rw [BitVec.setWidth_and] at low
    exact short low
  have intact : word ||| (none : Option (BitVec 32)).getD 0 = word := BitVec.or_zero
  have decoded : decodeInst feature (seedInstTable feature) coProc none junk word =
      decodeCompressed feature (seedInstTable feature) coProc junk word := by
    rw [decodeInst, if_neg whole]
    simp only [intact, if_neg half]
  rw [compressedPlan, ← decoded]
  rfl

end Plans
section Wide
variable (host : Host) (feature : RevFeature) (coProc : Option (BitVec 32 → Bool))
variable (junk : RevInst) (regs : RevRegFile)

theorem baseAgrees_widens {w : Nat} {mode : Xlen w} {exec : RevInst → ImplFunc → Option Plan}
    (widens : ∀ inst func plan, exec inst func = some plan →
      tableFunc host feature regs inst func = some plan) {insn : Insn}
    (agrees : BaseAgrees mode exec feature coProc junk regs insn) :
    BaseAgrees mode (tableFunc host feature regs) feature coProc junk regs insn := by
  obtain ⟨plan, planned, means⟩ := agrees
  exact ⟨plan, basePlan_widens feature coProc junk widens planned, means⟩

/-- Where a register operation writes the value of the manual. -/
def ValueKept : ROp → BitVec 64 → BitVec 64 → Prop
  | .slt, a, b => BaseArith.LowOrdered a b
  | .srl, a, b => BaseArith.ShiftKept host.shift64 a b
  | .sraw, a, b => WordArith.AmountKept host.shift32 a b
  | .mulhsu, a, b => Multiply.MixedKept a b
  | .remu, a, b => Divide.RemKept .unsigned a b
  | .remw, a, b => Divide.RemKept .signedWord a b
  | .remuw, a, b => Divide.RemKept .unsignedWord a b
  | _, _, _ => True

/-- Where a 32-bit instruction means what the manual says, on these registers. -/
def InsnKept : Insn → Prop
  | .r op rd rs1 rs2 => rd = 0 ∨ ValueKept host op (reg rv64 regs rs1) (reg rv64 regs rs2)
  | .shiftW .srliw rd rs1 shamt => WordArith.WordKept host.shift32 regs (.shift .srliw rd rs1 shamt)
  | .jal _ offset => ControlTransfer.InReach offset
  | _ => True

variable (wide : feature.xlen = 64) (base : isModeEnabled feature .RV_I = true)
include wide base

theorem imm_agrees (insn : BaseArith.AluImm 6) :
    BaseAgrees rv64 (tableFunc host feature regs) feature coProc junk regs insn.toInsn := by
  have rv : isRV32 feature = false := by simp [isRV32, wide]
  refine (BaseArith.baseAgrees_iff feature base rv64 _ coProc junk regs insn.toInsn insn.func True
    (BaseArith.imm_named insn) ?_).mpr trivial
  intro inst carries
  have ran := BaseArith.aluImm_wide host.shift64 feature regs inst rv insn carries
  refine ⟨_, tableFunc_alu host feature regs inst ran, iff_of_true ?_ trivial⟩
  rw [BaseArith.imm_meant, means_done_iff]

theorem transfer_agrees (insn : ControlTransfer.Transfer) :
    BaseAgrees rv64 (tableFunc host feature regs) feature coProc junk regs insn.toInsn := by
  have rv : isRV32 feature = false := by simp [isRV32, wide]
  refine (BaseArith.baseAgrees_iff feature base rv64 _ coProc junk regs insn.toInsn insn.func True
    (ControlTransfer.transfer_named insn) ?_).mpr trivial
  intro inst carries
  obtain ⟨plan, ran, means⟩ := ControlTransfer.exec_wide feature regs rv inst insn carries
  exact ⟨plan, tableFunc_transfer host feature regs inst ran, iff_of_true means trivial⟩

theorem load_agrees (op : BaseMem.LoadOp) (rd rs1 : BitVec 5) (imm : BitVec 12) :
    BaseAgrees rv64 (tableFunc host feature regs) feature coProc junk regs
      (.i op.toIOp rd rs1 imm) := by
  have rv : isRV32 feature = false := by simp [isRV32, wide]
  obtain ⟨inst, carries, decoded⟩ :=
    BaseMem.load_decoded feature coProc junk regs base wide op rd rs1 imm
  obtain ⟨plan, ran, means⟩ := BaseMem.load_wide_means feature regs inst rd rs1 imm carries.size
    carries.rd carries.rs1 carries.imm rv op
  exact baseAgrees_widens host feature coProc junk regs
    (fun inst _ _ => tableFunc_mem host feature regs inst) ⟨plan, decoded.trans ran, means⟩

theorem store_agrees (op : SOp) (rs1 rs2 : BitVec 5) (imm : BitVec 12) :
    BaseAgrees rv64 (tableFunc host feature regs) feature coProc junk regs (.s op rs1 rs2 imm) := by
  have rv : isRV32 feature = false := by simp [isRV32, wide]
  refine (BaseArith.baseAgrees_row feature rv64 _ coProc junk regs (.s op rs1 rs2 imm) True
    (IntTables.rv32ITable ++ IntTables.rv64ITable) (BaseMem.named (BaseMem.storeFunc op))
    (DecodeBase.base_rows_first feature wide base) (BaseMem.store_listed op) ?_).mpr trivial
  intro row inst _ named _ carries
  obtain ⟨plan, ran, means⟩ := BaseMem.store_wide_means feature regs inst rs1 rs2 imm carries.size
    carries.rs1 carries.rs2 carries.imm rv op
  rw [of_decide_eq_true named]
  exact ⟨plan, tableFunc_mem host feature regs inst ran, iff_of_true means trivial⟩

section Registers
variable (rd rs1 rs2 : BitVec 5)

theorem alu_agrees (op : BaseArith.RegOp)
    (kept : rd = 0 ∨ BaseArith.RegKept host.shift64 (reg rv64 regs rs1) (reg rv64 regs rs2) op) :
    BaseAgrees rv64 (tableFunc host feature regs) feature coProc junk regs
      (.r op.toROp rd rs1 rs2) := by
  rw [← BaseArith.regValue_iff] at kept
  exact baseAgrees_widens host feature coProc junk regs
    (fun inst _ _ => tableFunc_alu host feature regs inst)
    ((BaseArith.register_agrees_iff host.shift64 feature coProc junk regs base wide op rd rs1
      rs2).mpr kept)

theorem word_agrees (op : WordArith.WordOp)
    (kept : WordArith.WordKept host.shift32 regs (.register op rd rs1 rs2)) :
    BaseAgrees rv64 (tableFunc host feature regs) feature coProc junk regs
      (.r op.toROp rd rs1 rs2) := by
  refine (BaseArith.baseAgrees_row feature rv64 _ coProc junk regs (.r op.toROp rd rs1 rs2) True
    (IntTables.rv32ITable ++ IntTables.rv64ITable)
    (fun row => decide (row.func = WordArith.wordFunc op))
    (DecodeBase.base_rows_first feature wide base) (WordArith.register_listed op) ?_).mpr trivial
  intro row inst _ named _ carries
  obtain ⟨plan, ran, meaning⟩ :=
    WordArith.register_agrees_iff host.shift32 regs inst op rd rs1 rs2 carries
  rw [of_decide_eq_true named]
  exact ⟨plan, tableFunc_word host feature regs inst ran, iff_of_true (meaning.mpr kept) trivial⟩

variable (mul : isModeEnabled feature .RV_M = true)
include mul
omit base

theorem mul_agrees (op : Multiply.MulOp)
    (kept : rd = 0 ∨ Multiply.WideKept op (reg rv64 regs rs1) (reg rv64 regs rs2)) :
    BaseAgrees rv64 (tableFunc host feature regs) feature coProc junk regs
      (.r op.toROp rd rs1 rs2) :=
  baseAgrees_widens host feature coProc junk regs
    (fun inst _ _ => tableFunc_mul host feature regs inst)
    ((Multiply.wide_meets_iff host.high32 feature coProc junk regs mul wide op rd rs1 rs2).mpr kept)

theorem quotient_agrees (op : Divide.DivOp) :
    BaseAgrees rv64 (tableFunc host feature regs) feature coProc junk regs
      (.r op.quotient rd rs1 rs2) :=
  baseAgrees_widens host feature coProc junk regs
    (fun inst _ _ => tableFunc_div host feature regs inst)
    ⟨_, Divide.quotient_plan_wide feature coProc junk regs mul op rd rs1 rs2 wide,
      (means_done_iff _ _).mpr rfl⟩

theorem remainder_agrees (op : Divide.DivOp)
    (kept : rd = 0 ∨ Divide.RemKept op (reg rv64 regs rs1) (reg rv64 regs rs2)) :
    BaseAgrees rv64 (tableFunc host feature regs) feature coProc junk regs
      (.r op.remainder rd rs1 rs2) := by
  rw [← Divide.remWide_iff] at kept
  exact baseAgrees_widens host feature coProc junk regs
    (fun inst _ _ => tableFunc_div host feature regs inst)
    ⟨_, Divide.remainder_plan_wide feature coProc junk regs mul op rd rs1 rs2 wide,
      (means_done_iff _ _).mpr ((retire_iff regs rd _ _).mpr kept)⟩

end Registers

theorem register_agrees (op : ROp) (rd rs1 rs2 : BitVec 5)
    (mul : (Op.r op).isMul = true → isModeEnabled feature .RV_M = true)
    (kept : rd = 0 ∨ ValueKept host op (reg rv64 regs rs1) (reg rv64 regs rs2)) :
    BaseAgrees rv64 (tableFunc host feature regs) feature coProc junk regs (.r op rd rs1 rs2) := by
  have alu := alu_agrees host feature coProc junk regs wide base rd rs1 rs2
  have word := word_agrees host feature coProc junk regs wide base rd rs1 rs2
  have times := mul_agrees host feature coProc junk regs wide rd rs1 rs2
  have quotient := quotient_agrees host feature coProc junk regs wide rd rs1 rs2
  have rest := remainder_agrees host feature coProc junk regs wide rd rs1 rs2
  cases op with
  | add => exact alu .add kept
  | sub => exact alu .sub kept
  | sll => exact alu .sll kept
  | slt => exact alu .slt kept
  | sltu => exact alu .sltu kept
  | xor => exact alu .xor kept
  | srl => exact alu .srl kept
  | sra => exact alu .sra kept
  | or => exact alu .or kept
  | and => exact alu .and kept
  | addw => exact word .addw trivial
  | subw => exact word .subw trivial
  | sllw => exact word .sllw trivial
  | srlw => exact word .srlw trivial
  | sraw => exact word .sraw kept
  | mul => exact times (mul rfl) .mul kept
  | mulh => exact times (mul rfl) .mulh kept
  | mulhsu => exact times (mul rfl) .mulhsu kept
  | mulhu => exact times (mul rfl) .mulhu kept
  | mulw => exact times (mul rfl) .mulw kept
  | div => exact quotient (mul rfl) .signed
  | divu => exact quotient (mul rfl) .unsigned
  | divw => exact quotient (mul rfl) .signedWord
  | divuw => exact quotient (mul rfl) .unsignedWord
  | rem => exact rest (mul rfl) .signed (.inr trivial)
  | remu => exact rest (mul rfl) .unsigned kept
  | remw => exact rest (mul rfl) .signedWord kept
  | remuw => exact rest (mul rfl) .unsignedWord kept

theorem shiftW_agrees (op : ShiftWOp) (rd rs1 shamt : BitVec 5)
    (kept : InsnKept host regs (.shiftW op rd rs1 shamt)) :
    BaseAgrees rv64 (tableFunc host feature regs) feature coProc junk regs
      (.shiftW op rd rs1 shamt) := by
  refine baseAgrees_widens host feature coProc junk regs
    (fun inst _ _ => tableFunc_word host feature regs inst)
    ((WordArith.shift_meets_iff host.shift32 feature coProc junk regs base wide op rd rs1
      shamt).mpr ?_)
  cases op with
  | slliw => trivial
  | srliw => exact kept
  | sraiw => trivial

theorem addiw_agrees (rd rs1 : BitVec 5) (imm : BitVec 12) :
    BaseAgrees rv64 (tableFunc host feature regs) feature coProc junk regs
      (.i .addiw rd rs1 imm) := by
  refine (BaseArith.baseAgrees_row feature rv64 _ coProc junk regs (.i .addiw rd rs1 imm) True
    (IntTables.rv32ITable ++ IntTables.rv64ITable) (fun row => decide (row.func = .rv64i .addiw))
    (DecodeBase.base_rows_first feature wide base) WordArith.addiw_listed ?_).mpr trivial
  intro row inst _ named _ carries
  rw [of_decide_eq_true named]
  exact ⟨_, tableFunc_word host feature regs inst rfl,
    iff_of_true (WordArith.addiw_agrees regs inst rd rs1 imm carries) trivial⟩

/-- Every instruction of RV64IM that is kept, decoded and run, means what the manual says. -/
theorem insn_agrees (insn : Insn)
    (mul : insn.op.isMul = true → isModeEnabled feature .RV_M = true)
    (kept : InsnKept host regs insn) :
    BaseAgrees rv64 (tableFunc host feature regs) feature coProc junk regs insn := by
  have imm := imm_agrees host feature coProc junk regs wide base
  have load := load_agrees host feature coProc junk regs wide base
  have transfer := transfer_agrees host feature coProc junk regs wide base
  cases insn with
  | r op rd rs1 rs2 =>
    exact register_agrees host feature coProc junk regs wide base op rd rs1 rs2 mul kept
  | i op rd rs1 value =>
    cases op with
    | jalr => exact transfer (.jalr rd rs1 value)
    | lb => exact load .lb rd rs1 value
    | lh => exact load .lh rd rs1 value
    | lw => exact load .lw rd rs1 value
    | lbu => exact load .lbu rd rs1 value
    | lhu => exact load .lhu rd rs1 value
    | lwu => exact load .lwu rd rs1 value
    | ld => exact load .ld rd rs1 value
    | addi => exact imm (.arith .addi rd rs1 value)
    | slti => exact imm (.arith .slti rd rs1 value)
    | sltiu => exact imm (.arith .sltiu rd rs1 value)
    | xori => exact imm (.arith .xori rd rs1 value)
    | ori => exact imm (.arith .ori rd rs1 value)
    | andi => exact imm (.arith .andi rd rs1 value)
    | addiw => exact addiw_agrees host feature coProc junk regs wide base rd rs1 value
  | shift op rd rs1 shamt =>
    have whole := imm (.shift op rd rs1 shamt)
    rwa [BaseArith.AluImm.toInsn, BitVec.setWidth_eq] at whole
  | shiftW op rd rs1 shamt =>
    exact shiftW_agrees host feature coProc junk regs wide base op rd rs1 shamt kept
  | s op rs1 rs2 value =>
    exact store_agrees host feature coProc junk regs wide base op rs1 rs2 value
  | b op rs1 rs2 offset => exact transfer (.branch op rs1 rs2 offset)
  | u op rd value => exact imm (.upper op rd value)
  | jal rd offset =>
    exact baseAgrees_widens host feature coProc junk regs
      (fun inst _ _ => tableFunc_transfer host feature regs inst)
      ((ControlTransfer.jal_meets_iff feature coProc junk regs base wide rd offset).mpr kept)

end Wide
section Programs

inductive Code where
  | wide (insn : Insn)
  | imm (insn : CImm)
  | reg (insn : CReg)
  | jump (insn : CJump)
  | mem (insn : CMem)
deriving DecidableEq

namespace Code

def size : Code → Nat
  | .wide _ => 4
  | _ => 2

def base : Code → Base
  | .wide insn => .int insn
  | .imm insn => insn.expand
  | .reg insn => insn.expand
  | .jump insn => insn.expand
  | .mem insn => insn.expand

def Encodes (word : BitVec 32) : Code → Prop
  | .wide insn => word = encode insn
  | .imm insn => word.setWidth 16 = insn.encode
  | .reg insn => word.setWidth 16 = insn.encode
  | .jump insn => word.setWidth 16 = insn.encode
  | .mem insn => word.setWidth 16 = insn.encode

/-- The machine model has the instruction, and its encoding is not reserved. -/
def Offered (feature : RevFeature) : Code → Prop
  | .wide insn => insn.op.isMul = true → isModeEnabled feature .RV_M = true
  | .imm insn => isModeEnabled feature .RV_C = true ∧ insn.Legal
  | .reg insn => isModeEnabled feature .RV_C = true ∧ insn.Legal
  | .jump insn =>
    isModeEnabled feature .RV_C = true ∧ insn.Legal ∧ ∀ imm, insn ≠ .jal imm
  | .mem insn => isModeEnabled feature .RV_C = true ∧ CompressedMem.Offered feature insn.op

/-- Where the instruction means what the manual says on these registers, whatever the fields hold
that its format leaves alone. -/
def Kept (host : Host) (feature : RevFeature) (regs : RevRegFile) : Code → Prop
  | .wide insn => InsnKept host regs insn
  | .imm _ => True
  | .reg insn => CompressedArith.MaskKept regs insn
  | .jump insn => CompressedJump.LinkKept rv64 regs insn
  | .mem insn => ∀ junk, CompressedMem.Reaches rv64 feature junk regs insn

end Code

section Compressed
variable (host : Host) (feature : RevFeature) (coProc : Option (BitVec 32 → Bool))
variable (junk : RevInst) (regs : RevRegFile)

-- A word behind which the decoder takes the other half: not zero, and of a quadrant below 3.
def Short (inst : BitVec 16) : Prop := inst ≠ 0 ∧ inst &&& 0b11 ≠ 0b11#16

theorem cword_short (funct3 : BitVec 3) (bit : BitVec 1) (mid low : BitVec 5) (op : BitVec 2)
    (below : op ≠ 0b11) (some : op ≠ 0 ∨ funct3 ≠ 0) : Short (cword funct3 bit mid low op) := by
  have quadrant := CompressedDecode.opc_cword funct3 bit mid low op
  have select := CompressedDecode.l3_cword funct3 bit mid low op
  constructor
  · intro zero
    rw [zero] at quadrant select
    have noOp : op.setWidth 16 = 0#16 := quadrant.symm
    have noSelect : funct3.setWidth 16 = 0#16 := select.symm
    rcases some with other | other
    · exact other (by bv_omega)
    · exact other (by bv_omega)
  · rw [quadrant]
    intro same
    exact below (by bv_omega)

theorem mem_short (insn : CMem) : Short insn.encode := by
  have chosen : ∀ (double : Bool) (one two : BitVec 16), Short one → Short two →
      Short (if double then one else two) := by
    intro double one two first second
    cases double
    · exact second
    · exact first
  cases insn with
  | loadSP op =>
    exact chosen _ _ _ (cword_short _ _ _ _ _ (by decide) (.inl (by decide)))
      (cword_short _ _ _ _ _ (by decide) (.inl (by decide)))
  | storeSP op =>
    exact chosen _ _ _ (cword_short _ _ _ _ _ (by decide) (.inl (by decide)))
      (cword_short _ _ _ _ _ (by decide) (.inl (by decide)))
  | load op =>
    have selects : op.funct3 ≠ 0 := by cases op <;> decide
    exact chosen _ _ _ (cword_short _ _ _ _ _ (by decide) (.inr selects))
      (cword_short _ _ _ _ _ (by decide) (.inr selects))
  | store op =>
    have selects : op.funct3 + 4 ≠ 0 := by cases op <;> decide
    exact chosen _ _ _ (cword_short _ _ _ _ _ (by decide) (.inr selects))
      (cword_short _ _ _ _ _ (by decide) (.inr selects))

theorem jump_short (insn : CJump) : Short insn.encode := by
  cases insn with
  | j => exact cword_short _ _ _ _ _ (by decide) (.inl (by decide))
  | jal => exact cword_short _ _ _ _ _ (by decide) (.inl (by decide))
  | jr => exact cword_short _ _ _ _ _ (by decide) (.inl (by decide))
  | jalr => exact cword_short _ _ _ _ _ (by decide) (.inl (by decide))
  | beqz => exact cword_short _ _ _ _ _ (by decide) (.inl (by decide))
  | bnez => exact cword_short _ _ _ _ _ (by decide) (.inl (by decide))

theorem reg_short (insn : CReg) : Short insn.encode := by
  cases insn with
  | cb => exact cword_short _ _ _ _ _ (by decide) (.inl (by decide))
  | ca => exact cword_short _ _ _ _ _ (by decide) (.inl (by decide))
  | mv => exact cword_short _ _ _ _ _ (by decide) (.inl (by decide))
  | add => exact cword_short _ _ _ _ _ (by decide) (.inl (by decide))

-- The immediate of c.addi4spn keeps its word from being zero.
theorem imm_short (insn : CImm) (legal : insn.Legal) : Short insn.encode := by
  cases insn with
  | ci op =>
    have below : op.code.2 ≠ 0b11 := by cases op <;> decide
    have some : op.code.2 ≠ 0 := by cases op <;> decide
    exact cword_short _ _ _ _ _ below (.inl some)
  | addi16sp => exact cword_short _ _ _ _ _ (by decide) (.inl (by decide))
  | addi4spn rd uimm =>
    constructor
    · intro zero
      have placed := CompressedArith.ciwImm rd uimm
      rw [zero] at placed
      have nothing : swizzle (((0 : BitVec 16).setWidth 32 &&& 0b1111111100000#32) >>> 5)
          [1, 0, 6, 7, 2, 3, 4, 5] = 0#32 := by
        decide
      have cleared := placed.symm.trans nothing
      exact legal (by bv_omega)
    · rw [CImm.encode, CompressedDecode.opc_cword]
      decide

theorem short_means {word : BitVec 32} {inst : BitVec 16} {meant : Base}
    (held : word.setWidth 16 = inst) (short : Short inst)
    (agrees : Agrees rv64 host.convert feature coProc junk regs (word.extractLsb' 16 16) inst meant) :
    ∃ plan, basePlan (tableFunc host feature regs) feature coProc junk word = some plan ∧
      Means plan (isaStep rv64 2 regs meant) := by
  obtain ⟨plan, planned, means⟩ := agrees
  have whole : word.extractLsb' 16 16 ++ inst = word := by
    rw [← held]
    apply BitVec.eq_of_getLsbD_eq
    intro i inside
    rw [BitVec.getLsbD_append, BitVec.getLsbD_setWidth, BitVec.getLsbD_extractLsb']
    by_cases low : i < 16
    · simp [low]
    · simp [low, show i - 16 < 16 by omega, show 16 + (i - 16) = i by omega]
  rw [whole] at planned
  rw [← held] at short
  rw [← basePlan_short feature coProc junk host.convert regs short.1 short.2] at planned
  exact ⟨plan, basePlan_widens feature coProc junk
    (fun inst _ _ => tableFunc_compressed host feature regs inst) planned, means⟩

end Compressed

/-- DecodeInst on the word of an instruction that is offered and kept, and the function of the row it
finds. -/
theorem code_means (host : Host) (feature : RevFeature) (coProc : Option (BitVec 32 → Bool))
    (junk : RevInst) (regs : RevRegFile) (wide : feature.xlen = 64)
    (base : isModeEnabled feature .RV_I = true) {code : Code} {word : BitVec 32}
    (offered : code.Offered feature) (kept : code.Kept host feature regs)
    (encoded : code.Encodes word) :
    ∃ plan, basePlan (tableFunc host feature regs) feature coProc junk word = some plan ∧
      Means plan (isaStep rv64 code.size regs code.base) := by
  cases code with
  | wide insn =>
    rw [show word = encode insn from encoded]
    exact insn_agrees host feature coProc junk regs wide base insn offered kept
  | imm insn =>
    obtain ⟨short, legal⟩ := offered
    apply short_means host feature coProc junk regs encoded (imm_short insn legal)
    cases insn with
    | ci op rd imm =>
      exact CompressedArith.ci_agrees _ feature coProc junk regs _ wide base short op rd imm legal
    | addi16sp imm =>
      exact CompressedArith.addi16sp_agrees _ feature coProc junk regs _ wide base short imm
    | addi4spn rd uimm =>
      exact CompressedArith.addi4spn_agrees _ feature coProc junk regs _ wide base short rd uimm legal
  | reg insn =>
    obtain ⟨short, legal⟩ := offered
    have rv : isRV32 feature = false := by simp [isRV32, wide]
    apply short_means host feature coProc junk regs encoded (reg_short insn)
    cases insn with
    | cb op rd imm =>
      exact (CompressedArith.cb_agrees_iff _ feature coProc junk regs _ wide base short op rd
        imm).mpr kept
    | ca op rd rs2 =>
      exact CompressedArith.ca_agrees _ feature coProc junk regs _ wide base short op rd rs2
    | mv rd rs2 =>
      refine CompressedArith.agrees_cr _ feature coProc junk regs _ wide base short 0 rd rs2
        (.rv32i .CRFUNC_1000) 0x802 _ _ (by decide) (by decide) ?_ rfl
      intro inst size dest _ source
      exact congrArg some
        (CompressedArith.cmv_wide feature regs inst rv size rd rs2 dest source legal)
    | add rd rs2 =>
      refine CompressedArith.agrees_cr _ feature coProc junk regs _ wide base short 1 rd rs2
        (.rv32i .CRFUNC_1001) 0x902 _ _ (by decide) (by decide) ?_ rfl
      intro inst size dest same source
      exact congrArg some
        (CompressedArith.cadd_wide feature regs inst rv size rd rs2 dest source legal same)
  | jump insn =>
    obtain ⟨short, legal, known⟩ := offered
    have serves := CompressedJump.serves_wide feature (by simp [isRV32, wide])
    exact short_means host feature coProc junk regs encoded (jump_short insn)
      ((CompressedJump.jump_agrees_iff rv64 _ feature coProc junk regs _ (.inl wide) serves base short
        lawful64 insn known legal).mpr kept)
  | mem insn =>
    obtain ⟨short, listed⟩ := offered
    exact short_means host feature coProc junk regs encoded (mem_short insn)
      ((CompressedMem.wide_agrees_iff _ feature coProc junk regs _ insn base short listed
        wide).mpr (kept junk))

end Programs
end RevCPU.Execute
