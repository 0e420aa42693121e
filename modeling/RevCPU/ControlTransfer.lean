import RevCPU.BaseArith
/-!
The base control transfers against the manual, in both widths, from the encoded word to the
registers after it. The six conditional branches are one function of their comparison. jal extends
its 21-bit offset from bit 19, so it reaches half its range.
-/
namespace RevCPU.ControlTransfer
open Feature InstTable IntTables Seed DecodeBase RegFile Insns Manual Isa
open BaseArith (BaseAgrees rowNames baseAgrees_iff)

def execTransfer (feature : RevFeature) (regs : RevRegFile) (inst : RevInst) :
    ImplFunc → Option Plan
  | .rv32i .jal => some (RV32I.jal feature regs inst)
  | .rv32i .jalr => some (RV32I.jalr feature regs inst)
  | .rv32i .beq => some (RV32I.beq feature regs inst)
  | .rv32i .bne => some (RV32I.bne feature regs inst)
  | .rv32i .blt => some (RV32I.blt feature regs inst)
  | .rv32i .bge => some (RV32I.bge feature regs inst)
  | .rv32i .bltu => some (RV32I.bltu feature regs inst)
  | .rv32i .bgeu => some (RV32I.bgeu feature regs inst)
  | _ => none

def branchFunc : BOp → ImplFunc
  | .beq => .rv32i .beq | .bne => .rv32i .bne | .blt => .rv32i .blt | .bge => .rv32i .bge
  | .bltu => .rv32i .bltu | .bgeu => .rv32i .bgeu

/-- The transfers to an address that is not a link's: a conditional branch or jalr. -/
inductive Transfer where
  | branch (op : BOp) (rs1 rs2 : BitVec 5) (offset : BitVec 12)
  | jalr (rd rs1 : BitVec 5) (imm : BitVec 12)
deriving DecidableEq, Repr

def Transfer.toInsn : Transfer → Insn
  | .branch op rs1 rs2 offset => .b op rs1 rs2 offset
  | .jalr rd rs1 imm => .i .jalr rd rs1 imm

def Transfer.func : Transfer → ImplFunc
  | .branch op _ _ _ => branchFunc op
  | .jalr _ _ _ => .rv32i .jalr

section Branches
variable (feature : RevFeature) (regs : RevRegFile) (inst : RevInst)

-- Each function is the common body with the manual's comparison.
theorem exec_branch (op : BOp) : execTransfer feature regs inst (branchFunc op) =
    some (RV32I.branch feature regs inst (taken op) (taken op)) := by
  have signed : ∀ {w : Nat}, (fun a b : BitVec w => b.sle a) = taken .bge := by
    intro w
    funext a b
    exact BitVec.sle_eq_not_slt
  cases op with
  | beq => exact congrArg some (RV32I.beq_branch feature regs inst)
  | bne => exact congrArg some (RV32I.bne_branch feature regs inst)
  | blt => rfl
  | bge => simp only [execTransfer, branchFunc, RV32I.bge, signed]
  | bltu => rfl
  | bgeu => rfl

variable (op : BOp) (rs1 rs2 : BitVec 5) (offset : BitVec 12)
variable (carries : Carries (.b op rs1 rs2 offset) inst)
include carries

theorem branch_wide (wide : isRV32 feature = false) :
    Means (RV32I.branch feature regs inst (taken op) (taken op))
      (isaStep rv64 4 regs (.int (.b op rs1 rs2 offset))) := by
  obtain ⟨-, left, right, value, size, -⟩ := carries
  have extended : tdU64 (inst.imm.setWidth 64) 13 = (offset ++ 0#1).signExtend 64 := by
    rw [show inst.imm = (offset ++ 0#1).setWidth 32 from value, BitVec.setWidth_setWidth (by decide)]
    exact twosComplement_setWidth (offset ++ 0#1) (by decide) (by decide)
  rw [branchStep_done]
  simp only [RV32I.branch, wide, left, right, extended, step64_skip regs inst size,
    Bool.false_eq_true, if_false, ← apply_ite Plan.done]
  exact (means_done_iff _ _).mpr rfl

theorem branch_narrow (narrow : isRV32 feature = true) :
    Means (RV32I.branch feature regs inst (taken op) (taken op))
      (isaStep rv32 4 regs (.int (.b op rs1 rs2 offset))) := by
  obtain ⟨-, left, right, value, size, -⟩ := carries
  have extended : tdU32 inst.imm 13 = (offset ++ 0#1).signExtend 32 := by
    rw [show inst.imm = (offset ++ 0#1).setWidth 32 from value]
    exact twosComplement_setWidth (offset ++ 0#1) (by decide) (by decide)
  rw [branchStep_done]
  simp only [RV32I.branch, narrow, left, right, extended, step32_skip regs inst size, if_true,
    ← apply_ite Plan.done]
  exact (means_done_iff _ _).mpr rfl

end Branches

section Jalr
variable (feature : RevFeature) (regs : RevRegFile) (inst : RevInst)
variable (rd rs1 : BitVec 5) (imm : BitVec 12) (carries : Carries (.i .jalr rd rs1 imm) inst)
include carries

-- The target is computed from rs1 before the link is written.
theorem jalr_wide (wide : isRV32 feature = false) :
    Means (RV32I.jalr feature regs inst) (isaStep rv64 4 regs (.int (.i .jalr rd rs1 imm))) := by
  obtain ⟨dest, left, -, value, size, -⟩ := carries
  have extended : tdU64 (inst.imm.setWidth 64) 12 = imm.signExtend 64 := by
    rw [show inst.imm = imm.setWidth 32 from value, BaseArith.tdU64_imm]
  have whole : ∀ a, tdU64 a 64 = a := twosComplement_full
  simp only [RV32I.jalr, wide, dest, left, extended, size, whole, RevRegFile.setX64_zero,
    RevRegFile.setX64_pc]
  exact (means_done_iff _ _).mpr rfl

theorem jalr_narrow (narrow : isRV32 feature = true) :
    Means (RV32I.jalr feature regs inst) (isaStep rv32 4 regs (.int (.i .jalr rd rs1 imm))) := by
  obtain ⟨dest, left, -, value, size, -⟩ := carries
  have extended : tdU32 inst.imm 12 = imm.signExtend 32 := by
    rw [show inst.imm = imm.setWidth 32 from value, BaseArith.tdU32_imm]
  have whole : ∀ a, tdU32 a 32 = a := twosComplement_full
  simp only [RV32I.jalr, narrow, dest, left, extended, size, whole, RevRegFile.setX32_zero,
    RevRegFile.setX32_pc]
  exact (means_done_iff _ _).mpr rfl

end Jalr
section Jal
variable (feature : RevFeature) (regs : RevRegFile) (inst : RevInst)
variable (rd : BitVec 5) (offset : BitVec 20)

/-- The offset fits in 20 bits, one less than jal encodes. -/
def InReach : Prop :=
  -2 ^ 19 ≤ (offset ++ 0#1).toInt ∧ (offset ++ 0#1).toInt < 2 ^ 19

instance : Decidable (InReach offset) := inferInstanceAs (Decidable (_ ∧ _))

theorem inReach_iff :
    InReach offset ↔ (offset ++ 0#1).getLsbD 19 = (offset ++ 0#1).getLsbD 20 := by
  generalize same : offset ++ 0#1 = x
  rw [InReach, same, BitVec.toInt_eq_toNat_cond, BitVec.getLsbD, BitVec.getLsbD,
    Nat.testBit_eq_decide_div_mod_eq, Nat.testBit_eq_decide_div_mod_eq, decide_eq_decide]
  have bound := x.isLt
  split <;> omega

-- From bit 19 the extension is right exactly when bit 20 repeats it.
theorem extended_iff {w : Nat} (above : 21 < w) :
    twosComplement ((offset ++ 0#1).setWidth w) 20 = (offset ++ 0#1).signExtend w ↔
      InReach offset := by
  rw [inReach_iff, twosComplement_eq]
  generalize (offset ++ 0#1 : BitVec 21) = x
  have sign : x.msb = x.getLsbD 20 := BitVec.msb_eq_getLsbD_last x
  have below : (x.setWidth w).getLsbD (20 - 1) = x.getLsbD 19 := by
    rw [BitVec.getLsbD_setWidth, decide_eq_true (show 20 - 1 < w by omega), Bool.true_and]
  rw [below]
  cases low : x.getLsbD 19 with
  | false =>
    rw [if_neg Bool.false_ne_true, Bits.setWidth_eq_signExtend_iff x above, sign]
    exact eq_comm
  | true =>
    rw [if_pos rfl]
    constructor
    · intro same
      have top := congrArg (fun z => z.getLsbD 20) same
      simp only [BitVec.getLsbD_or, BitVec.getLsbD_shiftLeft, BitVec.getLsbD_allOnes,
        BitVec.getLsbD_signExtend] at top
      simpa [show 20 < w by omega, show 0 < w by omega] using top
    · intro top
      apply BitVec.eq_of_getLsbD_eq
      intro i inside
      rw [BitVec.getLsbD_or, BitVec.getLsbD_shiftLeft, BitVec.getLsbD_allOnes,
        BitVec.getLsbD_signExtend, BitVec.getLsbD_setWidth, sign, ← top]
      by_cases low : i < 20
      · simp [low, inside, show i < 21 by omega]
      · by_cases last : i = 20
        · subst last
          simp [← top, inside, show 0 < w by omega]
        · simp [low, inside, show ¬ i < 21 by omega, show i - 20 < w by omega]

variable (carries : Carries (.jal rd offset) inst)
include carries

theorem jal_wide_iff (wide : isRV32 feature = false) :
    Means (RV32I.jal feature regs inst) (isaStep rv64 4 regs (.int (.jal rd offset))) ↔
      InReach offset := by
  obtain ⟨dest, -, -, value, size, -⟩ := carries
  have read : inst.imm.setWidth 64 = (offset ++ 0#1).setWidth 64 := by
    rw [show inst.imm = (offset ++ 0#1).setWidth 32 from value, BitVec.setWidth_setWidth (by decide)]
  simp only [RV32I.jal, wide, dest, read, size, tdU64, RevRegFile.setX64_zero,
    RevRegFile.setX64_rv64PC]
  refine (means_done_iff _ _).trans ((lawful64.setPC_inj _ _ _).trans ?_)
  rw [← extended_iff offset (w := 64) (by decide)]
  exact BitVec.add_right_inj _

theorem jal_narrow_iff (narrow : isRV32 feature = true) :
    Means (RV32I.jal feature regs inst) (isaStep rv32 4 regs (.int (.jal rd offset))) ↔
      InReach offset := by
  obtain ⟨dest, -, -, value, size, -⟩ := carries
  have read : inst.imm = (offset ++ 0#1).setWidth 32 := value
  simp only [RV32I.jal, narrow, dest, read, size, tdU32, RevRegFile.setX32_zero,
    RevRegFile.setX32_rv32PC]
  refine (means_done_iff _ _).trans ((lawful32.setPC_inj _ _ _).trans ?_)
  rw [← extended_iff offset (w := 32) (by decide)]
  exact BitVec.add_right_inj _

end Jal
section Agreement
variable (feature : RevFeature) (coProc : Option (BitVec 32 → Bool)) (junk : RevInst)
variable (regs : RevRegFile) (base : isModeEnabled feature .RV_I = true)

theorem branch_named (op : BOp) : rowNames (.b op) (branchFunc op) = true := by
  cases op <;> decide

theorem jalr_named : rowNames (.i .jalr) (.rv32i .jalr) = true := by
  decide

theorem jal_named : rowNames .jal (.rv32i .jal) = true := by
  decide

theorem transfer_named (insn : Transfer) : rowNames insn.toInsn.op insn.func = true := by
  cases insn with
  | branch op => exact branch_named op
  | jalr => exact jalr_named

theorem exec_wide (wide : isRV32 feature = false) (inst : RevInst) (insn : Transfer)
    (carries : Carries insn.toInsn inst) :
    ∃ plan, execTransfer feature regs inst insn.func = some plan ∧
      Means plan (isaStep rv64 4 regs (.int insn.toInsn)) := by
  cases insn with
  | branch op rs1 rs2 offset =>
    exact ⟨_, exec_branch feature regs inst op,
      branch_wide feature regs inst op rs1 rs2 offset carries wide⟩
  | jalr rd rs1 imm => exact ⟨_, rfl, jalr_wide feature regs inst rd rs1 imm carries wide⟩

theorem exec_narrow (narrow : isRV32 feature = true) (inst : RevInst) (insn : Transfer)
    (carries : Carries insn.toInsn inst) :
    ∃ plan, execTransfer feature regs inst insn.func = some plan ∧
      Means plan (isaStep rv32 4 regs (.int insn.toInsn)) := by
  cases insn with
  | branch op rs1 rs2 offset =>
    exact ⟨_, exec_branch feature regs inst op,
      branch_narrow feature regs inst op rs1 rs2 offset carries narrow⟩
  | jalr rd rs1 imm => exact ⟨_, rfl, jalr_narrow feature regs inst rd rs1 imm carries narrow⟩

include base in
/-- Every conditional branch and jalr, on either width, with any operands and offset. -/
theorem transfers_meet_isa (insn : Transfer) :
    (feature.xlen = 64 →
      BaseAgrees rv64 (execTransfer feature regs) feature coProc junk regs insn.toInsn) ∧
    (feature.xlen = 32 →
      BaseAgrees rv32 (execTransfer feature regs) feature coProc junk regs insn.toInsn) := by
  constructor
  · intro wide
    have rv : isRV32 feature = false := by simp [isRV32, wide]
    refine (baseAgrees_iff feature base rv64 _ coProc junk regs insn.toInsn insn.func True
      (transfer_named insn) ?_).mpr trivial
    intro inst carries
    obtain ⟨plan, ran, means⟩ := exec_wide feature regs rv inst insn carries
    exact ⟨plan, ran, iff_of_true means trivial⟩
  · intro narrow
    have rv : isRV32 feature = true := by simp [isRV32, narrow]
    refine (baseAgrees_iff feature base rv32 _ coProc junk regs insn.toInsn insn.func True
      (transfer_named insn) ?_).mpr trivial
    intro inst carries
    obtain ⟨plan, ran, means⟩ := exec_narrow feature regs rv inst insn carries
    exact ⟨plan, ran, iff_of_true means trivial⟩

-- jalr x5, -1(x5) on RV64.
theorem transfers_meet_isa_jalr :
    BaseAgrees rv64 (execTransfer { features := 2, xlen := 64, minCost := 1, maxCost := 1 } default)
      { features := 2, xlen := 64, minCost := 1, maxCost := 1 } none default default
      (Transfer.jalr 5 5 (-1)).toInsn :=
  (transfers_meet_isa { features := 2, xlen := 64, minCost := 1, maxCost := 1 } none default default
    (by decide) (.jalr 5 5 (-1))).1 rfl

include base in
theorem jal_meets_iff (wide : feature.xlen = 64) (rd : BitVec 5) (offset : BitVec 20) :
    BaseAgrees rv64 (execTransfer feature regs) feature coProc junk regs (.jal rd offset) ↔
      InReach offset := by
  have rv : isRV32 feature = false := by simp [isRV32, wide]
  apply baseAgrees_iff feature base rv64 _ coProc junk regs (.jal rd offset) (.rv32i .jal) _
      jal_named
  intro inst carries
  exact ⟨_, rfl, jal_wide_iff feature regs inst rd offset carries rv⟩

include base in
/-- jal reaches its target and links exactly for the offsets of 20 bits, on either width. -/
theorem jal_meets_isa_iff (rd : BitVec 5) (offset : BitVec 20) :
    (feature.xlen = 64 →
      (BaseAgrees rv64 (execTransfer feature regs) feature coProc junk regs (.jal rd offset) ↔
        InReach offset)) ∧
    (feature.xlen = 32 →
      (BaseAgrees rv32 (execTransfer feature regs) feature coProc junk regs (.jal rd offset) ↔
        InReach offset)) := by
  constructor
  · intro wide
    exact jal_meets_iff feature coProc junk regs base wide rd offset
  · intro narrow
    have rv : isRV32 feature = true := by simp [isRV32, narrow]
    apply baseAgrees_iff feature base rv32 _ coProc junk regs (.jal rd offset) (.rv32i .jal) _
      jal_named
    intro inst carries
    exact ⟨_, rfl, jal_narrow_iff feature regs inst rd offset carries rv⟩

theorem jal_meets_isa_iff_back :
    BaseAgrees rv32 (execTransfer { features := 2, xlen := 32, minCost := 1, maxCost := 1 } default)
      { features := 2, xlen := 32, minCost := 1, maxCost := 1 } none default default
      (.jal 1 (-8)) :=
  ((jal_meets_isa_iff { features := 2, xlen := 32, minCost := 1, maxCost := 1 } none default default
    (by decide) 1 (-8)).2 rfl).mpr (by decide)

/-- jal x1, +524288: bit 19 of the offset is taken for its sign. -/
theorem jal_half_megabyte :
    ¬ BaseAgrees rv64 (execTransfer { features := 2, xlen := 64, minCost := 1, maxCost := 1 } default)
      { features := 2, xlen := 64, minCost := 1, maxCost := 1 } none default default
      (.jal 1 0x40000) := by
  rw [jal_meets_iff _ _ _ _ (by decide) rfl]
  decide

end Agreement
end RevCPU.ControlTransfer
