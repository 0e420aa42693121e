import RevCPU.CompressedDecode
/-!
The compressed control transfers, in both widths. The four base functions are specified for a width
as a whole (`Serves`), so that the trampolines are treated once. Two of them slip: c.jr clears rs2
where it should clear rd, and so links into rs1; c.jal hands its offset over without extending the
sign.
-/
namespace RevCPU.CompressedJump
open Feature InstTable IntTables FloatTables Seed Decode DecodeCompressed RegFile Insns Manual Isa
  ManualCompressed CompressedDecode

/-- What the base functions do to a 2-byte instruction when the feature selects this width. -/
structure Serves {w : Nat} (mode : Xlen w) (feature : RevFeature) : Prop where
  jal : ∀ {v : Nat} (regs : RevRegFile) (inst : RevInst) (rd : BitVec 5) (offset : BitVec v),
    0 < v → v ≤ 20 → inst.instSize = 2 → inst.rd = rd.setWidth 8 →
    inst.imm = offset.signExtend 32 →
    RV32I.jal feature regs inst =
      .done (mode.setPC (mode.setX regs (rd.setWidth 8) (next mode 2 regs))
        (mode.pc regs + offset.signExtend w))
  jalr : ∀ (regs : RevRegFile) (inst : RevInst) (rd rs1 : BitVec 5),
    inst.instSize = 2 → inst.rd = rd.setWidth 8 → inst.rs1 = rs1.setWidth 8 → inst.imm = 0 →
    RV32I.jalr feature regs inst =
      .done (mode.setPC (mode.setX regs (rd.setWidth 8) (next mode 2 regs))
        ((reg mode regs rs1 + (0#12).signExtend w) &&& ~~~1#w))
  beq : ∀ (regs : RevRegFile) (inst : RevInst) (rs1 rs2 : BitVec 5) (offset : BitVec 9),
    inst.instSize = 2 → inst.rs1 = rs1.setWidth 8 → inst.rs2 = rs2.setWidth 8 →
    inst.imm = offset.signExtend 32 →
    RV32I.beq feature regs inst =
      .done (if taken .beq (reg mode regs rs1) (reg mode regs rs2) then
        mode.setPC regs (mode.pc regs + offset.signExtend w) else skip mode 2 regs)
  bne : ∀ (regs : RevRegFile) (inst : RevInst) (rs1 rs2 : BitVec 5) (offset : BitVec 9),
    inst.instSize = 2 → inst.rs1 = rs1.setWidth 8 → inst.rs2 = rs2.setWidth 8 →
    inst.imm = offset.signExtend 32 →
    RV32I.bne feature regs inst =
      .done (if taken .bne (reg mode regs rs1) (reg mode regs rs2) then
        mode.setPC regs (mode.pc regs + offset.signExtend w) else skip mode 2 regs)

theorem serves_wide (feature : RevFeature) (wide : isRV32 feature = false) :
    Serves rv64 feature where
  jal := by
    intro v regs inst rd offset positive fits size dest value
    have extended := twosComplement_extended (w := 64) offset 20 positive fits
      (show 20 ≤ 32 by decide) (by decide)
    simp only [RV32I.jal, wide, tdU64, dest, size, value, extended, RevRegFile.setX64_zero,
      RevRegFile.setX64_rv64PC]
    rfl
  jalr := by
    intro regs inst rd rs1 size dest source zero
    simp only [RV32I.jalr, wide, tdU64, twosComplement_full, dest, size, source, zero,
      RevRegFile.setX64_zero, RevRegFile.setX64_pc]
    rfl
  beq := by
    intro regs inst rs1 rs2 offset size left right value
    have extended := twosComplement_extended (w := 64) offset 13 (by decide) (by decide)
      (show 13 ≤ 32 by decide) (by decide)
    simp only [RV32I.beq, wide, tdU64, left, right, value, extended, step64_skip regs inst size,
      taken, beq_iff_eq, apply_ite Plan.done]
    rfl
  bne := by
    intro regs inst rs1 rs2 offset size left right value
    have extended := twosComplement_extended (w := 64) offset 13 (by decide) (by decide)
      (show 13 ≤ 32 by decide) (by decide)
    simp only [RV32I.bne, wide, tdU64, left, right, value, extended, step64_skip regs inst size,
      taken, bne_iff_ne, apply_ite Plan.done]
    rfl

theorem serves_narrow (feature : RevFeature) (narrow : isRV32 feature = true) :
    Serves rv32 feature where
  jal := by
    intro v regs inst rd offset positive fits size dest value
    have extended := twosComplement_extended (w := 32) offset 20 positive fits
      (show 20 ≤ 32 by decide) (by decide)
    rw [BitVec.setWidth_eq] at extended
    simp only [RV32I.jal, narrow, tdU32, dest, size, value, extended, RevRegFile.setX32_zero,
      RevRegFile.setX32_rv32PC]
    rfl
  jalr := by
    intro regs inst rd rs1 size dest source zero
    simp only [RV32I.jalr, narrow, tdU32, twosComplement_full, dest, size, source, zero,
      RevRegFile.setX32_zero, RevRegFile.setX32_pc]
    rfl
  beq := by
    intro regs inst rs1 rs2 offset size left right value
    have extended := twosComplement_extended (w := 32) offset 13 (by decide) (by decide)
      (show 13 ≤ 32 by decide) (by decide)
    rw [BitVec.setWidth_eq] at extended
    simp only [RV32I.beq, narrow, tdU32, left, right, value, extended, step32_skip regs inst size,
      taken, beq_iff_eq, apply_ite Plan.done]
    rfl
  bne := by
    intro regs inst rs1 rs2 offset size left right value
    have extended := twosComplement_extended (w := 32) offset 13 (by decide) (by decide)
      (show 13 ≤ 32 by decide) (by decide)
    rw [BitVec.setWidth_eq] at extended
    simp only [RV32I.bne, narrow, tdU32, left, right, value, extended, step32_skip regs inst size,
      taken, bne_iff_ne, apply_ite Plan.done]
    rfl

section Offsets

theorem cj_target (funct3 : BitVec 3) (imm : BitVec 11) :
    swizzle ((((CJump.jumpWord funct3 imm).setWidth 32 &&& 0b1111111111100) >>> 2).setWidth 16)
      [1, 2, 3, 9, 0, 5, 4, 7, 8, 6, 10] <<< 1 = (imm ++ 0#1).setWidth 16 := by
  apply BitVec.eq_of_getLsbD_eq
  intro i inside
  rw [BitVec.getLsbD_shiftLeft, getLsbD_swizzle _ _ _ (by omega), BitVec.getLsbD_setWidth,
    BitVec.getLsbD_append]
  interval_cases i <;>
    simp only [Nat.reduceSub, List.getElem?_cons_succ, List.getElem?_cons_zero, List.getElem?_nil,
      Option.any_some, Option.any_none, BitVec.getLsbD_setWidth, BitVec.getLsbD_ushiftRight,
      BitVec.getLsbD_and, CJump.jumpWord, cword, BitVec.getLsbD_append,
      BitVec.getLsbD_extractLsb'] <;>
    simp

theorem cb_offset (funct3 rs1 : BitVec 3) (imm : BitVec 8) :
    let word := (CJump.branchWord funct3 rs1 imm).setWidth 32
    swizzle ((((word &&& 0b1111100) >>> 2) ||| ((word &&& 0b1110000000000) >>> 5)).setWidth 16)
      [1, 2, 5, 6, 0, 3, 4, 7] <<< 1 = (imm ++ 0#1).setWidth 16 := by
  have same : ∀ part : BitVec 32, 0x1C7C &&& part = part →
      (CJump.branchWord funct3 rs1 imm).setWidth 32 &&& part =
        (CJump.branchWord 0 0 imm).setWidth 32 &&& part := by
    intro part inside
    refine Bits.masked_congr _ _ 0x1C7C part ?_ inside
    apply BitVec.eq_of_getLsbD_eq
    intro i bound
    simp only [CJump.branchWord, cword, BitVec.getLsbD_and, BitVec.getLsbD_setWidth,
      BitVec.getLsbD_append]
    interval_cases i <;>
      simp only [Nat.reduceLT, Nat.reduceAdd, Nat.reduceSub, decide_true, ↓reduceIte,
        BitVec.reduceGetLsb, Bool.and_false, Bool.and_true]
  simp (disch := decide) only [same]
  clear same
  revert imm
  decide +kernel

end Offsets

section Trampolines
variable {w : Nat} (mode : Xlen w) (feature : RevFeature) (regs : RevRegFile) (inst : RevInst)
variable (serves : Serves mode feature) (size : inst.instSize = 2)
include serves size

omit serves size in
-- The trampolines mask a stored 16-bit offset to its own length and extend its sign.
theorem extended_offset {v : Nat} (offset : BitVec v) (positive : 0 < v) (fits : v ≤ 16) :
    sextImm ((offset.setWidth 16 &&& BitVec.ofNat 16 (2 ^ v - 1)).setWidth 32) v =
      offset.signExtend 32 := by
  have whole : (offset.setWidth 16).setWidth v = offset := by
    rw [BitVec.setWidth_setWidth (by omega), BitVec.setWidth_eq]
  rw [low_mask, whole, BitVec.setWidth_setWidth (by omega),
    sextImm_setWidth offset positive (by omega)]

theorem cj_plan (offset : BitVec 12) (target : inst.jumpTarget = offset.setWidth 16) :
    RV32I.cj feature regs inst =
      .done (mode.setPC (mode.setX regs ((0#5).setWidth 8) (next mode 2 regs))
        (mode.pc regs + offset.signExtend w)) := by
  refine serves.jal regs
    { inst with rd := 0
                imm := sextImm ((inst.jumpTarget &&& 0b111111111111).setWidth 32) 12 }
    0 offset (by decide) (by decide) size rfl ?_
  rw [target]
  exact extended_offset offset (by decide) (by decide)

theorem cjal_plan (offset : BitVec 12) (target : inst.jumpTarget = offset.setWidth 16) :
    RV32I.cjal feature regs inst =
      .done (mode.setPC (mode.setX regs ((1#5).setWidth 8) (next mode 2 regs))
        (mode.pc regs + offset.setWidth w)) := by
  have unsigned : ∀ n, (offset.setWidth 13).signExtend n = offset.setWidth n := by
    intro n
    have plain : (offset.setWidth 13).msb = false := by simp [BitVec.msb_setWidth]
    rw [BitVec.signExtend_eq_setWidth_of_msb_false plain, BitVec.setWidth_setWidth (by omega)]
  rw [← unsigned w]
  refine serves.jal regs { inst with rd := 1, imm := inst.jumpTarget.setWidth 32 }
    1 (offset.setWidth 13) (by decide) (by decide) size rfl ?_
  rw [unsigned, target, BitVec.setWidth_setWidth (by omega)]

theorem cjr_plan (rs1 : BitVec 5) (dest : inst.rd = rs1.setWidth 8)
    (source : inst.rs1 = rs1.setWidth 8) (other : inst.rs2 = 0) (zero : inst.imm = 0) :
    RV32I.crFunc1000 feature regs inst =
      .done (mode.setPC (mode.setX regs (rs1.setWidth 8) (next mode 2 regs))
        ((reg mode regs rs1 + (0#12).signExtend w) &&& ~~~1#w)) := by
  rw [RV32I.crFunc1000, if_neg (fun present => present other)]
  exact serves.jalr regs { inst with rs2 := 0 } rs1 rs1 size dest source zero

theorem cjalr_plan (rs1 : BitVec 5) (nonzero : rs1 ≠ 0) (dest : inst.rd = rs1.setWidth 8)
    (source : inst.rs1 = rs1.setWidth 8) (other : inst.rs2 = 0) (zero : inst.imm = 0) :
    RV32I.crFunc1001 feature regs inst =
      .done (mode.setPC (mode.setX regs ((1#5).setWidth 8) (next mode 2 regs))
        ((reg mode regs rs1 + (0#12).signExtend w) &&& ~~~1#w)) := by
  have present : inst.rd ≠ 0 := by
    rw [dest]
    intro clash
    exact nonzero (by bv_omega)
  rw [RV32I.crFunc1001, if_neg fun zeros => present zeros.2, if_pos ⟨other, present⟩]
  exact serves.jalr regs { inst with rd := 1 } 1 rs1 size rfl source zero

theorem cbeqz_plan (rs1 : BitVec 5) (offset : BitVec 9) (source : cRegMap inst.rs1 = rs1.setWidth 8)
    (target : inst.offset = offset.setWidth 16) :
    RV32I.cbeqz feature regs inst =
      .done (if taken .beq (reg mode regs rs1) (reg mode regs 0) then
        mode.setPC regs (mode.pc regs + offset.signExtend w) else skip mode 2 regs) := by
  refine serves.beq regs
    { inst with rs2 := 0, rs1 := cRegMap inst.rs1
                imm := sextImm ((inst.offset &&& 0b111111111).setWidth 32) 9 }
    rs1 0 offset size source rfl ?_
  rw [target]
  exact extended_offset offset (by decide) (by decide)

theorem cbnez_plan (rs1 : BitVec 5) (offset : BitVec 9) (source : cRegMap inst.rs1 = rs1.setWidth 8)
    (target : inst.offset = offset.setWidth 16) :
    RV32I.cbnez feature regs inst =
      .done (if taken .bne (reg mode regs rs1) (reg mode regs 0) then
        mode.setPC regs (mode.pc regs + offset.signExtend w) else skip mode 2 regs) := by
  refine serves.bne regs
    { inst with rs2 := 0, rs1 := cRegMap inst.rs1
                imm := sextImm ((inst.offset &&& 0b111111111).setWidth 32) 9 }
    rs1 0 offset size source rfl ?_
  rw [target]
  exact extended_offset offset (by decide) (by decide)

end Trampolines
/-- Where the two slips do not show: the link c.jr writes is already there, the offset of c.jal is
not negative. -/
def LinkKept {w : Nat} (mode : Xlen w) (regs : RevRegFile) : CJump → Prop
  | .jr rs1 => reg mode regs rs1 = next mode 2 regs
  | .jal imm => imm.msb = false
  | _ => True

section Agreement
variable {w : Nat} (mode : Xlen w) (narrow : BitVec 64 → BitVec 32) (feature : RevFeature)
variable (coProc : Option (BitVec 32 → Bool)) (junk : RevInst) (regs : RevRegFile)
variable (high : BitVec 16)
variable (width : feature.xlen = 64 ∨ feature.xlen = 32) (serves : Serves mode feature)
variable (base : isModeEnabled feature .RV_I = true) (short : isModeEnabled feature .RV_C = true)
include width serves base short

theorem j_agrees (imm : BitVec 11) :
    Agrees mode narrow feature coProc junk regs high (CJump.j imm).encode
      (CJump.j imm).expand := by
  have coded : ∀ bit select funct2, cKey 0b101 bit 0b01 select funct2 = 0x51 := by decide
  have found := find_short_common feature width base (CJump.j imm).encode 0x51
    (rowIs (.rv32i .cj) .RVCTypeCJ 0b01 0b101) ((cEnc_cword _ _ _ _ _).trans (coded _ _ _))
    (by decide)
  refine (agrees_done mode narrow feature coProc junk regs high _ _ _ _ _ _
    (decodeCJInst junk (CJump.j imm).encode) _ _ short found ?_ ?_ rfl).mpr rfl
  · intro row kind
    simp only [decodeCFormat, kind]
  · intro row _ _
    have plan := cj_plan mode feature regs (decodeCJInst junk (CJump.j imm).encode row) serves rfl
      (imm ++ 0#1) (cj_target 0b101 imm)
    rw [Bits.signExtend_append_zero imm 1 (by decide),
      Bits.signExtend_signExtend _ (by decide) (by decide)]
    exact congrArg some plan

theorem jr_agrees_iff (lawful : Lawful mode) (rs1 : BitVec 5) (nonzero : rs1 ≠ 0) :
    Agrees mode narrow feature coProc junk regs high (CJump.jr rs1).encode
      (CJump.jr rs1).expand ↔ LinkKept mode regs (.jr rs1) := by
  have coded : ∀ select funct2, cKey 0b100 0 0b10 select funct2 = 0x802 := by decide
  have found := find_short_common feature width base (CJump.jr rs1).encode 0x802
    (rowIs (.rv32i .CRFUNC_1000) .RVCTypeCR 0b10 0) ((cEnc_cword _ _ _ _ _).trans (coded _ _))
    (by decide)
  have index : rs1.setWidth 8 ≠ 0 := by
    intro zero
    exact nonzero (by bv_omega)
  have kept := lawful.setX_same regs (rs1.setWidth 8) (next mode 2 regs)
    ((reg mode regs rs1 + (0#12).signExtend w) &&& ~~~1#w) index
  refine Iff.trans (agrees_done mode narrow feature coProc junk regs high _ _ _ _ _ _
    (decodeCRInst junk (CJump.jr rs1).encode) _ _ short found ?_ ?_ ?_) kept
  · intro row kind
    simp only [decodeCFormat, kind]
  · intro row _ _
    exact congrArg some (cjr_plan mode feature regs _ serves rfl rs1 (rd_cword _ _ _ _ _)
      (rd_cword _ _ _ _ _) (crs2_cword _ _ _ _ _) rfl)
  · have free : mode.setX regs ((0#5).setWidth 8) (next mode 2 regs) = regs :=
      lawful.setX_zero regs (next mode 2 regs)
    exact congrArg (fun after => IsaPlan.done (mode.setPC after _)) free

theorem jalr_agrees (rs1 : BitVec 5) (nonzero : rs1 ≠ 0) :
    Agrees mode narrow feature coProc junk regs high (CJump.jalr rs1).encode
      (CJump.jalr rs1).expand := by
  have coded : ∀ select funct2, cKey 0b100 1 0b10 select funct2 = 0x902 := by decide
  have found := find_short_common feature width base (CJump.jalr rs1).encode 0x902
    (rowIs (.rv32i .CRFUNC_1001) .RVCTypeCR 0b10 0) ((cEnc_cword _ _ _ _ _).trans (coded _ _))
    (by decide)
  refine (agrees_done mode narrow feature coProc junk regs high _ _ _ _ _ _
    (decodeCRInst junk (CJump.jalr rs1).encode) _ _ short found ?_ ?_ rfl).mpr rfl
  · intro row kind
    simp only [decodeCFormat, kind]
  · intro row _ _
    exact congrArg some (cjalr_plan mode feature regs _ serves rfl rs1 nonzero
      (rd_cword _ _ _ _ _) (rd_cword _ _ _ _ _) (crs2_cword _ _ _ _ _) rfl)

-- The two branches: the fields are those of the CB format with a branch opcode.
theorem beqz_agrees (rs1 : BitVec 3) (imm : BitVec 8) :
    Agrees mode narrow feature coProc junk regs high (CJump.beqz rs1 imm).encode
      (CJump.beqz rs1 imm).expand := by
  have coded : ∀ bit select funct2, cKey 0b110 bit 0b01 select funct2 = 0x61 := by decide
  have found := find_short_common feature width base (CJump.beqz rs1 imm).encode 0x61
    (rowIs (.rv32i .cbeqz) .RVCTypeCB 0b01 0b110) ((cEnc_cword _ _ _ _ _).trans (coded _ _ _))
    (by decide)
  refine (agrees_done mode narrow feature coProc junk regs high _ _ _ _ _ _
    (decodeCBInst junk (CJump.beqz rs1 imm).encode) _ _ short found ?_ ?_
    (branchStep_done mode 2 regs .beq (creg rs1) 0 (imm.signExtend 12))).mpr rfl
  · intro row kind
    simp only [decodeCFormat, kind]
  · intro row opcode code
    rw [Bits.signExtend_append_zero imm 1 (by decide),
      Bits.signExtend_signExtend _ (by decide) (by decide)]
    refine congrArg some (cbeqz_plan mode feature regs _ serves rfl (creg rs1) (imm ++ 0#1)
      (midCreg_cword _ _ _ rs1 _ _) ?_)
    simp only [decodeCBInst, opcode, code]
    exact cb_offset 0b110 rs1 imm

theorem bnez_agrees (rs1 : BitVec 3) (imm : BitVec 8) :
    Agrees mode narrow feature coProc junk regs high (CJump.bnez rs1 imm).encode
      (CJump.bnez rs1 imm).expand := by
  have coded : ∀ bit select funct2, cKey 0b111 bit 0b01 select funct2 = 0x71 := by decide
  have found := find_short_common feature width base (CJump.bnez rs1 imm).encode 0x71
    (rowIs (.rv32i .cbnez) .RVCTypeCB 0b01 0b111) ((cEnc_cword _ _ _ _ _).trans (coded _ _ _))
    (by decide)
  refine (agrees_done mode narrow feature coProc junk regs high _ _ _ _ _ _
    (decodeCBInst junk (CJump.bnez rs1 imm).encode) _ _ short found ?_ ?_
    (branchStep_done mode 2 regs .bne (creg rs1) 0 (imm.signExtend 12))).mpr rfl
  · intro row kind
    simp only [decodeCFormat, kind]
  · intro row opcode code
    rw [Bits.signExtend_append_zero imm 1 (by decide),
      Bits.signExtend_signExtend _ (by decide) (by decide)]
    refine congrArg some (cbnez_plan mode feature regs _ serves rfl (creg rs1) (imm ++ 0#1)
      (midCreg_cword _ _ _ rs1 _ _) ?_)
    simp only [decodeCBInst, opcode, code]
    exact cb_offset 0b111 rs1 imm

theorem jump_agrees_iff (lawful : Lawful mode) (insn : CJump) (known : ∀ imm, insn ≠ .jal imm)
    (legal : insn.Legal) :
    Agrees mode narrow feature coProc junk regs high insn.encode insn.expand ↔
      LinkKept mode regs insn := by
  cases insn with
  | j imm =>
    exact iff_of_true
      (j_agrees mode narrow feature coProc junk regs high width serves base short imm) trivial
  | jal imm => exact absurd rfl (known imm)
  | jr rs1 =>
    exact jr_agrees_iff mode narrow feature coProc junk regs high width serves base short lawful
      rs1 legal
  | jalr rs1 =>
    exact iff_of_true
      (jalr_agrees mode narrow feature coProc junk regs high width serves base short rs1 legal)
      trivial
  | beqz rs1 imm =>
    exact iff_of_true
      (beqz_agrees mode narrow feature coProc junk regs high width serves base short rs1 imm)
      trivial
  | bnez rs1 imm =>
    exact iff_of_true
      (bnez_agrees mode narrow feature coProc junk regs high width serves base short rs1 imm)
      trivial

end Agreement

theorem jal_agrees_iff (single : BitVec 64 → BitVec 32) (feature : RevFeature)
    (coProc : Option (BitVec 32 → Bool)) (junk : RevInst) (regs : RevRegFile) (high : BitVec 16)
    (narrow : feature.xlen = 32) (base : isModeEnabled feature .RV_I = true)
    (short : isModeEnabled feature .RV_C = true) (imm : BitVec 11) :
    Agrees rv32 single feature coProc junk regs high (CJump.jal imm).encode
      (CJump.jal imm).expand ↔ LinkKept rv32 regs (.jal imm) := by
  have serves := serves_narrow feature (by simp [isRV32, narrow])
  have coded : ∀ bit select funct2, cKey 0b001 bit 0b01 select funct2 = 0x11 := by decide
  have found := find_short_narrow feature narrow base (CJump.jal imm).encode 0x11
    (rowIs (.rv32i .cjal) .RVCTypeCJ 0b01 0b001) ((cEnc_cword _ _ _ _ _).trans (coded _ _ _))
    (by decide)
  have landing := lawful32.setPC_inj (rv32.setX regs ((1#5).setWidth 8) (next rv32 2 regs))
    (rv32.pc regs + (imm ++ 0#1).setWidth 32) (rv32.pc regs + (imm ++ 0#1).signExtend 32)
  rw [BitVec.add_right_inj, Bits.setWidth_eq_signExtend_iff _ (by decide),
    Bits.msb_append_zero imm 1 (by decide)] at landing
  refine Iff.trans (agrees_done rv32 single feature coProc junk regs high _ _ _ _ _ _
    (decodeCJInst junk (CJump.jal imm).encode) _ _ short found ?_ ?_ ?_) landing
  · intro row kind
    simp only [decodeCFormat, kind]
  · intro row _ _
    exact congrArg some (cjal_plan rv32 feature regs _ serves rfl (imm ++ 0#1)
      (cj_target 0b001 imm))
  · rw [← Bits.signExtend_signExtend (n := 21) (imm ++ 0#1) (by decide) (by decide),
      ← Bits.signExtend_append_zero imm 1 (by decide)]
    rfl

/-- A control transfer means its expansion exactly where neither slip shows. -/
theorem compressed_jump_expands_iff (single : BitVec 64 → BitVec 32) (feature : RevFeature)
    (coProc : Option (BitVec 32 → Bool)) (junk : RevInst) (regs : RevRegFile) (high : BitVec 16)
    (insn : CJump) (base : isModeEnabled feature .RV_I = true)
    (short : isModeEnabled feature .RV_C = true) (legal : insn.Legal) :
    (feature.xlen = 64 → (∀ imm, insn ≠ .jal imm) →
      (Agrees rv64 single feature coProc junk regs high insn.encode insn.expand ↔
        LinkKept rv64 regs insn)) ∧
    (feature.xlen = 32 →
      (Agrees rv32 single feature coProc junk regs high insn.encode insn.expand ↔
        LinkKept rv32 regs insn)) := by
  constructor
  · intro wide known
    exact jump_agrees_iff rv64 single feature coProc junk regs high (.inl wide)
      (serves_wide feature (by simp [isRV32, wide])) base short lawful64 insn known legal
  · intro narrow
    by_cases linked : ∃ imm, insn = .jal imm
    · obtain ⟨imm, rfl⟩ := linked
      exact jal_agrees_iff single feature coProc junk regs high narrow base short imm
    · exact jump_agrees_iff rv32 single feature coProc junk regs high (.inr narrow)
        (serves_narrow feature (by simp [isRV32, narrow])) base short lawful32 insn
        (fun imm same => linked ⟨imm, same⟩) legal

-- On RV32 with an offset of -2 c.j lands; nothing restricts it.
theorem compressed_jump_expands_iff_j :
    Agrees rv32 (fun _ => 0) { features := 66, xlen := 32, minCost := 1, maxCost := 1 } none default
      default 0 (CJump.j 0b11111111111).encode (CJump.j 0b11111111111).expand :=
  ((compressed_jump_expands_iff (fun _ => 0)
    { features := 66, xlen := 32, minCost := 1, maxCost := 1 } none default default 0
    (.j 0b11111111111) (by decide) (by decide) trivial).2 rfl).mpr trivial

/-- c.jr x1 at PC 0x1000 leaves 0x1002 in x1, where the manual writes no register. -/
theorem compressed_jr_links :
    (CJump.jr 1).Legal ∧
    ¬ Agrees rv64 (fun _ => 0) { features := 66, xlen := 64, minCost := 1, maxCost := 1 } none
      default { (default : RevRegFile) with rv64 := fun _ => 0x2000, rv64PC := 0x1000 } 0
      (CJump.jr 1).encode (CJump.jr 1).expand := by
  refine ⟨(by decide : (1#5) ≠ 0), ?_⟩
  rw [jr_agrees_iff rv64 _ { features := 66, xlen := 64, minCost := 1, maxCost := 1 } _ _ _ _
    (.inl rfl) (serves_wide _ (by decide)) (by decide) (by decide) lawful64 1 (by decide)]
  intro kept
  exact absurd kept (by decide : 0x2000#64 ≠ 0x1002#64)

end RevCPU.CompressedJump
