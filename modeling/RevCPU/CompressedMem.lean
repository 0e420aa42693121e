import RevCPU.CompressedDecode
import RevCPU.LoadStore
/-!
The compressed loads and stores, in both widths. What remains of an instruction after `LoadStore` is
a question about the bits of its encoding: which offset the decoder and the trampoline make of it.
Eight of the sixteen always reach the manual's address with the manual's register, two more wherever
they are decoded at all.
-/
namespace RevCPU.CompressedMem
open Feature InstTable IntTables FloatTables Seed Decode DecodeCompressed Mem RegFile Insns Manual Isa
  ManualCompressed CompressedDecode LoadStore

/-- What `DecodeCIInst` makes of a word offset: two bits stray to places 10 and 14. -/
def strayed (uimm : BitVec 6) (stray : BitVec 1) : BitVec 32 :=
  (uimm ++ 0#2).setWidth 32 ||| ((uimm.extractLsb' 2 1).setWidth 32 <<< 10) |||
    (stray.setWidth 32 <<< 14)

theorem strayed_masked (uimm : BitVec 6) (stray : BitVec 1) :
    strayed uimm stray &&& 0b11111111 = (uimm ++ 0#2).setWidth 32 := by
  revert uimm stray
  decide

theorem strayed_iff (uimm : BitVec 6) (stray : BitVec 1) :
    strayed uimm stray = (uimm ++ 0#2).setWidth 32 ↔ uimm.getLsbD 2 = false ∧ stray = 0 := by
  revert uimm stray
  decide

theorem strayed_small (uimm : BitVec 6) (stray : BitVec 1) : LoadStore.Small (strayed uimm stray) := by
  unfold LoadStore.Small
  revert uimm stray
  decide

section Immediates
variable (funct3 : BitVec 3) (op : BitVec 2)

theorem ciOffset8_eq (rd : BitVec 5) (uimm : BitVec 6) :
    ciOffset8 ((cword funct3 (uimm.extractLsb' 2 1) rd
      (uimm.extractLsb' 0 2 ++ uimm.extractLsb' 3 3) op).setWidth 32) =
      (uimm ++ 0#3).setWidth 32 := by
  simp (disch := decide) only [ciOffset8, ci_masked funct3 _ rd _ op]
  revert uimm
  decide

-- The decimal mask lets bit 3 of rd and bit 4 of the offset through.
theorem ciOffset4_eq (rd : BitVec 5) (uimm : BitVec 6) :
    ciOffset4 ((cword funct3 (uimm.extractLsb' 3 1) rd
      (uimm.extractLsb' 0 3 ++ uimm.extractLsb' 4 2) op).setWidth 32) =
      strayed uimm (rd.extractLsb' 3 1) := by
  apply BitVec.eq_of_getLsbD_eq
  intro i inside
  simp only [ciOffset4, strayed, cword, BitVec.getLsbD_or, BitVec.getLsbD_ushiftRight,
    BitVec.getLsbD_shiftLeft, BitVec.getLsbD_and, BitVec.getLsbD_setWidth, BitVec.getLsbD_append,
    BitVec.getLsbD_extractLsb']
  interval_cases i <;>
    simp only [Nat.reduceLT, Nat.reduceAdd, Nat.reduceSub, Nat.reduceLeDiff, decide_true,
      decide_false, ↓reduceIte, BitVec.reduceGetLsb, BitVec.getLsbD_of_ge, Bool.not_true,
      Bool.not_false, Bool.and_false, Bool.and_true, Bool.true_and, Bool.false_and, Bool.or_false,
      Bool.false_or]

-- The CSS offset lies in bits 12:7.
theorem css_masked (bit : BitVec 1) (mid low : BitVec 5) (part : BitVec 32)
    (inside : 0x1F80 &&& part = part) :
    (cword funct3 bit mid low op).setWidth 32 &&& part =
      (cword 0 bit mid 0 0).setWidth 32 &&& part := by
  refine Bits.masked_congr _ _ 0x1F80 part ?_ inside
  apply BitVec.eq_of_getLsbD_eq
  intro i bound
  simp only [cword, BitVec.getLsbD_and, BitVec.getLsbD_setWidth, BitVec.getLsbD_append]
  interval_cases i <;>
    simp only [Nat.reduceLT, Nat.reduceSub, decide_true, ↓reduceIte, BitVec.reduceGetLsb,
      Bool.and_false, Bool.and_true]

theorem cssOffset8_eq (rs2 : BitVec 5) (uimm : BitVec 6) :
    cssOffset8 ((cword funct3 (uimm.extractLsb' 2 1)
      (uimm.extractLsb' 0 2 ++ uimm.extractLsb' 3 3) rs2 op).setWidth 32) =
      (uimm ++ 0#3).setWidth 32 := by
  simp (disch := decide) only [cssOffset8, css_masked funct3 op]
  revert uimm
  decide

theorem cssOffset4_eq (rs2 : BitVec 5) (uimm : BitVec 6) :
    cssOffset4 ((cword funct3 (uimm.extractLsb' 3 1)
      (uimm.extractLsb' 0 3 ++ uimm.extractLsb' 4 2) rs2 op).setWidth 32) =
      (uimm ++ 0#2).setWidth 32 := by
  simp (disch := decide) only [cssOffset4, css_masked funct3 op]
  revert uimm
  decide

-- The CL and CS offset lies in bits 12:10 and 6:5.
theorem cl_masked (bit : BitVec 1) (top low : BitVec 2) (rs1 rd : BitVec 3) (part : BitVec 32)
    (inside : 0x1C60 &&& part = part) :
    (cword funct3 bit (top ++ rs1) (low ++ rd) op).setWidth 32 &&& part =
      (cword 0 bit (top ++ 0#3) (low ++ 0#3) 0).setWidth 32 &&& part := by
  refine Bits.masked_congr _ _ 0x1C60 part ?_ inside
  apply BitVec.eq_of_getLsbD_eq
  intro i bound
  simp only [cword, BitVec.getLsbD_and, BitVec.getLsbD_setWidth, BitVec.getLsbD_append]
  interval_cases i <;>
    simp only [Nat.reduceLT, Nat.reduceAdd, Nat.reduceSub, decide_true, ↓reduceIte,
      BitVec.reduceGetLsb, Bool.and_false, Bool.and_true]

section Pair
variable (rs1 rd : BitVec 3) (uimm : BitVec 5)

/-- The words of the CL and CS formats, by access size. -/
def pairWord8 : BitVec 16 :=
  cword funct3 (uimm.extractLsb' 2 1) (uimm.extractLsb' 0 2 ++ rs1) (uimm.extractLsb' 3 2 ++ rd) op

def pairWord4 : BitVec 16 :=
  cword funct3 (uimm.extractLsb' 3 1) (uimm.extractLsb' 1 2 ++ rs1)
    (uimm.extractLsb' 0 1 ++ uimm.extractLsb' 4 1 ++ rd) op

theorem clOffset8_eq :
    clOffset8 ((pairWord8 funct3 op rs1 rd uimm).setWidth 32) = (uimm ++ 0#3).setWidth 32 := by
  simp (disch := decide) only [clOffset8, pairWord8, cl_masked funct3 op]
  revert uimm
  decide

theorem clOffset4_eq :
    clOffset4 ((pairWord4 funct3 op rs1 rd uimm).setWidth 32) = (uimm ++ 0#2).setWidth 32 := by
  simp (disch := decide) only [clOffset4, pairWord4, cl_masked funct3 op]
  revert uimm
  decide

-- c.sw: the middle bits are shifted by one place too few.
theorem csImm_word_iff (xlen : Nat) :
    csImm xlen 0b110 ((pairWord4 funct3 op rs1 rd uimm).setWidth 32) &&& 0b1111111 =
      (uimm ++ 0#2).setWidth 32 ↔ uimm.extractLsb' 1 3 = 0 := by
  simp (disch := decide) only [csImm, pairWord4, cl_masked funct3 op, if_true]
  revert uimm
  decide

theorem csImm_wide (code : BitVec 8) (other : code ≠ 0b110) :
    csImm 64 code ((pairWord8 funct3 op rs1 rd uimm).setWidth 32) = (uimm ++ 0#3).setWidth 32 := by
  simp (disch := decide) only [csImm, pairWord8, cl_masked funct3 op, if_neg other]
  clear other
  revert uimm
  decide

-- On RV32 only one of bits 6:5 is kept, and at place 10.
theorem csImm_narrow8_iff (code : BitVec 8) (other : code ≠ 0b110) :
    csImm 32 code ((pairWord8 funct3 op rs1 rd uimm).setWidth 32) = (uimm ++ 0#3).setWidth 32 ↔
      uimm.extractLsb' 3 2 = 0 := by
  simp (disch := decide) only [csImm, pairWord8, cl_masked funct3 op, if_neg other]
  clear other
  revert uimm
  decide

theorem csImm_narrow4_iff (code : BitVec 8) (other : code ≠ 0b110) :
    csImm 32 code ((pairWord4 funct3 op rs1 rd uimm).setWidth 32) = (uimm ++ 0#2).setWidth 32 ↔
      uimm.getLsbD 0 = false ∧ uimm.getLsbD 4 = false := by
  simp (disch := decide) only [csImm, pairWord4, cl_masked funct3 op, if_neg other]
  clear other
  revert uimm
  decide

theorem csImm_small (code : BitVec 8) (other : code ≠ 0b110) :
    LoadStore.Small (csImm 32 code ((pairWord4 funct3 op rs1 rd uimm).setWidth 32)) := by
  simp (disch := decide) only [LoadStore.Small, csImm, pairWord4, cl_masked funct3 op, if_neg other]
  clear other
  revert uimm
  decide

end Pair

-- The masks of the trampolines bound the immediate.
theorem small_masked (imm : BitVec 32) (n : Nat) (short : n ≤ 11) :
    LoadStore.Small (imm &&& BitVec.ofNat 32 (2 ^ n - 1)) := by
  have high : ∀ i, n ≤ i → (imm &&& BitVec.ofNat 32 (2 ^ n - 1)).getLsbD i = false := by
    intro i above
    rw [low_mask, BitVec.getLsbD_setWidth, BitVec.getLsbD_setWidth]
    simp [show ¬ i < n by omega]
  exact ⟨high 11 short, by rw [BitVec.msb_eq_getLsbD_last]; exact high 31 (by omega)⟩

end Immediates

section Offset
variable {n : Nat} (uimm : BitVec n) (short : n ≤ 6)
include short

theorem offset_plain (op : CMemOp) : (CMem.offset op uimm).msb = false := by
  rw [CMem.offset]
  split <;>
    rw [BitVec.msb_eq_getLsbD_last, BitVec.getLsbD_setWidth, BitVec.getLsbD_of_ge _ _ (by omega),
      Bool.and_false]

theorem offset_word (op : CMemOp) (word : op.isDouble = false) :
    (CMem.offset op uimm).setWidth 32 = (uimm ++ 0#2).setWidth 32 := by
  rw [CMem.offset, word, if_neg Bool.false_ne_true, BitVec.setWidth_setWidth (by omega)]

theorem offset_double (op : CMemOp) (double : op.isDouble = true) :
    (CMem.offset op uimm).setWidth 32 = (uimm ++ 0#3).setWidth 32 := by
  rw [CMem.offset, if_pos double, BitVec.setWidth_setWidth (by omega)]

end Offset

section Formats
variable {w : Nat} (mode : Xlen w) (narrow : BitVec 64 → BitVec 32) (feature : RevFeature)
variable (coProc : Option (BitVec 32 → Bool)) (junk : RevInst) (regs : RevRegFile)
variable (high : BitVec 16) (base : Base) (func : ImplFunc) (code : BitVec 8) (condition : Prop)
variable (enabled : isModeEnabled feature .RV_C = true)
variable (funct3 : BitVec 3) (bit : BitVec 1)
include enabled

theorem agrees_loadSP (rd low : BitVec 5)
    (found : ∃ row, ((enabledExts feature).flatMap shortRows).find?
        (isCEnc (cEnc (cword funct3 bit rd low 0b10))) = some row ∧
      rowIs func .RVCTypeCI 0b10 code row = true)
    (runs : ∀ inst, inst.instSize = 2 → inst.rd = rd.setWidth 8 →
      inst.imm = ciImm feature.xlen 0b10 code (rd.setWidth 8)
        ((cword funct3 bit rd low 0b10).setWidth 32) →
      ∃ plan, execFunc narrow feature regs inst func = some plan ∧
        (Means plan (isaStep mode 2 regs base) ↔ condition)) :
    Agrees mode narrow feature coProc junk regs high (cword funct3 bit rd low 0b10) base ↔
      condition := by
  refine agrees_row mode narrow feature coProc junk regs high _ base func .RVCTypeCI 0b10 code
    (decodeCIInst feature.xlen junk (cword funct3 bit rd low 0b10)) condition enabled found ?_ ?_
  · intro row kind
    simp only [decodeCFormat, kind]
  · intro row opcode selector
    refine runs _ rfl (rd_cword _ _ _ _ _) ?_
    simp only [decodeCIInst, opcode, selector, rd_cword]

theorem agrees_storeSP (mid rs2 : BitVec 5)
    (found : ∃ row, ((enabledExts feature).flatMap shortRows).find?
        (isCEnc (cEnc (cword funct3 bit mid rs2 0b10))) = some row ∧
      rowIs func .RVCTypeCSS 0b10 code row = true)
    (runs : ∀ inst, inst.instSize = 2 → inst.rs2 = rs2.setWidth 8 →
      inst.imm = cssImm feature.xlen code ((cword funct3 bit mid rs2 0b10).setWidth 32) →
      ∃ plan, execFunc narrow feature regs inst func = some plan ∧
        (Means plan (isaStep mode 2 regs base) ↔ condition)) :
    Agrees mode narrow feature coProc junk regs high (cword funct3 bit mid rs2 0b10) base ↔
      condition := by
  refine agrees_row mode narrow feature coProc junk regs high _ base func .RVCTypeCSS 0b10 code
    (decodeCSSInst feature.xlen junk (cword funct3 bit mid rs2 0b10)) condition enabled found ?_ ?_
  · intro row kind
    simp only [decodeCFormat, kind]
  · intro row opcode selector
    refine runs _ rfl (crs2_cword _ _ _ _ _) ?_
    simp only [decodeCSSInst, selector]

section Pair
variable (top low : BitVec 2) (rs1 other : BitVec 3)

theorem agrees_load
    (found : ∃ row, ((enabledExts feature).flatMap shortRows).find?
        (isCEnc (cEnc (cword funct3 bit (top ++ rs1) (low ++ other) 0b00))) = some row ∧
      rowIs func .RVCTypeCL 0b00 code row = true)
    (runs : ∀ inst, inst.instSize = 2 → cRegMap inst.rd = (creg other).setWidth 8 →
      cRegMap inst.rs1 = (creg rs1).setWidth 8 →
      inst.imm = clImm feature.xlen junk.imm code
        ((cword funct3 bit (top ++ rs1) (low ++ other) 0b00).setWidth 32) →
      ∃ plan, execFunc narrow feature regs inst func = some plan ∧
        (Means plan (isaStep mode 2 regs base) ↔ condition)) :
    Agrees mode narrow feature coProc junk regs high
      (cword funct3 bit (top ++ rs1) (low ++ other) 0b00) base ↔ condition := by
  refine agrees_row mode narrow feature coProc junk regs high _ base func .RVCTypeCL 0b00 code
    (decodeCLInst feature.xlen junk (cword funct3 bit (top ++ rs1) (low ++ other) 0b00)) condition
    enabled found ?_ ?_
  · intro row kind
    simp only [decodeCFormat, kind]
  · intro row opcode selector
    refine runs _ rfl (lowCreg_cword _ _ _ _ _ _) (midCreg_cword _ _ _ _ _ _) ?_
    simp only [decodeCLInst, selector]

/-- A store keeps whatever `rd` held before. -/
theorem agrees_store
    (found : ∃ row, ((enabledExts feature).flatMap shortRows).find?
        (isCEnc (cEnc (cword funct3 bit (top ++ rs1) (low ++ other) 0b00))) = some row ∧
      rowIs func .RVCTypeCS 0b00 code row = true)
    (runs : ∀ inst, inst.instSize = 2 → inst.rd = junk.rd →
      cRegMap inst.rs2 = (creg other).setWidth 8 → cRegMap inst.rs1 = (creg rs1).setWidth 8 →
      inst.imm = csImm feature.xlen code
        ((cword funct3 bit (top ++ rs1) (low ++ other) 0b00).setWidth 32) →
      ∃ plan, execFunc narrow feature regs inst func = some plan ∧
        (Means plan (isaStep mode 2 regs base) ↔ condition)) :
    Agrees mode narrow feature coProc junk regs high
      (cword funct3 bit (top ++ rs1) (low ++ other) 0b00) base ↔ condition := by
  refine agrees_row mode narrow feature coProc junk regs high _ base func .RVCTypeCS 0b00 code
    (decodeCSInst feature.xlen junk (cword funct3 bit (top ++ rs1) (low ++ other) 0b00)) condition
    enabled found ?_ ?_
  · intro row kind
    simp only [decodeCFormat, kind]
  · intro row opcode selector
    refine runs _ rfl rfl (lowCreg_cword _ _ _ _ _ _) (midCreg_cword _ _ _ _ _ _) ?_
    simp only [decodeCSInst, selector]

end Pair
end Formats
/-- Where the code reaches the expansion's address with the expansion's value. Three stores take
rs2 from `rd`, which their format leaves as it was. -/
def Reaches {w : Nat} (mode : Xlen w) (feature : RevFeature) (junk : RevInst) (regs : RevRegFile) :
    CMem → Prop
  | .loadSP .d _ uimm | .storeSP .d _ uimm => uimm = 0
  | .loadSP .fw rd uimm =>
    isModeEnabled feature .RV_D = false ∧ uimm.getLsbD 2 = false ∧ rd.getLsbD 3 = false
  | .storeSP .fw _ _ | .load .fw _ _ _ => isModeEnabled feature .RV_D = false
  | .store .w _ rs2 uimm =>
    uimm.extractLsb' 1 3 = 0 ∧
      (mode.x regs (cRegMap junk.rd)).setWidth 32 = (reg mode regs (creg rs2)).setWidth 32
  | .store .fw _ rs2 uimm =>
    isModeEnabled feature .RV_D = false ∧ (uimm.getLsbD 0 = false ∧ uimm.getLsbD 4 = false) ∧
      regs.spf (cRegMap junk.rd) = regs.spf ((creg rs2).setWidth 8)
  | .store .fd _ rs2 uimm =>
    (feature.xlen = 32 → uimm.extractLsb' 3 2 = 0) ∧
      regs.dpf (cRegMap junk.rd) = regs.dpf ((creg rs2).setWidth 8)
  | _ => True

section Words
variable {w : Nat} (mode : Xlen w) (narrow : BitVec 64 → BitVec 32) (feature : RevFeature)
variable (coProc : Option (BitVec 32 → Bool)) (junk : RevInst) (regs : RevRegFile)
variable (high : BitVec 16)
variable (width : feature.xlen = 64 ∨ feature.xlen = 32) (accesses : Accesses mode feature)
variable (integer : isModeEnabled feature .RV_I = true)
variable (enabled : isModeEnabled feature .RV_C = true)
include width accesses integer enabled

theorem lwsp_agrees (rd : BitVec 5) (uimm : BitVec 6) :
    Agrees mode narrow feature coProc junk regs high (CMem.loadSP .w rd uimm).encode
      (CMem.loadSP .w rd uimm).expand ↔ Reaches mode feature junk regs (.loadSP .w rd uimm) := by
  have coded : ∀ bit select funct2, cKey 0b010 bit 0b10 select funct2 = 0x22 := by decide
  refine agrees_loadSP mode narrow feature coProc junk regs high _ (.rv32i .clwsp) 0b010 True
    enabled 0b010 _ rd _ (find_short_common feature width integer _ 0x22 _
      ((cEnc_cword _ _ _ _ _).trans (coded _ _ _)) (by decide)) ?_
  intro inst size dest value
  refine ⟨_, rfl, (accesses.lw regs { inst with rs1 := 2, imm := inst.imm &&& 0b11111111 } rd 2
    (CMem.offset .w uimm) size dest rfl (small_masked inst.imm 8 (by decide))
    (offset_plain uimm (by decide) .w)).trans (iff_of_true ?_ trivial)⟩
  rw [offset_word uimm (by decide) .w rfl, ← strayed_masked uimm (rd.extractLsb' 3 1),
    ← ciOffset4_eq 0b010 0b10 rd uimm, value]
  rfl

theorem swsp_agrees (rs2 : BitVec 5) (uimm : BitVec 6) :
    Agrees mode narrow feature coProc junk regs high (CMem.storeSP .w rs2 uimm).encode
      (CMem.storeSP .w rs2 uimm).expand ↔
        Reaches mode feature junk regs (.storeSP .w rs2 uimm) := by
  have coded : ∀ bit select funct2, cKey 0b110 bit 0b10 select funct2 = 0x62 := by decide
  have masked : ∀ uimm : BitVec 6,
      (uimm ++ 0#2).setWidth 32 &&& 0b11111111 = (uimm ++ 0#2).setWidth 32 := by decide
  refine agrees_storeSP mode narrow feature coProc junk regs high _ (.rv32i .cswsp) 0b110 True
    enabled 0b110 _ _ rs2 (find_short_common feature width integer _ 0x62 _
      ((cEnc_cword _ _ _ _ _).trans (coded _ _ _)) (by decide)) ?_
  intro inst size source value
  refine ⟨_, rfl, (accesses.sw regs { inst with rs1 := 2, imm := inst.imm &&& 0b11111111 } 2 rs2
    (CMem.offset .w uimm) size rfl (small_masked inst.imm 8 (by decide))
    (offset_plain uimm (by decide) .w)).trans (iff_of_true ⟨?_, ?_⟩ trivial)⟩
  · rw [offset_word uimm (by decide) .w rfl, ← masked uimm, ← cssOffset4_eq 0b110 0b10 rs2 uimm,
      value]
    rfl
  · rw [source, reg]

theorem lw_agrees (rd rs1 : BitVec 3) (uimm : BitVec 5) :
    Agrees mode narrow feature coProc junk regs high (CMem.load .w rd rs1 uimm).encode
      (CMem.load .w rd rs1 uimm).expand ↔
        Reaches mode feature junk regs (.load .w rd rs1 uimm) := by
  have coded : ∀ bit select funct2, cKey 0b010 bit 0b00 select funct2 = 0x20 := by decide
  have masked : ∀ uimm : BitVec 5,
      (uimm ++ 0#2).setWidth 32 &&& 0b1111111 = (uimm ++ 0#2).setWidth 32 := by decide
  refine agrees_load mode narrow feature coProc junk regs high _ (.rv32i .clw) 0b010 True
    enabled 0b010 _ _ _ rs1 rd (find_short_common feature width integer _ 0x20 _
      ((cEnc_cword _ _ _ _ _).trans (coded _ _ _)) (by decide)) ?_
  intro inst size dest source value
  refine ⟨_, rfl, (accesses.lw regs
    { inst with rd := cRegMap inst.rd, rs1 := cRegMap inst.rs1, imm := inst.imm &&& 0b1111111 }
    (creg rd) (creg rs1) (CMem.offset .w uimm) size dest source
    (small_masked inst.imm 7 (by decide)) (offset_plain uimm (by decide) .w)).trans
    (iff_of_true ?_ trivial)⟩
  rw [offset_word uimm (by decide) .w rfl, ← masked uimm, ← clOffset4_eq 0b010 0b00 rs1 rd uimm,
    value]
  rfl

theorem sw_agrees_iff (rs1 rs2 : BitVec 3) (uimm : BitVec 5) :
    Agrees mode narrow feature coProc junk regs high (CMem.store .w rs1 rs2 uimm).encode
      (CMem.store .w rs1 rs2 uimm).expand ↔
        Reaches mode feature junk regs (.store .w rs1 rs2 uimm) := by
  have coded : ∀ bit select funct2, cKey 0b110 bit 0b00 select funct2 = 0x60 := by decide
  refine agrees_store mode narrow feature coProc junk regs high _ (.rv32i .csw) 0b110 _
    enabled 0b110 _ _ _ rs1 rs2 (find_short_common feature width integer _ 0x60 _
      ((cEnc_cword _ _ _ _ _).trans (coded _ _ _)) (by decide)) ?_
  intro inst size kept _ source value
  refine ⟨_, rfl, (accesses.sw regs
    { inst with rs2 := cRegMap inst.rd, rs1 := cRegMap inst.rs1, imm := inst.imm &&& 0b1111111 }
    (creg rs1) (creg rs2) (CMem.offset .w uimm) size source
    (small_masked inst.imm 7 (by decide)) (offset_plain uimm (by decide) .w)).trans ?_⟩
  have place := csImm_word_iff 0b110 0b00 rs1 rs2 uimm feature.xlen
  rw [offset_word uimm (by decide) .w rfl]
  simp only [value, kept, Reaches]
  exact and_congr_left fun _ => place

section Double
variable (double : isModeEnabled feature .RV_D = true)
include double

theorem fldsp_agrees (rd : BitVec 5) (uimm : BitVec 6) :
    Agrees mode narrow feature coProc junk regs high (CMem.loadSP .fd rd uimm).encode
      (CMem.loadSP .fd rd uimm).expand ↔
        Reaches mode feature junk regs (.loadSP .fd rd uimm) := by
  have coded : ∀ bit select funct2, cKey 0b001 bit 0b10 select funct2 = 0x12 := by decide
  have small : ∀ uimm : BitVec 6, LoadStore.Small ((uimm ++ 0#3).setWidth 32) := by
    unfold LoadStore.Small
    decide
  refine agrees_loadSP mode narrow feature coProc junk regs high _ (.rv32d .cfldsp) 0b001 True
    enabled 0b001 _ rd _ (find_short_double feature width integer double _ 0x12 _
      ((cEnc_cword _ _ _ _ _).trans (coded _ _ _)) (by decide) (by decide)) ?_
  intro inst size dest value
  have imm : inst.imm = (uimm ++ 0#3).setWidth 32 :=
    value.trans (ciOffset8_eq 0b001 0b10 rd uimm)
  refine ⟨_, rfl, (accesses.fld regs { inst with rs1 := 2 } rd 2
    (CMem.offset .fd uimm) size dest rfl (imm ▸ small uimm)
    (offset_plain uimm (by decide) .fd)).trans (iff_of_true ?_ trivial)⟩
  rw [offset_double uimm (by decide) .fd rfl, ← imm]

theorem fsdsp_agrees (rs2 : BitVec 5) (uimm : BitVec 6) :
    Agrees mode narrow feature coProc junk regs high (CMem.storeSP .fd rs2 uimm).encode
      (CMem.storeSP .fd rs2 uimm).expand ↔
        Reaches mode feature junk regs (.storeSP .fd rs2 uimm) := by
  have coded : ∀ bit select funct2, cKey 0b101 bit 0b10 select funct2 = 0x52 := by decide
  refine agrees_storeSP mode narrow feature coProc junk regs high _ (.rv32d .cfsdsp) 0b101 True
    enabled 0b101 _ _ rs2 (find_short_double feature width integer double _ 0x52 _
      ((cEnc_cword _ _ _ _ _).trans (coded _ _ _)) (by decide) (by decide)) ?_
  intro inst size source value
  have imm : inst.imm = (uimm ++ 0#3).setWidth 32 :=
    value.trans (cssOffset8_eq 0b101 0b10 rs2 uimm)
  refine ⟨_, rfl, (accesses.fsd regs { inst with rs1 := 2 } 2 rs2
    (CMem.offset .fd uimm) size rfl
    (offset_plain uimm (by decide) .fd)).trans (iff_of_true ⟨?_, ?_⟩ trivial)⟩
  · rw [offset_double uimm (by decide) .fd rfl, ← imm]
  · rw [source]

theorem fld_agrees (rd rs1 : BitVec 3) (uimm : BitVec 5) :
    Agrees mode narrow feature coProc junk regs high (CMem.load .fd rd rs1 uimm).encode
      (CMem.load .fd rd rs1 uimm).expand ↔
        Reaches mode feature junk regs (.load .fd rd rs1 uimm) := by
  have coded : ∀ bit select funct2, cKey 0b001 bit 0b00 select funct2 = 0x10 := by decide
  have small : ∀ uimm : BitVec 5, LoadStore.Small ((uimm ++ 0#3).setWidth 32) := by
    unfold LoadStore.Small
    decide
  refine agrees_load mode narrow feature coProc junk regs high _ (.rv32d .cfld) 0b001 True
    enabled 0b001 _ _ _ rs1 rd (find_short_double feature width integer double _ 0x10 _
      ((cEnc_cword _ _ _ _ _).trans (coded _ _ _)) (by decide) (by decide)) ?_
  intro inst size dest source value
  have imm : inst.imm = (uimm ++ 0#3).setWidth 32 :=
    value.trans (clOffset8_eq 0b001 0b00 rs1 rd uimm)
  refine ⟨_, rfl, (accesses.fld regs
    { inst with rd := cRegMap inst.rd, rs1 := cRegMap inst.rs1 } (creg rd) (creg rs1)
    (CMem.offset .fd uimm) size dest source (imm ▸ small uimm)
    (offset_plain uimm (by decide) .fd)).trans (iff_of_true ?_ trivial)⟩
  rw [offset_double uimm (by decide) .fd rfl, ← imm]

theorem fsd_agrees_iff (rs1 rs2 : BitVec 3) (uimm : BitVec 5) :
    Agrees mode narrow feature coProc junk regs high (CMem.store .fd rs1 rs2 uimm).encode
      (CMem.store .fd rs1 rs2 uimm).expand ↔
        Reaches mode feature junk regs (.store .fd rs1 rs2 uimm) := by
  have coded : ∀ bit select funct2, cKey 0b101 bit 0b00 select funct2 = 0x50 := by decide
  refine agrees_store mode narrow feature coProc junk regs high _ (.rv32d .cfsd) 0b101 _
    enabled 0b101 _ _ _ rs1 rs2 (find_short_double feature width integer double _ 0x50 _
      ((cEnc_cword _ _ _ _ _).trans (coded _ _ _)) (by decide) (by decide)) ?_
  intro inst size kept _ source value
  refine ⟨_, rfl, (accesses.fsd regs
    { inst with rs2 := cRegMap inst.rd, rs1 := cRegMap inst.rs1 } (creg rs1) (creg rs2)
    (CMem.offset .fd uimm) size source (offset_plain uimm (by decide) .fd)).trans ?_⟩
  rw [offset_double uimm (by decide) .fd rfl]
  simp only [value, kept, Reaches]
  refine and_congr_left fun _ => ?_
  rcases width with wide | short
  · have place := csImm_wide 0b101 0b00 rs1 rs2 uimm 0b101 (by decide)
    rw [wide]
    exact iff_of_true place fun clash => absurd clash (by decide)
  · have place := csImm_narrow8_iff 0b101 0b00 rs1 rs2 uimm 0b101 (by decide)
    rw [short]
    exact place.trans (by simp)

end Double
end Words

section Wide
variable (narrow : BitVec 64 → BitVec 32) (feature : RevFeature)
variable (coProc : Option (BitVec 32 → Bool)) (junk : RevInst) (regs : RevRegFile)
variable (high : BitVec 16) (wide : feature.xlen = 64)
variable (integer : isModeEnabled feature .RV_I = true)
variable (enabled : isModeEnabled feature .RV_C = true)
include wide integer enabled

omit wide integer enabled in
-- The stack accesses of a doubleword mask and scale an offset that is scaled already.
theorem rescaled_iff (uimm : BitVec 6) :
    ((uimm ++ 0#3).setWidth 32 &&& 0b111111) * 8 = (uimm ++ 0#3).setWidth 32 ↔ uimm = 0 := by
  revert uimm
  decide

omit wide integer enabled in
theorem rescaled_small (uimm : BitVec 6) :
    LoadStore.Small (((uimm ++ 0#3).setWidth 32 &&& 0b111111) * 8) := by
  unfold LoadStore.Small
  revert uimm
  decide

theorem ldsp_agrees_iff (rd : BitVec 5) (uimm : BitVec 6) :
    Agrees rv64 narrow feature coProc junk regs high (CMem.loadSP .d rd uimm).encode
      (CMem.loadSP .d rd uimm).expand ↔ Reaches rv64 feature junk regs (.loadSP .d rd uimm) := by
  have coded : ∀ bit select funct2, cKey 0b011 bit 0b10 select funct2 = 0x32 := by decide
  refine agrees_loadSP rv64 narrow feature coProc junk regs high _ (.rv64i .cldsp) 0b011 _
    enabled 0b011 _ rd _ (find_short_wide feature wide integer _ 0x32 _
      ((cEnc_cword _ _ _ _ _).trans (coded _ _ _)) (by decide)) ?_
  intro inst size dest value
  have imm : inst.imm = (uimm ++ 0#3).setWidth 32 := by
    rw [value, wide]
    exact ciOffset8_eq 0b011 0b10 rd uimm
  refine ⟨_, rfl, (ld_means_iff regs { inst with rs1 := 2, imm := (inst.imm &&& 0b111111) * 8 }
    (CMem.offset .d uimm) size (imm ▸ rescaled_small uimm) (offset_plain uimm (by decide) .d)
    rd 2 dest rfl).trans ?_⟩
  rw [offset_double uimm (by decide) .d rfl, imm]
  exact rescaled_iff uimm

theorem sdsp_agrees_iff (rs2 : BitVec 5) (uimm : BitVec 6) :
    Agrees rv64 narrow feature coProc junk regs high (CMem.storeSP .d rs2 uimm).encode
      (CMem.storeSP .d rs2 uimm).expand ↔
        Reaches rv64 feature junk regs (.storeSP .d rs2 uimm) := by
  have coded : ∀ bit select funct2, cKey 0b111 bit 0b10 select funct2 = 0x72 := by decide
  refine agrees_storeSP rv64 narrow feature coProc junk regs high _ (.rv64i .csdsp) 0b111 _
    enabled 0b111 _ _ rs2 (find_short_wide feature wide integer _ 0x72 _
      ((cEnc_cword _ _ _ _ _).trans (coded _ _ _)) (by decide)) ?_
  intro inst size source value
  have imm : inst.imm = (uimm ++ 0#3).setWidth 32 := by
    rw [value, wide]
    exact cssOffset8_eq 0b111 0b10 rs2 uimm
  refine ⟨_, rfl, (sd_means_iff regs { inst with rs1 := 2, imm := (inst.imm &&& 0b111111) * 8 }
    (CMem.offset .d uimm) size (imm ▸ rescaled_small uimm) (offset_plain uimm (by decide) .d)
    2 rs2 rfl).trans ?_⟩
  rw [offset_double uimm (by decide) .d rfl, imm]
  refine Iff.trans (and_iff_left ?_) (rescaled_iff uimm)
  rw [source]
  rfl

theorem ld_agrees (rd rs1 : BitVec 3) (uimm : BitVec 5) :
    Agrees rv64 narrow feature coProc junk regs high (CMem.load .d rd rs1 uimm).encode
      (CMem.load .d rd rs1 uimm).expand ↔
        Reaches rv64 feature junk regs (.load .d rd rs1 uimm) := by
  have coded : ∀ bit select funct2, cKey 0b011 bit 0b00 select funct2 = 0x30 := by decide
  have masked : ∀ uimm : BitVec 5,
      (uimm ++ 0#3).setWidth 32 &&& 0b11111111 = (uimm ++ 0#3).setWidth 32 := by decide
  refine agrees_load rv64 narrow feature coProc junk regs high _ (.rv64i .cld) 0b011 True
    enabled 0b011 _ _ _ rs1 rd (find_short_wide feature wide integer _ 0x30 _
      ((cEnc_cword _ _ _ _ _).trans (coded _ _ _)) (by decide)) ?_
  intro inst size dest source value
  have imm : inst.imm = (uimm ++ 0#3).setWidth 32 := by
    rw [value, wide]
    exact clOffset8_eq 0b011 0b00 rs1 rd uimm
  refine ⟨_, rfl, (ld_means_iff regs
    { inst with rd := cRegMap inst.rd, rs1 := cRegMap inst.rs1, imm := inst.imm &&& 0b11111111 }
    (CMem.offset .d uimm) size (small_masked inst.imm 8 (by decide))
    (offset_plain uimm (by decide) .d) (creg rd) (creg rs1) dest source).trans
    (iff_of_true ?_ trivial)⟩
  rw [offset_double uimm (by decide) .d rfl, imm]
  exact masked uimm

theorem sd_agrees (rs1 rs2 : BitVec 3) (uimm : BitVec 5) :
    Agrees rv64 narrow feature coProc junk regs high (CMem.store .d rs1 rs2 uimm).encode
      (CMem.store .d rs1 rs2 uimm).expand ↔
        Reaches rv64 feature junk regs (.store .d rs1 rs2 uimm) := by
  have coded : ∀ bit select funct2, cKey 0b111 bit 0b00 select funct2 = 0x70 := by decide
  have masked : ∀ uimm : BitVec 5,
      (uimm ++ 0#3).setWidth 32 &&& 0b11111111 = (uimm ++ 0#3).setWidth 32 := by decide
  refine agrees_store rv64 narrow feature coProc junk regs high _ (.rv64i .csd) 0b111 True
    enabled 0b111 _ _ _ rs1 rs2 (find_short_wide feature wide integer _ 0x70 _
      ((cEnc_cword _ _ _ _ _).trans (coded _ _ _)) (by decide)) ?_
  intro inst size _ second source value
  have imm : inst.imm = (uimm ++ 0#3).setWidth 32 := by
    rw [value, wide]
    exact csImm_wide 0b111 0b00 rs1 rs2 uimm 0b111 (by decide)
  refine ⟨_, rfl, (sd_means_iff regs
    { inst with rs2 := cRegMap inst.rs2, rs1 := cRegMap inst.rs1, imm := inst.imm &&& 0b11111111 }
    (CMem.offset .d uimm) size (small_masked inst.imm 8 (by decide))
    (offset_plain uimm (by decide) .d) (creg rs1) (creg rs2) source).trans
    (iff_of_true ⟨?_, ?_⟩ trivial)⟩
  · rw [offset_double uimm (by decide) .d rfl, imm]
    exact masked uimm
  · rw [second]
    rfl

end Wide

section Single
variable (convert : BitVec 64 → BitVec 32) (feature : RevFeature)
variable (coProc : Option (BitVec 32 → Bool)) (junk : RevInst) (regs : RevRegFile)
variable (high : BitVec 16) (narrow : feature.xlen = 32)
variable (integer : isModeEnabled feature .RV_I = true)
variable (float : isModeEnabled feature .RV_F = true)
variable (enabled : isModeEnabled feature .RV_C = true)
include narrow integer enabled

-- With D the rows of the single accesses are not loaded.
theorem single_absent (double : isModeEnabled feature .RV_D = true) (insn : CMem) (key : BitVec 32)
    (code : cEnc insn.encode = key)
    (absent : (rv32ICTable ++ rv32ICOTable ++ rv32DCTable).find? (isCEnc key) = none)
    (accesses : (isaStep rv32 2 regs insn.expand).access ≠ .none) :
    ¬ Agrees rv32 convert feature coProc junk regs high insn.encode insn.expand := by
  refine agrees_absent rv32 convert feature coProc junk regs high _ _ (.inr narrow) integer enabled
    ?_ accesses
  rw [code, shortRows_narrow feature narrow, if_pos integer, if_pos double]
  exact absent

include float

omit enabled in
theorem single_found (single : isModeEnabled feature .RV_D = false) (inst : BitVec 16)
    (key : BitVec 32) (test : RevInstEntry → Bool) (code : cEnc inst = key)
    (listed : ((rv32ICTable ++ rv32ICOTable ++ rv32FCOTable).find? (isCEnc key)).any test = true) :
    ∃ row, ((enabledExts feature).flatMap shortRows).find? (isCEnc (cEnc inst)) = some row ∧
      test row = true := by
  rw [code, shortRows_single feature narrow integer float single]
  exact (Option.any_eq_true _ _).mp listed

theorem flwsp_agrees_iff (rd : BitVec 5) (uimm : BitVec 6) :
    Agrees rv32 convert feature coProc junk regs high (CMem.loadSP .fw rd uimm).encode
      (CMem.loadSP .fw rd uimm).expand ↔ Reaches rv32 feature junk regs (.loadSP .fw rd uimm) := by
  have rv : isRV32 feature = true := by simp [isRV32, narrow]
  have bit_iff : ∀ rd : BitVec 5, rd.extractLsb' 3 1 = 0 ↔ rd.getLsbD 3 = false := by decide
  have coded : ∀ bit select funct2, cKey 0b011 bit 0b10 select funct2 = 0x32 := by decide
  have key : cEnc (CMem.loadSP .fw rd uimm).encode = 0x32 :=
    (cEnc_cword _ _ _ _ _).trans (coded _ _ _)
  cases double : isModeEnabled feature .RV_D with
  | true =>
    have never := single_absent convert feature coProc junk regs high narrow integer enabled
      double (.loadSP .fw rd uimm) 0x32 key (by decide) IsaAccess.noConfusion
    simp [never, Reaches, double]
  | false =>
    refine (agrees_loadSP rv32 convert feature coProc junk regs high _ (.rv32f .cflwsp) 0b011
      (uimm.getLsbD 2 = false ∧ rd.getLsbD 3 = false) enabled 0b011 _ rd _
      (single_found feature narrow integer float double _ 0x32 _ key (by decide)) ?_).trans
      (by simp [Reaches, double])
    intro inst size dest value
    have imm : inst.imm = strayed uimm (rd.extractLsb' 3 1) := by
      rw [value, narrow]
      exact ciOffset4_eq 0b011 0b10 rd uimm
    refine ⟨_, rfl, (flw_means_iff feature regs { inst with rs1 := 2 } (CMem.offset .fw uimm) size
      (imm ▸ strayed_small uimm _) (offset_plain uimm (by decide) .fw) rv double rd 2 dest
      rfl).trans ?_⟩
    rw [offset_word uimm (by decide) .fw rfl, imm, strayed_iff uimm]
    exact and_congr_right fun _ => bit_iff rd

theorem fswsp_agrees_iff (rs2 : BitVec 5) (uimm : BitVec 6) :
    Agrees rv32 convert feature coProc junk regs high (CMem.storeSP .fw rs2 uimm).encode
      (CMem.storeSP .fw rs2 uimm).expand ↔
        Reaches rv32 feature junk regs (.storeSP .fw rs2 uimm) := by
  have rv : isRV32 feature = true := by simp [isRV32, narrow]
  have coded : ∀ bit select funct2, cKey 0b111 bit 0b10 select funct2 = 0x72 := by decide
  have key : cEnc (CMem.storeSP .fw rs2 uimm).encode = 0x72 :=
    (cEnc_cword _ _ _ _ _).trans (coded _ _ _)
  have small : ∀ uimm : BitVec 6, LoadStore.Small ((uimm ++ 0#2).setWidth 32) := by
    unfold LoadStore.Small
    decide
  cases double : isModeEnabled feature .RV_D with
  | true =>
    have never := single_absent convert feature coProc junk regs high narrow integer enabled
      double (.storeSP .fw rs2 uimm) 0x72 key (by decide) IsaAccess.noConfusion
    simp [never, Reaches, double]
  | false =>
    refine (agrees_storeSP rv32 convert feature coProc junk regs high _ (.rv32f .cfswsp) 0b111
      True enabled 0b111 _ _ rs2
      (single_found feature narrow integer float double _ 0x72 _ key (by decide)) ?_).trans
      (by simp [Reaches, double])
    intro inst size source value
    have imm : inst.imm = (uimm ++ 0#2).setWidth 32 := by
      rw [value, narrow]
      exact cssOffset4_eq 0b111 0b10 rs2 uimm
    refine ⟨_, rfl, (fsw_means_iff feature regs { inst with rs1 := 2 } (CMem.offset .fw uimm) size
      (imm ▸ small uimm) (offset_plain uimm (by decide) .fw) rv double convert 2 rs2 rfl).trans
      (iff_of_true ⟨?_, ?_⟩ trivial)⟩
    · rw [offset_word uimm (by decide) .fw rfl, ← imm]
    · rw [source]

theorem flw_agrees_iff (rd rs1 : BitVec 3) (uimm : BitVec 5) :
    Agrees rv32 convert feature coProc junk regs high (CMem.load .fw rd rs1 uimm).encode
      (CMem.load .fw rd rs1 uimm).expand ↔
        Reaches rv32 feature junk regs (.load .fw rd rs1 uimm) := by
  have rv : isRV32 feature = true := by simp [isRV32, narrow]
  have coded : ∀ bit select funct2, cKey 0b011 bit 0b00 select funct2 = 0x30 := by decide
  have key : cEnc (CMem.load .fw rd rs1 uimm).encode = 0x30 :=
    (cEnc_cword _ _ _ _ _).trans (coded _ _ _)
  have small : ∀ uimm : BitVec 5, LoadStore.Small ((uimm ++ 0#2).setWidth 32) := by
    unfold LoadStore.Small
    decide
  cases double : isModeEnabled feature .RV_D with
  | true =>
    have never := single_absent convert feature coProc junk regs high narrow integer enabled
      double (.load .fw rd rs1 uimm) 0x30 key (by decide) IsaAccess.noConfusion
    simp [never, Reaches, double]
  | false =>
    refine (agrees_load rv32 convert feature coProc junk regs high _ (.rv32f .cflw) 0b011
      True enabled 0b011 _ _ _ rs1 rd
      (single_found feature narrow integer float double _ 0x30 _ key (by decide)) ?_).trans
      (by simp [Reaches, double])
    intro inst size dest source value
    have imm : inst.imm = (uimm ++ 0#2).setWidth 32 := by
      rw [value, narrow]
      exact clOffset4_eq 0b011 0b00 rs1 rd uimm
    refine ⟨_, rfl, (flw_means_iff feature regs
      { inst with rd := cRegMap inst.rd, rs1 := cRegMap inst.rs1 } (CMem.offset .fw uimm) size
      (imm ▸ small uimm) (offset_plain uimm (by decide) .fw) rv double (creg rd) (creg rs1) dest
      source).trans (iff_of_true ?_ trivial)⟩
    rw [offset_word uimm (by decide) .fw rfl, ← imm]

theorem fsw_agrees_iff (rs1 rs2 : BitVec 3) (uimm : BitVec 5) :
    Agrees rv32 convert feature coProc junk regs high (CMem.store .fw rs1 rs2 uimm).encode
      (CMem.store .fw rs1 rs2 uimm).expand ↔
        Reaches rv32 feature junk regs (.store .fw rs1 rs2 uimm) := by
  have rv : isRV32 feature = true := by simp [isRV32, narrow]
  have coded : ∀ bit select funct2, cKey 0b111 bit 0b00 select funct2 = 0x70 := by decide
  have key : cEnc (CMem.store .fw rs1 rs2 uimm).encode = 0x70 :=
    (cEnc_cword _ _ _ _ _).trans (coded _ _ _)
  cases double : isModeEnabled feature .RV_D with
  | true =>
    have never := single_absent convert feature coProc junk regs high narrow integer enabled
      double (.store .fw rs1 rs2 uimm) 0x70 key (by decide) IsaAccess.noConfusion
    simp [never, Reaches, double]
  | false =>
    refine (agrees_store rv32 convert feature coProc junk regs high _ (.rv32f .cfsw) 0b111
      ((uimm.getLsbD 0 = false ∧ uimm.getLsbD 4 = false) ∧
        regs.spf (cRegMap junk.rd) = regs.spf ((creg rs2).setWidth 8)) enabled 0b111 _ _ _ rs1 rs2
      (single_found feature narrow integer float double _ 0x70 _ key (by decide)) ?_).trans
      (by simp [Reaches, double])
    intro inst size kept _ source value
    rw [narrow] at value
    refine ⟨_, rfl, (fsw_means_iff feature regs
      { inst with rs2 := cRegMap inst.rd, rs1 := cRegMap inst.rs1 } (CMem.offset .fw uimm) size
      (value ▸ csImm_small 0b111 0b00 rs1 rs2 uimm 0b111 (by decide))
      (offset_plain uimm (by decide) .fw) rv double convert (creg rs1) (creg rs2) source).trans ?_⟩
    have place := csImm_narrow4_iff 0b111 0b00 rs1 rs2 uimm 0b111 (by decide)
    rw [offset_word uimm (by decide) .fw rfl]
    simp only [value, kept]
    exact and_congr_left fun _ => place

end Single
/-- The same for every register file at once: then the stores must name the register itself. -/
def ReachesAlways (feature : RevFeature) (junk : RevInst) : CMem → Prop
  | .loadSP .d _ uimm | .storeSP .d _ uimm => uimm = 0
  | .loadSP .fw rd uimm =>
    isModeEnabled feature .RV_D = false ∧ uimm.getLsbD 2 = false ∧ rd.getLsbD 3 = false
  | .storeSP .fw _ _ | .load .fw _ _ _ => isModeEnabled feature .RV_D = false
  | .store .w _ rs2 uimm => uimm.extractLsb' 1 3 = 0 ∧ cRegMap junk.rd = (creg rs2).setWidth 8
  | .store .fw _ rs2 uimm =>
    isModeEnabled feature .RV_D = false ∧ (uimm.getLsbD 0 = false ∧ uimm.getLsbD 4 = false) ∧
      cRegMap junk.rd = (creg rs2).setWidth 8
  | .store .fd _ rs2 uimm =>
    (feature.xlen = 32 → uimm.extractLsb' 3 2 = 0) ∧ cRegMap junk.rd = (creg rs2).setWidth 8
  | _ => True

theorem spf_names (index other : BitVec 8)
    (same : ∀ regs : RevRegFile, regs.spf index = regs.spf other) : index = other := by
  have marked := same { (default : RevRegFile) with spf := fun i => if i = other then 1 else 0 }
  by_contra apart
  simp only [if_neg apart, if_true] at marked
  exact absurd marked (by decide)

theorem dpf_names (index other : BitVec 8)
    (same : ∀ regs : RevRegFile, regs.dpf index = regs.dpf other) : index = other := by
  have marked := same { (default : RevRegFile) with dpf := fun i => if i = other then 1 else 0 }
  by_contra apart
  simp only [if_neg apart, if_true] at marked
  exact absurd marked (by decide)

theorem reaches_always_iff {w : Nat} (mode : Xlen w) (lawful : Lawful mode) (feature : RevFeature)
    (junk : RevInst) (insn : CMem) :
    (∀ regs, Reaches mode feature junk regs insn) ↔ ReachesAlways feature junk insn := by
  have index : ∀ rs2, (creg rs2).setWidth 8 ≠ (0 : BitVec 8) := by decide
  cases insn with
  | loadSP op rd uimm => cases op <;> exact forall_const _
  | storeSP op rs2 uimm => cases op <;> exact forall_const _
  | load op rd rs1 uimm => cases op <;> exact forall_const _
  | store op rs1 rs2 uimm =>
    cases op with
    | w =>
      simp only [Reaches, ReachesAlways, forall_and, forall_const]
      refine and_congr_right fun _ => ⟨lawful.names _ _ (index rs2), ?_⟩
      intro same regs
      rw [same, reg]
    | d => exact forall_const _
    | fw =>
      simp only [Reaches, ReachesAlways, forall_and, forall_const]
      refine and_congr_right fun _ => and_congr_right fun _ => ⟨?_, fun same regs => by rw [same]⟩
      intro same
      exact spf_names _ _ same
    | fd =>
      simp only [Reaches, ReachesAlways, forall_and, forall_const]
      refine and_congr_right fun _ => ⟨?_, fun same regs => by rw [same]⟩
      intro same
      exact dpf_names _ _ same

/-- The accesses a model has: doublewords on RV64, singles on RV32 with F, doubles with D. -/
def Offered (feature : RevFeature) : CMemOp → Prop
  | .w => True
  | .d => feature.xlen = 64
  | .fw => feature.xlen = 32 ∧ isModeEnabled feature .RV_F = true
  | .fd => isModeEnabled feature .RV_D = true

section Both
variable (convert : BitVec 64 → BitVec 32) (feature : RevFeature)
variable (coProc : Option (BitVec 32 → Bool)) (junk : RevInst) (regs : RevRegFile)
variable (high : BitVec 16) (insn : CMem) (integer : isModeEnabled feature .RV_I = true)
variable (enabled : isModeEnabled feature .RV_C = true) (offered : Offered feature insn.op)
include integer enabled offered

theorem wide_agrees_iff (wide : feature.xlen = 64) :
    Agrees rv64 convert feature coProc junk regs high insn.encode insn.expand ↔
      Reaches rv64 feature junk regs insn := by
  have accesses := accesses_wide feature (by simp [isRV32, wide])
  have width : feature.xlen = 64 ∨ feature.xlen = 32 := .inl wide
  have absent : insn.op ≠ .fw := by
    intro single
    rw [single] at offered
    exact absurd (wide.symm.trans offered.1) (by decide)
  cases insn with
  | loadSP op rd uimm =>
    cases op with
    | w =>
      exact lwsp_agrees rv64 convert feature coProc junk regs high width accesses integer
        enabled rd uimm
    | d =>
      exact ldsp_agrees_iff convert feature coProc junk regs high wide integer enabled rd uimm
    | fw => exact absurd rfl absent
    | fd =>
      exact fldsp_agrees rv64 convert feature coProc junk regs high width accesses integer
        enabled offered rd uimm
  | storeSP op rs2 uimm =>
    cases op with
    | w =>
      exact swsp_agrees rv64 convert feature coProc junk regs high width accesses integer
        enabled rs2 uimm
    | d =>
      exact sdsp_agrees_iff convert feature coProc junk regs high wide integer enabled rs2 uimm
    | fw => exact absurd rfl absent
    | fd =>
      exact fsdsp_agrees rv64 convert feature coProc junk regs high width accesses integer
        enabled offered rs2 uimm
  | load op rd rs1 uimm =>
    cases op with
    | w =>
      exact lw_agrees rv64 convert feature coProc junk regs high width accesses integer
        enabled rd rs1 uimm
    | d =>
      exact ld_agrees convert feature coProc junk regs high wide integer enabled rd rs1 uimm
    | fw => exact absurd rfl absent
    | fd =>
      exact fld_agrees rv64 convert feature coProc junk regs high width accesses integer
        enabled offered rd rs1 uimm
  | store op rs1 rs2 uimm =>
    cases op with
    | w =>
      exact sw_agrees_iff rv64 convert feature coProc junk regs high width accesses integer
        enabled rs1 rs2 uimm
    | d =>
      exact sd_agrees convert feature coProc junk regs high wide integer enabled rs1 rs2 uimm
    | fw => exact absurd rfl absent
    | fd =>
      exact fsd_agrees_iff rv64 convert feature coProc junk regs high width accesses integer
        enabled offered rs1 rs2 uimm

theorem narrow_agrees_iff (narrow : feature.xlen = 32) :
    Agrees rv32 convert feature coProc junk regs high insn.encode insn.expand ↔
      Reaches rv32 feature junk regs insn := by
  have accesses := accesses_narrow feature (by simp [isRV32, narrow])
  have width : feature.xlen = 64 ∨ feature.xlen = 32 := .inr narrow
  have absent : insn.op ≠ .d := by
    intro double
    rw [double] at offered
    exact absurd (narrow.symm.trans offered) (by decide)
  cases insn with
  | loadSP op rd uimm =>
    cases op with
    | w =>
      exact lwsp_agrees rv32 convert feature coProc junk regs high width accesses integer
        enabled rd uimm
    | d => exact absurd rfl absent
    | fw =>
      exact flwsp_agrees_iff convert feature coProc junk regs high narrow integer offered.2
        enabled rd uimm
    | fd =>
      exact fldsp_agrees rv32 convert feature coProc junk regs high width accesses integer
        enabled offered rd uimm
  | storeSP op rs2 uimm =>
    cases op with
    | w =>
      exact swsp_agrees rv32 convert feature coProc junk regs high width accesses integer
        enabled rs2 uimm
    | d => exact absurd rfl absent
    | fw =>
      exact fswsp_agrees_iff convert feature coProc junk regs high narrow integer offered.2
        enabled rs2 uimm
    | fd =>
      exact fsdsp_agrees rv32 convert feature coProc junk regs high width accesses integer
        enabled offered rs2 uimm
  | load op rd rs1 uimm =>
    cases op with
    | w =>
      exact lw_agrees rv32 convert feature coProc junk regs high width accesses integer
        enabled rd rs1 uimm
    | d => exact absurd rfl absent
    | fw =>
      exact flw_agrees_iff convert feature coProc junk regs high narrow integer offered.2
        enabled rd rs1 uimm
    | fd =>
      exact fld_agrees rv32 convert feature coProc junk regs high width accesses integer
        enabled offered rd rs1 uimm
  | store op rs1 rs2 uimm =>
    cases op with
    | w =>
      exact sw_agrees_iff rv32 convert feature coProc junk regs high width accesses integer
        enabled rs1 rs2 uimm
    | d => exact absurd rfl absent
    | fw =>
      exact fsw_agrees_iff convert feature coProc junk regs high narrow integer offered.2
        enabled rs1 rs2 uimm
    | fd =>
      exact fsd_agrees_iff rv32 convert feature coProc junk regs high width accesses integer
        enabled offered rs1 rs2 uimm

end Both

/-- Exactly when a compressed load or store means its expansion: on one register file, and on
all. -/
theorem compressed_memory_expands_iff (convert : BitVec 64 → BitVec 32) (feature : RevFeature)
    (coProc : Option (BitVec 32 → Bool)) (junk : RevInst) (high : BitVec 16) (insn : CMem)
    (integer : isModeEnabled feature .RV_I = true) (enabled : isModeEnabled feature .RV_C = true)
    (offered : Offered feature insn.op) :
    (feature.xlen = 64 →
      (∀ regs, Agrees rv64 convert feature coProc junk regs high insn.encode insn.expand ↔
        Reaches rv64 feature junk regs insn) ∧
      ((∀ regs, Agrees rv64 convert feature coProc junk regs high insn.encode insn.expand) ↔
        ReachesAlways feature junk insn)) ∧
    (feature.xlen = 32 →
      (∀ regs, Agrees rv32 convert feature coProc junk regs high insn.encode insn.expand ↔
        Reaches rv32 feature junk regs insn) ∧
      ((∀ regs, Agrees rv32 convert feature coProc junk regs high insn.encode insn.expand) ↔
        ReachesAlways feature junk insn)) := by
  constructor
  · intro wide
    have each := fun regs => wide_agrees_iff convert feature coProc junk regs high insn integer
      enabled offered wide
    exact ⟨each, (forall_congr' each).trans (reaches_always_iff rv64 lawful64 feature junk insn)⟩
  · intro narrow
    have each := fun regs => narrow_agrees_iff convert feature coProc junk regs high insn integer
      enabled offered narrow
    exact ⟨each, (forall_congr' each).trans (reaches_always_iff rv32 lawful32 feature junk insn)⟩

theorem compressed_memory_expands_iff_lwsp :
    Agrees rv64 (fun _ => 0) { features := 66, xlen := 64, minCost := 1, maxCost := 1 } none default
      default 0 (CMem.loadSP .w 10 63).encode (CMem.loadSP .w 10 63).expand :=
  (((compressed_memory_expands_iff (fun _ => 0)
    { features := 66, xlen := 64, minCost := 1, maxCost := 1 } none default 0 (.loadSP .w 10 63)
    (by decide) (by decide) trivial).1 rfl).1 default).mpr trivial

/-- c.ldsp x10, 8(x2) reads at x2 + 64. -/
theorem compressed_ldsp_rescales :
    (CMem.loadSP .d 10 1).Legal ∧
    ¬ Agrees rv64 (fun _ => 0) { features := 66, xlen := 64, minCost := 1, maxCost := 1 } none
      default default 0 (CMem.loadSP .d 10 1).encode (CMem.loadSP .d 10 1).expand := by
  refine ⟨.inr (by decide : (10#5) ≠ 0), ?_⟩
  rw [ldsp_agrees_iff _ { features := 66, xlen := 64, minCost := 1, maxCost := 1 } _ _ _ _ rfl
    (by decide) (by decide)]
  exact (by decide : (1#6) ≠ 0)

end RevCPU.CompressedMem
