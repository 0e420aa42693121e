import RevCPU.CompressedDecode
import RevCPU.WordArith
/-!
The compressed arithmetic instructions of RV64. The base functions have their values in BaseArith; a
trampoline only has to hand over the right fields. The CI and CIW instructions always mean their
expansion. Of the CA, CB and CR instructions one does not: c.andi extends its immediate twice, the
second time from bit 11 of a value that already fills 32 bits.
-/
namespace RevCPU.CompressedArith
open Feature InstTable IntTables FloatTables Seed Decode DecodeCompressed RegFile Insns Manual Isa
  ManualCompressed CompressedDecode
open BaseArith (shamt_mask)

section Base
variable (feature : RevFeature) (regs : RevRegFile) (inst : RevInst) (rd rs1 rs2 : BitVec 5)
variable (wide : isRV32 feature = false) (size : inst.instSize = 2)
variable (dest : inst.rd = rd.setWidth 8)

include wide size dest in
theorem addi_extended (imm : BitVec 12) (source : inst.rs1 = rs1.setWidth 8)
    (value : inst.imm = imm.signExtend 32) :
    RV32I.addi feature regs inst =
      .done (retire rv64 2 regs rd (reg rv64 regs rs1 + imm.signExtend 64)) := by
  have extended := twosComplement_extended (w := 64) imm 12 (by decide) (Nat.le_refl 12)
    (show 12 ≤ 32 by decide) (by decide)
  rw [BaseArith.addi_wide feature regs inst rd rs1 size dest source wide, value, tdU64, extended]

include size dest in
theorem addiw_extended (imm : BitVec 12) (source : inst.rs1 = rs1.setWidth 8)
    (value : inst.imm = imm.signExtend 32) :
    RV64I.addiw regs inst =
      .done (retire rv64 2 regs rd
        (onWords (· + ·) (reg rv64 regs rs1) (imm.signExtend 64))) := by
  have extended := twosComplement_extended (w := 32) imm 12 (by decide) (Nat.le_refl 12)
    (show 12 ≤ 32 by decide) (by decide)
  have low : (imm.signExtend 64).setWidth 32 = imm.signExtend 32 :=
    Bits.setWidth_signExtend imm (by decide)
  rw [BitVec.setWidth_eq] at extended
  rw [WordArith.addiw_wide regs inst rd rs1 size dest source, value, tdU32, extended, onWords, low]

include wide size dest in
theorem lui_extended (imm : BitVec 20) (value : inst.imm = imm.signExtend 32) :
    RV32I.lui feature regs inst =
      .done (retire rv64 2 regs rd ((imm ++ 0#12).signExtend 64)) := by
  have shifted : imm.signExtend 32 <<< 12 = imm ++ 0#12 := by
    apply BitVec.eq_of_getLsbD_eq
    intro i inside
    simp only [BitVec.getLsbD_shiftLeft, BitVec.getLsbD_signExtend, BitVec.getLsbD_append]
    by_cases low : i < 12
    · simp [low]
    · simp [low, inside, show i - 12 < 20 by omega, show i - 12 < 32 by omega]
  have extended := sext_setWidth (imm ++ 0#12) (by decide) (by decide)
  rw [BaseArith.lui_wide feature regs inst rd size dest wide, value, shifted, extended]

end Base
section Immediates
variable (funct3 : BitVec 3) (mid : BitVec 5) (op : BitVec 2)

/-- The three ways a 6-bit CI immediate is read, up to the bits the trampolines drop. -/
theorem ciPlain_low (imm : BitVec 6) :
    (ciPlain ((cword funct3 (imm.extractLsb' 5 1) mid (imm.extractLsb' 0 5) op).setWidth
      32)).setWidth 6 = imm := by
  have bare : ∀ imm : BitVec 6, (ciPlain ((cword 0 (imm.extractLsb' 5 1) 0
      (imm.extractLsb' 0 5) 0).setWidth 32)).setWidth 6 = imm := by decide
  simp only [ciPlain, decodeLowerCrs2_cword] at bare ⊢
  simp (disch := decide) only [ci_masked funct3 _ mid _ op]
  exact bare imm

theorem ciLi_low (imm : BitVec 6) :
    (ciLi ((cword funct3 (imm.extractLsb' 5 1) mid (imm.extractLsb' 0 5) op).setWidth
      32)).setWidth 6 = imm := by
  have bare : ∀ imm : BitVec 6, (ciLi ((cword 0 (imm.extractLsb' 5 1) 0
      (imm.extractLsb' 0 5) 0).setWidth 32)).setWidth 6 = imm := by decide
  simp only [ciLi] at bare ⊢
  simp (disch := decide) only [ci_masked funct3 _ mid _ op]
  exact bare imm

theorem ciLui_low (imm : BitVec 6) :
    (ciLui ((cword funct3 (imm.extractLsb' 5 1) mid (imm.extractLsb' 0 5) op).setWidth
      32)).setWidth 6 = imm := by
  have bare : ∀ imm : BitVec 6, (ciLui ((cword 0 (imm.extractLsb' 5 1) 0
      (imm.extractLsb' 0 5) 0).setWidth 32)).setWidth 6 = imm := by decide
  simp only [ciLui] at bare ⊢
  simp (disch := decide) only [ci_masked funct3 _ mid _ op]
  exact bare imm

theorem ciImm_low (imm : BitVec 6) (xlen : Nat) (opcode code rd : BitVec 8)
    (arith : opcode ≠ 0b10 ∨ code = 0) (other : ¬ (opcode = 0b01 ∧ code = 0b011 ∧ rd = 2)) :
    (ciImm xlen opcode code rd ((cword funct3 (imm.extractLsb' 5 1) mid
      (imm.extractLsb' 0 5) op).setWidth 32)).setWidth 6 = imm := by
  have stack : ∀ f : BitVec 8, f ≠ 0 → ¬ (opcode = 0b10 ∧ code = f) := by
    rintro f nonzero ⟨rfl, rfl⟩
    exact arith.elim (fun h => h rfl) nonzero
  unfold ciImm
  rw [if_neg (stack _ (by decide)), if_neg (stack _ (by decide)), if_neg (stack _ (by decide)),
    if_neg other]
  split
  · exact ciLui_low funct3 mid op imm
  · split
    · exact ciLi_low funct3 mid op imm
    · exact ciPlain_low funct3 mid op imm

theorem ciAddi16sp_low (imm : BitVec 6) :
    (ciAddi16sp ((CImm.addi16sp imm).encode.setWidth 32)).setWidth 10 = imm ++ 0#4 := by
  revert imm
  decide

theorem ciwImm (rd : BitVec 3) (uimm : BitVec 8) :
    swizzle (((CImm.addi4spn rd uimm).encode.setWidth 32 &&& 0b1111111100000) >>> 5)
      [1, 0, 6, 7, 2, 3, 4, 5] = uimm.setWidth 32 := by
  have same : ∀ part : BitVec 32, 0x1FE0 &&& part = part →
      (CImm.addi4spn rd uimm).encode.setWidth 32 &&& part =
        (CImm.addi4spn 0 uimm).encode.setWidth 32 &&& part := by
    intro part inside
    refine Bits.masked_congr _ _ 0x1FE0 part ?_ inside
    apply BitVec.eq_of_getLsbD_eq
    intro i bound
    simp only [CImm.encode, cword, BitVec.getLsbD_and, BitVec.getLsbD_setWidth,
      BitVec.getLsbD_append]
    interval_cases i <;>
      simp only [Nat.reduceLT, Nat.reduceAdd, Nat.reduceSub, decide_true, ↓reduceIte,
        BitVec.reduceGetLsb, Bool.and_false, Bool.and_true]
  rw [same 0b1111111100000 (by decide)]
  clear same
  revert uimm
  decide +kernel

end Immediates

section Trampolines
variable (feature : RevFeature) (regs : RevRegFile) (inst : RevInst)
variable (wide : isRV32 feature = false) (size : inst.instSize = 2)

-- The 6-bit immediate after a trampoline's own extension, and the expansion's wider one.
theorem extended6 {n : Nat} (imm : BitVec 6) (low : inst.imm.setWidth 6 = imm) (fits : 6 ≤ n) :
    sextImm (inst.imm &&& 0b111111) 6 = (imm.signExtend n).signExtend 32 := by
  have masked : inst.imm &&& 0b111111 = imm.setWidth 32 := low ▸ low_mask inst.imm 6
  rw [masked, sextImm_setWidth imm (by decide) (by decide),
    Bits.signExtend_signExtend imm (by decide) fits]

section Immediate
variable (rd : BitVec 5) (imm : BitVec 6) (dest : inst.rd = rd.setWidth 8)
variable (low : inst.imm.setWidth 6 = imm)
include size dest low

include wide in
theorem caddi_wide : RV32I.caddi feature regs inst =
    .done (retire rv64 2 regs rd (reg rv64 regs rd + (imm.signExtend 12).signExtend 64)) :=
  addi_extended feature regs
    { inst with imm := sextImm (inst.imm &&& 0b111111) 6, rs1 := inst.rd }
    rd rd wide size dest _ dest (extended6 inst imm low (by decide))

theorem caddiw_wide : RV64I.caddiw regs inst =
    .done (retire rv64 2 regs rd
      (onWords (· + ·) (reg rv64 regs rd) ((imm.signExtend 12).signExtend 64))) :=
  addiw_extended regs
    { inst with rs1 := inst.rd, imm := sextImm (inst.imm &&& 0b111111) 6 }
    rd rd size dest _ dest (extended6 inst imm low (by decide))

include wide in
theorem cli_wide : RV32I.cli feature regs inst =
    .done (retire rv64 2 regs rd (reg rv64 regs 0 + (imm.signExtend 12).signExtend 64)) :=
  addi_extended feature regs { inst with rs1 := 0, imm := sextImm (inst.imm &&& 0b111111) 6 }
    rd 0 wide size dest _ rfl (extended6 inst imm low (by decide))

include wide in
theorem clui_wide (other : rd ≠ 2) : RV32I.ciFunc feature regs inst =
    .done (retire rv64 2 regs rd ((imm.signExtend 20 ++ 0#12).signExtend 64)) := by
  have pointer : inst.rd ≠ 2 := by
    rw [dest]
    intro same
    exact other (by bv_omega)
  rw [RV32I.ciFunc, if_neg pointer]
  exact lui_extended feature regs { inst with imm := sextImm (inst.imm &&& 0b111111) 6 }
    rd wide size dest _ (extended6 inst imm low (by decide))

include wide in
theorem cslli_wide : RV32I.cslli feature regs inst =
    .done (retire rv64 2 regs rd (shiftValue .slli (reg rv64 regs rd) imm.toNat)) :=
  shamt_mask inst.imm imm low ▸
    BaseArith.slli_wide feature regs { inst with rs1 := inst.rd } rd rd size dest dest wide

end Immediate

include wide size in
theorem caddi16sp_wide (imm : BitVec 6) (dest : inst.rd = 2) (source : inst.rs1 = 2)
    (low : inst.imm.setWidth 10 = imm ++ 0#4) : RV32I.ciFunc feature regs inst =
      .done (retire rv64 2 regs 2
        (reg rv64 regs 2 + ((imm ++ 0#4).signExtend 12).signExtend 64)) := by
  have masked : inst.imm &&& 0b1111111111 = (imm ++ 0#4).setWidth 32 :=
    low ▸ low_mask inst.imm 10
  have extended : sextImm (inst.imm &&& 0b1111111111) 10 =
      ((imm ++ 0#4).signExtend 12).signExtend 32 := by
    rw [masked, Bits.signExtend_signExtend _ (by decide) (by decide)]
    exact sextImm_setWidth (imm ++ 0#4) (by decide) (by decide)
  rw [RV32I.ciFunc, if_pos dest]
  exact addi_extended feature regs { inst with imm := sextImm (inst.imm &&& 0b1111111111) 10 }
    2 2 wide size dest _ source extended

-- The scaling by 4 is an append of two zero bits; the result stays below bit 11.
include wide size in
theorem caddi4spn_wide (rd : BitVec 3) (uimm : BitVec 8) (nonzero : uimm ≠ 0)
    (dest : cRegMap inst.rd = (creg rd).setWidth 8) (value : inst.imm = uimm.setWidth 32) :
    RV32I.caddi4spn feature regs inst =
      .done (retire rv64 2 regs (creg rd)
        (reg rv64 regs 2 + ((uimm ++ 0#2).setWidth 12).signExtend 64)) := by
  have scaled : ∀ uimm : BitVec 8,
      (uimm.setWidth 32 &&& 0b11111111) * 4 = ((uimm ++ 0#2).setWidth 12).signExtend 32 := by
    decide
  have present : ¬ inst.imm = 0 := by
    rw [value]
    intro zero
    exact nonzero (by bv_omega)
  simp only [RV32I.caddi4spn, if_neg present]
  refine addi_extended feature regs
    { inst with rs1 := 2, rd := cRegMap inst.rd, imm := (inst.imm &&& 0b11111111) * 4 }
    (creg rd) 2 wide size dest _ rfl ?_
  rw [← scaled uimm, ← value]

section Register
variable (rd rs2 : BitVec 3) (dest : cRegMap inst.rd = (creg rd).setWidth 8)
include size dest

section Shift
variable (imm : BitVec 6) (low : inst.imm.setWidth 6 = imm)
include wide low

theorem csrli_wide : RV32I.csrli feature regs inst =
    .done (retire rv64 2 regs (creg rd)
      (shiftValue .srli (reg rv64 regs (creg rd)) imm.toNat)) :=
  shamt_mask inst.imm imm low ▸
    BaseArith.srli_wide feature regs { inst with rd := cRegMap inst.rd, rs1 := cRegMap inst.rd }
      (creg rd) (creg rd) size dest dest wide

theorem csrai_wide : RV32I.csrai feature regs inst =
    .done (retire rv64 2 regs (creg rd)
      (shiftValue .srai (reg rv64 regs (creg rd)) imm.toNat)) :=
  shamt_mask inst.imm imm low ▸
    BaseArith.srai_wide feature regs { inst with rd := cRegMap inst.rd, rs1 := cRegMap inst.rd }
      (creg rd) (creg rd) size dest dest wide

/-- What c.andi masks with: for a negative immediate bits 63:32 and bit 12 are lost. -/
theorem candi_wide : RV32I.candi feature regs inst =
    .done (retire rv64 2 regs (creg rd) (reg rv64 regs (creg rd) &&&
      if imm.msb then imm.signExtend 64 &&& 0xFFFFEFFF else imm.signExtend 64)) := by
  have mask : ∀ imm : BitVec 6, sext (((imm.signExtend 12).signExtend 32).setWidth 64) 12 =
      if imm.msb then imm.signExtend 64 &&& 0xFFFFEFFF else imm.signExtend 64 := by
    decide
  rw [← mask imm, ← extended6 inst imm low (by decide)]
  exact BaseArith.andi_wide feature regs
    { inst with rd := cRegMap inst.rd, rs1 := cRegMap inst.rd
                imm := sextImm (inst.imm &&& 0b0111111) 6 }
    (creg rd) (creg rd) size dest dest wide

end Shift

section Pair
variable (source : cRegMap inst.rs2 = (creg rs2).setWidth 8)
include source

theorem csubw_wide : RV64I.csubw regs inst =
    .done (retire rv64 2 regs (creg rd)
      (rValue .subw (reg rv64 regs (creg rd)) (reg rv64 regs (creg rs2)))) :=
  WordArith.subw_wide regs (RV32I.caFields inst) (creg rd) (creg rd) (creg rs2) size dest dest source

theorem caddw_wide : RV64I.caddw regs inst =
    .done (retire rv64 2 regs (creg rd)
      (rValue .addw (reg rv64 regs (creg rd)) (reg rv64 regs (creg rs2)))) :=
  WordArith.addw_wide regs (RV32I.caFields inst) (creg rd) (creg rd) (creg rs2) size dest dest source

include wide

theorem csub_wide : RV32I.csub feature regs inst =
    .done (retire rv64 2 regs (creg rd)
      (rValue .sub (reg rv64 regs (creg rd)) (reg rv64 regs (creg rs2)))) :=
  BaseArith.sub_wide feature regs (RV32I.caFields inst) (creg rd) (creg rd) (creg rs2) size dest
    dest source wide

theorem cxor_wide : RV32I.cxor feature regs inst =
    .done (retire rv64 2 regs (creg rd)
      (rValue .xor (reg rv64 regs (creg rd)) (reg rv64 regs (creg rs2)))) :=
  BaseArith.xor_wide feature regs (RV32I.caFields inst) (creg rd) (creg rd) (creg rs2) size dest
    dest source wide

theorem cor_wide : RV32I.cor feature regs inst =
    .done (retire rv64 2 regs (creg rd)
      (rValue .or (reg rv64 regs (creg rd)) (reg rv64 regs (creg rs2)))) :=
  BaseArith.or_wide feature regs (RV32I.caFields inst) (creg rd) (creg rd) (creg rs2) size dest
    dest source wide

theorem cand_wide : RV32I.cand feature regs inst =
    .done (retire rv64 2 regs (creg rd)
      (rValue .and (reg rv64 regs (creg rd)) (reg rv64 regs (creg rs2)))) :=
  BaseArith.and_wide feature regs (RV32I.caFields inst) (creg rd) (creg rd) (creg rs2) size dest
    dest source wide

end Pair
end Register

section Full
variable (rd rs2 : BitVec 5) (dest : inst.rd = rd.setWidth 8)
variable (source : inst.rs2 = rs2.setWidth 8) (nonzero : rs2 ≠ 0)
include size dest source nonzero wide

omit wide size dest in
theorem rs2_nonzero : inst.rs2 ≠ 0 := by
  rw [source]
  intro zero
  exact nonzero (by bv_omega)

theorem cmv_wide : RV32I.crFunc1000 feature regs inst =
    .done (retire rv64 2 regs rd (rValue .add (reg rv64 regs 0) (reg rv64 regs rs2))) := by
  rw [RV32I.crFunc1000, if_pos (rs2_nonzero inst rs2 source nonzero)]
  exact BaseArith.add_wide feature regs { inst with rs1 := 0 } rd 0 rs2 size dest rfl source wide

/-- c.add with rd = 0 and rs1 = 0 reaches `ebreak`, which only advances the PC; so does an addition
into x0. -/
theorem cadd_wide (same : inst.rs1 = inst.rd) : RV32I.crFunc1001 feature regs inst =
    .done (retire rv64 2 regs rd (rValue .add (reg rv64 regs rd) (reg rv64 regs rs2))) := by
  have other : ¬ (inst.rs2 = 0 ∧ inst.rd ≠ 0) :=
    fun jump => rs2_nonzero inst rs2 source nonzero jump.1
  rw [RV32I.crFunc1001, if_neg other]
  by_cases zero : inst.rd = 0
  · have none : rd = 0 := by
      rw [dest] at zero
      bv_omega
    rw [if_pos ⟨same.trans zero, zero⟩, none]
    simp only [RV32I.ebreak, RevRegFile.step, wide]
    exact congrArg Plan.done (step64_skip regs inst size)
  · rw [if_neg fun zeros => zero zeros.2]
    exact BaseArith.add_wide feature regs inst rd rd rs2 size dest (same.trans dest) source wide

end Full
end Trampolines
section Agreement
variable (narrow : BitVec 64 → BitVec 32) (feature : RevFeature)
variable (coProc : Option (BitVec 32 → Bool)) (junk : RevInst) (regs : RevRegFile)
variable (high : BitVec 16)
variable (wide : feature.xlen = 64) (base : isModeEnabled feature .RV_I = true)
variable (short : isModeEnabled feature .RV_C = true)
include wide base short

/-- The CI instructions: the function sees rd and the six low bits of the immediate. -/
theorem agrees_ci (op : CImmOp) (rd : BitVec 5) (imm : BitVec 6) (expansion : Base)
    (func : ImplFunc) (opcode code : BitVec 8) (key : BitVec 32) (value : BitVec 64)
    (coded : ∀ bit select funct2, cKey op.code.1 bit op.code.2 select funct2 = key)
    (listed : ((rv32ICTable ++ rv64ICTable).find? (isCEnc key)).any
      (rowIs func .RVCTypeCI opcode code) = true)
    (arith : opcode ≠ 0b10 ∨ code = 0)
    (other : ¬ (opcode = 0b01 ∧ code = 0b011 ∧ rd.setWidth 8 = 2#8))
    (runs : ∀ inst, inst.rd = rd.setWidth 8 → inst.imm.setWidth 6 = imm → inst.instSize = 2 →
      execFunc narrow feature regs inst func = some (.done (retire rv64 2 regs rd value)))
    (meant : isaStep rv64 2 regs expansion = .done (retire rv64 2 regs rd value)) :
    Agrees rv64 narrow feature coProc junk regs high (CImm.ci op rd imm).encode expansion := by
  have found := find_short_wide feature wide base (CImm.ci op rd imm).encode key
    (rowIs func .RVCTypeCI opcode code) ((cEnc_cword _ _ _ _ _).trans (coded _ _ _)) listed
  refine (agrees_done rv64 narrow feature coProc junk regs high _ expansion func .RVCTypeCI opcode
    code (decodeCIInst feature.xlen junk (CImm.ci op rd imm).encode) _ _ short found ?_ ?_
    meant).mpr rfl
  · intro row kind
    simp only [decodeCFormat, kind]
  · rintro row rfl rfl
    refine runs _ (rd_cword _ _ _ _ _) ?_ rfl
    simp only [decodeCIInst, CImm.encode, rd_cword]
    exact ciImm_low _ _ _ imm _ _ _ _ arith other

theorem ci_agrees (op : CImmOp) (rd : BitVec 5) (imm : BitVec 6)
    (legal : (CImm.ci op rd imm).Legal) :
    Agrees rv64 narrow feature coProc junk regs high (CImm.ci op rd imm).encode
      (CImm.ci op rd imm).expand := by
  have rv : isRV32 feature = false := by simp [isRV32, wide]
  cases op with
  | addi =>
    refine agrees_ci narrow feature coProc junk regs high wide base short .addi rd imm _
      (.rv32i .caddi) 0b01 0 0b01 _ (by decide) (by decide) (by decide) (by simp) ?_ rfl
    intro inst dest low size
    exact congrArg some (caddi_wide feature regs inst rv size rd imm dest low)
  | addiw =>
    refine agrees_ci narrow feature coProc junk regs high wide base short .addiw rd imm _
      (.rv64i .caddiw) 0b01 0b001 0x11 _ (by decide) (by decide) (by decide) (by simp)
      ?_ rfl
    intro inst dest low size
    exact congrArg some (caddiw_wide regs inst size rd imm dest low)
  | li =>
    refine agrees_ci narrow feature coProc junk regs high wide base short .li rd imm _
      (.rv32i .cli) 0b01 0b010 0x21 _ (by decide) (by decide) (by decide) (by simp) ?_ rfl
    intro inst dest low size
    exact congrArg some (cli_wide feature regs inst rv size rd imm dest low)
  | lui =>
    refine agrees_ci narrow feature coProc junk regs high wide base short .lui rd imm _
      (.rv32i .CIFUNC) 0b01 0b011 0x31 _ (by decide) (by decide) (by decide) ?_ ?_ rfl
    · rintro ⟨-, -, pointer⟩
      exact legal.1 (by bv_omega)
    · intro inst dest low size
      exact congrArg some (clui_wide feature regs inst rv size rd imm dest low legal.1)
  | slli =>
    refine agrees_ci narrow feature coProc junk regs high wide base short .slli rd imm _
      (.rv32i .cslli) 0b10 0 0b10 _ (by decide) (by decide) (by decide) (by simp) ?_ rfl
    intro inst dest low size
    exact congrArg some (cslli_wide feature regs inst rv size rd imm dest low)

theorem addi16sp_agrees (imm : BitVec 6) :
    Agrees rv64 narrow feature coProc junk regs high (CImm.addi16sp imm).encode
      (CImm.addi16sp imm).expand := by
  have rv : isRV32 feature = false := by simp [isRV32, wide]
  have coded : cEnc (CImm.addi16sp imm).encode = 0x31 := by
    revert imm
    decide
  have found := find_short_wide feature wide base (CImm.addi16sp imm).encode 0x31
    (rowIs (.rv32i .CIFUNC) .RVCTypeCI 0b01 0b011) coded (by decide)
  refine (agrees_done rv64 narrow feature coProc junk regs high _ _ _ _ _ _
    (decodeCIInst feature.xlen junk (CImm.addi16sp imm).encode) _ _ short found ?_ ?_ rfl).mpr rfl
  · intro row kind
    simp only [decodeCFormat, kind]
  · intro row opcode code
    have pointer : (decodeRd ((CImm.addi16sp imm).encode.setWidth 32)).setWidth 8 = 2#8 :=
      rd_cword _ _ _ _ _
    refine congrArg some (caddi16sp_wide feature regs _ rv rfl imm pointer pointer ?_)
    simp only [decodeCIInst, pointer, opcode, code]
    exact ciAddi16sp_low imm

theorem addi4spn_agrees (rd : BitVec 3) (uimm : BitVec 8) (nonzero : uimm ≠ 0) :
    Agrees rv64 narrow feature coProc junk regs high (CImm.addi4spn rd uimm).encode
      (CImm.addi4spn rd uimm).expand := by
  have rv : isRV32 feature = false := by simp [isRV32, wide]
  have coded : ∀ bit select funct2, cKey 0b000 bit 0b00 select funct2 = 0 := by decide
  have found := find_short_wide feature wide base (CImm.addi4spn rd uimm).encode 0
    (rowIs (.rv32i .caddi4spn) .RVCTypeCIW 0b00 0b000)
    ((cEnc_cword _ _ _ _ _).trans (coded _ _ _)) (by decide)
  refine (agrees_done rv64 narrow feature coProc junk regs high _ _ _ _ _ _
    (decodeCIWInst junk (CImm.addi4spn rd uimm).encode) _ _ short found ?_ ?_ rfl).mpr rfl
  · intro row kind
    simp only [decodeCFormat, kind]
  · intro row opcode code
    exact congrArg some (caddi4spn_wide feature regs _ rv rfl rd uimm nonzero
      (lowCreg_cword _ _ _ _ rd _) (ciwImm rd uimm))

end Agreement

/-- Every CI and CIW arithmetic instruction means its expansion. -/
theorem compressed_immediate_expands (narrow : BitVec 64 → BitVec 32) (feature : RevFeature)
    (coProc : Option (BitVec 32 → Bool)) (junk : RevInst) (regs : RevRegFile) (high : BitVec 16)
    (insn : CImm) (wide : feature.xlen = 64) (base : isModeEnabled feature .RV_I = true)
    (short : isModeEnabled feature .RV_C = true) (legal : insn.Legal) :
    Agrees rv64 narrow feature coProc junk regs high insn.encode insn.expand := by
  cases insn with
  | ci op rd imm =>
    exact ci_agrees narrow feature coProc junk regs high wide base short op rd imm legal
  | addi16sp imm =>
    exact addi16sp_agrees narrow feature coProc junk regs high wide base short imm
  | addi4spn rd uimm =>
    exact addi4spn_agrees narrow feature coProc junk regs high wide base short rd uimm legal

theorem compressed_immediate_expands_addi16sp :
    Agrees rv64 (fun _ => 0) { features := 66, xlen := 64, minCost := 1, maxCost := 1 } none default
      default 0 (CImm.addi16sp 0b110101).encode (CImm.addi16sp 0b110101).expand :=
  compressed_immediate_expands (fun _ => 0)
    { features := 66, xlen := 64, minCost := 1, maxCost := 1 } none default default 0
    (.addi16sp 0b110101) rfl (by decide) (by decide) (by decide : (0b110101#6) ≠ 0)

section RegisterAgreement
variable (narrow : BitVec 64 → BitVec 32) (feature : RevFeature)
variable (coProc : Option (BitVec 32 → Bool)) (junk : RevInst) (regs : RevRegFile)
variable (high : BitVec 16)
variable (wide : feature.xlen = 64) (base : isModeEnabled feature .RV_I = true)
variable (short : isModeEnabled feature .RV_C = true)

theorem cbImm_low (funct3 : BitVec 3) (mid : BitVec 5) (op : BitVec 2) (imm : BitVec 6) :
    let word := (cword funct3 (imm.extractLsb' 5 1) mid (imm.extractLsb' 0 5) op).setWidth 32
    (((word &&& 0b01111100) >>> 2) ||| ((word &&& 0b01000000000000) >>> 7)).setWidth 6 = imm := by
  have bare : ∀ imm : BitVec 6,
      let word := (cword 0 (imm.extractLsb' 5 1) 0 (imm.extractLsb' 0 5) 0).setWidth 32
      (((word &&& 0b01111100) >>> 2) ||| ((word &&& 0b01000000000000) >>> 7)).setWidth 6 = imm := by
    decide
  simp (disch := decide) only [ci_masked funct3 _ mid _ op]
  exact bare imm

include wide base short

theorem agrees_cb (op : CBOp) (rd : BitVec 3) (imm : BitVec 6) (func : ImplFunc)
    (key : BitVec 32) (value meant : BitVec 64)
    (coded : ∀ bit funct2, cKey 0b100 bit 0b01 op.funct2 funct2 = key)
    (listed : ((rv32ICTable ++ rv64ICTable).find? (isCEnc key)).any
      (rowIs func .RVCTypeCB 0b01 0b100) = true)
    (runs : ∀ inst, cRegMap inst.rd = (creg rd).setWidth 8 → inst.imm.setWidth 6 = imm →
      inst.instSize = 2 →
      execFunc narrow feature regs inst func = some (.done (retire rv64 2 regs (creg rd) value)))
    (expansion : isaStep rv64 2 regs (CReg.cb op rd imm).expand =
      .done (retire rv64 2 regs (creg rd) meant)) :
    Agrees rv64 narrow feature coProc junk regs high (CReg.cb op rd imm).encode
      (CReg.cb op rd imm).expand ↔ value = meant := by
  have selected : cEnc (CReg.cb op rd imm).encode = key := by
    refine (cEnc_cword _ _ _ _ _).trans ?_
    rw [Bits.field_append_high _ _ 3 2 (by decide), BitVec.extractLsb'_eq_self]
    exact coded _ _
  have found := find_short_wide feature wide base (CReg.cb op rd imm).encode key
    (rowIs func .RVCTypeCB 0b01 0b100) selected listed
  rw [agrees_done rv64 narrow feature coProc junk regs high _ _ func .RVCTypeCB 0b01 0b100
    (decodeCBInst junk (CReg.cb op rd imm).encode) _ _ short found _ _ expansion,
    retire_inj regs (creg rd) (creg_nonzero rd)]
  · intro row kind
    simp only [decodeCFormat, kind]
  · intro row opcode code
    refine runs _ ?_ (cbImm_low _ _ _ imm) rfl
    simp only [decodeCBInst, opcode, code]
    exact midCreg_cword _ _ _ rd _ _

theorem agrees_ca (op : CAOp) (rd rs2 : BitVec 3) (func : ImplFunc) (code : BitVec 8)
    (key : BitVec 32) (value : BitVec 64)
    (coded : cKey 0b100 op.code.1 0b01 0b11 op.code.2 = key)
    (listed : ((rv32ICTable ++ rv64ICTable).find? (isCEnc key)).any
      (rowIs func .RVCTypeCA 0b01 code) = true)
    (runs : ∀ inst, inst.instSize = 2 → cRegMap inst.rd = (creg rd).setWidth 8 →
      cRegMap inst.rs2 = (creg rs2).setWidth 8 →
      execFunc narrow feature regs inst func = some (.done (retire rv64 2 regs (creg rd) value)))
    (expansion : isaStep rv64 2 regs (CReg.ca op rd rs2).expand =
      .done (retire rv64 2 regs (creg rd) value)) :
    Agrees rv64 narrow feature coProc junk regs high (CReg.ca op rd rs2).encode
      (CReg.ca op rd rs2).expand := by
  have selected : cEnc (CReg.ca op rd rs2).encode = key := by
    refine (cEnc_cword _ _ _ _ _).trans ?_
    rw [Bits.field_append_high _ _ 3 2 (by decide), Bits.field_append_high _ _ 3 2 (by decide)]
    simp only [Nat.sub_self, BitVec.extractLsb'_eq_self]
    exact coded
  have found := find_short_wide feature wide base (CReg.ca op rd rs2).encode key
    (rowIs func .RVCTypeCA 0b01 code) selected listed
  refine (agrees_done rv64 narrow feature coProc junk regs high _ _ func .RVCTypeCA 0b01 code
    (decodeCAInst junk (CReg.ca op rd rs2).encode) _ _ short found ?_ ?_ expansion).mpr rfl
  · intro row kind
    simp only [decodeCFormat, kind]
  · intro row _ _
    exact runs _ rfl (midCreg_cword _ _ _ rd _ _) (lowCreg_cword _ _ _ _ rs2 _)

theorem ca_agrees (op : CAOp) (rd rs2 : BitVec 3) :
    Agrees rv64 narrow feature coProc junk regs high (CReg.ca op rd rs2).encode
      (CReg.ca op rd rs2).expand := by
  have rv : isRV32 feature = false := by simp [isRV32, wide]
  cases op with
  | sub =>
    exact agrees_ca narrow feature coProc junk regs high wide base short .sub rd rs2
      (.rv32i .csub) 0 0x23001 _ (by decide) (by decide)
      (fun inst size dest source =>
        congrArg some (csub_wide feature regs inst rv size rd rs2 dest source)) rfl
  | xor =>
    exact agrees_ca narrow feature coProc junk regs high wide base short .xor rd rs2
      (.rv32i .cxor) 0 0x23005 _ (by decide) (by decide)
      (fun inst size dest source =>
        congrArg some (cxor_wide feature regs inst rv size rd rs2 dest source)) rfl
  | or =>
    exact agrees_ca narrow feature coProc junk regs high wide base short .or rd rs2
      (.rv32i .cor) 0 0x23009 _ (by decide) (by decide)
      (fun inst size dest source =>
        congrArg some (cor_wide feature regs inst rv size rd rs2 dest source)) rfl
  | and =>
    exact agrees_ca narrow feature coProc junk regs high wide base short .and rd rs2
      (.rv32i .cand) 0 0x2300D _ (by decide) (by decide)
      (fun inst size dest source =>
        congrArg some (cand_wide feature regs inst rv size rd rs2 dest source)) rfl
  | subw =>
    exact agrees_ca narrow feature coProc junk regs high wide base short .subw rd rs2
      (.rv64i .csubw) 0 0x27001 _ (by decide) (by decide)
      (fun inst size dest source =>
        congrArg some (csubw_wide regs inst size rd rs2 dest source)) rfl
  | addw =>
    exact agrees_ca narrow feature coProc junk regs high wide base short .addw rd rs2
      (.rv64i .caddw) 0 0x27005 _ (by decide) (by decide)
      (fun inst size dest source =>
        congrArg some (caddw_wide regs inst size rd rs2 dest source)) rfl

theorem agrees_cr (bit : BitVec 1) (rd rs2 : BitVec 5) (func : ImplFunc) (key : BitVec 32)
    (expansion : Base) (value : BitVec 64)
    (coded : ∀ select funct2, cKey 0b100 bit 0b10 select funct2 = key)
    (listed : ((rv32ICTable ++ rv64ICTable).find? (isCEnc key)).any
      (rowIs func .RVCTypeCR 0b10 0) = true)
    (runs : ∀ inst, inst.instSize = 2 → inst.rd = rd.setWidth 8 → inst.rs1 = inst.rd →
      inst.rs2 = rs2.setWidth 8 →
      execFunc narrow feature regs inst func = some (.done (retire rv64 2 regs rd value)))
    (meant : isaStep rv64 2 regs expansion = .done (retire rv64 2 regs rd value)) :
    Agrees rv64 narrow feature coProc junk regs high (cword 0b100 bit rd rs2 0b10) expansion := by
  have found := find_short_wide feature wide base (cword 0b100 bit rd rs2 0b10) key
    (rowIs func .RVCTypeCR 0b10 0) ((cEnc_cword _ _ _ _ _).trans (coded _ _)) listed
  refine (agrees_done rv64 narrow feature coProc junk regs high _ _ func .RVCTypeCR 0b10 0
    (decodeCRInst junk (cword 0b100 bit rd rs2 0b10)) _ _ short found ?_ ?_ meant).mpr rfl
  · intro row kind
    simp only [decodeCFormat, kind]
  · intro row _ _
    exact runs _ rfl (rd_cword _ _ _ _ _) rfl (crs2_cword _ _ _ _ _)

/-- When a negative immediate of c.andi loses no bit of rd'. -/
def MaskKept (regs : RevRegFile) : CReg → Prop
  | .cb .andi rd imm =>
    imm.msb = false ∨ reg rv64 regs (creg rd) &&& 0xFFFFFFFF00001000 = 0
  | _ => True

omit wide base short in
-- A negative immediate has every lost bit set, so the loss shows exactly on the register's bits.
theorem mask_kept_iff (a : BitVec 64) (imm : BitVec 6) :
    (a &&& if imm.msb then imm.signExtend 64 &&& 0xFFFFEFFF else imm.signExtend 64) =
      a &&& (imm.signExtend 12).signExtend 64 ↔
    imm.msb = false ∨ a &&& 0xFFFFFFFF00001000 = 0 := by
  rw [Bits.signExtend_signExtend imm (by decide) (by decide)]
  cases sign : imm.msb with
  | false => simp
  | true =>
    have covers : ∀ imm : BitVec 6, imm.msb = true →
        imm.signExtend 64 = (imm.signExtend 64 &&& 0xFFFFEFFF) ||| 0xFFFFFFFF00001000 := by
      decide
    have apart : ∀ imm : BitVec 6,
        imm.signExtend 64 &&& 0xFFFFEFFF &&& 0xFFFFFFFF00001000 = 0 := by decide
    have parted := Bits.and_part_iff a _ _ (apart imm)
    rw [← covers imm sign] at parted
    simpa using parted

theorem cb_agrees_iff (op : CBOp) (rd : BitVec 3) (imm : BitVec 6) :
    Agrees rv64 narrow feature coProc junk regs high (CReg.cb op rd imm).encode
      (CReg.cb op rd imm).expand ↔ MaskKept regs (.cb op rd imm) := by
  have rv : isRV32 feature = false := by simp [isRV32, wide]
  cases op with
  | srli =>
    rw [agrees_cb narrow feature coProc junk regs high wide base short .srli rd imm
      (.rv32i .csrli) 0x41 _ _ (by decide) (by decide) (fun inst dest low size =>
        congrArg some (csrli_wide feature regs inst rv size rd dest imm low)) rfl]
    simp [MaskKept]
  | srai =>
    rw [agrees_cb narrow feature coProc junk regs high wide base short .srai rd imm
      (.rv32i .csrai) 0x45 _ _ (by decide) (by decide) (fun inst dest low size =>
        congrArg some (csrai_wide feature regs inst rv size rd dest imm low)) rfl]
    simp [MaskKept]
  | andi =>
    rw [agrees_cb narrow feature coProc junk regs high wide base short .andi rd imm
      (.rv32i .candi) 0x49 _ _ (by decide) (by decide) (fun inst dest low size =>
        congrArg some (candi_wide feature regs inst rv size rd dest imm low)) rfl]
    exact mask_kept_iff (reg rv64 regs (creg rd)) imm

end RegisterAgreement

/-- A CA, CB or CR arithmetic instruction means its expansion, c.andi only where the bits that a
negative immediate loses are clear in rd'. -/
theorem compressed_register_expands_iff (narrow : BitVec 64 → BitVec 32) (feature : RevFeature)
    (coProc : Option (BitVec 32 → Bool)) (junk : RevInst) (regs : RevRegFile) (high : BitVec 16)
    (insn : CReg) (wide : feature.xlen = 64) (base : isModeEnabled feature .RV_I = true)
    (short : isModeEnabled feature .RV_C = true) (legal : insn.Legal) :
    Agrees rv64 narrow feature coProc junk regs high insn.encode insn.expand ↔
      MaskKept regs insn := by
  have rv : isRV32 feature = false := by simp [isRV32, wide]
  cases insn with
  | cb op rd imm =>
    exact cb_agrees_iff narrow feature coProc junk regs high wide base short op rd imm
  | ca op rd rs2 =>
    exact iff_of_true (ca_agrees narrow feature coProc junk regs high wide base short op rd rs2)
      trivial
  | mv rd rs2 =>
    refine iff_of_true (agrees_cr narrow feature coProc junk regs high wide base short 0 rd rs2
      (.rv32i .CRFUNC_1000) 0x802 _ _ (by decide) (by decide) ?_ rfl) trivial
    intro inst size dest _ source
    exact congrArg some (cmv_wide feature regs inst rv size rd rs2 dest source legal)
  | add rd rs2 =>
    refine iff_of_true (agrees_cr narrow feature coProc junk regs high wide base short 1 rd rs2
      (.rv32i .CRFUNC_1001) 0x902 _ _ (by decide) (by decide) ?_ rfl) trivial
    intro inst size dest same source
    exact congrArg some (cadd_wide feature regs inst rv size rd rs2 dest source legal same)

theorem compressed_register_expands_iff_andi :
    Agrees rv64 (fun _ => 0) { features := 66, xlen := 64, minCost := 1, maxCost := 1 } none default
      default 0 (CReg.cb .andi 3 0b111000).encode (CReg.cb .andi 3 0b111000).expand :=
  (compressed_register_expands_iff (fun _ => 0)
    { features := 66, xlen := 64, minCost := 1, maxCost := 1 } none default default 0
    (.cb .andi 3 0b111000) rfl (by decide) (by decide) trivial).mpr (Or.inr rfl)

/-- c.andi x8, -1 on x8 = 2^32 clears the register. -/
theorem compressed_andi_loses_high :
    (CReg.cb .andi 0 0b111111).Legal ∧
    ¬ Agrees rv64 (fun _ => 0) { features := 66, xlen := 64, minCost := 1, maxCost := 1 } none
      default { (default : RevRegFile) with rv64 := fun _ => 0x100000000 } 0
      (CReg.cb .andi 0 0b111111).encode (CReg.cb .andi 0 0b111111).expand := by
  refine ⟨trivial, ?_⟩
  rw [cb_agrees_iff _ { features := 66, xlen := 64, minCost := 1, maxCost := 1 } _ _ _ _ rfl
    (by decide) (by decide)]
  rintro (sign | clear)
  · exact absurd sign (by decide)
  · exact absurd clear (by decide)

end RevCPU.CompressedArith
