import RevCPU.BaseArith
import RevCPU.Insns.RV64I
/-!
The word instructions of RV64I.h against the manual, from the encoded word to the registers after
it. Each function computes a 32-bit result and extends it. Two of them do not always: srliw by zero
clears rd before it reads rs1, and sraw shifts an `int32_t` by six bits of its amount.
-/
namespace RevCPU.WordArith
open Feature InstTable IntTables Seed Decode DecodeCompressed DecodeBase RegFile Insns Manual Isa
open BaseArith (BaseAgrees baseAgrees_row rowWith sext_full sext_low shift_mask_five shift_mask_wide)

inductive WordOp where
  | addw | subw | sllw | srlw | sraw
deriving DecidableEq, Repr

def WordOp.toROp : WordOp → ROp
  | .addw => .addw | .subw => .subw | .sllw => .sllw | .srlw => .srlw | .sraw => .sraw

inductive WordInsn where
  | addiw (rd rs1 : BitVec 5) (imm : BitVec 12)
  | shift (op : ShiftWOp) (rd rs1 shamt : BitVec 5)
  | register (op : WordOp) (rd rs1 rs2 : BitVec 5)
deriving DecidableEq, Repr

def WordInsn.toInsn : WordInsn → Insn
  | .addiw rd rs1 imm => .i .addiw rd rs1 imm
  | .shift op rd rs1 shamt => .shiftW op rd rs1 shamt
  | .register op rd rs1 rs2 => .r op.toROp rd rs1 rs2

-- The function the tables name for an operation.
def shiftFunc : ShiftWOp → ImplFunc
  | .slliw => .rv64i .slliw | .srliw => .rv64i .srliw | .sraiw => .rv64i .sraiw

def wordFunc : WordOp → ImplFunc
  | .addw => .rv64i .addw | .subw => .rv64i .subw | .sllw => .rv64i .sllw
  | .srlw => .rv64i .srlw | .sraw => .rv64i .sraw

def execWord (overshift : BitVec 32 → Nat → BitVec 32) (regs : RevRegFile) (inst : RevInst) :
    ImplFunc → Option Plan
  | .rv64i .addiw => some (RV64I.addiw regs inst)
  | .rv64i .slliw => some (RV64I.slliw regs inst)
  | .rv64i .srliw => some (RV64I.srliw regs inst)
  | .rv64i .sraiw => some (RV64I.sraiw regs inst)
  | .rv64i .addw => some (RV64I.addw regs inst)
  | .rv64i .subw => some (RV64I.subw regs inst)
  | .rv64i .sllw => some (RV64I.sllw regs inst)
  | .rv64i .srlw => some (RV64I.srlw regs inst)
  | .rv64i .sraw => some (RV64I.sraw regs inst overshift)
  | _ => none

section Words
variable (x : BitVec 32) (a : BitVec 64)

theorem sext_word_low : sext (x.setWidth 64) 32 = x.signExtend 64 :=
  sext_setWidth x (by decide) (by decide)

theorem mask_word : a &&& 0xFFFFFFFF = (a.setWidth 32).setWidth 64 := low_mask a 32

theorem trunc_word : (a &&& 0xFFFFFFFF).setWidth 32 = a.setWidth 32 := by
  rw [mask_word, BitVec.setWidth_setWidth_of_le _ (by decide), BitVec.setWidth_eq]

theorem sign_test : a &&& 0x80000000 ≠ 0 ↔ (a.setWidth 32).msb = true := by
  have bit : a &&& 0x80000000 = a &&& BitVec.twoPow 64 31 := by
    rw [show BitVec.twoPow 64 31 = 0x80000000#64 by decide]
    rfl
  have sign : (a.setWidth 32).msb = a.getLsbD 31 := by
    simp [BitVec.msb_eq_getLsbD_last]
  rw [bit, sign, BitVec.and_twoPow]
  cases a.getLsbD 31 <;> decide

theorem word_amount : (a.setWidth 32).toNat % 32 = a.toNat % 32 := by
  rw [BitVec.toNat_setWidth]
  exact Nat.mod_mod_of_dvd _ (by decide)

-- The word in place, its upper half all ones or all zeros.
def patched (sign : Bool) : BitVec 64 :=
  if sign then (a &&& 0xFFFFFFFF) ||| 0xFFFFFFFF00000000 else a &&& 0xFFFFFFFF

theorem getLsbD_patched (sign : Bool) (i : Nat) (inside : i < 64) :
    (patched a sign).getLsbD i = if i < 32 then a.getLsbD i else sign := by
  have below : (a &&& 0xFFFFFFFF).getLsbD i = (decide (i < 32) && a.getLsbD i) := by
    rw [mask_word, BitVec.getLsbD_setWidth, BitVec.getLsbD_setWidth]
    simp [inside]
  have ones : (0xFFFFFFFF00000000 : BitVec 64) = BitVec.allOnes 64 <<< 32 := by decide
  have above : (0xFFFFFFFF00000000 : BitVec 64).getLsbD i = !decide (i < 32) := by
    rw [ones, BitVec.getLsbD_shiftLeft, BitVec.getLsbD_allOnes]
    simp [inside, show i - 32 < 64 by omega]
  cases sign with
  | false =>
    rw [patched, if_neg Bool.false_ne_true, below]
    by_cases low : i < 32 <;> simp [low]
  | true =>
    rw [patched, if_pos rfl, BitVec.getLsbD_or, below, above]
    by_cases low : i < 32 <;> simp [low]

theorem patched_low (sign : Bool) : (patched a sign).setWidth 32 = a.setWidth 32 := by
  apply BitVec.eq_of_getLsbD_eq
  intro i inside
  rw [BitVec.getLsbD_setWidth, BitVec.getLsbD_setWidth, getLsbD_patched a sign i (by omega),
    if_pos inside]

theorem patched_sign : patched a (a.setWidth 32).msb = (a.setWidth 32).signExtend 64 := by
  apply BitVec.eq_of_getLsbD_eq
  intro i inside
  rw [getLsbD_patched a _ i inside, BitVec.getLsbD_signExtend, BitVec.getLsbD_setWidth]
  by_cases low : i < 32 <;> simp [low, inside]

-- A shift of the word itself keeps its sign.
theorem arithmetic_marked (amount : Nat) :
    x.sshiftRight amount ||| (x &&& 0x80000000) = x.sshiftRight amount := by
  have bit : x &&& 0x80000000 = x &&& BitVec.twoPow 32 31 := rfl
  rw [bit, BitVec.and_twoPow]
  cases sign : x.getLsbD 31 with
  | false => simp
  | true =>
    have kept : (x.sshiftRight amount).getLsbD 31 = true := by
      have same : (x.sshiftRight amount).msb = x.msb := BitVec.msb_sshiftRight
      rw [BitVec.msb_eq_getLsbD_last, BitVec.msb_eq_getLsbD_last] at same
      exact same.trans sign
    apply BitVec.eq_of_getLsbD_eq
    intro i inside
    rw [if_pos rfl, BitVec.getLsbD_or, BitVec.getLsbD_twoPow]
    by_cases last : 31 = i
    · rw [← last, kept, Bool.true_or]
    · rw [decide_eq_false last, Bool.and_false, Bool.or_false]

end Words

/-- With bit 5 of the amount set, the `int32_t` shift by 32 or more yields the word shifted by the
amount modulo 32, up to the sign bit that is put back. -/
def AmountKept (overshift : BitVec 32 → Nat → BitVec 32) (a b : BitVec 64) : Prop :=
  b.getLsbD 5 = true →
    overshift (a.setWidth 32) (b.toNat % 64) ||| (a.setWidth 32 &&& 0x80000000) =
      (a.setWidth 32).sshiftRight (b.toNat % 32)

section Values
variable (regs : RevRegFile) (inst : RevInst) {n : Nat} (rd rs1 rs2 : BitVec 5)
variable (size : inst.instSize = n) (dest : inst.rd = rd.setWidth 8)
variable (left : inst.rs1 = rs1.setWidth 8) (right : inst.rs2 = rs2.setWidth 8)
include size dest left

theorem addiw_wide : RV64I.addiw regs inst =
    .done (retire rv64 n regs rd
      (((reg rv64 regs rs1).setWidth 32 + tdU32 inst.imm 12).signExtend 64)) := by
  have masked : ∀ x : BitVec 32, x.setWidth 64 &&& 0xFFFFFFFF = x.setWidth 64 := by
    intro x
    rw [mask_word, BitVec.setWidth_setWidth_of_le x (by decide), BitVec.setWidth_eq]
  simp only [RV64I.addiw, tdU32, dtU32, twosComplement_full, dest, left,
    RevRegFile.setX64_update _ _ _ (fun x => x &&& 0xFFFFFFFF),
    RevRegFile.setX64_update _ _ _ (fun x => sext x 32), masked, sext_word_low,
    step64_retire regs inst size]
  rfl

theorem slliw_wide : RV64I.slliw regs inst =
    .done (retire rv64 n regs rd
      (((reg rv64 regs rs1).setWidth 32 <<< (inst.imm &&& 0b0111111).toNat).signExtend 64)) := by
  have shifted : ∀ (a : BitVec 64) (k : Nat), (a <<< k).setWidth 32 = a.setWidth 32 <<< k := by
    intro a k
    exact BitVec.setWidth_shiftLeft_of_le (by decide)
  simp only [RV64I.slliw, dest, left, BitVec.shiftLeft_eq', mask_word, shifted, sext_word_low,
    sext_full, RevRegFile.setX64_update _ _ _ (fun x => x), step64_retire regs inst size]
  rfl

-- A shift by zero finds rs1 cleared when it is rd.
theorem srliw_zero (zero : inst.imm &&& 0b111111 = 0) : RV64I.srliw regs inst =
    .done (retire rv64 n regs rd
      (if rd = rs1 then 0 else ((reg rv64 regs rs1).setWidth 32).signExtend 64)) := by
  have cleared : ∀ index, (regs.setX64 index 0).x64 index = 0#64 := by
    intro index
    exact (regs.x64_setX64 index 0).trans (ite_self _)
  simp only [RV64I.srliw, zero, if_true, dest, left, cleared, BitVec.zero_or,
    RevRegFile.setX64_setX64, RevRegFile.setX64_update _ _ _ (fun x => sext x 32)]
  rw [step64_retire regs inst size]
  by_cases same : rd = rs1
  · subst same
    rw [if_pos rfl, cleared]
    rfl
  · have apart : rd.setWidth 8 ≠ rs1.setWidth 8 := by
      intro equal
      exact same ((Bits.setWidth_inj rd rs1 (by decide)).mp equal)
    rw [if_neg same, regs.x64_setX64_ne _ _ apart, mask_word, sext_word_low]
    rfl

theorem srliw_positive (positive : inst.imm &&& 0b111111 ≠ 0) : RV64I.srliw regs inst =
    .done (retire rv64 n regs rd
      (((reg rv64 regs rs1).setWidth 32 >>> (inst.imm &&& 0b111111).toNat).setWidth 64)) := by
  have cleared : ∀ index, (regs.setX64 index 0).x64 index = 0#64 := by
    intro index
    exact (regs.x64_setX64 index 0).trans (ite_self _)
  simp only [RV64I.srliw, positive, if_false, dest, left, cleared, BitVec.zero_or, trunc_word,
    BitVec.ushiftRight_eq', RevRegFile.setX64_setX64, step64_retire regs inst size]
  rfl

/-- The low word of the result is the shifted word with the sign bit of rs1 put back; where that
leaves the sign of rs1, the upper word is right too, also when rs1 was overwritten. -/
theorem signPatched_wide (shifted : BitVec 32) :
    let low := (reg rv64 regs rs1).setWidth 32
    let marked := shifted ||| (low &&& 0x80000000)
    ∃ value, RV64I.signPatched regs inst shifted = .done (retire rv64 n regs rd value) ∧
      value.setWidth 32 = marked ∧ (marked.msb = low.msb → value = marked.signExtend 64) := by
  intro low marked
  by_cases none : rd = 0
  · subst none
    refine ⟨marked.signExtend 64, ?_, ?_, fun _ => rfl⟩
    · rw [← step64_retire regs inst size]
      simp only [RV64I.signPatched, dest]
      rfl
    · exact (Bits.setWidth_signExtend marked (by decide)).trans (BitVec.signExtend_eq _)
  · have index : rd.setWidth 8 ≠ 0#8 := by
      intro zero
      exact none (by bv_omega)
    let first := sext (sext (shifted.signExtend 64 |||
      (reg rv64 regs rs1 &&& 0xFFFFFFFF80000000)) 32) 32
    have word : first.setWidth 32 = marked := by
      have top : (0xFFFFFFFF80000000 : BitVec 64).setWidth 32 = 0x80000000 := by decide
      rw [sext_low, sext_low, BitVec.setWidth_or, BitVec.setWidth_and, top,
        Bits.setWidth_signExtend shifted (by decide), BitVec.signExtend_eq]
    -- the register the sign is read from
    let source := (regs.setX64 (rd.setWidth 8) first).x64 (rs1.setWidth 8)
    refine ⟨patched first (source.setWidth 32).msb, ?_, ?_, ?_⟩
    · have test : (source &&& 0x80000000 ≠ 0) = ((source.setWidth 32).msb = true) :=
        propext (sign_test source)
      have held : (regs.setX64 (rd.setWidth 8) first).x64 (rd.setWidth 8) = first :=
        (regs.x64_setX64 _ first).trans (if_neg index)
      simp only [RV64I.signPatched, dest, left, RevRegFile.setX64_update _ _ _ (fun x => sext x 32),
        RevRegFile.setX64_setX64]
      rw [← step64_retire regs inst size]
      conv_rhs => simp only [patched, ← test]
      conv_rhs => rw [← held]
      rfl
    · rw [patched_low, word]
    · intro sign
      have kept : (source.setWidth 32).msb = marked.msb := by
        by_cases same : rd.setWidth 8 = rs1.setWidth 8
        · have held : source = first := by
            simp only [source, ← same]
            exact (regs.x64_setX64 _ first).trans (if_neg index)
          rw [held, word]
        · rw [show source = reg rv64 regs rs1 from regs.x64_setX64_ne _ _ same first]
          exact sign.symm
      rw [kept, ← word, patched_sign]

theorem sraiw_wide (amount : Nat) (value : (inst.imm &&& 0b1111111).toNat = amount) :
    RV64I.sraiw regs inst = .done (retire rv64 n regs rd
      ((((reg rv64 regs rs1).setWidth 32).sshiftRight amount).signExtend 64)) := by
  obtain ⟨result, ran, -, extended⟩ := signPatched_wide regs inst rd rs1 size dest left
    (((reg rv64 regs rs1).setWidth 32).sshiftRight amount)
  rw [arithmetic_marked] at extended
  rw [← extended BitVec.msb_sshiftRight, ← ran, RV64I.sraiw, value, left, trunc_word]
  rfl

include right

theorem addw_wide : RV64I.addw regs inst =
    .done (retire rv64 n regs rd (rValue .addw (reg rv64 regs rs1) (reg rv64 regs rs2))) := by
  simp only [RV64I.addw, tdU32, dtU32, twosComplement_full, dest, left, right,
    RevRegFile.setX64_update _ _ _ (fun x => sext x 32), sext_word_low,
    step64_retire regs inst size]
  rfl

theorem subw_wide : RV64I.subw regs inst =
    .done (retire rv64 n regs rd (rValue .subw (reg rv64 regs rs1) (reg rv64 regs rs2))) := by
  simp only [RV64I.subw, tdU32, dtU32, twosComplement_full, dest, left, right,
    RevRegFile.setX64_update _ _ _ (fun x => sext x 32), sext_word_low,
    step64_retire regs inst size]
  rfl

theorem sllw_wide : RV64I.sllw regs inst =
    .done (retire rv64 n regs rd (rValue .sllw (reg rv64 regs rs1) (reg rv64 regs rs2))) := by
  have shifted : ∀ (a : BitVec 64) (k : Nat), (a <<< k).setWidth 32 = a.setWidth 32 <<< k := by
    intro a k
    exact BitVec.setWidth_shiftLeft_of_le (by decide)
  simp only [RV64I.sllw, dest, left, right, BitVec.shiftLeft_eq', shift_mask_five, mask_word,
    sext_full, shifted, RevRegFile.setX64_update _ _ _ (fun x => sext x 32), sext_word_low,
    step64_retire regs inst size, rValue, onWords, word_amount]
  rfl

theorem srlw_wide : RV64I.srlw regs inst =
    .done (retire rv64 n regs rd (rValue .srlw (reg rv64 regs rs1) (reg rv64 regs rs2))) := by
  have shifted : ∀ (x : BitVec 32) (k : Nat), x.setWidth 64 >>> k = (x >>> k).setWidth 64 := by
    intro x k
    exact (BitVec.setWidth_ushiftRight (by decide)).symm
  simp only [RV64I.srlw, dest, left, right, BitVec.ushiftRight_eq', shift_mask_five, mask_word,
    shifted, RevRegFile.setX64_update _ _ _ (fun x => sext x 32), sext_word_low,
    step64_retire regs inst size, rValue, onWords, word_amount]
  rfl

theorem sraw_wide (overshift : BitVec 32 → Nat → BitVec 32) :
    ∃ value, RV64I.sraw regs inst overshift = .done (retire rv64 n regs rd value) ∧
      (value = rValue .sraw (reg rv64 regs rs1) (reg rv64 regs rs2) ↔
        AmountKept overshift (reg rv64 regs rs1) (reg rv64 regs rs2)) := by
  let low := (reg rv64 regs rs1).setWidth 32
  let amount := (reg rv64 regs rs2).toNat % 64
  let shifted := if amount < 32 then low.sshiftRight amount else overshift low amount
  let wanted := low.sshiftRight ((reg rv64 regs rs2).toNat % 32)
  obtain ⟨value, ran, word, extended⟩ :=
    signPatched_wide regs inst rd rs1 size dest left shifted
  have meaning : rValue .sraw (reg rv64 regs rs1) (reg rv64 regs rs2) = wanted.signExtend 64 := by
    rw [rValue, onWords, word_amount]
  have same : value = wanted.signExtend 64 ↔ shifted ||| (low &&& 0x80000000) = wanted := by
    constructor
    · intro equal
      rw [← word, equal]
      exact (Bits.setWidth_signExtend wanted (by decide)).trans (BitVec.signExtend_eq _)
    · intro equal
      have sign : (shifted ||| (low &&& 0x80000000)).msb = low.msb := by
        rw [equal]
        exact BitVec.msb_sshiftRight
      rw [extended sign, equal]
  refine ⟨value, ?_, ?_⟩
  · rw [← ran, RV64I.sraw, left, right, trunc_word, shift_mask_wide]
    rfl
  · rw [meaning, same, AmountKept]
    cases sixth : (reg rv64 regs rs2).getLsbD 5 with
    | false =>
      have short : amount = (reg rv64 regs rs2).toNat % 32 := by
        simp only [amount, BaseArith.sixth_bit, sixth]
        rfl
      have below : amount < 32 := short ▸ Nat.mod_lt _ (by decide)
      simp only [shifted, if_pos below, arithmetic_marked, Bool.false_eq_true, false_imp_iff,
        iff_true]
      rw [short]
    | true =>
      have long : ¬ amount < 32 := by
        simp only [amount, BaseArith.sixth_bit, sixth, if_true]
        omega
      simp only [shifted, if_neg long, true_imp_iff]
      rfl

end Values

section Agreement
variable (overshift : BitVec 32 → Nat → BitVec 32) (feature : RevFeature)
variable (coProc : Option (BitVec 32 → Bool)) (junk : RevInst) (regs : RevRegFile)
variable (base : isModeEnabled feature .RV_I = true) (wide : feature.xlen = 64)

/-- The row found for a word shift reads five bits of shift amount. -/
def readsShamt (op : ShiftWOp) (row : RevInstEntry) : Bool :=
  decide (row.func = shiftFunc op) && (row.format = .RVTypeR || op.code.1 = 0)

theorem decoded_shamt (op : ShiftWOp) (rd rs1 shamt : BitVec 5) (row : RevInstEntry)
    (inst : RevInst) (fits : rowFits (.shiftW op) row = true)
    (reads : row.format = .RVTypeR ∨ op.code.1 = 0)
    (formatted : decodeFormat junk (encode (.shiftW op rd rs1 shamt)) row = .ok inst) :
    inst.imm = shamt.setWidth 32 := by
  simp only [rowFits, Bool.and_eq_true, Bool.or_eq_true, decide_eq_true_eq] at fits
  obtain ⟨-, -, format | ⟨⟨format, immediate⟩, right⟩⟩ := fits
  · have plain : op.code.1 = 0 := by
      rcases reads with register | plain
      · rw [format] at register
        cases register
      · exact plain
    simp only [decodeFormat, format, Except.ok.injEq] at formatted
    rw [← formatted]
    simp only [decodeIInst, encode, decodeImm12_word, plain]
    exact (by decide : ∀ amount : BitVec 5, (0#7 ++ amount).setWidth 32 = amount.setWidth 32) shamt
  · simp only [decodeFormat, format, Except.ok.injEq] at formatted
    rw [← formatted]
    simp only [decodeRInst, encode, decodeImm12_word, immediate, right, and_self, if_true]
    refine (low_mask _ 5).trans ?_
    rw [shamtW_join]

/-- The aliasing srliw and the six-bit amount of sraw. -/
def WordKept : WordInsn → Prop
  | .shift .srliw rd rs1 shamt =>
    shamt = 0 → rd = rs1 → (reg rv64 regs rs1).setWidth 32 = 0
  | .register .sraw rd rs1 rs2 =>
    rd = 0 ∨ AmountKept overshift (reg rv64 regs rs1) (reg rv64 regs rs2)
  | _ => True

theorem addiw_agrees (inst : RevInst) (rd rs1 : BitVec 5) (imm : BitVec 12)
    (carries : Carries (.i .addiw rd rs1 imm) inst) :
    Means (RV64I.addiw regs inst) (isaStep rv64 4 regs (.int (.i .addiw rd rs1 imm))) := by
  obtain ⟨dest, left, -, value, size, -⟩ := carries
  have low : (imm.signExtend 64).setWidth 32 = imm.signExtend 32 :=
    Bits.setWidth_signExtend imm (by decide)
  rw [addiw_wide regs inst rd rs1 size dest left, show inst.imm = imm.setWidth 32 from value,
    BaseArith.tdU32_imm]
  simp only [isaStep, intStep, iStep, onWords, low]
  exact (means_done_iff _ _).mpr rfl

theorem amount_masks (shamt : BitVec 5) :
    (shamt.setWidth 32 &&& 0b0111111).toNat = shamt.toNat ∧
      (shamt.setWidth 32 &&& 0b1111111).toNat = shamt.toNat := by
  revert shamt
  decide

theorem shift_agrees_iff (inst : RevInst) (op : ShiftWOp) (rd rs1 shamt : BitVec 5)
    (carries : Carries (.shiftW op rd rs1 shamt) inst) (value : inst.imm = shamt.setWidth 32) :
    ∃ plan, execWord overshift regs inst (shiftFunc op) = some plan ∧
      (Means plan (isaStep rv64 4 regs (.int (.shiftW op rd rs1 shamt))) ↔
        WordKept overshift regs (.shift op rd rs1 shamt)) := by
  obtain ⟨dest, left, -, -, size, -⟩ := carries
  obtain ⟨six, seven⟩ := amount_masks shamt
  rw [← value] at six seven
  cases op with
  | slliw =>
    refine ⟨_, rfl, iff_of_true ?_ trivial⟩
    rw [slliw_wide regs inst rd rs1 size dest left, six]
    exact (means_done_iff _ _).mpr rfl
  | sraiw =>
    refine ⟨_, rfl, iff_of_true ?_ trivial⟩
    rw [sraiw_wide regs inst rd rs1 size dest left _ seven]
    exact (means_done_iff _ _).mpr rfl
  | srliw =>
    refine ⟨_, rfl, ?_⟩
    by_cases zero : shamt = 0
    · have none : inst.imm &&& 0b111111 = 0 := by
        rw [value, zero]
        decide
      have whole : shiftWValue .srliw ((reg rv64 regs rs1).setWidth 32) shamt.toNat =
          (reg rv64 regs rs1).setWidth 32 := by
        rw [zero]
        exact BitVec.ushiftRight_zero _
      rw [srliw_zero regs inst rd rs1 size dest left none]
      refine (means_done_iff _ _).trans ((retire_iff regs rd _ _).trans ?_)
      rw [whole]
      constructor
      · rintro (dropped | equal) _ same
        · rw [← same, dropped]
          rfl
        · rw [if_pos same] at equal
          exact (Bits.signExtend_inj (w := 64) _ 0 (by decide)).mp equal.symm
      · intro kept
        by_cases same : rd = rs1
        · rw [if_pos same, kept zero same]
          exact .inr rfl
        · exact .inr (if_neg same)
    · have positive : 0 < shamt.toNat := by
        by_contra none
        exact zero (BitVec.eq_of_toNat_eq (Nat.eq_zero_of_not_pos none))
      have some : inst.imm &&& 0b111111 ≠ 0 := by
        intro none
        have cleared : (inst.imm &&& 0b0111111).toNat = 0 := congrArg BitVec.toNat none
        omega
      have sign : ((reg rv64 regs rs1).setWidth 32 >>> shamt.toNat).msb = false := by
        rw [BitVec.msb_ushiftRight, decide_eq_true positive]
        rfl
      rw [srliw_positive regs inst rd rs1 size dest left some,
        show (inst.imm &&& 0b111111).toNat = shamt.toNat from six,
        ← BitVec.signExtend_eq_setWidth_of_msb_false sign]
      exact iff_of_true ((means_done_iff _ _).mpr rfl) (fun none => absurd none zero)

theorem register_agrees_iff (inst : RevInst) (op : WordOp) (rd rs1 rs2 : BitVec 5)
    (carries : Carries (.r op.toROp rd rs1 rs2) inst) :
    ∃ plan, execWord overshift regs inst (wordFunc op) = some plan ∧
      (Means plan (isaStep rv64 4 regs (.int (.r op.toROp rd rs1 rs2))) ↔
        WordKept overshift regs (.register op rd rs1 rs2)) := by
  obtain ⟨dest, left, right, -, size, -⟩ := carries
  cases op with
  | addw =>
    refine ⟨_, rfl, iff_of_true ?_ trivial⟩
    rw [addw_wide regs inst rd rs1 rs2 size dest left right]
    exact (means_done_iff _ _).mpr rfl
  | subw =>
    refine ⟨_, rfl, iff_of_true ?_ trivial⟩
    rw [subw_wide regs inst rd rs1 rs2 size dest left right]
    exact (means_done_iff _ _).mpr rfl
  | sllw =>
    refine ⟨_, rfl, iff_of_true ?_ trivial⟩
    rw [sllw_wide regs inst rd rs1 rs2 size dest left right]
    exact (means_done_iff _ _).mpr rfl
  | srlw =>
    refine ⟨_, rfl, iff_of_true ?_ trivial⟩
    rw [srlw_wide regs inst rd rs1 rs2 size dest left right]
    exact (means_done_iff _ _).mpr rfl
  | sraw =>
    obtain ⟨value, ran, meaning⟩ := sraw_wide regs inst rd rs1 rs2 size dest left right overshift
    refine ⟨_, congrArg some ran, ?_⟩
    refine (means_done_iff _ _).trans ((retire_iff regs rd _ _).trans ?_)
    exact or_congr Iff.rfl meaning

theorem shift_listed (op : ShiftWOp) :
    rowWith (rv32ITable ++ rv64ITable) (.shiftW op) (readsShamt op) = true := by
  cases op <;> decide

theorem register_listed (op : WordOp) : rowWith (rv32ITable ++ rv64ITable) (.r op.toROp)
    (fun row => decide (row.func = wordFunc op)) = true := by
  cases op <;> decide

theorem addiw_listed : rowWith (rv32ITable ++ rv64ITable) (.i .addiw)
    (fun row => decide (row.func = .rv64i .addiw)) = true := by
  decide

include base wide in
theorem shift_meets_iff (op : ShiftWOp) (rd rs1 shamt : BitVec 5) :
    BaseAgrees rv64 (execWord overshift regs) feature coProc junk regs
        (.shiftW op rd rs1 shamt) ↔ WordKept overshift regs (.shift op rd rs1 shamt) := by
  apply baseAgrees_row feature rv64 _ coProc junk regs (.shiftW op rd rs1 shamt) _
    (rv32ITable ++ rv64ITable) (readsShamt op) (base_rows_first feature wide base)
    (shift_listed op)
  intro row inst fits reads formatted carries
  simp only [readsShamt, Bool.and_eq_true, Bool.or_eq_true, decide_eq_true_eq] at reads
  obtain ⟨named, reads⟩ := reads
  rw [named]
  exact shift_agrees_iff overshift regs inst op rd rs1 shamt carries
    (decoded_shamt junk op rd rs1 shamt row inst fits reads formatted)

include base wide in
/-- Every word instruction of RV64, with any operands: srliw by zero must not overwrite a nonzero
word, and sraw's amount must have bit 5 clear or be taken modulo 32 by the host. -/
theorem word_meets_isa_iff (insn : WordInsn) :
    BaseAgrees rv64 (execWord overshift regs) feature coProc junk regs insn.toInsn ↔
      WordKept overshift regs insn := by
  cases insn with
  | shift op rd rs1 shamt =>
    exact shift_meets_iff overshift feature coProc junk regs base wide op rd rs1 shamt
  | addiw rd rs1 imm =>
    apply baseAgrees_row feature rv64 _ coProc junk regs (.i .addiw rd rs1 imm) _
      (rv32ITable ++ rv64ITable) (fun row => decide (row.func = .rv64i .addiw))
      (base_rows_first feature wide base) addiw_listed
    intro row inst _ named _ carries
    rw [of_decide_eq_true named]
    exact ⟨_, rfl, iff_of_true (addiw_agrees regs inst rd rs1 imm carries) trivial⟩
  | register op rd rs1 rs2 =>
    apply baseAgrees_row feature rv64 _ coProc junk regs (.r op.toROp rd rs1 rs2) _
      (rv32ITable ++ rv64ITable) (fun row => decide (row.func = wordFunc op))
      (base_rows_first feature wide base) (register_listed op)
    intro row inst _ named _ carries
    rw [of_decide_eq_true named]
    exact register_agrees_iff overshift regs inst op rd rs1 rs2 carries

-- sraiw x5, x5, 4 on a word with garbage above it.
theorem word_meets_isa_iff_sraiw :
    BaseAgrees rv64
      (execWord (fun _ _ => 0)
        { (default : RevRegFile) with rv64 := fun _ => 0xDEADBEEF80000000 })
      { features := 2, xlen := 64, minCost := 1, maxCost := 1 } none default
      { (default : RevRegFile) with rv64 := fun _ => 0xDEADBEEF80000000 }
      (WordInsn.shift .sraiw 5 5 4).toInsn :=
  (word_meets_isa_iff (fun _ _ => 0) { features := 2, xlen := 64, minCost := 1, maxCost := 1 } none
    default { (default : RevRegFile) with rv64 := fun _ => 0xDEADBEEF80000000 } (by decide) rfl
    (.shift .sraiw 5 5 4)).mpr trivial

/-- srliw x5, x5, 0 clears x5 instead of extending its low word. -/
theorem word_srliw_zero :
    ¬ BaseAgrees rv64
      (execWord (fun _ _ => 0) { (default : RevRegFile) with rv64 := fun _ => 1 })
      { features := 2, xlen := 64, minCost := 1, maxCost := 1 } none default
      { (default : RevRegFile) with rv64 := fun _ => 1 } (WordInsn.shift .srliw 5 5 0).toInsn := by
  intro agrees
  have kept := (shift_meets_iff (fun _ _ => 0) _ none default _ (by decide) rfl .srliw 5 5 0).mp
    agrees rfl rfl
  exact absurd kept (by decide)

end Agreement
end RevCPU.WordArith
