import RevCPU.DecodeCompressed
import RevCPU.Lib.Bits
import RevCPU.Manual
/-!
Decode undoes encode on RV64I without SYSTEM and FENCE and on RV64M. The proof reads every field of
an encoded word once, computes the look-up key of each format and finds the row of that key in the
base tables; rows of the compressed tables never enter `EncToEntry`.
-/
namespace RevCPU.DecodeBase
open Feature InstTable IntTables Seed Decode DecodeCompressed Manual

theorem inst42_eq (inst : BitVec 32) (opcode : BitVec 7)
    (read : opcodeOf inst = opcode.setWidth 32) :
    inst42 inst = (opcode.extractLsb' 2 3).setWidth 32 := by
  unfold inst42
  rw [read]
  refine (Bits.mask_shift _ 2 3).trans ?_
  rw [BitVec.extractLsb'_setWidth_of_le (by decide)]

theorem inst65_eq (inst : BitVec 32) (opcode : BitVec 7)
    (read : opcodeOf inst = opcode.setWidth 32) :
    inst65 inst = (opcode.extractLsb' 5 2).setWidth 32 := by
  unfold inst65
  rw [read]
  refine (Bits.mask_shift _ 5 2).trans ?_
  rw [BitVec.extractLsb'_setWidth_of_le (by decide)]

section Fields
variable (funct7 : BitVec 7) (rs2 rs1 : BitVec 5) (funct3 : BitVec 3) (rd : BitVec 5)
    (opcode : BitVec 7)

theorem opcodeOf_word : opcodeOf (word funct7 rs2 rs1 funct3 rd opcode) = opcode.setWidth 32 := by
  refine (Bits.mask_shift _ 0 7).trans ?_
  rw [word, Bits.field_append_low _ _ _ _ (by decide), BitVec.extractLsb'_eq_self]

theorem inst42_word :
    inst42 (word funct7 rs2 rs1 funct3 rd opcode) = (opcode.extractLsb' 2 3).setWidth 32 :=
  inst42_eq _ _ (opcodeOf_word ..)

theorem inst65_word :
    inst65 (word funct7 rs2 rs1 funct3 rd opcode) = (opcode.extractLsb' 5 2).setWidth 32 :=
  inst65_eq _ _ (opcodeOf_word ..)

theorem decodeRd_word :
    decodeRd (word funct7 rs2 rs1 funct3 rd opcode) = rd.setWidth 32 := by
  refine (Bits.shift_mask _ 7 5).trans ?_
  simp (disch := decide) only [word, Bits.field_append_low, Bits.field_append_high,
    Nat.reduceSub, BitVec.extractLsb'_eq_self]

theorem funct3_word :
    (word funct7 rs2 rs1 funct3 rd opcode &&& 0b111000000000000) >>> 12 = funct3.setWidth 32 := by
  refine (Bits.mask_shift _ 12 3).trans ?_
  simp (disch := decide) only [word, Bits.field_append_low, Bits.field_append_high,
    Nat.reduceSub, BitVec.extractLsb'_eq_self]

theorem decodeRs1_word :
    decodeRs1 (word funct7 rs2 rs1 funct3 rd opcode) = rs1.setWidth 32 := by
  refine (Bits.shift_mask _ 15 5).trans ?_
  simp (disch := decide) only [word, Bits.field_append_low, Bits.field_append_high,
    Nat.reduceSub, BitVec.extractLsb'_eq_self]

theorem decodeRs2_word :
    decodeRs2 (word funct7 rs2 rs1 funct3 rd opcode) = rs2.setWidth 32 := by
  refine (Bits.shift_mask _ 20 5).trans ?_
  simp (disch := decide) only [word, Bits.field_append_low, Bits.field_append_high,
    Nat.reduceSub, BitVec.extractLsb'_eq_self]

theorem funct7_word :
    (word funct7 rs2 rs1 funct3 rd opcode >>> 25) &&& 0b1111111 = funct7.setWidth 32 := by
  refine (Bits.shift_mask _ 25 7).trans ?_
  simp (disch := decide) only [word, Bits.field_append_high, Nat.reduceSub,
    BitVec.extractLsb'_eq_self]

theorem funct6_word :
    (word funct7 rs2 rs1 funct3 rd opcode >>> 26) &&& 0b1111111 =
      (funct7.extractLsb' 1 7).setWidth 32 := by
  refine (Bits.shift_mask _ 26 7).trans ?_
  simp (disch := decide) only [word, Bits.field_append_high, Nat.reduceSub]

theorem funct6_split (funct6 : BitVec 6) (bit : BitVec 1) :
    (funct6 ++ bit).extractLsb' 1 7 = funct6.setWidth 7 := by
  rw [Bits.field_append_high _ _ _ _ (by decide)]
  ext i inside
  simp

theorem decodeImm12_word :
    decodeImm12 (word funct7 rs2 rs1 funct3 rd opcode) = (funct7 ++ rs2).setWidth 32 := by
  refine (Bits.shift_mask _ 20 12).trans ?_
  simp (disch := decide) only [word, Bits.field_append_high, Nat.reduceSub,
    BitVec.extractLsb'_eq_self]

end Fields

section Upper
variable (imm : BitVec 20) (rd : BitVec 5) (opcode : BitVec 7)

theorem opcodeOf_upperWord : opcodeOf (upperWord imm rd opcode) = opcode.setWidth 32 := by
  refine (Bits.mask_shift _ 0 7).trans ?_
  rw [upperWord, Bits.field_append_low _ _ _ _ (by decide), BitVec.extractLsb'_eq_self]

theorem inst42_upperWord :
    inst42 (upperWord imm rd opcode) = (opcode.extractLsb' 2 3).setWidth 32 :=
  inst42_eq _ _ (opcodeOf_upperWord ..)

theorem inst65_upperWord :
    inst65 (upperWord imm rd opcode) = (opcode.extractLsb' 5 2).setWidth 32 :=
  inst65_eq _ _ (opcodeOf_upperWord ..)

theorem decodeRd_upperWord : decodeRd (upperWord imm rd opcode) = rd.setWidth 32 := by
  refine (Bits.shift_mask _ 7 5).trans ?_
  simp (disch := decide) only [upperWord, Bits.field_append_low, Bits.field_append_high,
    Nat.reduceSub, BitVec.extractLsb'_eq_self]

theorem decodeImm20_upperWord : decodeImm20 (upperWord imm rd opcode) = imm.setWidth 32 := by
  refine (Bits.shift_mask _ 12 20).trans ?_
  simp (disch := decide) only [upperWord, Bits.field_append_high, Nat.reduceSub,
    BitVec.extractLsb'_eq_self]

end Upper

/-- The key of a row with these codes and neither `imm12` nor `fpcvtOp`. -/
def rowKey (opcode : BitVec 7) (funct3 : BitVec 3) (funct7 : BitVec 7) : BitVec 32 :=
  opcode.setWidth 32 ||| (funct3.setWidth 32 <<< 8) ||| (funct7.setWidth 32 <<< 11)

def opKey : Op → BitVec 32
  | .r op => rowKey op.code.2.2 op.code.2.1 op.code.1
  | .i op => rowKey op.code.2 op.code.1 0
  -- srai is told apart by six bits of the funct7 field.
  | .shift op => rowKey 0b0010011 op.code.2 (op.code.1.setWidth 7)
  | .shiftW op => rowKey 0b0011011 op.code.2 op.code.1
  | .s op => rowKey 0b0100011 op.funct3 0
  | .b op => rowKey 0b1100011 op.funct3 0
  | .u op => rowKey op.opcode 0 0
  | .jal => rowKey 0b1101111 0 0

theorem encWith_encode (insn : Insn) :
    encWith (encode insn) (funct3Of (encode insn)) = opKey insn.op := by
  unfold encWith imm12Of fcvtOpOf funct7Of funct3Of Insn.op opKey rowKey encode
  cases insn with
  | r op =>
    simp only [opcodeOf_word, inst42_word, inst65_word, funct3_word, funct7_word, funct6_word]
    cases op <;> simp +decide only [↓reduceIte]
  | i op =>
    simp only [opcodeOf_word, inst42_word, inst65_word, funct3_word, funct7_word, funct6_word]
    cases op <;> simp +decide only [↓reduceIte]
  | shift op rd rs1 shamt =>
    simp only [opcodeOf_word, inst42_word, inst65_word, funct3_word, funct7_word, funct6_word,
      funct6_split]
    cases op <;> simp +decide only [↓reduceIte]
  | shiftW op =>
    simp only [opcodeOf_word, inst42_word, inst65_word, funct3_word, funct7_word, funct6_word]
    cases op <;> simp +decide only [↓reduceIte]
  | s op =>
    simp only [opcodeOf_word, inst42_word, inst65_word, funct3_word, funct7_word, funct6_word]
    cases op <;> simp +decide only [↓reduceIte]
  | b op =>
    simp only [opcodeOf_word, inst42_word, inst65_word, funct3_word, funct7_word, funct6_word]
    cases op <;> simp +decide only [↓reduceIte]
  | u op =>
    simp only [opcodeOf_upperWord, inst42_upperWord, inst65_upperWord]
    cases op <;> simp +decide only [↓reduceIte]
  | jal =>
    simp only [opcodeOf_upperWord, inst42_upperWord, inst65_upperWord]
    simp +decide only [↓reduceIte]

/-- What the row of an operation must say for its fields to be read. -/
def rowFits (op : Op) (row : RevInstEntry) : Bool :=
  let known := fun cls : RevRegClass => cls ≠ .RegUNKNOWN
  extractMnemonic row = op.mnemonic.toList && match op with
  | .r _ => row.format = .RVTypeR && known row.rdClass && known row.rs1Class && known row.rs2Class
  | .i _ | .shift _ => row.format = .RVTypeI && known row.rdClass && known row.rs1Class
  | .shiftW _ => known row.rdClass && known row.rs1Class && (row.format = .RVTypeI ||
      (row.format = .RVTypeR && row.imm = .FImm && row.rs2Class = .RegUNKNOWN))
  | .s _ => row.format = .RVTypeS && known row.rs1Class && known row.rs2Class
  | .b _ => row.format = .RVTypeB && known row.rs1Class && known row.rs2Class
  | .u _ => row.format = .RVTypeU && known row.rdClass
  | .jal => row.format = .RVTypeJ && known row.rdClass

/-- Operands, immediate, size and width flag of a decoded instruction are those of `insn`. -/
structure Carries (insn : Insn) (inst : RevInst) : Prop where
  rd : inst.rd = insn.rd.setWidth 8
  rs1 : inst.rs1 = insn.rs1.setWidth 8
  rs2 : inst.rs2 = insn.rs2.setWidth 8
  imm : insn.ImmIs inst.imm
  size : inst.instSize = 4
  wide : inst.compressed = false

theorem find_fits (op : Op) (plain : op.isMul = false) :
    ((rv32ITable ++ rv64ITable).find? (isEnc (opKey op))).any (rowFits op) = true := by
  cases op with
  | r op => cases op <;> first | exact absurd plain (by decide) | decide +kernel
  | i op => cases op <;> decide +kernel
  | shift op => cases op <;> decide +kernel
  | shiftW op => cases op <;> decide +kernel
  | s op => cases op <;> decide +kernel
  | b op => cases op <;> decide +kernel
  | u op => cases op <;> decide +kernel
  | jal => decide +kernel

theorem find_fits_mul (op : Op) (mul : op.isMul = true) :
    ((rv32ITable ++ rv64ITable ++ (rv32MTable ++ rv64MTable)).find?
      (isEnc (opKey op))).any (rowFits op) = true := by
  cases op with
  | r op => cases op <;> first | exact absurd mul (by decide) | decide +kernel
  | _ => cases mul

-- I comes first and M second, so no later extension can take their keys.
theorem base_rows_first (feature : RevFeature) (wide : feature.xlen = 64)
    (base : isModeEnabled feature .RV_I = true) :
    rv32ITable ++ rv64ITable <+: (enabledExts feature).flatMap fun call => call.1.table := by
  simp only [enabledExts, Seed.when, base, wide, ↓reduceIte, beq_self_eq_true, List.append_assoc,
    List.flatMap_append]
  exact List.prefix_append _ _

theorem mul_rows_second (feature : RevFeature) (wide : feature.xlen = 64)
    (base : isModeEnabled feature .RV_I = true) (mul : isModeEnabled feature .RV_M = true) :
    rv32ITable ++ rv64ITable ++ (rv32MTable ++ rv64MTable) <+:
      (enabledExts feature).flatMap fun call => call.1.table := by
  simp only [enabledExts, Seed.when, base, mul, wide, ↓reduceIte, beq_self_eq_true,
    List.append_assoc, List.flatMap_append]
  exact List.prefix_append (rv32ITable ++ rv64ITable ++ (rv32MTable ++ rv64MTable)) _

theorem find_row (feature : RevFeature) (wide : feature.xlen = 64)
    (base : isModeEnabled feature .RV_I = true) (op : Op)
    (mul : op.isMul = true → isModeEnabled feature .RV_M = true) :
    ∃ row, (seedInstTable feature).instTable.find? (isEnc (opKey op)) = some row ∧
      rowFits op row = true := by
  rw [find_enc_instTable]
  by_cases inM : op.isMul = true
  · obtain ⟨row, found, fit⟩ := (Option.any_eq_true _ _).mp (find_fits_mul op inM)
    exact ⟨row, (mul_rows_second feature wide base (mul inM)).find?_eq_some found, fit⟩
  · obtain ⟨row, found, fit⟩ := (Option.any_eq_true _ _).mp (find_fits op (by simpa using inM))
    exact ⟨row, (base_rows_first feature wide base).find?_eq_some found, fit⟩

section Immediates

theorem imm12_join (imm : BitVec 12) : imm.extractLsb' 5 7 ++ imm.extractLsb' 0 5 = imm := by
  apply BitVec.eq_of_getLsbD_eq
  intro i inside
  simp only [BitVec.getLsbD_append, BitVec.getLsbD_extractLsb']
  interval_cases i <;>
    simp only [Nat.reduceLT, Nat.reduceAdd, Nat.reduceSub, decide_true, ↓reduceIte, Bool.true_and]

theorem shamt_join (funct6 : BitVec 6) (shamt : BitVec 6) :
    (((funct6 ++ shamt.extractLsb' 5 1) ++ shamt.extractLsb' 0 5).setWidth 32).setWidth 6 =
      shamt := by
  apply BitVec.eq_of_getLsbD_eq
  intro i inside
  simp only [BitVec.getLsbD_setWidth, BitVec.getLsbD_append,
    BitVec.getLsbD_extractLsb']
  interval_cases i <;>
    simp only [Nat.reduceLT, Nat.reduceAdd, Nat.reduceSub, decide_true, ↓reduceIte, Bool.true_and]

theorem shamtW_join (funct7 : BitVec 7) (shamt : BitVec 5) :
    ((funct7 ++ shamt).setWidth 32).setWidth 5 = shamt := by
  rw [BitVec.setWidth_setWidth_of_le _ (by decide), BitVec.setWidth_append_eq_right]

theorem storeImm (imm : BitVec 12) (rs2 rs1 : BitVec 5) (funct3 : BitVec 3) :
    let inst := word (imm.extractLsb' 5 7) rs2 rs1 funct3 (imm.extractLsb' 0 5) 0b0100011
    decodeRd inst ||| (decodeFunct7 inst <<< 5) = imm.setWidth 32 := by
  intro inst
  have low : decodeRd inst = (imm.extractLsb' 0 5).setWidth 32 := decodeRd_word ..
  have high : decodeFunct7 inst = (imm.extractLsb' 5 7).setWidth 32 := funct7_word ..
  rw [low, high]
  apply BitVec.eq_of_getLsbD_eq
  intro i inside
  simp only [BitVec.getLsbD_or, BitVec.getLsbD_setWidth, BitVec.getLsbD_shiftLeft,
    BitVec.getLsbD_extractLsb']
  interval_cases i <;>
    simp only [Nat.reduceLT, Nat.reduceAdd, Nat.reduceSub, Nat.reduceLeDiff, decide_true,
      decide_false, BitVec.getLsbD_of_ge, Bool.not_true, Bool.not_false, Bool.and_false,
      Bool.and_true, Bool.true_and, Bool.false_and, Bool.or_false, Bool.false_or]

theorem branchImm (imm : BitVec 12) (rs2 rs1 : BitVec 5) (funct3 : BitVec 3) :
    let inst := word (imm.extractLsb' 11 1 ++ imm.extractLsb' 4 6) rs2 rs1 funct3
      (imm.extractLsb' 0 4 ++ imm.extractLsb' 10 1) 0b1100011
    ((inst <<< 4) &&& 0b100000000000) ||| ((inst &&& 0b111100000000) >>> 7) |||
      ((inst >>> 20) &&& 0b11111100000) ||| ((inst >>> 19) &&& 0b1000000000000) =
      (imm ++ 0#1).setWidth 32 := by
  intro inst
  apply BitVec.eq_of_getLsbD_eq
  intro i inside
  simp only [inst, word, BitVec.getLsbD_or, BitVec.getLsbD_and, BitVec.getLsbD_setWidth,
    BitVec.getLsbD_shiftLeft, BitVec.getLsbD_ushiftRight, BitVec.getLsbD_append,
    BitVec.getLsbD_extractLsb']
  interval_cases i <;>
    simp only [Nat.reduceLT, Nat.reduceAdd, Nat.reduceSub, Nat.reduceLeDiff, decide_true,
      decide_false, Nat.cast_ofNat, ↓reduceIte, BitVec.reduceGetLsb, BitVec.getLsbD_of_ge,
      Bool.not_true, Bool.not_false, Bool.and_false, Bool.and_true, Bool.true_and, Bool.or_false,
      Bool.false_or]

theorem jumpImm (imm : BitVec 20) (rd : BitVec 5) :
    let inst := upperWord (imm.extractLsb' 19 1 ++ imm.extractLsb' 0 10 ++
      imm.extractLsb' 10 1 ++ imm.extractLsb' 11 8) rd 0b1101111
    ((inst >>> 20) &&& 0b11111111110) ||| (inst &&& 0b11111111000000000000) |||
      ((inst >>> 9) &&& 0b100000000000) ||| ((inst >>> 11) &&& 0b100000000000000000000) =
      (imm ++ 0#1).setWidth 32 := by
  intro inst
  apply BitVec.eq_of_getLsbD_eq
  intro i inside
  simp only [inst, upperWord, BitVec.getLsbD_or, BitVec.getLsbD_and, BitVec.getLsbD_setWidth,
    BitVec.getLsbD_ushiftRight, BitVec.getLsbD_append, BitVec.getLsbD_extractLsb']
  interval_cases i <;>
    simp only [Nat.reduceLT, Nat.reduceAdd, Nat.reduceSub, Nat.reduceLeDiff, decide_true,
      decide_false, Nat.cast_ofNat, ↓reduceIte, BitVec.reduceGetLsb, BitVec.getLsbD_of_ge,
      Bool.and_false, Bool.and_true, Bool.true_and, Bool.or_false, Bool.false_or]

end Immediates

theorem regField_known (cls : RevRegClass) (reg : BitVec 5) (known : cls ≠ .RegUNKNOWN) :
    regField cls (reg.setWidth 32) = reg.setWidth 8 := by
  rw [regField, if_neg known, BitVec.setWidth_setWidth_of_le reg (by decide)]

-- What the two formats shared by several groups read out of a word.
theorem decodeIInst_word (junk : RevInst) (row : RevInstEntry) (funct7 : BitVec 7)
    (rs2 rs1 : BitVec 5) (funct3 : BitVec 3) (rd : BitVec 5) (opcode : BitVec 7)
    (dest : row.rdClass ≠ .RegUNKNOWN) (left : row.rs1Class ≠ .RegUNKNOWN) :
    let decoded := decodeIInst junk (word funct7 rs2 rs1 funct3 rd opcode) row
    decoded.rd = rd.setWidth 8 ∧ decoded.rs1 = rs1.setWidth 8 ∧ decoded.rs2 = 0 ∧
      decoded.imm = (funct7 ++ rs2).setWidth 32 := by
  refine ⟨?_, ?_, rfl, decodeImm12_word ..⟩
  · simp only [decodeIInst, decodeRd_word, regField_known _ _ dest]
  · simp only [decodeIInst, decodeRs1_word, regField_known _ _ left]

theorem decodeRInst_word (junk : RevInst) (row : RevInstEntry) (funct7 : BitVec 7)
    (rs2 rs1 : BitVec 5) (funct3 : BitVec 3) (rd : BitVec 5) (opcode : BitVec 7)
    (dest : row.rdClass ≠ .RegUNKNOWN) (left : row.rs1Class ≠ .RegUNKNOWN) :
    let decoded := decodeRInst junk (word funct7 rs2 rs1 funct3 rd opcode) row
    decoded.rd = rd.setWidth 8 ∧ decoded.rs1 = rs1.setWidth 8 ∧
      decoded.rs2 = regField row.rs2Class (rs2.setWidth 32) := by
  refine ⟨?_, ?_, ?_⟩
  · simp only [decodeRInst, decodeRd_word, regField_known _ _ dest]
  · simp only [decodeRInst, decodeRs1_word, regField_known _ _ left]
  · simp only [decodeRInst, decodeRs2_word]

-- One case per format; the row's format picks the decoder and its classes open the fields.
theorem decodeFormat_carries (insn : Insn) (row : RevInstEntry) (junk : RevInst)
    (fits : rowFits insn.op row = true) :
    ∃ decoded, decodeFormat junk (encode insn) row = .ok decoded ∧ Carries insn decoded := by
  unfold decodeFormat
  cases insn with
  | r op rd rs1 rs2 =>
    simp only [rowFits, Insn.op, Bool.and_eq_true, decide_eq_true_eq] at fits
    obtain ⟨-, ⟨⟨format, dest⟩, left⟩, right⟩ := fits
    obtain ⟨rdRead, rs1Read, rs2Read⟩ :=
      decodeRInst_word junk row op.code.1 rs2 rs1 op.code.2.1 rd op.code.2.2 dest left
    rw [regField_known _ _ right] at rs2Read
    rw [format]
    exact ⟨_, rfl, rdRead, rs1Read, rs2Read, trivial, rfl, rfl⟩
  | i op rd rs1 imm =>
    simp only [rowFits, Insn.op, Bool.and_eq_true, decide_eq_true_eq] at fits
    obtain ⟨-, ⟨format, dest⟩, left⟩ := fits
    obtain ⟨rdRead, rs1Read, rs2Read, immRead⟩ := decodeIInst_word junk row
      (imm.extractLsb' 5 7) (imm.extractLsb' 0 5) rs1 op.code.1 rd op.code.2 dest left
    rw [imm12_join] at immRead
    rw [format]
    exact ⟨_, rfl, rdRead, rs1Read, rs2Read, immRead, rfl, rfl⟩
  | shift op rd rs1 shamt =>
    simp only [rowFits, Insn.op, Bool.and_eq_true, decide_eq_true_eq] at fits
    obtain ⟨-, ⟨format, dest⟩, left⟩ := fits
    obtain ⟨rdRead, rs1Read, rs2Read, immRead⟩ := decodeIInst_word junk row
      (op.code.1 ++ shamt.extractLsb' 5 1) (shamt.extractLsb' 0 5) rs1 op.code.2 rd 0b0010011
      dest left
    have amount := (congrArg (BitVec.setWidth 6) immRead).trans (shamt_join op.code.1 shamt)
    rw [format]
    exact ⟨_, rfl, rdRead, rs1Read, rs2Read, amount, rfl, rfl⟩
  | shiftW op rd rs1 shamt =>
    simp only [rowFits, Insn.op, Bool.and_eq_true, Bool.or_eq_true, decide_eq_true_eq] at fits
    obtain ⟨-, ⟨dest, left⟩, format | ⟨⟨format, immediate⟩, right⟩⟩ := fits
    · obtain ⟨rdRead, rs1Read, rs2Read, immRead⟩ :=
        decodeIInst_word junk row op.code.1 shamt rs1 op.code.2 rd 0b0011011 dest left
      have amount := (congrArg (BitVec.setWidth 5) immRead).trans (shamtW_join op.code.1 shamt)
      rw [format]
      exact ⟨_, rfl, rdRead, rs1Read, rs2Read, amount, rfl, rfl⟩
    · obtain ⟨rdRead, rs1Read, rs2Read⟩ :=
        decodeRInst_word junk row op.code.1 shamt rs1 op.code.2 rd 0b0011011 dest left
      rw [regField, if_pos right] at rs2Read
      rw [format]
      refine ⟨_, rfl, rdRead, rs1Read, rs2Read, ?_, rfl, rfl⟩
      simp only [decodeRInst, encode, decodeImm12_word, Insn.ImmIs, immediate, right, and_self,
        ↓reduceIte, BitVec.setWidth_and, shamtW_join]
      exact BitVec.and_allOnes
  | s op rs1 rs2 imm =>
    simp only [rowFits, Insn.op, Bool.and_eq_true, decide_eq_true_eq] at fits
    obtain ⟨-, ⟨format, left⟩, right⟩ := fits
    rw [format]
    refine ⟨_, rfl, rfl, ?_, ?_, storeImm imm rs2 rs1 op.funct3, rfl, rfl⟩
    · simp only [decodeSInst, encode, decodeRs1_word, regField_known _ _ left, Insn.rs1]
    · simp only [decodeSInst, encode, decodeRs2_word, regField_known _ _ right, Insn.rs2]
  | b op rs1 rs2 imm =>
    simp only [rowFits, Insn.op, Bool.and_eq_true, decide_eq_true_eq] at fits
    obtain ⟨-, ⟨format, left⟩, right⟩ := fits
    rw [format]
    refine ⟨_, rfl, rfl, ?_, ?_, branchImm imm rs2 rs1 op.funct3, rfl, rfl⟩
    · simp only [decodeBInst, encode, decodeRs1_word, regField_known _ _ left, Insn.rs1]
    · simp only [decodeBInst, encode, decodeRs2_word, regField_known _ _ right, Insn.rs2]
  | u op rd imm =>
    simp only [rowFits, Insn.op, Bool.and_eq_true, decide_eq_true_eq] at fits
    obtain ⟨-, format, dest⟩ := fits
    rw [format]
    refine ⟨_, rfl, ?_, rfl, rfl, decodeImm20_upperWord .., rfl, rfl⟩
    simp only [decodeUInst, encode, decodeRd_upperWord, regField_known _ _ dest, Insn.rd]
  | jal rd imm =>
    simp only [rowFits, Insn.op, Bool.and_eq_true, decide_eq_true_eq] at fits
    obtain ⟨-, format, dest⟩ := fits
    rw [format]
    refine ⟨_, rfl, ?_, rfl, rfl, jumpImm imm rd, rfl, rfl⟩
    simp only [decodeJInst, encode, decodeRd_upperWord, regField_known _ _ dest, Insn.rd]

theorem encode_full_width (insn : Insn) : opcodeOf (encode insn) &&& 0b11 = 0b11 := by
  unfold encode
  cases insn with
  | r op => simp only [opcodeOf_word]; cases op <;> decide
  | i op => simp only [opcodeOf_word]; cases op <;> decide
  | shift => simp only [opcodeOf_word]; decide
  | shiftW => simp only [opcodeOf_word]; decide
  | s => simp only [opcodeOf_word]; decide
  | b => simp only [opcodeOf_word]; decide
  | u op => simp only [opcodeOf_upperWord]; cases op <;> decide
  | jal => simp only [opcodeOf_upperWord]; decide

/-- Decode undoes encode, for every RV64 model with I and any other extensions, every operand and
every immediate. -/
theorem decodeInst_encode (feature : RevFeature) (wide : feature.xlen = 64)
    (base : isModeEnabled feature .RV_I = true) (insn : Insn)
    (mul : insn.op.isMul = true → isModeEnabled feature .RV_M = true)
    (coProc : Option (BitVec 32 → Bool)) (junk : RevInst) :
    ∃ decoded row key,
      decodeInst feature (seedInstTable feature) coProc none junk (encode insn) = .ok decoded ∧
      OnceMap.find (encToEntry (seedInstTable feature)) key = some decoded.entry ∧
      (seedInstTable feature).instTable[decoded.entry]? = some row ∧
      extractMnemonic row = insn.op.mnemonic.toList ∧ Carries insn decoded.inst := by
  obtain ⟨row, found, fits⟩ := find_row feature wide base insn.op mul
  obtain ⟨inst, formatted, carries⟩ := decodeFormat_carries insn row junk fits
  rw [← encWith_encode] at found
  obtain ⟨entry, bound, listed, decoded⟩ :=
    decodeWide_found (seedInstTable feature) coProc junk (encode insn) row inst found formatted
  have name : extractMnemonic row = insn.op.mnemonic.toList := by
    simp only [rowFits, Bool.and_eq_true, decide_eq_true_eq] at fits
    exact fits.1
  refine ⟨{ inst := inst, entry := entry, cost := row.cost }, row, _, ?_, bound, listed, name,
    carries⟩
  rw [decodeInst_wide _ _ _ _ _ (encode_full_width insn)]
  exact decoded

-- mulhu on an RV64IMC model: its row lies behind the base and the compressed tables.
theorem decodeInst_encode_mulhu :
    ∃ feature, parseMachineModel "RV64IMC".toList 1 1 = some feature ∧ ∃ decoded row key,
      decodeInst feature (seedInstTable feature) none none default (encode (.r .mulhu 5 6 7)) =
        .ok decoded ∧
      OnceMap.find (encToEntry (seedInstTable feature)) key = some decoded.entry ∧
      (seedInstTable feature).instTable[decoded.entry]? = some row ∧
      extractMnemonic row = "mulhu".toList ∧ Carries (.r .mulhu 5 6 7) decoded.inst :=
  ⟨{ features := 70, xlen := 64, minCost := 1, maxCost := 1 }, by decide,
    decodeInst_encode { features := 70, xlen := 64, minCost := 1, maxCost := 1 } rfl (by decide)
      (.r .mulhu 5 6 7) (fun _ => by decide) none default⟩

end RevCPU.DecodeBase
