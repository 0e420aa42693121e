import RevCPU.DecodeCompressed
import RevCPU.Insns.Float
import RevCPU.ManualCompressed
/-!
What `DecodeCompressed` reads out of an encoded 16-bit word: the fields, the look-up key and the
row. The upper half of the fetched word is the next instruction and plays no part.
-/
namespace RevCPU.CompressedDecode
open Feature InstTable IntTables FloatTables Seed Decode DecodeCompressed RegFile Insns
  ManualCompressed

/-- `DecodeCompressed`, then the function of the row it found. -/
def compressedPlan (narrow : BitVec 64 → BitVec 32) (feature : RevFeature)
    (coProc : Option (BitVec 32 → Bool)) (junk : RevInst) (regs : RevRegFile)
    (fetched : BitVec 32) : Option Plan :=
  match decodeCompressed feature (seedInstTable feature) coProc junk fetched with
  | .error _ => none
  | .ok decoded =>
    match (seedInstTable feature).instTable[decoded.entry]? with
    | none => none
    | some row => execFunc narrow feature regs decoded.inst row.func

theorem compressedPlan_found (narrow : BitVec 64 → BitVec 32) (feature : RevFeature)
    (coProc : Option (BitVec 32 → Bool)) (junk : RevInst) (regs : RevRegFile)
    (high inst : BitVec 16) (row : RevInstEntry) (decoded : RevInst)
    (enabled : isModeEnabled feature .RV_C = true)
    (found : ((enabledExts feature).flatMap shortRows).find? (isCEnc (cEnc inst)) = some row)
    (formatted : decodeCFormat feature.xlen junk inst row = .ok decoded) :
    compressedPlan narrow feature coProc junk regs (high ++ inst) =
      execFunc narrow feature regs decoded row.func := by
  have short : (high ++ inst).setWidth 16 = inst := BitVec.setWidth_append_eq_right
  rw [← find_cenc_instTable feature enabled] at found
  obtain ⟨entry, listed, result⟩ := decodeCompressed_found feature (seedInstTable feature) coProc
    junk (high ++ inst) row decoded enabled (by rw [short]; exact found)
    (by rw [short]; exact formatted)
  simp only [compressedPlan, result, listed]

section Fields
variable (funct3 : BitVec 3) (bit : BitVec 1) (mid low : BitVec 5) (op : BitVec 2)

theorem decodeRd_cword :
    decodeRd ((cword funct3 bit mid low op).setWidth 32) = mid.setWidth 32 := by
  refine (Bits.shift_mask _ 7 5).trans ?_
  rw [BitVec.extractLsb'_setWidth_of_le (by decide)]
  simp (disch := decide) only [cword, Bits.field_append_low, Bits.field_append_high,
    Nat.reduceSub, BitVec.extractLsb'_eq_self]

theorem decodeLowerCrs2_cword :
    decodeLowerCrs2 ((cword funct3 bit mid low op).setWidth 32) = low.setWidth 32 := by
  refine (Bits.shift_mask _ 2 5).trans ?_
  rw [BitVec.extractLsb'_setWidth_of_le (by decide)]
  simp (disch := decide) only [cword, Bits.field_append_low, Bits.field_append_high,
    Nat.reduceSub, BitVec.extractLsb'_eq_self]

-- The same two fields as the `uint8_t` register numbers they are stored in.
theorem rd_cword :
    (decodeRd ((cword funct3 bit mid low op).setWidth 32)).setWidth 8 = mid.setWidth 8 := by
  rw [decodeRd_cword, BitVec.setWidth_setWidth_of_le mid (by decide)]

theorem crs2_cword :
    (decodeLowerCrs2 ((cword funct3 bit mid low op).setWidth 32)).setWidth 8 = low.setWidth 8 := by
  rw [decodeLowerCrs2_cword, BitVec.setWidth_setWidth_of_le low (by decide)]

-- The two 3-bit register fields.
theorem lowReg_cword :
    ((cword funct3 bit mid low op).setWidth 32 &&& 0b11100) >>> 2 =
      (low.extractLsb' 0 3).setWidth 32 := by
  refine (Bits.mask_shift _ 2 3).trans ?_
  rw [BitVec.extractLsb'_setWidth_of_le (by decide)]
  simp (disch := decide) only [cword, Bits.field_append_low, Bits.field_append_high, Nat.reduceSub]

theorem midReg_cword :
    ((cword funct3 bit mid low op).setWidth 32 &&& 0b1110000000) >>> 7 =
      (mid.extractLsb' 0 3).setWidth 32 := by
  refine (Bits.mask_shift _ 7 3).trans ?_
  rw [BitVec.extractLsb'_setWidth_of_le (by decide)]
  simp (disch := decide) only [cword, Bits.field_append_low, Bits.field_append_high, Nat.reduceSub]

theorem opc_cword : cword funct3 bit mid low op &&& 0b11 = op.setWidth 16 := by
  refine (Bits.mask_shift _ 0 2).trans ?_
  simp (disch := decide) only [cword, Bits.field_append_low, BitVec.extractLsb'_eq_self]

theorem l3_cword :
    (cword funct3 bit mid low op &&& 0b1110000000000000) >>> 13 = funct3.setWidth 16 := by
  refine (Bits.mask_shift _ 13 3).trans ?_
  simp (disch := decide) only [cword, Bits.field_append_high, Nat.reduceSub,
    BitVec.extractLsb'_eq_self]

theorem opSelect_cword :
    (cword funct3 bit mid low op &&& 0b110000000000) >>> 10 =
      (mid.extractLsb' 3 2).setWidth 16 := by
  refine (Bits.mask_shift _ 10 2).trans ?_
  simp (disch := decide) only [cword, Bits.field_append_low, Bits.field_append_high, Nat.reduceSub]

theorem funct2_cword :
    (cword funct3 bit mid low op &&& 0b01100000) >>> 5 = (low.extractLsb' 3 2).setWidth 16 := by
  refine (Bits.mask_shift _ 5 2).trans ?_
  simp (disch := decide) only [cword, Bits.field_append_low, Bits.field_append_high, Nat.reduceSub]

theorem funct4_cword :
    (cword funct3 bit mid low op &&& 0b1111000000000000) >>> 12 = (funct3 ++ bit).setWidth 16 := by
  refine (Bits.mask_shift _ 12 4).trans ?_
  simp (disch := decide) only [cword, Bits.field_append_high, Nat.reduceSub,
    BitVec.extractLsb'_eq_self]

theorem funct6_cword :
    (cword funct3 bit mid low op &&& 0b1111110000000000) >>> 10 =
      (funct3 ++ bit ++ mid.extractLsb' 3 2).setWidth 16 := by
  refine (Bits.mask_shift _ 10 6).trans ?_
  congr 1
  apply BitVec.eq_of_getLsbD_eq
  intro i inside
  simp only [cword, BitVec.getLsbD_append, BitVec.getLsbD_extractLsb']
  interval_cases i <;>
    simp only [Nat.reduceLT, Nat.reduceAdd, Nat.reduceSub, decide_true, ↓reduceIte, Bool.true_and]

-- The CI immediate lies in bits 12 and 6:2; the rest of the word does not reach it.
theorem ci_masked (part : BitVec 32) (inside : 0x107C &&& part = part) :
    (cword funct3 bit mid low op).setWidth 32 &&& part =
      (cword 0 bit 0 low 0).setWidth 32 &&& part := by
  refine Bits.masked_congr _ _ 0x107C part ?_ inside
  apply BitVec.eq_of_getLsbD_eq
  intro i bound
  simp only [cword, BitVec.getLsbD_and, BitVec.getLsbD_setWidth, BitVec.getLsbD_append]
  interval_cases i <;>
    simp only [Nat.reduceLT, Nat.reduceSub, decide_true, ↓reduceIte, BitVec.reduceGetLsb,
      Bool.and_false, Bool.and_true]

/-- The key of a word, from the fields it depends on. -/
def cKey (select funct2 : BitVec 2) : BitVec 32 :=
  let opc := op.setWidth 16
  let l3 := funct3.setWidth 16
  let code := funct3.setWidth 8
  let functs : BitVec 8 × BitVec 8 × BitVec 8 × BitVec 8 :=
    if opc = 0b00 then (0, code, 0, 0)
    else if opc = 0b01 then
      if l3.toNat ≤ 0b011 then (0, code, 0, 0)
      else if l3.toNat < 0b101 then
        if select.setWidth 16 = 0b11#16 then
          (funct2.setWidth 8, 0, 0, (funct3 ++ bit ++ select).setWidth 8)
        else (select.setWidth 8, code, 0, 0)
      else (0, code, 0, 0)
    else if opc = 0b10 then
      if l3 = 0b100 then (0, 0, (funct3 ++ bit).setWidth 8, 0) else (0, code, 0, 0)
    else (0, 0, 0, 0)
  opc.setWidth 32 ||| (functs.1.setWidth 32 <<< 2) ||| (functs.2.1.setWidth 32 <<< 4) |||
    (functs.2.2.1.setWidth 32 <<< 8) ||| (functs.2.2.2.setWidth 32 <<< 12)

theorem cEnc_cword :
    cEnc (cword funct3 bit mid low op) =
      cKey funct3 bit op (mid.extractLsb' 3 2) (low.extractLsb' 3 2) := by
  simp (disch := decide) only [cEnc, cFunct, opc_cword, l3_cword, opSelect_cword, funct2_cword,
    funct4_cword, funct6_cword, BitVec.setWidth_setWidth_of_le]
  rfl

end Fields

theorem cRegMap_creg (index : BitVec 3) :
    cRegMap ((index.setWidth 32).setWidth 8) = (creg index).setWidth 8 := by
  revert index
  decide

-- A trampoline maps the 3-bit fields to x8 .. x15.
theorem lowCreg_cword (funct3 : BitVec 3) (bit : BitVec 1) (mid : BitVec 5) (top : BitVec 2)
    (index : BitVec 3) (op : BitVec 2) :
    cRegMap ((((cword funct3 bit mid (top ++ index) op).setWidth 32 &&& 0b11100) >>> 2).setWidth
      8) = (creg index).setWidth 8 := by
  rw [lowReg_cword, Bits.field_append_low _ _ 0 3 (by decide), BitVec.extractLsb'_eq_self]
  exact cRegMap_creg index

theorem midCreg_cword (funct3 : BitVec 3) (bit : BitVec 1) (top : BitVec 2) (index : BitVec 3)
    (low : BitVec 5) (op : BitVec 2) :
    cRegMap ((((cword funct3 bit (top ++ index) low op).setWidth 32 &&& 0b1110000000) >>>
      7).setWidth 8) = (creg index).setWidth 8 := by
  rw [midReg_cword, Bits.field_append_low _ _ 0 3 (by decide), BitVec.extractLsb'_eq_self]
  exact cRegMap_creg index

/-- Decoding a 16-bit word and running its function does what the manual says of `base`, with an
instruction size of 2. -/
def Agrees {w : Nat} (mode : Isa.Xlen w) (narrow : BitVec 64 → BitVec 32) (feature : RevFeature)
    (coProc : Option (BitVec 32 → Bool)) (junk : RevInst) (regs : RevRegFile)
    (high inst : BitVec 16) (base : Isa.Base) : Prop :=
  ∃ plan, compressedPlan narrow feature coProc junk regs (high ++ inst) = some plan ∧
    Isa.Means plan (Isa.isaStep mode 2 regs base)

/-- What the later steps use of a row. -/
def rowIs (func : ImplFunc) (format : RevInstF) (opcode funct3 : BitVec 8) (row : RevInstEntry) :
    Bool :=
  decide (row.func = func ∧ row.format = format ∧ row.opcode = opcode ∧ row.funct3 = funct3)

-- The base rows come first, so what they hold of a key is what is found.
theorem find_short_wide (feature : RevFeature) (wide : feature.xlen = 64)
    (base : isModeEnabled feature .RV_I = true) (inst : BitVec 16) (key : BitVec 32)
    (test : RevInstEntry → Bool) (code : cEnc inst = key)
    (listed : ((rv32ICTable ++ rv64ICTable).find? (isCEnc key)).any test = true) :
    ∃ row, ((enabledExts feature).flatMap shortRows).find? (isCEnc (cEnc inst)) = some row ∧
      test row = true := by
  rw [code]
  obtain ⟨row, found, fits⟩ := (Option.any_eq_true _ _).mp listed
  refine ⟨row, ?_, fits⟩
  rw [shortRows_wide feature wide, if_pos base]
  exact (List.prefix_append _ _).find?_eq_some found

theorem find_short_narrow (feature : RevFeature) (narrow : feature.xlen = 32)
    (base : isModeEnabled feature .RV_I = true) (inst : BitVec 16) (key : BitVec 32)
    (test : RevInstEntry → Bool) (code : cEnc inst = key)
    (listed : ((rv32ICTable ++ rv32ICOTable).find? (isCEnc key)).any test = true) :
    ∃ row, ((enabledExts feature).flatMap shortRows).find? (isCEnc (cEnc inst)) = some row ∧
      test row = true := by
  rw [code]
  obtain ⟨row, found, fits⟩ := (Option.any_eq_true _ _).mp listed
  refine ⟨row, ?_, fits⟩
  rw [shortRows_narrow feature narrow, if_pos base]
  exact (List.prefix_append _ _).find?_eq_some found

-- The rows of RV32I's compressed table are there in both widths.
theorem find_short_common (feature : RevFeature) (width : feature.xlen = 64 ∨ feature.xlen = 32)
    (base : isModeEnabled feature .RV_I = true) (inst : BitVec 16) (key : BitVec 32)
    (test : RevInstEntry → Bool) (code : cEnc inst = key)
    (listed : (rv32ICTable.find? (isCEnc key)).any test = true) :
    ∃ row, ((enabledExts feature).flatMap shortRows).find? (isCEnc (cEnc inst)) = some row ∧
      test row = true := by
  have longer : ∀ rest, ((rv32ICTable ++ rest).find? (isCEnc key)).any test = true := by
    intro rest
    obtain ⟨row, found, fits⟩ := (Option.any_eq_true _ _).mp listed
    exact (Option.any_eq_true _ _).mpr ⟨row, (List.prefix_append _ rest).find?_eq_some found, fits⟩
  rcases width with wide | narrow
  · exact find_short_wide feature wide base inst key test code (longer _)
  · exact find_short_narrow feature narrow base inst key test code (longer _)

-- The rows of D follow those of I in both widths.
theorem find_short_double (feature : RevFeature) (width : feature.xlen = 64 ∨ feature.xlen = 32)
    (base : isModeEnabled feature .RV_I = true) (double : isModeEnabled feature .RV_D = true)
    (inst : BitVec 16) (key : BitVec 32) (test : RevInstEntry → Bool) (code : cEnc inst = key)
    (wide : ((rv32ICTable ++ rv64ICTable ++ rv32DCTable).find? (isCEnc key)).any test = true)
    (narrow : ((rv32ICTable ++ rv32ICOTable ++ rv32DCTable).find? (isCEnc key)).any test = true) :
    ∃ row, ((enabledExts feature).flatMap shortRows).find? (isCEnc (cEnc inst)) = some row ∧
      test row = true := by
  rw [code]
  rcases width with xlen | xlen
  · rw [shortRows_wide feature xlen, if_pos base, if_pos double]
    exact (Option.any_eq_true _ _).mp wide
  · rw [shortRows_narrow feature xlen, if_pos base, if_pos double]
    exact (Option.any_eq_true _ _).mp narrow

-- On RV32 the optional rows of F are there when D is not.
theorem shortRows_single (feature : RevFeature) (narrow : feature.xlen = 32)
    (base : isModeEnabled feature .RV_I = true) (float : isModeEnabled feature .RV_F = true)
    (single : isModeEnabled feature .RV_D = false) :
    (enabledExts feature).flatMap shortRows = rv32ICTable ++ rv32ICOTable ++ rv32FCOTable := by
  rw [shortRows_narrow feature narrow, if_pos base, single, if_neg Bool.false_ne_true,
    if_pos float]

/-- Once a row and its format are known, only the function on the decoded fields is left. -/
theorem agrees_row {w : Nat} (mode : Isa.Xlen w) (narrow : BitVec 64 → BitVec 32)
    (feature : RevFeature) (coProc : Option (BitVec 32 → Bool)) (junk : RevInst)
    (regs : RevRegFile) (high inst : BitVec 16) (base : Isa.Base) (func : ImplFunc)
    (format : RevInstF) (opcode funct3 : BitVec 8) (decoded : RevInstEntry → RevInst)
    (condition : Prop) (enabled : isModeEnabled feature .RV_C = true)
    (found : ∃ row, ((enabledExts feature).flatMap shortRows).find? (isCEnc (cEnc inst)) =
      some row ∧ rowIs func format opcode funct3 row = true)
    (formatted : ∀ row, row.format = format →
      decodeCFormat feature.xlen junk inst row = .ok (decoded row))
    (runs : ∀ row, row.opcode = opcode → row.funct3 = funct3 →
      ∃ plan, execFunc narrow feature regs (decoded row) func = some plan ∧
        (Isa.Means plan (Isa.isaStep mode 2 regs base) ↔ condition)) :
    Agrees mode narrow feature coProc junk regs high inst base ↔ condition := by
  obtain ⟨row, listed, fits⟩ := found
  obtain ⟨rfl, kind, code, selector⟩ := of_decide_eq_true fits
  obtain ⟨plan, ran, meaning⟩ := runs row code selector
  have whole := compressedPlan_found narrow feature coProc junk regs high inst row (decoded row)
    enabled listed (formatted row kind)
  rw [ran] at whole
  simp [Agrees, whole, meaning]

-- The case without a memory access: two register files are compared.
theorem agrees_done {w : Nat} (mode : Isa.Xlen w) (narrow : BitVec 64 → BitVec 32)
    (feature : RevFeature) (coProc : Option (BitVec 32 → Bool)) (junk : RevInst)
    (regs : RevRegFile) (high inst : BitVec 16) (base : Isa.Base) (func : ImplFunc)
    (format : RevInstF) (opcode funct3 : BitVec 8) (decoded : RevInstEntry → RevInst)
    (after meant : RevRegFile) (enabled : isModeEnabled feature .RV_C = true)
    (found : ∃ row, ((enabledExts feature).flatMap shortRows).find? (isCEnc (cEnc inst)) =
      some row ∧ rowIs func format opcode funct3 row = true)
    (formatted : ∀ row, row.format = format →
      decodeCFormat feature.xlen junk inst row = .ok (decoded row))
    (runs : ∀ row, row.opcode = opcode → row.funct3 = funct3 →
      execFunc narrow feature regs (decoded row) func = some (.done after))
    (expansion : Isa.isaStep mode 2 regs base = .done meant) :
    Agrees mode narrow feature coProc junk regs high inst base ↔ after = meant := by
  refine agrees_row mode narrow feature coProc junk regs high inst base func format opcode funct3
    decoded (after = meant) enabled found formatted ?_
  intro row code selector
  exact ⟨.done after, runs row code selector, by rw [expansion, Isa.means_done_iff]⟩

/-- A word without a row is an error, or the coprocessor's c.addi; neither accesses memory. -/
theorem agrees_absent {w : Nat} (mode : Isa.Xlen w) (narrow : BitVec 64 → BitVec 32)
    (feature : RevFeature) (coProc : Option (BitVec 32 → Bool)) (junk : RevInst)
    (regs : RevRegFile) (high inst : BitVec 16) (base : Isa.Base)
    (width : feature.xlen = 64 ∨ feature.xlen = 32)
    (integer : isModeEnabled feature .RV_I = true) (enabled : isModeEnabled feature .RV_C = true)
    (absent : ((enabledExts feature).flatMap shortRows).find? (isCEnc (cEnc inst)) = none)
    (accesses : (Isa.isaStep mode 2 regs base).access ≠ .none) :
    ¬ Agrees mode narrow feature coProc junk regs high inst base := by
  rintro ⟨plan, planned, means⟩
  have short : (high ++ inst).setWidth 16 = inst := BitVec.setWidth_append_eq_right
  have missing : OnceMap.find (cEncToEntry (seedInstTable feature)) (cEnc inst) = none := by
    by_contra bound
    obtain ⟨entry, bound⟩ := Option.ne_none_iff_exists'.mp bound
    obtain ⟨row, listed, -⟩ := cEncToEntry_sound _ _ entry bound
    have found := (cEncToEntry_row _ _ row).mpr ⟨entry, bound, listed⟩
    rw [find_cenc_instTable feature enabled, absent] at found
    cases found
  -- what the coprocessor takes runs through the row of c.addi
  have looked : ∀ entry, lookupCEntry (seedInstTable feature) coProc (high ++ inst) = .ok entry →
      OnceMap.find (cEncToEntry (seedInstTable feature)) 0b01 = some entry := by
    intro entry found
    simp only [lookupCEntry, short, missing] at found
    split at found
    · cases found
    · split at found
      · split at found
        · cases found
          assumption
        · cases found
      · cases found
  obtain ⟨row, found, fits⟩ := find_short_common feature width integer
    (CImm.ci .addi 0 0).encode 0b01 (rowIs (.rv32i .caddi) .RVCTypeCI 0b01 0) (by decide)
    (by decide)
  rw [show cEnc (CImm.ci .addi 0 0).encode = 0b01 by decide,
    ← find_cenc_instTable feature enabled] at found
  obtain ⟨first, bound, listed⟩ := (cEncToEntry_row _ _ row).mp found
  obtain ⟨func, kind, -, -⟩ := of_decide_eq_true fits
  have silent : plan.access = .none := by
    simp only [compressedPlan, decodeCompressed, hasCompressed, enabled, if_true] at planned
    cases search : lookupCEntry (seedInstTable feature) coProc (high ++ inst) with
    | error fault => simp [search] at planned
    | ok entry =>
      have same := (looked entry search).symm.trans bound
      cases same
      simp only [search, listed, decodeCFormat, kind, func, execFunc, execRV32I,
        Option.some.injEq] at planned
      rw [← planned, RV32I.caddi, RV32I.addi]
      split <;> rfl
  apply accesses
  rw [← means.access, silent]
  rfl

end RevCPU.CompressedDecode
