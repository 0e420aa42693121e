import RevCPU.DecodeBase
import RevCPU.ManualFloat
/-!
Decoding of the F and D instructions. The key leaves out the fmt bits of the fused operations and
the rs2 code of every conversion but those of funct7 1100000 and 1101000; funct3 is a rounding mode
for many rows and is retried as 0 only when it reads 1 or 7.
-/
namespace RevCPU.DecodeFloat
open Feature InstTable IntTables FloatTables Seed Decode DecodeCompressed DecodeBase Manual
open ManualFloat

def floatOpcode (op : FOp) : BitVec 7 :=
  match op.layout with
  | .load _ => 0b0000111
  | .store _ => 0b0100111
  | .fused opcode _ => opcode
  | _ => 0b1010011

def floatFunct3 (op : FOp) (rm : Rm) : BitVec 3 :=
  match op.layout with
  | .load width | .store width => width
  | .fused .. | .arith _ | .convert .. => rm.bits
  | .compare _ funct3 | .move _ funct3 => funct3

-- The funct7 part of the key and the two bits of the conversion code that reach it.
def floatFunct7 (op : FOp) : BitVec 7 :=
  match op.layout with
  | .load _ | .store _ | .fused .. => 0
  | .arith funct7 | .convert funct7 _ | .compare funct7 _ | .move funct7 _ => funct7

def floatCode (op : FOp) : BitVec 5 :=
  match op.layout with
  | .convert funct7 code => if funct7 = 0b1100000 ∨ funct7 = 0b1101000 then code else 0
  | _ => 0

def floatKey (op : FOp) (funct3 : BitVec 3) : BitVec 32 :=
  rowKey (floatOpcode op) funct3 (floatFunct7 op) ||| ((floatCode op).setWidth 32 <<< 30)

theorem opcodeOf_encodeFloat (insn : FInsn) :
    opcodeOf (encodeFloat insn) = (floatOpcode insn.op).setWidth 32 := by
  unfold encodeFloat floatOpcode
  cases insn.op.layout <;> exact opcodeOf_word ..

theorem funct3Of_encodeFloat (insn : FInsn) :
    funct3Of (encodeFloat insn) = (floatFunct3 insn.op insn.rm).setWidth 32 := by
  have tests := opcodeOf_encodeFloat insn
  unfold funct3Of
  rw [inst42_eq _ _ tests, inst65_eq _ _ tests]
  have plain : (encodeFloat insn &&& 0b111000000000000) >>> 12 =
      (floatFunct3 insn.op insn.rm).setWidth 32 := by
    unfold encodeFloat floatFunct3
    cases insn.op.layout <;> exact funct3_word ..
  rw [plain]
  cases insn.op <;> simp [floatOpcode, FOp.layout]

theorem funct7Of_encodeFloat (insn : FInsn) :
    funct7Of (encodeFloat insn) = (floatFunct7 insn.op).setWidth 32 := by
  have tests := opcodeOf_encodeFloat insn
  unfold funct7Of
  rw [inst42_eq _ _ tests, inst65_eq _ _ tests, tests]
  obtain ⟨op, rd, rs1, rs2, rs3, imm, rm⟩ := insn
  cases op <;> simp only [encodeFloat, floatOpcode, floatFunct7, FOp.layout, funct7_word] <;> simp

-- Stage 5 and the conversion code; only the conversions named in the source keep their rs2.
theorem fcvtOpOf_encodeFloat (insn : FInsn) :
    fcvtOpOf (encodeFloat insn) = (floatCode insn.op).setWidth 32 := by
  unfold fcvtOpOf
  rw [opcodeOf_encodeFloat, funct7Of_encodeFloat]
  obtain ⟨op, rd, rs1, rs2, rs3, imm, rm⟩ := insn
  cases op <;> simp [encodeFloat, floatOpcode, floatFunct7, floatCode, FOp.layout, decodeRs2_word]

theorem imm12Of_encodeFloat (insn : FInsn) : imm12Of (encodeFloat insn) = 0 := by
  have tests := opcodeOf_encodeFloat insn
  unfold imm12Of
  rw [inst42_eq _ _ tests, inst65_eq _ _ tests]
  cases insn.op <;> simp [floatOpcode, FOp.layout]

theorem encWith_encodeFloat (insn : FInsn) (funct3 : BitVec 3) :
    encWith (encodeFloat insn) (funct3.setWidth 32) = floatKey insn.op funct3 := by
  unfold encWith floatKey rowKey
  rw [opcodeOf_encodeFloat, funct7Of_encodeFloat, fcvtOpOf_encodeFloat, imm12Of_encodeFloat]
  simp

/-- The full-width rows of the F and D tables; RV64F is loaded on RV32 as well when D is. -/
def floatRows (wide : Bool) : List RevInstEntry :=
  rv32FTable ++ rv64FTable ++ rv32DTable ++ if wide then rv64DTable else []

def floatOpcodes : List (BitVec 8) :=
  [0b0000111, 0b0100111, 0b1000011, 0b1000111, 0b1001011, 0b1001111, 0b1010011]

theorem floatOpcode_listed (op : FOp) : (floatOpcode op).setWidth 8 ∈ floatOpcodes := by
  cases op <;> decide

-- The low byte of a key is the opcode; all other parts are shifted past it.
theorem compressEncoding_low (row : RevInstEntry) :
    (compressEncoding row).setWidth 8 = row.opcode := by
  unfold compressEncoding
  ext i inside
  simp

-- Bits 8 to 10 are the funct3 of the row.
theorem compressEncoding_funct3 (row : RevInstEntry) :
    (compressEncoding row).extractLsb' 8 3 = row.funct3.setWidth 3 := by
  unfold compressEncoding
  apply BitVec.eq_of_getLsbD_eq
  intro i inside
  have funct7 : 8 + i < 11 := by omega
  have imm : 8 + i < 18 := by omega
  have code : 8 + i < 30 := by omega
  have whole : 8 + i < 32 := by omega
  simp [inside, funct7, imm, code, whole]

theorem floatKey_funct3 (op : FOp) (funct3 : BitVec 3) :
    (floatKey op funct3).extractLsb' 8 3 = funct3 := by
  unfold floatKey rowKey
  apply BitVec.eq_of_getLsbD_eq
  intro i inside
  have opcode : (floatOpcode op).getLsbD (8 + i) = false := BitVec.getLsbD_of_ge _ _ (by omega)
  have funct7 : 8 + i < 11 := by omega
  have code : 8 + i < 30 := by omega
  have whole : 8 + i < 32 := by omega
  simp [inside, opcode, funct7, code, whole]

theorem floatKey_low (op : FOp) (funct3 : BitVec 3) :
    (floatKey op funct3).setWidth 8 = (floatOpcode op).setWidth 8 := by
  simp [floatKey, rowKey]

theorem isEnc_floatKey (op : FOp) (funct3 : BitVec 3) (row : RevInstEntry)
    (hit : isEnc (floatKey op funct3) row = true) : row.opcode ∈ floatOpcodes := by
  simp only [isEnc, Bool.and_eq_true, decide_eq_true_eq] at hit
  have opcode : row.opcode = (floatOpcode op).setWidth 8 := by
    rw [← floatKey_low op funct3, ← hit.2, compressEncoding_low]
  exact opcode ▸ floatOpcode_listed op

/-- No full-width row of the extension has a float opcode. -/
def Integer (ext : RevExt) : Prop := ∀ row ∈ ext.table, row.opcode ∉ floatOpcodes

instance (ext : RevExt) : Decidable (Integer ext) :=
  inferInstanceAs (Decidable (∀ row ∈ ext.table, row.opcode ∉ floatOpcodes))

theorem find_integer (op : FOp) (funct3 : BitVec 3) (calls : List (RevExt × Bool))
    (integer : ∀ call ∈ calls, Integer call.1) :
    (calls.flatMap fun call => call.1.table).find? (isEnc (floatKey op funct3)) = none := by
  apply List.find?_eq_none.mpr
  intro row member hit
  obtain ⟨call, called, listed⟩ := List.mem_flatMap.mp member
  exact integer call called row listed (isEnc_floatKey op funct3 row hit)

-- The integer tables around the float ones never answer to a float key.
theorem find_float (feature : RevFeature) (float : isModeEnabled feature .RV_F = true)
    (double : isModeEnabled feature .RV_D = true) (op : FOp) (funct3 : BitVec 3) :
    (seedInstTable feature).instTable.find? (isEnc (floatKey op funct3)) =
      (floatRows (feature.xlen == 64)).find? (isEnc (floatKey op funct3)) := by
  have known : Integer rv32i ∧ Integer rv64i ∧ Integer rv32m ∧ Integer rv64m ∧ Integer rv32a ∧
      Integer rv64a ∧ Integer rv64p := by decide
  have integer := find_integer op funct3
  rw [find_enc_instTable]
  simp only [enabledExts, List.flatMap_append, List.find?_append]
  rw [integer (Seed.when (isModeEnabled feature .RV_I) _), integer (Seed.when _ ((rv32m, _) :: _)),
    integer (Seed.when _ ((rv32a, _) :: _)), integer (Seed.when _ [(rv64p, _)])]
  · simp only [Seed.when, float, double, floatRows, List.find?_append]
    cases feature.xlen == 64 <;> simp [rv32f, rv64f, rv32d, rv64d, Option.or_assoc]
  all_goals
    intro call member
    simp only [Seed.when] at member
    split at member <;> (try split at member) <;> simp at member <;> grind

def retried (op : FOp) (rm : Rm) : Bool :=
  (floatFunct3 op rm == 7 || floatFunct3 op rm == 1) && (floatOpcode op).extractLsb' 5 2 == 0b10

/-- The row that the two look-ups of `DecodeInst` reach. -/
def selectedRow (wide : Bool) (op : FOp) (rm : Rm) : Option RevInstEntry :=
  ((floatRows wide).find? (isEnc (floatKey op (floatFunct3 op rm)))).or
    (if retried op rm then (floatRows wide).find? (isEnc (floatKey op 0)) else none)

theorem retried_iff (insn : FInsn) :
    ((funct3Of (encodeFloat insn) = 7 ∨ funct3Of (encodeFloat insn) = 1) ∧
      inst65 (encodeFloat insn) = 0b10) ↔ retried insn.op insn.rm = true := by
  rw [funct3Of_encodeFloat, inst65_eq _ _ (opcodeOf_encodeFloat insn)]
  unfold retried
  generalize floatFunct3 insn.op insn.rm = funct3
  generalize (floatOpcode insn.op).extractLsb' 5 2 = group
  revert funct3 group
  decide

theorem lookupRow_encodeFloat (feature : RevFeature)
    (float : isModeEnabled feature .RV_F = true) (double : isModeEnabled feature .RV_D = true)
    (insn : FInsn) :
    lookupRow (seedInstTable feature) (encodeFloat insn) =
      selectedRow (feature.xlen == 64) insn.op insn.rm := by
  have zero : encWith (encodeFloat insn) 0 = floatKey insn.op 0 := encWith_encodeFloat insn 0
  unfold lookupRow selectedRow
  simp only [retried_iff]
  rw [funct3Of_encodeFloat, encWith_encodeFloat, zero, find_float feature float double,
    find_float feature float double]

/-- Instructions whose key is taken by an earlier row of another mnemonic. -/
def shadowed : FOp → Bool
  | .fmaddd | .fmsubd | .fnmsubd | .fnmaddd
  | .fcvtwud | .fcvtld | .fcvtlud | .fcvtdwu | .fcvtdl | .fcvtdlu => true
  | _ => false

/-- The instruction is not shadowed and its rounding mode, if any, is RNE, RTZ or dynamic. -/
def reachable (op : FOp) (rm : Rm) : Bool :=
  !shadowed op && (!op.hasRm || rm == .rne || rm == .rtz || rm == .dyn)

def allFOps : List FOp :=
  [.flw, .fsw, .fmadds, .fmsubs, .fnmsubs, .fnmadds, .fadds, .fsubs, .fmuls, .fdivs, .fsqrts,
    .fsgnjs, .fsgnjns, .fsgnjxs, .fmins, .fmaxs, .fcvtws, .fcvtwus, .fmvxw, .feqs, .flts, .fles,
    .fclasss, .fcvtsw, .fcvtswu, .fmvwx, .fcvtls, .fcvtlus, .fcvtsl, .fcvtslu, .fld, .fsd,
    .fmaddd, .fmsubd, .fnmsubd, .fnmaddd, .faddd, .fsubd, .fmuld, .fdivd, .fsqrtd, .fsgnjd,
    .fsgnjnd, .fsgnjxd, .fmind, .fmaxd, .fcvtsd, .fcvtds, .feqd, .fltd, .fled, .fclassd, .fcvtwd,
    .fcvtwud, .fcvtdw, .fcvtdwu, .fcvtld, .fcvtlud, .fmvxd, .fcvtdl, .fcvtdlu, .fmvdx]

theorem mem_allFOps (op : FOp) : op ∈ allFOps := by cases op <;> decide

theorem mem_floatRows {wide : Bool} {row : RevInstEntry} (member : row ∈ floatRows wide) :
    row ∈ floatRows true := by
  cases wide with
  | true => exact member
  | false =>
    rw [floatRows] at member ⊢
    exact List.mem_append_left _ (by simpa using member)

-- The rows with these values of funct3 are loads, stores and comparisons.
theorem unrounded_rows :
    ∀ row ∈ (floatRows true).filter fun row => row.funct3.setWidth 3 ∈ [(2 : BitVec 3), 3, 4],
      ∀ op ∈ allFOps, op.hasRm = true →
        ∀ rm ∈ [Rm.rdn, .rup, .rmm], isEnc (floatKey op rm.bits) row = false := by
  decide +kernel

theorem selectedRow_unrounded (wide : Bool) {op : FOp} {rm : Rm} (rounded : op.hasRm = true)
    (other : rm = .rdn ∨ rm = .rup ∨ rm = .rmm) : selectedRow wide op rm = none := by
  have bits : floatFunct3 op rm = rm.bits := by
    unfold FOp.hasRm at rounded
    unfold floatFunct3
    cases layout : op.layout <;> rw [layout] at rounded <;> first | rfl | cases rounded
  have mode : rm ∈ [Rm.rdn, .rup, .rmm] := by
    rcases other with rfl | rfl | rfl <;> decide
  have never : (floatRows wide).find? (isEnc (floatKey op (floatFunct3 op rm))) = none := by
    apply List.find?_eq_none.mpr
    intro row member hit
    rw [bits] at hit
    have key := hit
    simp only [isEnc, Bool.and_eq_true, decide_eq_true_eq] at key
    have funct3 : row.funct3.setWidth 3 = rm.bits := by
      rw [← compressEncoding_funct3, key.2, floatKey_funct3]
    have kept : row ∈ (floatRows true).filter fun row => row.funct3.setWidth 3 ∈ [(2 : BitVec 3), 3, 4] := by
      refine List.mem_filter.mpr ⟨mem_floatRows member, decide_eq_true ?_⟩
      rw [funct3]
      rcases other with rfl | rfl | rfl <;> decide
    exact absurd hit (Bool.eq_false_iff.mp (unrounded_rows row kept op (mem_allFOps op) rounded rm mode))
  have once : retried op rm = false := by
    rw [retried, bits]
    rcases other with rfl | rfl | rfl <;> rfl
  rw [selectedRow, never, once]
  rfl

theorem floatFunct3_plain {op : FOp} (plain : op.hasRm = false) (rm : Rm) :
    floatFunct3 op rm = floatFunct3 op .rne := by
  cases op <;> first | rfl | cases plain

theorem selectedRow_plain (wide : Bool) {op : FOp} (plain : op.hasRm = false) (rm : Rm) :
    selectedRow wide op rm = selectedRow wide op .rne := by
  rw [selectedRow, selectedRow, retried, retried, floatFunct3_plain plain rm]

/-- The rounding modes that make a difference. -/
def roundings (op : FOp) : List Rm := if op.hasRm then [.rne, .rtz, .dyn] else [.rne]

-- Every pair of an instruction and such a rounding mode against the rows of the four tables.
theorem selectedRow_checked : ∀ op ∈ allFOps, ∀ rm ∈ roundings op,
    decide ((selectedRow true op rm).map extractMnemonic = some op.mnemonic.toList) =
      reachable op rm := by
  decide +kernel

/-- The rows of RV64D, which come last, do not answer to the key, or an earlier row does. -/
def settledKey (key : BitVec 32) : Bool :=
  (rv64DTable.all fun row => !isEnc key row) || ((floatRows false).find? (isEnc key)).isSome

theorem find_settled {key : BitVec 32} (settled : settledKey key = true) :
    (floatRows false).find? (isEnc key) = (floatRows true).find? (isEnc key) := by
  have rows : floatRows true = floatRows false ++ rv64DTable := by
    simp [floatRows]
  rw [rows, List.find?_append]
  rw [settledKey, Bool.or_eq_true] at settled
  rcases settled with unanswered | first
  · have last : rv64DTable.find? (isEnc key) = none := by
      simpa using unanswered
    rw [last, Option.or_none]
  · have ⟨row, found⟩ := Option.isSome_iff_exists.mp first
    rw [found]
    rfl

/-- Both look-ups are settled, or the first one has an answer. -/
def settled (op : FOp) (rm : Rm) : Bool :=
  settledKey (floatKey op (floatFunct3 op rm)) &&
    (!retried op rm || settledKey (floatKey op 0) ||
      ((floatRows false).find? (isEnc (floatKey op (floatFunct3 op rm)))).isSome)

theorem settled_narrow :
    ∀ op ∈ allFOps, op.needs64 = false → ∀ rm ∈ roundings op, settled op rm = true := by
  decide +kernel

theorem selectedRow_narrow {op : FOp} {rm : Rm} (known : settled op rm = true) :
    selectedRow false op rm = selectedRow true op rm := by
  rw [settled, Bool.and_eq_true, Bool.or_eq_true, Bool.or_eq_true] at known
  rcases known with ⟨first, (once | second) | found⟩
  · rw [Bool.not_eq_true'] at once
    rw [selectedRow, selectedRow, find_settled first, once]
    rfl
  · rw [selectedRow, selectedRow, find_settled first, find_settled second]
  · have ⟨row, answer⟩ := Option.isSome_iff_exists.mp found
    rw [selectedRow, selectedRow, ← find_settled first, answer]
    rfl

theorem selectedRow_mnemonic (wide : Bool) (op : FOp) (rm : Rm)
    (legal : op.needs64 = true → wide = true) :
    (selectedRow wide op rm).map extractMnemonic = some op.mnemonic.toList ↔
      reachable op rm = true := by
  have checked (rm : Rm) (member : rm ∈ roundings op) :
      (selectedRow wide op rm).map extractMnemonic = some op.mnemonic.toList ↔ reachable op rm = true := by
    have row : selectedRow wide op rm = selectedRow true op rm := by
      cases wide with
      | true => rfl
      | false =>
        have short : op.needs64 = false := by
          by_contra needs
          exact absurd (legal (by simpa using needs)) (by decide)
        exact selectedRow_narrow (settled_narrow op (mem_allFOps op) short rm member)
    rw [row, ← selectedRow_checked op (mem_allFOps op) rm member, decide_eq_true_eq]
  cases rounded : op.hasRm with
  | false =>
    have same : reachable op rm = reachable op .rne := by
      simp [reachable, rounded]
    rw [selectedRow_plain wide rounded, same]
    exact checked .rne (by simp [roundings, rounded])
  | true =>
    by_cases other : rm = .rdn ∨ rm = .rup ∨ rm = .rmm
    · rw [selectedRow_unrounded wide rounded other]
      rcases other with rfl | rfl | rfl <;> simp [reachable, rounded]
    · refine checked rm ?_
      rw [roundings, if_pos rounded]
      cases rm <;> simp at other ⊢

theorem selectedRow_format (wide : Bool) (op : FOp) (rm : Rm) (row : RevInstEntry)
    (selected : selectedRow wide op rm = some row) (junk : RevInst) (inst : BitVec 32) :
    ∃ decoded, decodeFormat junk inst row = .ok decoded := by
  have formats : ∀ row ∈ floatRows true, row.format = .RVTypeR ∨ row.format = .RVTypeI ∨
      row.format = .RVTypeS ∨ row.format = .RVTypeR4 := by decide
  have member : row ∈ floatRows wide := by
    rcases Option.or_eq_some_iff.mp selected with first | ⟨-, second⟩
    · exact List.mem_of_find?_eq_some first
    · split at second
      · exact List.mem_of_find?_eq_some second
      · cases second
  unfold decodeFormat
  rcases formats row (mem_floatRows member) with format | format | format | format <;> rw [format] <;>
    exact ⟨_, rfl⟩

/-- `DecodeInst` on the instruction's word selects the row with its mnemonic. -/
def Selects (feature : RevFeature) (coProc : Option (BitVec 32 → Bool)) (junk : RevInst)
    (insn : FInsn) : Prop :=
  ∃ decoded row,
    decodeInst feature (seedInstTable feature) coProc none junk (encodeFloat insn) = .ok decoded ∧
    (seedInstTable feature).instTable[decoded.entry]? = some row ∧
    extractMnemonic row = insn.op.mnemonic.toList

-- The row a coprocessor's no-op is decoded through is ADDI's, under every model.
theorem nop_row_mnemonic (feature : RevFeature) (row : RevInstEntry)
    (found : (seedInstTable feature).instTable.find? (isEnc 0b0010011) = some row) :
    extractMnemonic row = "addi".toList := by
  rw [find_enc_instTable] at found
  obtain ⟨call, called, listed⟩ := List.mem_flatMap.mp (List.mem_of_find?_eq_some found)
  have named := enabledExts_forall feature
    (fun ext => ∀ row ∈ ext.table, compressEncoding row = 0b0010011 →
      extractMnemonic row = "addi".toList) (by decide) call called
  have hit := List.find?_some found
  simp only [isEnc, Bool.and_eq_true, decide_eq_true_eq] at hit
  exact named row listed hit.2

theorem mnemonic_ne_addi (op : FOp) : op.mnemonic.toList ≠ "addi".toList := by
  cases op <;> decide

theorem selects_iff (feature : RevFeature) (float : isModeEnabled feature .RV_F = true)
    (double : isModeEnabled feature .RV_D = true) (coProc : Option (BitVec 32 → Bool))
    (junk : RevInst) (insn : FInsn) (legal : insn.op.needs64 = true → feature.xlen = 64) :
    Selects feature coProc junk insn ↔ reachable insn.op insn.rm = true := by
  have wide : opcodeOf (encodeFloat insn) &&& 0b11 = 0b11 := by
    rw [opcodeOf_encodeFloat]
    cases insn.op <;> decide
  have rows := lookupRow_encodeFloat feature float double insn
  rw [← selectedRow_mnemonic (feature.xlen == 64) insn.op insn.rm (by simpa using legal), ← rows]
  unfold Selects
  rw [decodeInst_wide feature _ coProc junk _ wide]
  cases selected : lookupRow (seedInstTable feature) (encodeFloat insn) with
  | none =>
    constructor
    · rintro ⟨decoded, row, ran, listed, name⟩
      obtain ⟨row', found, listed'⟩ := decodeWide_absent _ coProc junk _ decoded selected ran
      obtain rfl : row = row' := Option.some.inj (listed.symm.trans listed')
      exact absurd (name.symm.trans (nop_row_mnemonic feature row found)) (mnemonic_ne_addi _)
    · intro none
      cases none
  | some row =>
    obtain ⟨inst, formatted⟩ := selectedRow_format _ _ _ row (rows.symm.trans selected) junk
      (encodeFloat insn)
    obtain ⟨entry, listed, ran⟩ := decodeWide_row _ coProc junk _ row inst selected formatted
    simp only [Option.map_some, Option.some.injEq]
    constructor
    · rintro ⟨decoded, row', ran', listed', name⟩
      cases ran.symm.trans ran'
      obtain rfl : row = row' := Option.some.inj (listed.symm.trans listed')
      exact name
    · intro name
      exact ⟨_, row, ran, listed, name⟩

/-- Different full-width rows of `InstTable` have different keys. -/
def DistinctKeys (tables : Tables) : Prop :=
  ∀ (left right : Nat) (row row' : RevInstEntry), tables.instTable[left]? = some row →
    tables.instTable[right]? = some row' → row.compressed = false → row'.compressed = false →
    compressEncoding row = compressEncoding row' → left = right

theorem not_distinctKeys (feature : RevFeature) (float : isModeEnabled feature .RV_F = true)
    (double : isModeEnabled feature .RV_D = true) : ¬ DistinctKeys (seedInstTable feature) := by
  intro distinct
  have single : rv32FTable[2] ∈ (seedInstTable feature).instTable := by
    rw [seedInstTable_instTable]
    refine List.mem_flatMap.mpr ⟨(rv32f, false), ?_, ?_⟩
    · simp [enabledExts, Seed.when, float, double]
    · exact List.mem_append_left _ (List.getElem_mem (l := rv32FTable) (by decide))
  have fused : rv32DTable[2] ∈ (seedInstTable feature).instTable := by
    rw [seedInstTable_instTable]
    refine List.mem_flatMap.mpr ⟨(rv32d, false), ?_, ?_⟩
    · simp [enabledExts, Seed.when, double]
    · exact List.mem_append_left _ (List.getElem_mem (l := rv32DTable) (by decide))
  obtain ⟨left, here⟩ := List.mem_iff_getElem?.mp single
  obtain ⟨right, there⟩ := List.mem_iff_getElem?.mp fused
  have same := distinct left right _ _ here there (by decide) (by decide) (by decide)
  rw [same] at here
  exact absurd (Option.some.inj (here.symm.trans there)) (by decide)

/-- With F and D the keys of the table collide under every model, and decode selects the right
row exactly for the instructions that are not shadowed, in the rounding modes RNE, RTZ and dynamic
where there is one. -/
theorem float_decode_iff (feature : RevFeature) (float : isModeEnabled feature .RV_F = true)
    (double : isModeEnabled feature .RV_D = true) :
    ¬ DistinctKeys (seedInstTable feature) ∧
      ∀ coProc junk insn, (insn.op.needs64 = true → feature.xlen = 64) →
        (Selects feature coProc junk insn ↔ reachable insn.op insn.rm = true) :=
  ⟨not_distinctKeys feature float double, selects_iff feature float double⟩

theorem float_decode_iff_rv64g :
    Selects { features := 62, xlen := 64, minCost := 1, maxCost := 1 } none default
      { op := .fcvtlus, rd := 10, rs1 := 1, rs2 := 0, rs3 := 0, imm := 0, rm := .dyn } :=
  ((float_decode_iff { features := 62, xlen := 64, minCost := 1, maxCost := 1 } (by decide)
    (by decide)).2 none default _ (fun _ => rfl)).mpr (by decide)

-- fmadd.d and fadd.s with round-down on RV64G: one is decoded as fmadd.s, one is refused.
theorem float_decode_rv64g_fails :
    ∃ feature, parseMachineModel "RV64G".toList 1 1 = some feature ∧
      ¬ DistinctKeys (seedInstTable feature) ∧
      ¬ Selects feature none default
        { op := .fmaddd, rd := 1, rs1 := 2, rs2 := 3, rs3 := 4, imm := 0, rm := .rne } ∧
      ¬ Selects feature none default
        { op := .fadds, rd := 1, rs1 := 2, rs2 := 3, rs3 := 0, imm := 0, rm := .rdn } := by
  refine ⟨{ features := 62, xlen := 64, minCost := 1, maxCost := 1 }, by decide,
    not_distinctKeys _ (by decide) (by decide), ?_, ?_⟩
  · rw [selects_iff _ (by decide) (by decide) _ _ _ (fun _ => rfl)]
    decide
  · rw [selects_iff _ (by decide) (by decide) _ _ _ (fun _ => rfl)]
    decide

end RevCPU.DecodeFloat
