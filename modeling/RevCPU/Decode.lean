import RevCPU.Seed
/-!
The 32-bit half of instruction decode: the DECODE_* macros, `DecodeRInst` .. `DecodeR4Inst` and the
encoding key of `DecodeInst`. A local `RevInst DInst;` starts with indeterminate contents; the
decoders therefore update a value `junk` and theorems hold for every `junk`.
-/
namespace RevCPU.Decode
open Feature InstTable Seed

def decodeRd (inst : BitVec 32) : BitVec 32 := (inst >>> 7) &&& 0b11111

def decodeRs1 (inst : BitVec 32) : BitVec 32 := (inst >>> 15) &&& 0b11111

def decodeRs2 (inst : BitVec 32) : BitVec 32 := (inst >>> 20) &&& 0b11111

def decodeRs3 (inst : BitVec 32) : BitVec 32 := (inst >>> 27) &&& 0b11111

def decodeImm12 (inst : BitVec 32) : BitVec 32 := (inst >>> 20) &&& 0b111111111111

def decodeImm20 (inst : BitVec 32) : BitVec 32 := (inst >>> 12) &&& 0b11111111111111111111

def decodeFunct7 (inst : BitVec 32) : BitVec 32 := (inst >>> 25) &&& 0b1111111

def decodeFunct2 (inst : BitVec 32) : BitVec 32 := (inst >>> 25) &&& 0b11

def decodeFunct3 (inst : BitVec 32) : BitVec 32 := (inst >>> 12) &&& 0b111

def decodeRl (inst : BitVec 32) : BitVec 32 := (inst >>> 25) &&& 0b1

def decodeAq (inst : BitVec 32) : BitVec 32 := (inst >>> 26) &&& 0b1

/-- A register field is read only when the row gives its class; it is 0 otherwise. -/
def regField (cls : RevRegClass) (field : BitVec 32) : BitVec 8 :=
  if cls = .RegUNKNOWN then 0 else field.setWidth 8

def isFloat (entry : RevInstEntry) : Bool :=
  entry.rdClass = .RegFLOAT || entry.rs1Class = .RegFLOAT || entry.rs2Class = .RegFLOAT ||
    entry.rs3Class = .RegFLOAT

-- Stores every full-width decoder makes before its own fields.
def startInst (junk : RevInst) (entry : RevInstEntry) : RevInst :=
  { junk with
    opcode := entry.opcode, funct3 := entry.funct3, funct2 := 0, funct7 := 0
    rd := 0, rs1 := 0, rs2 := 0, rs3 := 0, imm := 0, fmt := 0, rm := 0
    instSize := 4, compressed := false }

def floatRm (entry : RevInstEntry) (inst : BitVec 32) : BitVec 8 :=
  if isFloat entry then (decodeFunct3 inst).setWidth 8 else 0

def decodeRInst (junk : RevInst) (inst : BitVec 32) (entry : RevInstEntry) : RevInst :=
  let atomic := entry.opcode = 0b0101111
  { startInst junk entry with
    funct7 := entry.funct7
    rd := regField entry.rdClass (decodeRd inst)
    rs1 := regField entry.rs1Class (decodeRs1 inst)
    rs2 := regField entry.rs2Class (decodeRs2 inst)
    imm := if entry.imm = .FImm ∧ entry.rs2Class = .RegUNKNOWN
      then decodeImm12 inst &&& 0b011111 else 0
    rl := if atomic then (decodeRl inst).setWidth 8 else junk.rl
    aq := if atomic then (decodeAq inst).setWidth 8 else junk.aq
    rm := floatRm entry inst }

def decodeIInst (junk : RevInst) (inst : BitVec 32) (entry : RevInstEntry) : RevInst :=
  { startInst junk entry with
    rd := regField entry.rdClass (decodeRd inst)
    rs1 := regField entry.rs1Class (decodeRs1 inst)
    imm := decodeImm12 inst
    rm := floatRm entry inst }

def decodeSInst (junk : RevInst) (inst : BitVec 32) (entry : RevInstEntry) : RevInst :=
  { startInst junk entry with
    rs1 := regField entry.rs1Class (decodeRs1 inst)
    rs2 := regField entry.rs2Class (decodeRs2 inst)
    imm := decodeRd inst ||| (decodeFunct7 inst <<< 5)
    rm := floatRm entry inst }

def decodeUInst (junk : RevInst) (inst : BitVec 32) (entry : RevInstEntry) : RevInst :=
  { startInst junk entry with
    funct3 := 0
    rd := regField entry.rdClass (decodeRd inst)
    imm := decodeImm20 inst }

def decodeBInst (junk : RevInst) (inst : BitVec 32) (entry : RevInstEntry) : RevInst :=
  { startInst junk entry with
    rs1 := regField entry.rs1Class (decodeRs1 inst)
    rs2 := regField entry.rs2Class (decodeRs2 inst)
    imm := ((inst <<< 4) &&& 0b100000000000) ||| ((inst &&& 0b111100000000) >>> 7) |||
      ((inst >>> 20) &&& 0b11111100000) ||| ((inst >>> 19) &&& 0b1000000000000) }

def decodeJInst (junk : RevInst) (inst : BitVec 32) (entry : RevInstEntry) : RevInst :=
  { startInst junk entry with
    rd := regField entry.rdClass (decodeRd inst)
    imm := ((inst >>> 20) &&& 0b11111111110) ||| (inst &&& 0b11111111000000000000) |||
      ((inst >>> 9) &&& 0b100000000000) ||| ((inst >>> 11) &&& 0b100000000000000000000) }

def decodeR4Inst (junk : RevInst) (inst : BitVec 32) (entry : RevInstEntry) : RevInst :=
  { startInst junk entry with
    funct2 := (decodeFunct2 inst).setWidth 8
    funct7 := entry.funct7
    rd := regField entry.rdClass (decodeRd inst)
    rs1 := regField entry.rs1Class (decodeRs1 inst)
    rs2 := regField entry.rs2Class (decodeRs2 inst)
    rs3 := regField entry.rs3Class (decodeRs3 inst) }

-- Stages 2 to 6 of DecodeInst: the lookup key, field by field.
def opcodeOf (inst : BitVec 32) : BitVec 32 := inst &&& 0b1111111

def inst42 (inst : BitVec 32) : BitVec 32 := (opcodeOf inst &&& 0b11100) >>> 2

def inst65 (inst : BitVec 32) : BitVec 32 := (opcodeOf inst &&& 0b1100000) >>> 5

def funct3Of (inst : BitVec 32) : BitVec 32 :=
  if inst42 inst = 0b011 ∧ inst65 inst = 0b11 then 0
  else if inst42 inst = 0b101 ∧ inst65 inst = 0b00 then 0
  else if inst42 inst = 0b101 ∧ inst65 inst = 0b01 then 0
  else (inst &&& 0b111000000000000) >>> 12

def funct7Of (inst : BitVec 32) : BitVec 32 :=
  let field := (inst >>> 25) &&& 0b1111111
  if inst65 inst = 0b01 then
    if inst42 inst = 0b011 ∨ inst42 inst = 0b100 ∨ inst42 inst = 0b110 then
      -- Atomics carry aq and rl in the low two bits.
      if opcodeOf inst = 0b0101111 then (field &&& 0b01111100) >>> 2 else field
    else 0
  else if inst65 inst = 0b10 ∧ inst42 inst = 0b100 then field
  else if inst65 inst = 0b00 ∧ inst42 inst = 0b110 ∧ funct3Of inst ≠ 0 then field
  else if inst65 inst = 0b00 ∧ inst42 inst = 0b100 ∧ funct3Of inst = 0b101 then
    (inst >>> 26) &&& 0b1111111
  else 0

def fcvtOpOf (inst : BitVec 32) : BitVec 32 :=
  if opcodeOf inst = 0b1010011 ∧ (funct7Of inst = 0b1100000 ∨ funct7Of inst = 0b1101000) then
    decodeRs2 inst
  else 0

def imm12Of (inst : BitVec 32) : BitVec 32 :=
  if inst42 inst = 0b100 ∧ inst65 inst = 0b11 ∧ funct3Of inst = 0 then
    (inst >>> 19) &&& 0b111111111111
  else 0

def encWith (inst funct3 : BitVec 32) : BitVec 32 :=
  opcodeOf inst ||| (funct3 <<< 8) ||| (funct7Of inst <<< 11) ||| (imm12Of inst <<< 18) |||
    (fcvtOpOf inst <<< 30)

inductive DecodeFault where
  | zeroInst
  | notCompressed
  | noEncoding (enc : BitVec 32)
  | noEntry (entry : Nat)
  | badFormat
deriving DecidableEq, Repr

/-- What a decode leaves in the register file and returns. -/
structure Decoded where
  inst : RevInst
  entry : Nat
  cost : BitVec 32

/-- A word the tables do not know goes to the coprocessor; when it takes the word, decode
continues with ADDI x0, x0, 0 in its place. -/
def coProcNop (tables : Tables) (coProc : Option (BitVec 32 → Bool)) (inst enc : BitVec 32) :
    Except DecodeFault (BitVec 32 × Nat) :=
  match coProc with
  | none => .error (.noEncoding enc)
  | some issueInst =>
    if issueInst inst then
      match OnceMap.find (encToEntry tables) 0b0010011 with
      | some entry => .ok (0, entry)
      | none => .error (.noEncoding 0b0010011)
    else .error (.noEncoding enc)

/-- Stage 7: the row for a word. Funct3 doubles as rounding mode, hence the second look-up. -/
def lookupEntry (tables : Tables) (coProc : Option (BitVec 32 → Bool)) (inst : BitVec 32) :
    Except DecodeFault (BitVec 32 × Nat) :=
  match OnceMap.find (encToEntry tables) (encWith inst (funct3Of inst)) with
  | some entry => .ok (inst, entry)
  | none =>
    if (funct3Of inst = 7 ∨ funct3Of inst = 1) ∧ inst65 inst = 0b10 then
      match OnceMap.find (encToEntry tables) (encWith inst 0) with
      | some entry => .ok (inst, entry)
      | none => coProcNop tables coProc inst (encWith inst 0)
    else coProcNop tables coProc inst (encWith inst (funct3Of inst))

def decodeFormat (junk : RevInst) (inst : BitVec 32) (entry : RevInstEntry) :
    Except DecodeFault RevInst :=
  match entry.format with
  | .RVTypeR => .ok (decodeRInst junk inst entry)
  | .RVTypeI => .ok (decodeIInst junk inst entry)
  | .RVTypeS => .ok (decodeSInst junk inst entry)
  | .RVTypeU => .ok (decodeUInst junk inst entry)
  | .RVTypeB => .ok (decodeBInst junk inst entry)
  | .RVTypeJ => .ok (decodeJInst junk inst entry)
  | .RVTypeR4 => .ok (decodeR4Inst junk inst entry)
  | _ => .error .badFormat

-- The retry of `DecodeInst` for an entry past the end of InstTable is unreachable: entries come
-- from the position map of that table (decodeWide_entry).
def decodeWide (tables : Tables) (coProc : Option (BitVec 32 → Bool)) (junk : RevInst)
    (inst : BitVec 32) : Except DecodeFault Decoded :=
  match lookupEntry tables coProc inst with
  | .error fault => .error fault
  | .ok (word, entry) =>
    match tables.instTable[entry]? with
    | none => .error (.noEntry entry)
    | some row =>
      match decodeFormat junk word row with
      | .error fault => .error fault
      | .ok decoded => .ok { inst := decoded, entry := entry, cost := row.cost }

theorem decodeWide_found (tables : Tables) (coProc : Option (BitVec 32 → Bool)) (junk : RevInst)
    (inst : BitVec 32) (row : RevInstEntry) (decoded : RevInst)
    (found : tables.instTable.find? (isEnc (encWith inst (funct3Of inst))) = some row)
    (formatted : decodeFormat junk inst row = .ok decoded) :
    ∃ entry, OnceMap.find (encToEntry tables) (encWith inst (funct3Of inst)) = some entry ∧
      tables.instTable[entry]? = some row ∧
      decodeWide tables coProc junk inst =
        .ok { inst := decoded, entry := entry, cost := row.cost } := by
  obtain ⟨entry, bound, listed⟩ := (encToEntry_row tables _ row).mp found
  refine ⟨entry, bound, listed, ?_⟩
  simp [decodeWide, lookupEntry, bound, listed, formatted]

/-- The row both look-ups of stage 7 lead to, the second only for funct3 7 or 1. -/
def lookupRow (tables : Tables) (inst : BitVec 32) : Option RevInstEntry :=
  (tables.instTable.find? (isEnc (encWith inst (funct3Of inst)))).or
    (if (funct3Of inst = 7 ∨ funct3Of inst = 1) ∧ inst65 inst = 0b10
      then tables.instTable.find? (isEnc (encWith inst 0)) else none)

theorem lookupEntry_row (tables : Tables) (coProc : Option (BitVec 32 → Bool)) (inst : BitVec 32)
    (row : RevInstEntry) (found : lookupRow tables inst = some row) :
    ∃ entry, lookupEntry tables coProc inst = .ok (inst, entry) ∧
      tables.instTable[entry]? = some row := by
  rcases Option.or_eq_some_iff.mp found with first | ⟨absent, second⟩
  · obtain ⟨entry, bound, listed⟩ := (encToEntry_row tables _ row).mp first
    exact ⟨entry, by simp [lookupEntry, bound], listed⟩
  · split at second
    · obtain ⟨entry, bound, listed⟩ := (encToEntry_row tables _ row).mp second
      exact ⟨entry, by simp_all [lookupEntry, encToEntry_none tables _ absent], listed⟩
    · cases second

theorem lookupEntry_absent (tables : Tables) (coProc : Option (BitVec 32 → Bool))
    (inst : BitVec 32) (absent : lookupRow tables inst = none) :
    ∃ enc, lookupEntry tables coProc inst = coProcNop tables coProc inst enc := by
  obtain ⟨first, second⟩ := Option.or_eq_none_iff.mp absent
  simp only [lookupEntry, encToEntry_none tables _ first]
  split at second
  · rename_i retry
    exact ⟨encWith inst 0, by simp only [if_pos retry, encToEntry_none tables _ second]⟩
  · rename_i retry
    exact ⟨_, if_neg retry⟩

theorem decodeWide_row (tables : Tables) (coProc : Option (BitVec 32 → Bool)) (junk : RevInst)
    (inst : BitVec 32) (row : RevInstEntry) (decoded : RevInst)
    (found : lookupRow tables inst = some row)
    (formatted : decodeFormat junk inst row = .ok decoded) :
    ∃ entry, tables.instTable[entry]? = some row ∧ decodeWide tables coProc junk inst =
      .ok { inst := decoded, entry := entry, cost := row.cost } := by
  obtain ⟨entry, looked, listed⟩ := lookupEntry_row tables coProc inst row found
  exact ⟨entry, listed, by simp [decodeWide, looked, listed, formatted]⟩

theorem coProcNop_sound (tables : Tables) (coProc : Option (BitVec 32 → Bool))
    (inst enc word : BitVec 32) (entry : Nat)
    (taken : coProcNop tables coProc inst enc = .ok (word, entry)) :
    OnceMap.find (encToEntry tables) 0b0010011 = some entry := by
  unfold coProcNop at taken
  split at taken
  · cases taken
  · split at taken
    · split at taken
      · cases taken
        assumption
      · cases taken
    · cases taken

theorem lookupEntry_sound (tables : Tables) (coProc : Option (BitVec 32 → Bool))
    (inst word : BitVec 32) (entry : Nat)
    (found : lookupEntry tables coProc inst = .ok (word, entry)) :
    ∃ key, OnceMap.find (encToEntry tables) key = some entry := by
  unfold lookupEntry at found
  split at found
  · cases found
    exact ⟨_, ‹_›⟩
  · split at found
    · split at found
      · cases found
        exact ⟨_, ‹_›⟩
      · exact ⟨_, coProcNop_sound _ _ _ _ _ _ found⟩
    · exact ⟨_, coProcNop_sound _ _ _ _ _ _ found⟩

theorem decodeFormat_compressed (junk : RevInst) (inst : BitVec 32) (row : RevInstEntry)
    (decoded : RevInst) (formatted : decodeFormat junk inst row = .ok decoded) :
    decoded.compressed = false := by
  unfold decodeFormat at formatted
  split at formatted <;> cases formatted <;> rfl

theorem decodeWide_cases (tables : Tables) (coProc : Option (BitVec 32 → Bool))
    (junk : RevInst) (inst : BitVec 32) (result : Decoded)
    (decoded : decodeWide tables coProc junk inst = .ok result) :
    ∃ word row, lookupEntry tables coProc inst = .ok (word, result.entry) ∧
      tables.instTable[result.entry]? = some row ∧ result.cost = row.cost ∧
      decodeFormat junk word row = .ok result.inst := by
  unfold decodeWide at decoded
  split at decoded
  · cases decoded
  · split at decoded
    · cases decoded
    · split at decoded
      · cases decoded
      · cases decoded
        exact ⟨_, _, ‹_›, ‹_›, rfl, ‹_›⟩

theorem decodeWide_entry (tables : Tables) (coProc : Option (BitVec 32 → Bool))
    (junk : RevInst) (inst : BitVec 32) (result : Decoded)
    (decoded : decodeWide tables coProc junk inst = .ok result) :
    ∃ row, tables.instTable[result.entry]? = some row ∧ result.cost = row.cost ∧
      result.inst.compressed = row.compressed := by
  obtain ⟨word, row, found, listed, cost, formatted⟩ :=
    decodeWide_cases tables coProc junk inst result decoded
  obtain ⟨key, bound⟩ := lookupEntry_sound tables coProc inst word _ found
  obtain ⟨row', listed', flag⟩ := encToEntry_sound tables key _ bound
  obtain rfl : row = row' := Option.some.inj (listed.symm.trans listed')
  exact ⟨row, listed, cost, by rw [decodeFormat_compressed junk word row _ formatted, flag]⟩

-- What is not in the tables is either refused or decoded through the row of ADDI's key.
theorem decodeWide_absent (tables : Tables) (coProc : Option (BitVec 32 → Bool))
    (junk : RevInst) (inst : BitVec 32) (result : Decoded)
    (absent : lookupRow tables inst = none)
    (decoded : decodeWide tables coProc junk inst = .ok result) :
    ∃ row, tables.instTable.find? (isEnc 0b0010011) = some row ∧
      tables.instTable[result.entry]? = some row := by
  obtain ⟨word, row, found, listed, -⟩ := decodeWide_cases tables coProc junk inst result decoded
  obtain ⟨enc, looked⟩ := lookupEntry_absent tables coProc inst absent
  have bound := coProcNop_sound tables coProc inst enc word _ (looked.symm.trans found)
  exact ⟨row, (encToEntry_row tables _ row).mpr ⟨_, bound, listed⟩, listed⟩

end RevCPU.Decode
