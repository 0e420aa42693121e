import RevCPU.Atomic
import RevCPU.DecodeBase
import RevCPU.Tlb
/-!
The AMOs of the A extension from the word to memory: encoding, decoding and execution against the
read-modify-write the manual gives. AMOMem computes in the rd cell, so what is left there is the new
value, and an rd that is also the source has lost the operand by the time it is used.
-/
namespace RevCPU.AmoSemantics
open Feature InstTable IntTables Seed Decode DecodeCompressed DecodeBase Manual RegFile Mem
open MemRefine LoadStore Atomic

inductive AmoWidth where
  | w | d
deriving DecidableEq, Repr

structure Amo where
  op : AmoOp
  width : AmoWidth
  aq : Bool
  rl : Bool
  rd : BitVec 5
  rs1 : BitVec 5
  rs2 : BitVec 5
deriving DecidableEq, Repr

def funct5 : AmoOp → BitVec 5
  | .add => 0b00000
  | .swap => 0b00001
  | .xor => 0b00100
  | .or => 0b01000
  | .and => 0b01100
  | .min => 0b10000
  | .max => 0b10100
  | .minu => 0b11000
  | .maxu => 0b11100

def AmoWidth.funct3 : AmoWidth → BitVec 3
  | .w => 0b010
  | .d => 0b011

def Amo.encode (insn : Amo) : BitVec 32 :=
  word (funct5 insn.op ++ BitVec.ofBool insn.aq ++ BitVec.ofBool insn.rl) insn.rs2 insn.rs1
    insn.width.funct3 insn.rd 0b0101111

/-- The manual's combination of the value in memory and the value of rs2. -/
def meaning {w : Nat} (op : AmoOp) (old src : BitVec w) : BitVec w :=
  match op with
  | .swap => src
  | .add => old + src
  | .xor => old ^^^ src
  | .and => old &&& src
  | .or => old ||| src
  | .min => if old.toInt ≤ src.toInt then old else src
  | .max => if src.toInt ≤ old.toInt then old else src
  | .minu => if old.toNat ≤ src.toNat then old else src
  | .maxu => if src.toNat ≤ old.toNat then old else src

theorem combine_meaning {w : Nat} (op : AmoOp) (old src : BitVec w) :
    op.combine old src = meaning op old src := by
  cases op with
  | min | max | minu | maxu =>
    simp only [AmoOp.combine, meaning]
    split_ifs <;> first | rfl | omega
  | _ => rfl

section Decode

def amoKey (op : AmoOp) (width : AmoWidth) : BitVec 32 :=
  0b0101111 ||| (width.funct3.setWidth 32 <<< 8) ||| ((funct5 op).setWidth 32 <<< 11)

theorem encWith_amo (insn : Amo) :
    encWith insn.encode (funct3Of insn.encode) = amoKey insn.op insn.width := by
  have opcode : opcodeOf insn.encode = 0b0101111 := opcodeOf_word ..
  have high : inst65 insn.encode = 0b01 := inst65_word ..
  have low : inst42 insn.encode = 0b011 := inst42_word ..
  have third : funct3Of insn.encode = insn.width.funct3.setWidth 32 := by
    have field : (insn.encode &&& 0b111000000000000) >>> 12 = _ := funct3_word ..
    simpa [funct3Of, high, low] using field
  have seventh : funct7Of insn.encode = (funct5 insn.op).setWidth 32 := by
    have field : (insn.encode >>> 25) &&& 0b1111111 = _ := funct7_word ..
    simp only [funct7Of, high, low, opcode, field, if_true, true_or]
    generalize insn.op = op
    generalize insn.aq = aq
    generalize insn.rl = rl
    cases op <;> cases aq <;> cases rl <;> decide
  have noFcvt : fcvtOpOf insn.encode = 0 := by simp [fcvtOpOf, opcode]
  have noImm : imm12Of insn.encode = 0 := by simp [imm12Of, low]
  rw [encWith, opcode, third, seventh, noFcvt, noImm]
  simp [amoKey]

def funcOf (op : AmoOp) : AmoWidth → ImplFunc
  | .w => match op with
    | .swap => .rv32a .amoswapw
    | .add => .rv32a .amoaddw
    | .xor => .rv32a .amoxorw
    | .and => .rv32a .amoandw
    | .or => .rv32a .amoorw
    | .min => .rv32a .amominw
    | .max => .rv32a .amomaxw
    | .minu => .rv32a .amominuw
    | .maxu => .rv32a .amomaxuw
  | .d => match op with
    | .swap => .rv64a .amoswapd
    | .add => .rv64a .amoaddd
    | .xor => .rv64a .amoxord
    | .and => .rv64a .amoandd
    | .or => .rv64a .amoord
    | .min => .rv64a .amomind
    | .max => .rv64a .amomaxd
    | .minu => .rv64a .amominud
    | .maxu => .rv64a .amomaxud

/-- The row of an AMO. The rows of RV64A give no class for rs2. -/
def rowFitsAmo (op : AmoOp) (width : AmoWidth) (row : RevInstEntry) : Bool :=
  decide (row.func = funcOf op width) && decide (row.format = .RVTypeR) &&
    decide (row.rdClass = .RegGPR) && decide (row.rs1Class = .RegGPR) &&
    decide (row.rs2Class = if width = .w then .RegGPR else .RegUNKNOWN) &&
    decide (row.opcode = 0b0101111)

theorem find_none_before (op : AmoOp) (width : AmoWidth) :
    rv32ITable.find? (isEnc (amoKey op width)) = none ∧
      rv64ITable.find? (isEnc (amoKey op width)) = none ∧
      rv32MTable.find? (isEnc (amoKey op width)) = none ∧
      rv64MTable.find? (isEnc (amoKey op width)) = none := by
  cases op <;> cases width <;> decide

theorem find_word (op : AmoOp) :
    ((rv32ATable).find? (isEnc (amoKey op .w))).any (rowFitsAmo op .w) = true := by
  cases op <;> decide

theorem find_double (op : AmoOp) :
    ((rv32ATable ++ rv64ATable).find? (isEnc (amoKey op .d))).any (rowFitsAmo op .d) = true := by
  cases op <;> decide

theorem find_amo (feature : RevFeature) (atomic : isModeEnabled feature .RV_A = true) (op : AmoOp)
    (width : AmoWidth) (wide : width = .d → feature.xlen = 64) :
    ∃ row, (seedInstTable feature).instTable.find? (isEnc (amoKey op width)) = some row ∧
      rowFitsAmo op width row = true := by
  obtain ⟨base32, base64, mul32, mul64⟩ := find_none_before op width
  have baseNone : ((when (isModeEnabled feature .RV_I) (if feature.xlen == 64 then
      [(rv32i, false), (rv64i, false)] else [(rv32i, true)])).flatMap fun call =>
        call.1.table).find? (isEnc (amoKey op width)) = none := by
    unfold Seed.when
    split_ifs <;> simp [rv32i, rv64i, base32, base64]
  have mulNone : ((when (isModeEnabled feature .RV_M) ((rv32m, false) ::
      when (feature.xlen == 64) [(rv64m, false)])).flatMap fun call =>
        call.1.table).find? (isEnc (amoKey op width)) = none := by
    unfold Seed.when
    split_ifs <;> simp [rv32m, rv64m, mul32, mul64]
  have found : ∃ row, ((when (isModeEnabled feature .RV_A) ((rv32a, false) ::
      when (feature.xlen == 64) [(rv64a, false)])).flatMap fun call =>
        call.1.table).find? (isEnc (amoKey op width)) = some row ∧
          rowFitsAmo op width row = true := by
    cases width with
    | w =>
      obtain ⟨row, first, fits⟩ := (Option.any_eq_true _ _).mp (find_word op)
      refine ⟨row, ?_, fits⟩
      simp [Seed.when, atomic, rv32a, List.find?_append, first]
    | d =>
      obtain ⟨row, first, fits⟩ := (Option.any_eq_true _ _).mp (find_double op)
      refine ⟨row, ?_, fits⟩
      simpa [Seed.when, atomic, wide rfl, rv32a, rv64a] using first
  obtain ⟨row, found, fits⟩ := found
  refine ⟨row, ?_, fits⟩
  rw [find_enc_instTable]
  simp only [enabledExts, List.flatMap_append, List.find?_append, baseNone, mulNone, found,
    Option.none_or, Option.some_or]

/-- The register the decoder hands to AMOMem as the operand. -/
def source (insn : Amo) : BitVec 5 := if insn.width = .w then insn.rs2 else 0

theorem decode_amo (feature : RevFeature) (atomic : isModeEnabled feature .RV_A = true) (insn : Amo)
    (wide : insn.width = .d → feature.xlen = 64) (coProc : Option (BitVec 32 → Bool))
    (junk : RevInst) :
    ∃ decoded row,
      decodeInst feature (seedInstTable feature) coProc none junk insn.encode = .ok decoded ∧
      (seedInstTable feature).instTable[decoded.entry]? = some row ∧
      row.func = funcOf insn.op insn.width ∧ decoded.inst.rd = insn.rd.setWidth 8 ∧
      decoded.inst.rs1 = insn.rs1.setWidth 8 ∧ decoded.inst.rs2 = (source insn).setWidth 8 ∧
      decoded.inst.instSize = 4 := by
  obtain ⟨row, found, fits⟩ := find_amo feature atomic insn.op insn.width wide
  simp only [rowFitsAmo, Bool.and_eq_true, decide_eq_true_eq] at fits
  obtain ⟨⟨⟨⟨⟨func, format⟩, dest⟩, left⟩, right⟩, -⟩ := fits
  rw [← encWith_amo] at found
  have formatted : decodeFormat junk insn.encode row = .ok (decodeRInst junk insn.encode row) := by
    rw [decodeFormat, format]
  obtain ⟨entry, -, listed, decoded⟩ :=
    decodeWide_found (seedInstTable feature) coProc junk insn.encode row _ found formatted
  obtain ⟨rdRead, rs1Read, rs2Read⟩ := decodeRInst_word junk row
    (funct5 insn.op ++ BitVec.ofBool insn.aq ++ BitVec.ofBool insn.rl) insn.rs2 insn.rs1
    insn.width.funct3 insn.rd 0b0101111 (by simp [dest]) (by simp [left])
  have fullWidth : opcodeOf insn.encode &&& 0b11 = 0b11 := by
    rw [show opcodeOf insn.encode = 0b0101111 from opcodeOf_word ..]
    decide
  refine ⟨_, row, (decodeInst_wide _ _ _ _ _ fullWidth).trans decoded, listed, func, rdRead, rs1Read,
    rs2Read.trans ?_, rfl⟩
  rw [right, source]
  split
  · rw [regField_known _ _ (by decide)]
  · rfl

end Decode

def stepAmo (feature : RevFeature) (coProc : Option (BitVec 32 → Bool)) (junk : RevInst)
    (regs : RevRegFile) (mem : RevMem) (hart : Nat) (inst : BitVec 32) :
    Option (Except MemFault (RevRegFile × RevMem)) :=
  match decodeInst feature (seedInstTable feature) coProc none junk inst with
  | .error _ => none
  | .ok decoded =>
    match (seedInstTable feature).instTable[decoded.entry]? with
    | none => none
    | some row => execAmo row.func feature regs mem hart decoded.inst

/-- How one AMO width meets the register file: where it finds the address and the operand, the rd it
leaves behind and the rd the manual asks for, each with the PC advanced, and what must already be in
rd for the two to agree. -/
structure Port (w : Nat) where
  len : Nat
  join : Buffer → BitVec w
  addr : RevRegFile → BitVec 5 → Nat
  operand : RevRegFile → BitVec 5 → BitVec w
  leave : RevRegFile → BitVec 5 → BitVec w → RevRegFile
  load : RevRegFile → BitVec 5 → BitVec w → RevRegFile
  ready : RevRegFile → BitVec 5 → BitVec w → Prop

def advance32 (regs : RevRegFile) : RevRegFile := { regs with rv32PC := regs.rv32PC + 4 }

def advance64 (regs : RevRegFile) : RevRegFile := { regs with rv64PC := regs.rv64PC + 4 }

def rv32w : Port 32 where
  len := 4
  join := word32
  addr regs reg := (regs.x32 (reg.setWidth 8)).toNat
  operand regs reg := regs.x32 (reg.setWidth 8)
  leave regs rd cell := advance32 (regs.setX32 (rd.setWidth 8) cell)
  load regs rd old := advance32 (regs.setX32 (rd.setWidth 8) old)
  ready _ _ _ := True

-- The upper half of rd is not written.
def rv64w : Port 32 where
  len := 4
  join := word32
  addr regs reg := (regs.x64 (reg.setWidth 8)).toNat
  operand regs reg := (regs.x64 (reg.setWidth 8)).setWidth 32
  leave regs rd cell := advance64 (regs.setX64 (rd.setWidth 8)
    ((regs.x64 (rd.setWidth 8)).extractLsb' 32 32 ++ cell))
  load regs rd old := advance64 (regs.setX64 (rd.setWidth 8) (old.signExtend 64))
  ready regs rd old :=
    (regs.x64 (rd.setWidth 8)).extractLsb' 32 32 = (old.signExtend 64).extractLsb' 32 32

def rv64d : Port 64 where
  len := 8
  join := word64
  addr regs reg := (regs.x64 (reg.setWidth 8)).toNat
  operand regs reg := regs.x64 (reg.setWidth 8)
  leave regs rd cell := advance64 (regs.setX64 (rd.setWidth 8) cell)
  load regs rd old := advance64 (regs.setX64 (rd.setWidth 8) old)
  ready _ _ _ := True

namespace Port
variable {w : Nat} (port : Port w)

def old (regs : RevRegFile) (mem : RevMem) (insn : Amo) : BitVec w :=
  port.join fun index => byteAt mem (port.addr regs insn.rs1 + index)

/-- Memory at rs1 holds the combination of its old value with rs2, rd the old value, and nothing else
has changed. -/
def ReadModifyWrite (regs : RevRegFile) (mem : RevMem) (insn : Amo)
    (result : Option (Except MemFault (RevRegFile × RevMem))) : Prop :=
  ∃ after, result = some (.ok (port.load regs insn.rd (port.old regs mem insn), after)) ∧
    ∀ vAddr, byteAt after vAddr = flatStore (byteAt mem) (port.addr regs insn.rs1) port.len
      (bytesOf (meaning insn.op (port.old regs mem insn) (port.operand regs insn.rs2))) vAddr

/-- The operand that is in place when it is used: the value just read, if rd is the source. -/
def used (regs : RevRegFile) (mem : RevMem) (insn : Amo) : BitVec w :=
  if insn.rd = source insn then port.old regs mem insn else port.operand regs (source insn)

/-- The operand in use combines to the same value as rs2; and if rd is not x0, that value is the old
one and the rest of rd is in place. -/
def Holds (regs : RevRegFile) (mem : RevMem) (insn : Amo) : Prop :=
  meaning insn.op (port.old regs mem insn) (port.used regs mem insn) =
      meaning insn.op (port.old regs mem insn) (port.operand regs insn.rs2) ∧
    (insn.rd ≠ 0 →
      meaning insn.op (port.old regs mem insn) (port.used regs mem insn) = port.old regs mem insn ∧
      port.ready regs insn.rd (port.old regs mem insn))

structure Lawful : Prop where
  reads : ∀ one two : Buffer, (∀ index, index < port.len → one index = two index) →
    port.join one = port.join two
  bytes : ∀ value : BitVec w, port.join (bytesOf value) = value
  short : 1 ≤ port.len ∧ port.len ≤ 8 ∧ 8 % port.len = 0
  agree : ∀ regs rd new old, port.leave regs rd new = port.load regs rd old ↔
    (rd ≠ 0 → new = old ∧ port.ready regs rd old)

end Port

theorem setWidth_zero_iff (reg : BitVec 5) : reg.setWidth 8 = 0 ↔ reg = 0 := by
  constructor
  · intro zero
    have back := congrArg (BitVec.setWidth 5) zero
    simpa using back
  · rintro rfl
    rfl

theorem setX64_eq_iff (regs : RevRegFile) (index : BitVec 8) (one two : BitVec 64) :
    advance64 (regs.setX64 index one) = advance64 (regs.setX64 index two) ↔
      (index ≠ 0 → one = two) := by
  constructor
  · intro same nonzero
    have cells : (advance64 (regs.setX64 index one)).x64 index =
        (advance64 (regs.setX64 index two)).x64 index := by rw [same]
    have written : (regs.setX64 index one).x64 index = (regs.setX64 index two).x64 index := cells
    rwa [RevRegFile.x64_setX64, RevRegFile.x64_setX64, if_neg nonzero, if_neg nonzero] at written
  · intro same
    by_cases zero : index = 0
    · simp [RevRegFile.setX64, zero]
    · rw [same zero]

theorem setX32_eq_iff (regs : RevRegFile) (index : BitVec 8) (one two : BitVec 32) :
    advance32 (regs.setX32 index one) = advance32 (regs.setX32 index two) ↔
      (index ≠ 0 → one = two) := by
  constructor
  · intro same nonzero
    have cells : (advance32 (regs.setX32 index one)).x32 index =
        (advance32 (regs.setX32 index two)).x32 index := by rw [same]
    have written : (regs.setX32 index one).x32 index = (regs.setX32 index two).x32 index := cells
    rwa [RevRegFile.x32_setX32, RevRegFile.x32_setX32, if_neg nonzero, if_neg nonzero] at written
  · intro same
    by_cases zero : index = 0
    · simp [RevRegFile.setX32, zero]
    · rw [same zero]

theorem rv32w_lawful : rv32w.Lawful where
  reads one two same := (word32_congr one two same).trans (word32_congr two two fun _ _ => rfl).symm
  bytes := word32_bytesOf
  short := by decide
  agree regs rd new old := by
    simp only [rv32w, setX32_eq_iff, ne_eq, setWidth_zero_iff, and_true]

theorem rv64d_lawful : rv64d.Lawful where
  reads := word64_congr
  bytes value := (word64_bytesOf value).trans (BitVec.setWidth_eq value)
  short := by decide
  agree regs rd new old := by
    simp only [rv64d, setX64_eq_iff, ne_eq, setWidth_zero_iff, and_true]

theorem rv64w_lawful : rv64w.Lawful where
  reads one two same := (word32_congr one two same).trans (word32_congr two two fun _ _ => rfl).symm
  bytes := word32_bytesOf
  short := by decide
  agree regs rd new old := by
    have halves : ∀ high : BitVec 32, high ++ new = old.signExtend 64 ↔
        new = old ∧ high = (old.signExtend 64).extractLsb' 32 32 := by
      intro high
      have split : (old.signExtend 64).extractLsb' 32 32 ++ old = old.signExtend 64 := by
        apply BitVec.eq_of_getLsbD_eq
        intro i inside
        rw [BitVec.getLsbD_append, BitVec.getLsbD_extractLsb', BitVec.getLsbD_signExtend,
          BitVec.getLsbD_signExtend]
        by_cases low : i < 32
        · simp [low, inside]
        · simp [low, inside, show i - 32 < 32 by omega, show 32 + (i - 32) = i by omega]
      constructor
      · intro same
        rw [← split] at same
        have low := congrArg (BitVec.setWidth 32) same
        have top := congrArg (BitVec.extractLsb' 32 32) same
        rw [BitVec.setWidth_append_eq_right, BitVec.setWidth_append_eq_right] at low
        rw [Bits.field_append_high _ _ _ _ (by decide), Bits.field_append_high _ _ _ _ (by decide),
          Nat.sub_self, BitVec.extractLsb'_eq_self, BitVec.extractLsb'_eq_self] at top
        exact ⟨low, top⟩
      · rintro ⟨rfl, rfl⟩
        exact split
    simp only [rv64w, setX64_eq_iff, ne_eq, setWidth_zero_iff, halves]

namespace Port
variable {w : Nat} {port : Port w} {regs : RevRegFile} {mem : RevMem} {insn : Amo}

def exec (port : Port w) (regs : RevRegFile) (mem : RevMem) (hart : Nat) (insn : Amo)
    (flags : BitVec 32) : Except MemFault (RevRegFile × RevMem) :=
  match amoLocal port.join mem hart (port.addr regs insn.rs1) port.len
    (port.operand regs (source insn)) (port.operand regs insn.rd) (decide (insn.rd = source insn))
    flags with
  | .error fault => .error fault
  | .ok (cell, mem) => .ok (port.leave regs insn.rd cell, mem)

theorem touchable_aligned (lawful : port.Lawful)
    (valid : mem.isValidVirtAddr (port.addr regs insn.rs1) = true)
    (aligned : port.addr regs insn.rs1 % port.len = 0) :
    Touchable mem (port.addr regs insn.rs1) port.len := by
  refine ⟨valid, fun crossing => absurd crossing ?_⟩
  obtain ⟨positive, small, divides⟩ := lawful.short
  have page : pageSize % port.len = 0 :=
    Nat.mod_eq_zero_of_dvd ((Nat.dvd_of_mod_eq_zero divides).trans (by decide))
  have offset : port.addr regs insn.rs1 % pageSize % port.len = 0 := by
    rw [Nat.mod_mod_of_dvd _ (Nat.dvd_of_mod_eq_zero page)]
    exact aligned
  have inside := Nat.mod_lt (port.addr regs insn.rs1) pageSize_pos
  obtain ⟨parts, whole⟩ := Nat.dvd_of_mod_eq_zero offset
  obtain ⟨all, total⟩ := Nat.dvd_of_mod_eq_zero page
  rw [whole, total] at inside ⊢
  have less : parts < all := Nat.lt_of_mul_lt_mul_left inside
  rw [Nat.not_lt, ← Nat.mul_succ]
  exact Nat.mul_le_mul_left _ less

-- Two stores of one range agree only if they store one value.
theorem flatStore_inj (lawful : port.Lawful) (flat : Nat → Byte) (addr : Nat)
    {one two : BitVec w} (same : ∀ vAddr, flatStore flat addr port.len (bytesOf one) vAddr =
      flatStore flat addr port.len (bytesOf two) vAddr) : one = two := by
  rw [← lawful.bytes one, ← lawful.bytes two]
  apply lawful.reads
  intro index inside
  have byte := same (addr + index)
  simpa [flatStore, inside] using byte

theorem exec_iff (lawful : port.Lawful) (sized : Sized mem) (coherent : Coherent mem)
    (positive : mem.tlbSize ≠ 0) (valid : mem.isValidVirtAddr (port.addr regs insn.rs1) = true)
    (aligned : port.addr regs insn.rs1 % port.len = 0) (hart : Nat) {flags : BitVec 32}
    (chosen : selected flags = some insn.op) :
    port.ReadModifyWrite regs mem insn (some (port.exec regs mem hart insn flags)) ↔
      port.Holds regs mem insn := by
  have short : port.len ≤ pageSize := Nat.le_trans lawful.short.2.1 (by decide)
  obtain ⟨after, ran, -, -, seen⟩ := amoLocal_valid sized coherent positive short
    (touchable_aligned lawful valid aligned) lawful.reads chosen hart
    (port.operand regs (source insn)) (port.operand regs insn.rd) (decide (insn.rd = source insn))
  have operand : (if decide (insn.rd = source insn) = true then
      port.join fun index => byteAt mem (port.addr regs insn.rs1 + index)
      else port.operand regs (source insn)) = port.used regs mem insn := by
    simp only [decide_eq_true_eq]
    rfl
  rw [operand, combine_meaning] at ran seen
  have executed : port.exec regs mem hart insn flags = .ok (port.leave regs insn.rd
      (meaning insn.op (port.old regs mem insn) (port.used regs mem insn)), after) := by
    simp only [exec, ran]
    rfl
  rw [executed]
  constructor
  · rintro ⟨final, same, stored⟩
    simp only [Option.some.injEq, Except.ok.injEq, Prod.mk.injEq] at same
    obtain ⟨registers, rfl⟩ := same
    refine ⟨?_, (lawful.agree ..).mp registers⟩
    apply flatStore_inj lawful (byteAt mem) (port.addr regs insn.rs1)
    intro vAddr
    rw [← stored, seen]
    rfl
  · rintro ⟨value, registers⟩
    refine ⟨after, ?_, fun vAddr => ?_⟩
    · rw [(lawful.agree ..).mpr registers]
    · rw [← value, seen]
      rfl

-- Without room for a TLB entry the first translation already fails.
theorem exec_noRoom (noRoom : mem.tlbSize = 0) (vacant : mem.tlb.keys = [])
    (valid : mem.isValidVirtAddr (port.addr regs insn.rs1) = true) (hart : Nat)
    (flags : BitVec 32) :
    ¬ port.ReadModifyWrite regs mem insn (some (port.exec regs mem hart insn flags)) := by
  have faults := Tlb.calcPhysAddr_noRoom noRoom vacant valid (port.addr regs insn.rs1 >>> addrShift)
  rintro ⟨after, same, -⟩
  simp [exec, amoLocal, faults] at same

end Port

section Modes
variable {feature : RevFeature} {insn : Amo}

theorem regs_eq_iff (one two : BitVec 5) :
    ((one.setWidth 8 : BitVec 8) == two.setWidth 8) = decide (one = two) := by
  rw [Bool.beq_eq_decide_eq, decide_eq_decide]
  constructor
  · intro same
    have back := congrArg (BitVec.setWidth 5) same
    simpa using back
  · exact congrArg _

variable (atomic : isModeEnabled feature .RV_A = true) (coProc : Option (BitVec 32 → Bool))
  (junk : RevInst) (regs : RevRegFile) (mem : RevMem) (hart : Nat)
include atomic

theorem stepAmo_rv64d (double : insn.width = .d) (wide : feature.xlen = 64) :
    ∃ flags, selected flags = some insn.op ∧
      stepAmo feature coProc junk regs mem hart insn.encode =
        some (rv64d.exec regs mem hart insn flags) := by
  obtain ⟨decoded, row, read, listed, func, rd, rs1, rs2, size⟩ :=
    decode_amo feature atomic insn (fun _ => wide) coProc junk
  refine ⟨amoFlags insn.op decoded.inst, (selected_amoFlags ..).1, ?_⟩
  have run : execAmo row.func feature regs mem hart decoded.inst =
      some (amod insn.op regs mem hart decoded.inst) := by
    rw [func, double]
    cases insn.op <;> rfl
  simp only [stepAmo, read, listed, run, amod, amoMem64, rd, rs1, rs2, regs_eq_iff, Port.exec, rv64d,
    RevRegFile.step64, size]
  cases amoLocal word64 mem hart (regs.x64 (insn.rs1.setWidth 8)).toNat 8
    (regs.x64 ((source insn).setWidth 8)) (regs.x64 (insn.rd.setWidth 8))
    (decide (insn.rd = source insn)) (amoFlags insn.op decoded.inst) <;> rfl

theorem stepAmo_rv64w (word : insn.width = .w) (wide : feature.xlen = 64) :
    ∃ flags, selected flags = some insn.op ∧
      stepAmo feature coProc junk regs mem hart insn.encode =
        some (rv64w.exec regs mem hart insn flags) := by
  obtain ⟨decoded, row, read, listed, func, rd, rs1, rs2, size⟩ :=
    decode_amo feature atomic insn (fun _ => wide) coProc junk
  refine ⟨amoFlags insn.op decoded.inst ||| BitVec.ofNat 32 F_SEXT64, (selected_amoFlags ..).2, ?_⟩
  have run : execAmo row.func feature regs mem hart decoded.inst =
      some (amow insn.op feature regs mem hart decoded.inst) := by
    rw [func, word]
    cases insn.op <;> rfl
  have notNarrow : isRV32 feature = false := by simp [isRV32, wide]
  simp only [stepAmo, read, listed, run, amow, notNarrow, amoMem32, rd, rs1, rs2, regs_eq_iff, Port.exec,
    rv64w, RevRegFile.step64, size, Bool.false_eq_true, if_false]
  cases amoLocal word32 mem hart (regs.x64 (insn.rs1.setWidth 8)).toNat 4
    ((regs.x64 ((source insn).setWidth 8)).setWidth 32)
    ((regs.x64 (insn.rd.setWidth 8)).setWidth 32) (decide (insn.rd = source insn))
    (amoFlags insn.op decoded.inst ||| BitVec.ofNat 32 F_SEXT64) <;> rfl

theorem stepAmo_rv32w (word : insn.width = .w) (narrow : feature.xlen = 32) :
    ∃ flags, selected flags = some insn.op ∧
      stepAmo feature coProc junk regs mem hart insn.encode =
        some (rv32w.exec regs mem hart insn flags) := by
  obtain ⟨decoded, row, read, listed, func, rd, rs1, rs2, size⟩ :=
    decode_amo feature atomic insn (fun double => by simp [word] at double) coProc junk
  refine ⟨amoFlags insn.op decoded.inst, (selected_amoFlags ..).1, ?_⟩
  have run : execAmo row.func feature regs mem hart decoded.inst =
      some (amow insn.op feature regs mem hart decoded.inst) := by
    rw [func, word]
    cases insn.op <;> rfl
  have isNarrow : isRV32 feature = true := by simp [isRV32, narrow]
  simp only [stepAmo, read, listed, run, amow, isNarrow, amoMem32, rd, rs1, rs2, regs_eq_iff, Port.exec,
    rv32w, RevRegFile.step32, size, if_true]
  cases amoLocal word32 mem hart (regs.x32 (insn.rs1.setWidth 8)).toNat 4
    (regs.x32 ((source insn).setWidth 8)) (regs.x32 (insn.rd.setWidth 8))
    (decide (insn.rd = source insn)) (amoFlags insn.op decoded.inst) <;> rfl

end Modes

/-- What the ISA asks of one AMO, by the width of its word. -/
def AmoMeets (feature : RevFeature) (insn : Amo) (regs : RevRegFile) (mem : RevMem)
    (result : Option (Except MemFault (RevRegFile × RevMem))) : Prop :=
  match insn.width with
  | .d => rv64d.ReadModifyWrite regs mem insn result
  | .w =>
    if isRV32 feature then rv32w.ReadModifyWrite regs mem insn result
    else rv64w.ReadModifyWrite regs mem insn result

def AmoHolds (feature : RevFeature) (insn : Amo) (regs : RevRegFile) (mem : RevMem) : Prop :=
  match insn.width with
  | .d => rv64d.Holds regs mem insn
  | .w => if isRV32 feature then rv32w.Holds regs mem insn else rv64w.Holds regs mem insn

/-- The address in rs1 and the bytes accessed there. -/
def amoAddr (feature : RevFeature) (insn : Amo) (regs : RevRegFile) : Nat × Nat :=
  match insn.width with
  | .d => (rv64d.addr regs insn.rs1, 8)
  | .w => if isRV32 feature then (rv32w.addr regs insn.rs1, 4) else (rv64w.addr regs insn.rs1, 4)

theorem port_iff {w : Nat} {port : Port w} (lawful : port.Lawful) {regs : RevRegFile} {mem : RevMem}
    {insn : Amo} (sized : Sized mem) (coherent : Coherent mem)
    (bounded : mem.tlb.keys.length ≤ mem.tlbSize)
    (valid : mem.isValidVirtAddr (port.addr regs insn.rs1) = true)
    (aligned : port.addr regs insn.rs1 % port.len = 0) {hart : Nat}
    {result : Option (Except MemFault (RevRegFile × RevMem))}
    (ran : ∃ flags, selected flags = some insn.op ∧
      result = some (port.exec regs mem hart insn flags)) :
    port.ReadModifyWrite regs mem insn result ↔ mem.tlbSize ≠ 0 ∧ port.Holds regs mem insn := by
  obtain ⟨flags, chosen, rfl⟩ := ran
  by_cases noRoom : mem.tlbSize = 0
  · have vacant : mem.tlb.keys = [] := List.eq_nil_of_length_eq_zero (by omega)
    simp only [noRoom, ne_eq, not_true, false_and, iff_false]
    exact Port.exec_noRoom noRoom vacant valid hart flags
  · simp only [noRoom, ne_eq, not_false_eq_true, true_and]
    exact Port.exec_iff lawful sized coherent noRoom valid aligned hart chosen

theorem amo_read_modify_write_iff (feature : RevFeature)
    (atomic : isModeEnabled feature .RV_A = true) (insn : Amo)
    (model : feature.xlen = 64 ∨ feature.xlen = 32 ∧ insn.width = .w) (regs : RevRegFile)
    (mem : RevMem) (sized : Sized mem) (coherent : Coherent mem)
    (bounded : mem.tlb.keys.length ≤ mem.tlbSize)
    (valid : mem.isValidVirtAddr (amoAddr feature insn regs).1 = true)
    (aligned : (amoAddr feature insn regs).1 % (amoAddr feature insn regs).2 = 0)
    (coProc : Option (BitVec 32 → Bool)) (junk : RevInst) (hart : Nat) :
    AmoMeets feature insn regs mem (stepAmo feature coProc junk regs mem hart insn.encode) ↔
      mem.tlbSize ≠ 0 ∧ AmoHolds feature insn regs mem := by
  cases width : insn.width with
  | d =>
    have wide : feature.xlen = 64 := by simpa [width] using model
    simp only [amoAddr, width] at valid aligned
    simp only [AmoMeets, AmoHolds, width]
    exact port_iff rv64d_lawful sized coherent bounded valid aligned
      (stepAmo_rv64d atomic coProc junk regs mem hart width wide)
  | w =>
    rcases model with wide | ⟨narrow, -⟩
    · have notNarrow : isRV32 feature = false := by simp [isRV32, wide]
      simp only [amoAddr, width, notNarrow] at valid aligned
      simp only [AmoMeets, AmoHolds, width, notNarrow]
      exact port_iff rv64w_lawful sized coherent bounded valid aligned
        (stepAmo_rv64w atomic coProc junk regs mem hart width wide)
    · have isNarrow : isRV32 feature = true := by simp [isRV32, narrow]
      simp only [amoAddr, width, isNarrow, if_true] at valid aligned
      simp only [AmoMeets, AmoHolds, width, isNarrow, if_true]
      exact port_iff rv32w_lawful sized coherent bounded valid aligned
        (stepAmo_rv32w atomic coProc junk regs mem hart width narrow)

/-- x12 points into the stack and x11 holds 5. -/
def sampleRegs : RevRegFile :=
  { (default : RevRegFile) with
    rv64 := fun index => if index = 12 then 1310720 else if index = 11 then 5 else 0 }

def rv64ima : RevFeature := { features := 0b1110, xlen := 64, minCost := 1, maxCost := 1 }

theorem sample_valid : (RevMem.new 2097152 16 1 0).isValidVirtAddr 1310720 = true :=
  (valid_stack_only 16 1310720).mpr (by decide)

theorem sample_addr : rv64w.addr sampleRegs 12 = 1310720 := by decide

theorem sample_old (insn : Amo) :
    rv64w.old sampleRegs (RevMem.new 2097152 16 1 0) insn = 0 := by
  have blank : ∀ index, byteAt (RevMem.new 2097152 16 1 0) index = 0 :=
    (untouched_new 2097152 16 1 0).byteAt
  simp only [Port.old, rv64w, blank]
  decide

-- amoadd.w x0, x11, (x12)
theorem amo_read_modify_write_iff_discard :
    AmoMeets rv64ima ⟨.add, .w, false, false, 0, 12, 11⟩ sampleRegs (RevMem.new 2097152 16 1 0)
      (stepAmo rv64ima none default sampleRegs (RevMem.new 2097152 16 1 0) 0
        (Amo.encode ⟨.add, .w, false, false, 0, 12, 11⟩)) := by
  have addr : amoAddr rv64ima ⟨.add, .w, false, false, 0, 12, 11⟩ sampleRegs = (1310720, 4) :=
    congrArg (·, 4) sample_addr
  apply (amo_read_modify_write_iff rv64ima (by decide) _ (.inl rfl) sampleRegs _
    (sized_stack_only 16) (untouched_new 2097152 16 1 0).coherent (Nat.zero_le _)
    (by rw [addr]; exact sample_valid) (by rw [addr]; rfl) none default 0).mpr
  exact ⟨by decide, rfl, fun nonzero => absurd rfl nonzero⟩

-- amoadd.w x10, x11, (x12) leaves 5 in x10 where memory held 0.
theorem amo_returns_new :
    ¬ AmoMeets rv64ima ⟨.add, .w, false, false, 10, 12, 11⟩ sampleRegs (RevMem.new 2097152 16 1 0)
      (stepAmo rv64ima none default sampleRegs (RevMem.new 2097152 16 1 0) 0
        (Amo.encode ⟨.add, .w, false, false, 10, 12, 11⟩)) := by
  have atomic : isModeEnabled rv64ima .RV_A = true := by decide
  have word : (⟨.add, .w, false, false, 10, 12, 11⟩ : Amo).width = .w := rfl
  have ran := stepAmo_rv64w atomic none default sampleRegs (RevMem.new 2097152 16 1 0) 0 word rfl
  intro meets
  have holds := ((port_iff rv64w_lawful (sized_stack_only 16)
    (untouched_new 2097152 16 1 0).coherent (Nat.zero_le _) (by rw [sample_addr]; exact sample_valid)
    (by rw [sample_addr]; rfl) ran).mp meets).2
  have kept := (holds.2 (by decide)).1
  rw [sample_old] at kept
  exact absurd kept (by decide)

end RevCPU.AmoSemantics
