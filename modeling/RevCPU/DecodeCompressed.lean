import RevCPU.Decode
import RevCPU.Dispatch
/-!
The 16-bit half of instruction decode, `DecodeCRInst` .. `DecodeCJInst` and `DecodeCompressed`, and
`DecodeInst` on top of both halves. The `uint16_t` word is promoted to 32 bits before the shifts, as
in the source. Fields a format does not store keep the contents of `junk`. The literal 1100 in
`decodeCIInst` is decimal there too.
-/
namespace RevCPU.DecodeCompressed
open Feature InstTable Seed Decode

def decodeLowerCrs2 (inst : BitVec 32) : BitVec 32 := (inst >>> 2) &&& 0b11111

/-- A swizzle through `std::bitset`: bit `i` of the result is bit `picks[i]` of the source. -/
def swizzle {w : Nat} (source : BitVec w) (picks : List Nat) : BitVec w :=
  picks.zipIdx.foldl (fun acc pick =>
    acc ||| (if source.getLsbD pick.1 then 1#w <<< pick.2 else 0#w)) 0#w

-- The fold with any accumulator, positions counted from `start`.
theorem getLsbD_swizzleFrom {w : Nat} (source acc : BitVec w) (picks : List Nat) (start i : Nat)
    (inside : i < w) :
    ((picks.zipIdx start).foldl (fun acc pick =>
      acc ||| (if source.getLsbD pick.1 then 1#w <<< pick.2 else 0#w)) acc).getLsbD i =
      (acc.getLsbD i || (decide (start ≤ i) && (picks[i - start]?).any source.getLsbD)) := by
  induction picks generalizing acc start with
  | nil => simp
  | cons pick rest ih =>
    have bit : (if source.getLsbD pick then 1#w <<< start else 0#w).getLsbD i =
        (source.getLsbD pick && decide (i = start)) := by
      cases source.getLsbD pick with
      | false => simp
      | true =>
        simp only [↓reduceIte, BitVec.getLsbD_shiftLeft, BitVec.getLsbD_one, inside, Bool.true_and]
        grind
    rw [List.zipIdx_cons, List.foldl_cons, ih, BitVec.getLsbD_or, bit]
    rcases Nat.lt_trichotomy i start with before | rfl | after
    · simp [show ¬ start ≤ i by omega, show ¬ start + 1 ≤ i by omega, show i ≠ start by omega]
    · simp
    · have past : i - start = i - (start + 1) + 1 := by omega
      simp [show start ≤ i by omega, show start + 1 ≤ i by omega, show i ≠ start by omega, past]

theorem getLsbD_swizzle {w : Nat} (source : BitVec w) (picks : List Nat) (i : Nat)
    (inside : i < w) :
    (swizzle source picks).getLsbD i = (picks[i]?).any source.getLsbD := by
  rw [swizzle, getLsbD_swizzleFrom source 0#w picks 0 i inside]
  simp

def decodeCRInst (junk : RevInst) (inst : BitVec 16) (entry : RevInstEntry) : RevInst :=
  let word := inst.setWidth 32
  { junk with
    opcode := entry.opcode, funct4 := entry.funct4
    rd := (decodeRd word).setWidth 8
    rs1 := (decodeRd word).setWidth 8
    rs2 := (decodeLowerCrs2 word).setWidth 8
    imm := 0, instSize := 2, compressed := true }

-- The offsets of the stack-relative loads, by access size.
def ciOffset8 (word : BitVec 32) : BitVec 32 :=
  ((word &&& 0b1100000) >>> 2) ||| ((word &&& 0b1000000000000) >>> 7) |||
    ((word &&& 0b11100) <<< 4)

def ciOffset4 (word : BitVec 32) : BitVec 32 :=
  ((word &&& 0b1110000) >>> 2) ||| ((word &&& 0b1000000000000) >>> 7) ||| ((word &&& 1100) <<< 4)

def ciAddi16sp (word : BitVec 32) : BitVec 32 :=
  let imm := ((word &&& 0b1000000) >>> 2) ||| ((word &&& 0b100) <<< 3) |||
    ((word &&& 0b100000) <<< 1) ||| ((word &&& 0b11000) <<< 4) |||
    ((word &&& 0b1000000000000) >>> 3)
  if imm &&& 0b1000000000 ≠ 0 then imm ||| 0b11111111111111111111111000000000 else imm

def ciLui (word : BitVec 32) : BitVec 32 :=
  let imm := ((word &&& 0b1111100) <<< 10) ||| ((word &&& 0b1000000000000) <<< 5)
  (if imm &&& 0b100000000000000000 ≠ 0 then imm ||| 0b11111111111111000000000000000000
    else imm) >>> 12

def ciLi (word : BitVec 32) : BitVec 32 :=
  let imm := ((word &&& 0b1111100) >>> 2) ||| ((word &&& 0b1000000000000) >>> 7)
  if imm &&& 0b100000 ≠ 0 then imm ||| 0b11111111111111111111111111000000 else imm

def ciPlain (word : BitVec 32) : BitVec 32 :=
  let imm := decodeLowerCrs2 word ||| ((word &&& 0b1000000000000) >>> 7)
  if imm &&& 0b100000 ≠ 0 then imm ||| 0b11111111111111111111111111100000 else imm

def ciImm (xlen : Nat) (opcode funct3 rd : BitVec 8) (word : BitVec 32) : BitVec 32 :=
  if opcode = 0b10 ∧ funct3 = 0b001 then ciOffset8 word
  else if opcode = 0b10 ∧ funct3 = 0b010 then ciOffset4 word
  else if opcode = 0b10 ∧ funct3 = 0b011 then
    if xlen = 64 then ciOffset8 word else ciOffset4 word
  else if opcode = 0b01 ∧ funct3 = 0b011 ∧ rd = 2 then ciAddi16sp word
  else if opcode = 0b01 ∧ funct3 = 0b011 ∧ rd ≠ 0 ∧ rd ≠ 2 then ciLui word
  else if opcode = 0b01 ∧ funct3 = 0b010 ∧ rd ≠ 0 then ciLi word
  else ciPlain word

def decodeCIInst (xlen : Nat) (junk : RevInst) (inst : BitVec 16) (entry : RevInstEntry) :
    RevInst :=
  let word := inst.setWidth 32
  let rd := (decodeRd word).setWidth 8
  { junk with
    opcode := entry.opcode, funct3 := entry.funct3, rd := rd, rs1 := rd
    imm := ciImm xlen entry.opcode entry.funct3 rd word
    instSize := 2, compressed := true }

def cssOffset8 (word : BitVec 32) : BitVec 32 :=
  ((word &&& 0b1110000000000) >>> 7) ||| ((word &&& 0b1110000000) >>> 1)

def cssOffset4 (word : BitVec 32) : BitVec 32 :=
  ((word &&& 0b1111000000000) >>> 7) ||| ((word &&& 0b110000000) >>> 1)

def cssImm (xlen : Nat) (funct3 : BitVec 8) (word : BitVec 32) : BitVec 32 :=
  if funct3 = 0b101 then cssOffset8 word
  else if funct3 = 0b110 then cssOffset4 word
  else if funct3 = 0b111 then if xlen = 64 then cssOffset8 word else cssOffset4 word
  else (word &&& 0b1111110000000) >>> 7

def decodeCSSInst (xlen : Nat) (junk : RevInst) (inst : BitVec 16) (entry : RevInstEntry) :
    RevInst :=
  let word := inst.setWidth 32
  { junk with
    opcode := entry.opcode, funct3 := entry.funct3
    rs2 := (decodeLowerCrs2 word).setWidth 8
    imm := cssImm xlen entry.funct3 word
    instSize := 2, compressed := true }

def decodeCIWInst (junk : RevInst) (inst : BitVec 16) (entry : RevInstEntry) : RevInst :=
  let word := inst.setWidth 32
  { junk with
    opcode := entry.opcode, funct3 := entry.funct3
    rd := ((word &&& 0b11100) >>> 2).setWidth 8
    imm := swizzle ((word &&& 0b1111111100000) >>> 5) [1, 0, 6, 7, 2, 3, 4, 5]
    instSize := 2, compressed := true }

def clOffset8 (word : BitVec 32) : BitVec 32 :=
  ((word &&& 0b1100000) <<< 1) ||| ((word &&& 0b1110000000000) >>> 7)

def clOffset4 (word : BitVec 32) : BitVec 32 :=
  ((word &&& 0b100000) <<< 1) ||| ((word &&& 0b1000000) >>> 4) |||
    ((word &&& 0b1110000000000) >>> 7)

def clImm (xlen : Nat) (junk : BitVec 32) (funct3 : BitVec 8) (word : BitVec 32) : BitVec 32 :=
  if funct3 = 0b001 then clOffset8 word
  else if funct3 = 0b010 then clOffset4 word
  else if funct3 = 0b011 then if xlen = 64 then clOffset8 word else clOffset4 word
  else if funct3 = 0b101 then clOffset8 word
  else if funct3 = 0b110 then clOffset4 word
  else if funct3 = 0b111 then if xlen = 64 then clOffset8 word else clOffset4 word
  else junk

def decodeCLInst (xlen : Nat) (junk : RevInst) (inst : BitVec 16) (entry : RevInstEntry) :
    RevInst :=
  let word := inst.setWidth 32
  { junk with
    opcode := entry.opcode, funct3 := entry.funct3
    rd := ((word &&& 0b11100) >>> 2).setWidth 8
    rs1 := ((word &&& 0b1110000000) >>> 7).setWidth 8
    imm := clImm xlen junk.imm entry.funct3 word
    instSize := 2, compressed := true }

-- In the 32-bit branch the second store is an assignment, so the first one is lost.
def csImm (xlen : Nat) (funct3 : BitVec 8) (word : BitVec 32) : BitVec 32 :=
  if funct3 = 0b110 then
    ((word &&& 0b0100000) <<< 1) ||| ((word &&& 0b01110000000000) >>> 6) |||
      ((word &&& 0b01000000) >>> 4)
  else if xlen = 32 then
    ((word &&& 0b01000000) <<< 4) ||| ((word &&& 0b01110000000000) >>> 7)
  else
    ((word &&& 0b01100000) <<< 1) ||| ((word &&& 0b01110000000000) >>> 7)

def decodeCSInst (xlen : Nat) (junk : RevInst) (inst : BitVec 16) (entry : RevInstEntry) :
    RevInst :=
  let word := inst.setWidth 32
  { junk with
    opcode := entry.opcode, funct3 := entry.funct3
    rs2 := ((word &&& 0b011100) >>> 2).setWidth 8
    rs1 := ((word &&& 0b01110000000) >>> 7).setWidth 8
    imm := csImm xlen entry.funct3 word
    instSize := 2, compressed := true }

def decodeCAInst (junk : RevInst) (inst : BitVec 16) (entry : RevInstEntry) : RevInst :=
  let word := inst.setWidth 32
  { junk with
    opcode := entry.opcode, funct2 := entry.funct2, funct6 := entry.funct6
    rs2 := ((word &&& 0b11100) >>> 2).setWidth 8
    rs1 := ((word &&& 0b1110000000) >>> 7).setWidth 8
    rd := ((word &&& 0b1110000000) >>> 7).setWidth 8
    instSize := 2, compressed := true }

def decodeCBInst (junk : RevInst) (inst : BitVec 16) (entry : RevInstEntry) : RevInst :=
  let word := inst.setWidth 32
  let rs1 := ((word &&& 0b1110000000) >>> 7).setWidth 8
  let offset : BitVec 16 :=
    (((word &&& 0b1111100) >>> 2) ||| ((word &&& 0b1110000000000) >>> 5)).setWidth 16
  let branch := entry.opcode = 0b01 ∧ 0b110 ≤ entry.funct3.toNat
  let arith := entry.opcode = 0b01 ∧ entry.funct3 = 0b100
  { junk with
    opcode := entry.opcode, funct3 := entry.funct3, rs1 := rs1
    rd := if ¬ branch ∧ arith then rs1 else junk.rd
    offset := (if branch then swizzle offset [1, 2, 5, 6, 0, 3, 4, 7] else 0) <<< 1
    imm := ((word &&& 0b01111100) >>> 2) ||| ((word &&& 0b01000000000000) >>> 7)
    instSize := 2, compressed := true }

def decodeCJInst (junk : RevInst) (inst : BitVec 16) (entry : RevInstEntry) : RevInst :=
  let word := inst.setWidth 32
  let offset : BitVec 16 := ((word &&& 0b1111111111100) >>> 2).setWidth 16
  { junk with
    opcode := entry.opcode, funct3 := entry.funct3
    jumpTarget := swizzle offset [1, 2, 3, 9, 0, 5, 4, 7, 8, 6, 10] <<< 1
    instSize := 2, compressed := true }

-- The key fields by quadrant: (funct2, funct3, funct4, funct6).
def cFunct (inst : BitVec 16) : BitVec 8 × BitVec 8 × BitVec 8 × BitVec 8 :=
  let opc := inst &&& 0b11
  let l3 := (inst &&& 0b1110000000000000) >>> 13
  let funct3 := l3.setWidth 8
  if opc = 0b00 then (0, funct3, 0, 0)
  else if opc = 0b01 then
    if l3.toNat ≤ 0b011 then (0, funct3, 0, 0)
    else if l3.toNat < 0b101 then
      let opSelect := (inst &&& 0b110000000000) >>> 10
      if opSelect = 0b11 then
        (((inst &&& 0b01100000) >>> 5).setWidth 8, 0, 0,
          ((inst &&& 0b1111110000000000) >>> 10).setWidth 8)
      else (opSelect.setWidth 8, funct3, 0, 0)
    else (0, funct3, 0, 0)
  else if opc = 0b10 then
    if l3 = 0b100 then (0, 0, ((inst &&& 0b1111000000000000) >>> 12).setWidth 8, 0)
    else (0, funct3, 0, 0)
  else (0, 0, 0, 0)

def cEnc (inst : BitVec 16) : BitVec 32 :=
  let (funct2, funct3, funct4, funct6) := cFunct inst
  (inst &&& 0b11).setWidth 32 ||| (funct2.setWidth 32 <<< 2) ||| (funct3.setWidth 32 <<< 4) |||
    (funct4.setWidth 32 <<< 8) ||| (funct6.setWidth 32 <<< 12)

def decodeCFormat (xlen : Nat) (junk : RevInst) (inst : BitVec 16) (entry : RevInstEntry) :
    Except DecodeFault RevInst :=
  match entry.format with
  | .RVCTypeCR => .ok (decodeCRInst junk inst entry)
  | .RVCTypeCI => .ok (decodeCIInst xlen junk inst entry)
  | .RVCTypeCSS => .ok (decodeCSSInst xlen junk inst entry)
  | .RVCTypeCIW => .ok (decodeCIWInst junk inst entry)
  | .RVCTypeCL => .ok (decodeCLInst xlen junk inst entry)
  | .RVCTypeCS => .ok (decodeCSInst xlen junk inst entry)
  | .RVCTypeCA => .ok (decodeCAInst junk inst entry)
  | .RVCTypeCB => .ok (decodeCBInst junk inst entry)
  | .RVCTypeCJ => .ok (decodeCJInst junk inst entry)
  | _ => .error .badFormat

/-- The row for a 16-bit word. A word the coprocessor takes is decoded with the row of c.addi, but
its fields still come from the original bits: `Inst` is cleared, `TmpInst` is what is decoded. -/
def lookupCEntry (tables : Tables) (coProc : Option (BitVec 32 → Bool)) (inst : BitVec 32) :
    Except DecodeFault Nat :=
  let enc := cEnc (inst.setWidth 16)
  match OnceMap.find (cEncToEntry tables) enc with
  | some entry => .ok entry
  | none =>
    match coProc with
    | none => .error (.noEncoding enc)
    | some issueInst =>
      if issueInst inst then
        match OnceMap.find (cEncToEntry tables) 0b01 with
        | some entry => .ok entry
        | none => .error (.noEncoding 0b01)
      else .error (.noEncoding enc)

def decodeCompressed (feature : RevFeature) (tables : Tables)
    (coProc : Option (BitVec 32 → Bool)) (junk : RevInst) (inst : BitVec 32) :
    Except DecodeFault Decoded :=
  if hasCompressed feature then
    match lookupCEntry tables coProc inst with
    | .error fault => .error fault
    | .ok entry =>
      match tables.instTable[entry]? with
      | none => .error (.noEntry entry)
      | some row =>
        match decodeCFormat feature.xlen junk (inst.setWidth 16) row with
        | .error fault => .error fault
        | .ok decoded => .ok { inst := decoded, entry := entry, cost := row.cost }
  else .error .notCompressed

/-- `DecodeInst` on the fetched word; `crack` holds the bits a crack fault sets. -/
def decodeInst (feature : RevFeature) (tables : Tables) (coProc : Option (BitVec 32 → Bool))
    (crack : Option (BitVec 32)) (junk : RevInst) (fetched : BitVec 32) :
    Except DecodeFault Decoded :=
  if fetched = 0 then .error .zeroInst
  else
    let inst := fetched ||| crack.getD 0
    if opcodeOf inst &&& 0b11 = 0b11 then decodeWide tables coProc junk inst
    else decodeCompressed feature tables coProc junk inst

-- Without a crack fault the two low bits of the fetched word choose the half.
theorem decodeInst_wide (feature : RevFeature) (tables : Tables)
    (coProc : Option (BitVec 32 → Bool)) (junk : RevInst) (fetched : BitVec 32)
    (low : opcodeOf fetched &&& 0b11 = 0b11) :
    decodeInst feature tables coProc none junk fetched = decodeWide tables coProc junk fetched := by
  have nonzero : fetched ≠ 0 := by
    intro zero
    rw [zero] at low
    exact absurd low (by decide)
  have intact : fetched ||| (none : Option (BitVec 32)).getD 0 = fetched := BitVec.or_zero
  simp only [decodeInst, if_neg nonzero, intact, if_pos low]

theorem decodeCompressed_found (feature : RevFeature) (tables : Tables)
    (coProc : Option (BitVec 32 → Bool)) (junk : RevInst) (inst : BitVec 32)
    (row : RevInstEntry) (decoded : RevInst) (enabled : hasCompressed feature = true)
    (found : tables.instTable.find? (isCEnc (cEnc (inst.setWidth 16))) = some row)
    (formatted : decodeCFormat feature.xlen junk (inst.setWidth 16) row = .ok decoded) :
    ∃ entry, tables.instTable[entry]? = some row ∧
      decodeCompressed feature tables coProc junk inst =
        .ok { inst := decoded, entry := entry, cost := row.cost } := by
  obtain ⟨entry, bound, listed⟩ := (cEncToEntry_row tables _ row).mp found
  refine ⟨entry, listed, ?_⟩
  simp [decodeCompressed, lookupCEntry, enabled, bound, listed, formatted]

theorem decodeCFormat_compressed (xlen : Nat) (junk : RevInst) (inst : BitVec 16)
    (row : RevInstEntry) (decoded : RevInst)
    (formatted : decodeCFormat xlen junk inst row = .ok decoded) : decoded.compressed = true := by
  unfold decodeCFormat at formatted
  split at formatted <;> cases formatted <;> rfl

theorem lookupCEntry_sound (tables : Tables) (coProc : Option (BitVec 32 → Bool))
    (inst : BitVec 32) (entry : Nat) (found : lookupCEntry tables coProc inst = .ok entry) :
    ∃ key, OnceMap.find (cEncToEntry tables) key = some entry := by
  simp only [lookupCEntry] at found
  split at found
  · cases found
    exact ⟨_, ‹_›⟩
  · split at found
    · cases found
    · split at found
      · split at found
        · cases found
          exact ⟨_, ‹_›⟩
        · cases found
      · cases found

theorem decodeCompressed_entry (feature : RevFeature) (tables : Tables)
    (coProc : Option (BitVec 32 → Bool)) (junk : RevInst) (inst : BitVec 32) (result : Decoded)
    (decoded : decodeCompressed feature tables coProc junk inst = .ok result) :
    ∃ row, tables.instTable[result.entry]? = some row ∧ result.cost = row.cost ∧
      result.inst.compressed = row.compressed := by
  unfold decodeCompressed at decoded
  split at decoded
  · split at decoded
    · cases decoded
    · rename_i entry found
      obtain ⟨key, bound⟩ := lookupCEntry_sound tables coProc inst entry found
      obtain ⟨row, listed, flag⟩ := cEncToEntry_sound tables key entry bound
      simp only [listed] at decoded
      split at decoded
      · cases decoded
      · rename_i fields formatted
        cases decoded
        exact ⟨row, listed, rfl, by
          rw [decodeCFormat_compressed _ junk _ row fields formatted, flag]⟩
  · cases decoded

/-- Every decoded instruction carries the flag of the row it was decoded through. -/
theorem decodeInst_entry (feature : RevFeature) (tables : Tables)
    (coProc : Option (BitVec 32 → Bool)) (crack : Option (BitVec 32)) (junk : RevInst)
    (fetched : BitVec 32) (result : Decoded)
    (decoded : decodeInst feature tables coProc crack junk fetched = .ok result) :
    ∃ row, tables.instTable[result.entry]? = some row ∧ result.cost = row.cost ∧
      result.inst.compressed = row.compressed := by
  unfold decodeInst at decoded
  split at decoded
  · cases decoded
  · simp only at decoded
    split at decoded
    · exact decodeWide_entry tables coProc junk _ result decoded
    · exact decodeCompressed_entry feature tables coProc junk _ result decoded

end RevCPU.DecodeCompressed
