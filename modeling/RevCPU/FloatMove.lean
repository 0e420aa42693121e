import RevCPU.BaseMem
import RevCPU.Insns.FloatMove
import RevCPU.Lib.SignBit
/-!
The instructions that move floating-point bits, as bit patterns: sign injection, the moves between
the files, and the loads and stores. Eight of the fourteen always do what the manual says. The
others take the wrong sign, copy the wrong way, convert what they should copy, or drop the sign of
an offset.
-/
namespace RevCPU.FloatMove
open Feature InstTable Mem MemRefine RegFile Insns Isa SignBit
open BaseMem (runLocal Usable ValidBytes read_run write_run noRoom_load noRoom_store)

inductive MoveOp where
  | fsgnjs | fsgnjns | fsgnjxs | fsgnjd | fsgnjnd | fsgnjxd
  | fmvxw | fmvwx | fmvxd | fmvdx
  | flw | fsw | fld | fsd
deriving DecidableEq, Repr

/-- The bytes an instruction moves to or from memory. -/
def MoveOp.len : MoveOp → Nat
  | .flw | .fsw => 4
  | .fld | .fsd => 8
  | _ => 0

/-- The operands of a decoded instruction, with the immediate as the decoder leaves it. -/
def operands (junk : RevInst) (rd rs1 rs2 : BitVec 5) (imm : BitVec 12) : RevInst :=
  { junk with
    rd := rd.setWidth 8, rs1 := rs1.setWidth 8, rs2 := rs2.setWidth 8, imm := imm.setWidth 32 }

section Targets
variable (narrow : BitVec 64 → BitVec 32) (feature : RevFeature) (regs : RevRegFile)

def exec (inst : RevInst) : MoveOp → Plan
  | .fsgnjs => RV32F.fsgnjs feature regs inst
  | .fsgnjns => RV32F.fsgnjns feature regs inst
  | .fsgnjxs => RV32F.fsgnjxs feature regs inst
  | .fsgnjd => RV32D.fsgnjd feature regs inst
  | .fsgnjnd => RV32D.fsgnjnd feature regs inst
  | .fsgnjxd => RV32D.fsgnjxd feature regs inst
  | .fmvxw => RV32F.fmvxw feature regs inst
  | .fmvwx => RV32F.fmvwx feature regs inst
  | .fmvxd => RV64D.fmvxd regs inst
  | .fmvdx => RV64D.fmvdx regs inst
  | .flw => RV32F.flw feature regs inst
  | .fsw => RV32F.fsw narrow feature regs inst
  | .fld => RV32D.fld feature regs inst
  | .fsd => RV32D.fsd feature regs inst

def place (rs1 : BitVec 5) (imm : BitVec 12) : BitVec 64 :=
  if isRV32 feature then effective rv32 regs rs1 imm else effective rv64 regs rs1 imm

/-- The integer register, a word sign-extended to its width. -/
def PutInteger (inst : RevInst) (word : BitVec 32) (after : RevRegFile) : Prop :=
  after = if isRV32 feature then (regs.setX32 inst.rd word).step32 inst
    else (regs.setX64 inst.rd (word.signExtend 64)).step64 inst

/-- The single register holds `value`. Where singles live in D registers nothing is said of the
upper half of the one that is written. -/
def PutSingle (inst : RevInst) (value : BitVec 32) (after : RevRegFile) : Prop :=
  if isRV32D feature then
    ∃ bits : BitVec 64, bits.setWidth 32 = value ∧
      after = (regs.setDPF inst.rd bits).step feature inst
  else after = (regs.setSPF inst.rd value).step feature inst

def PutDouble (inst : RevInst) (value : BitVec 64) (after : RevRegFile) : Prop :=
  after = (regs.setDPF inst.rd value).step feature inst

def lowWord (index : BitVec 8) : BitVec 32 :=
  if isRV32 feature then regs.x32 index else (regs.x64 index).setWidth 32

end Targets

section Outcomes
variable (regs : RevRegFile) (hart : Nat) (mem : RevMem) (plan : Plan)

def Quiet (result : RevRegFile → Prop) : Prop :=
  ∃ after, runLocal plan hart mem = .ok (after, false, mem) ∧ result after

/-- The registers change with the bytes read, and no byte does. -/
def Reads (result : RevRegFile → Prop) : Prop :=
  ∃ after memory, runLocal plan hart mem = .ok (after, false, memory) ∧ Unseen mem memory ∧
    result after

/-- The store goes to `addr` with the bits of `value`, and exactly these bytes change. -/
def Writes {n : Nat} (addr : BitVec 64) (len : Nat) (value : BitVec n) (kept : RevRegFile) : Prop :=
  eraseAccess plan.access = .store addr len (value.setWidth 64) ∧
  ∃ memory, runLocal plan hart mem = .ok (kept, false, memory) ∧ Coherent memory ∧
    layout memory = layout mem ∧
    ∀ vAddr, byteAt memory vAddr = flatStore (byteAt mem) addr.toNat len (bytesOf value) vAddr

end Outcomes

section Meaning
variable (narrow : BitVec 64 → BitVec 32) (feature : RevFeature) (regs : RevRegFile)
variable (hart : Nat) (mem : RevMem) (junk : RevInst) (rd rs1 rs2 : BitVec 5) (imm : BitVec 12)

def Moves (op : MoveOp) : Prop :=
  let inst := operands junk rd rs1 rs2 imm
  let plan := exec narrow feature regs inst op
  let single := copySingle feature regs
  let flat := fun index => byteAt mem ((place feature regs rs1 imm).toNat + index)
  match op with
  | .fsgnjs => Quiet hart mem plan (PutSingle feature regs inst
      (inject (n := 31) (single inst.rs1) (single inst.rs2).msb))
  | .fsgnjns => Quiet hart mem plan (PutSingle feature regs inst
      (inject (n := 31) (single inst.rs1) (!(single inst.rs2).msb)))
  | .fsgnjxs => Quiet hart mem plan (PutSingle feature regs inst
      (inject (n := 31) (single inst.rs1) ((single inst.rs1).msb ^^ (single inst.rs2).msb)))
  | .fsgnjd => Quiet hart mem plan (PutDouble feature regs inst
      (inject (n := 63) (regs.dpf inst.rs1) (regs.dpf inst.rs2).msb))
  | .fsgnjnd => Quiet hart mem plan (PutDouble feature regs inst
      (inject (n := 63) (regs.dpf inst.rs1) (!(regs.dpf inst.rs2).msb)))
  | .fsgnjxd => Quiet hart mem plan (PutDouble feature regs inst
      (inject (n := 63) (regs.dpf inst.rs1) ((regs.dpf inst.rs1).msb ^^ (regs.dpf inst.rs2).msb)))
  | .fmvxw => Quiet hart mem plan (PutInteger feature regs inst (single inst.rs1))
  | .fmvwx => Quiet hart mem plan (PutSingle feature regs inst (lowWord feature regs inst.rs1))
  | .fmvxd => Quiet hart mem plan
      (· = (regs.setX64 inst.rd (regs.dpf inst.rs1)).step64 inst)
  | .fmvdx => Quiet hart mem plan
      (· = (regs.setDPF inst.rd (regs.x64 inst.rs1)).step64 inst)
  | .flw => Reads hart mem plan (PutSingle feature regs inst
      (BitVec.ofNat 32 (LittleEndian.value flat 4)))
  | .fld => Reads hart mem plan (PutDouble feature regs inst
      (BitVec.ofNat 64 (LittleEndian.value flat 8)))
  | .fsw => Writes hart mem plan (place feature regs rs1 imm) 4 (single inst.rs2)
      (regs.step feature inst)
  | .fsd => Writes hart mem plan (place feature regs rs1 imm) 8 (regs.dpf inst.rs2)
      (regs.step feature inst)

def Preserved : MoveOp → Prop
  | .fsgnjnd => False
  | .fsgnjxd => (regs.dpf (rs1.setWidth 8)).msb = false
  | .fsgnjxs => isRV32D feature = false ∧ isRV32 feature = true →
      ¬ ((regs.spf (rs1.setWidth 8)).msb = true ∧ (regs.spf (rs2.setWidth 8)).msb = true)
  | .fmvdx => regs.dpf (rd.setWidth 8) = reg rv64 regs rs1 ∧
      (rd = 0 ∨ reg rv64 regs rd = regs.dpf (rs1.setWidth 8))
  | .fsw => isRV32D feature = true →
      narrow (regs.dpf (rs2.setWidth 8)) = (regs.dpf (rs2.setWidth 8)).setWidth 32
  | .fsd => imm.msb = false
  | _ => True

end Meaning

section Files
variable (feature : RevFeature) (regs : RevRegFile) (inst : RevInst) (index : BitVec 8)

theorem spf_step : (regs.step feature inst).spf = regs.spf := by
  rw [RevRegFile.step]
  cases isRV32 feature <;> rfl

theorem dpf_step : (regs.step feature inst).dpf = regs.dpf := by
  rw [RevRegFile.step]
  cases isRV32 feature <;> rfl

theorem setSPF_inj (value other : BitVec 32) : (regs.setSPF index value).step feature inst =
    (regs.setSPF index other).step feature inst ↔ value = other := by
  constructor
  · intro same
    have read := congrArg (fun after => after.spf index) same
    simpa only [spf_step, RevRegFile.setSPF, Function.update_self] using read
  · rintro rfl
    rfl

theorem setDPF_inj (value other : BitVec 64) : (regs.setDPF index value).step feature inst =
    (regs.setDPF index other).step feature inst ↔ value = other := by
  constructor
  · intro same
    have read := congrArg (fun after => after.dpf index) same
    simpa only [dpf_step, RevRegFile.setDPF, Function.update_self] using read
  · rintro rfl
    rfl

theorem putSingle_iff (value other : BitVec 32) :
    PutSingle feature regs inst value ((putSingle feature regs inst.rd other).step feature inst) ↔
      other = value := by
  rw [PutSingle, putSingle]
  cases isRV32D feature with
  | false => exact setSPF_inj feature regs inst inst.rd other value
  | true =>
    have low : ((regs.dpf inst.rd).extractLsb' 32 32 ++ other).setWidth 32 = other :=
      BitVec.setWidth_append_eq_right
    simp only [if_true]
    constructor
    · rintro ⟨bits, rfl, same⟩
      rw [← (setDPF_inj feature regs inst inst.rd _ bits).mp same, low]
    · rintro rfl
      exact ⟨_, low, rfl⟩

theorem putDouble_iff (value other : BitVec 64) :
    PutDouble feature regs inst value ((regs.setDPF inst.rd other).step feature inst) ↔
      other = value :=
  setDPF_inj feature regs inst inst.rd other value

-- A copy in one direction is a copy in the other where it changes nothing.
theorem crossed_iff (source : BitVec 8) :
    (regs.setX64 index (regs.dpf source)).step64 inst =
        (regs.setDPF index (regs.x64 source)).step64 inst ↔
      regs.dpf index = regs.x64 source ∧ (index = 0 ∨ regs.x64 index = regs.dpf source) := by
  have kept : (regs.setX64 index (regs.dpf source)).dpf = regs.dpf := by
    rw [RevRegFile.setX64]
    split <;> rfl
  constructor
  · intro same
    have double := congrArg (fun after => after.dpf index) same
    have integer := congrArg (fun after => after.x64 index) same
    constructor
    · exact (congrFun kept index).symm.trans (double.trans (Function.update_self ..))
    · by_cases zero : index = 0
      · exact .inl zero
      · have read : (regs.setX64 index (regs.dpf source)).x64 index = regs.x64 index := integer
        rw [RevRegFile.x64_setX64, if_neg zero] at read
        exact .inr read.symm
  · rintro ⟨double, integer⟩
    have whole : regs.setDPF index (regs.x64 source) = regs := by
      rw [← double, RevRegFile.setDPF, Function.update_eq_self]
    rw [whole]
    rcases integer with zero | same
    · rw [zero]
      rfl
    · rw [← same, RevRegFile.setX64_self]

end Files

section Registers
variable (narrow : BitVec 64 → BitVec 32) (feature : RevFeature) (regs : RevRegFile)
variable (hart : Nat) (mem : RevMem) (junk : RevInst) (rd rs1 rs2 : BitVec 5) (imm : BitVec 12)

theorem quiet_iff (result : RevRegFile → Prop) (after : RevRegFile) :
    Quiet hart mem (Plan.done after) result ↔ result after := by
  constructor
  · rintro ⟨other, ran, holds⟩
    rwa [show after = other from congrArg Prod.fst (Except.ok.inj ran)]
  · exact fun holds => ⟨after, rfl, holds⟩

theorem xor_or_iff (a b : Bool) : (a || b) = (a ^^ b) ↔ ¬ (a = true ∧ b = true) := by
  cases a <;> cases b <;> decide

theorem sign_xor_iff (a b : Bool) : b = (a ^^ b) ↔ a = false := by
  cases a <;> cases b <;> decide

theorem fsgnjxs_iff : Moves narrow feature regs hart mem junk rd rs1 rs2 imm .fsgnjxs ↔
    Preserved narrow feature regs rd rs1 rs2 imm .fsgnjxs := by
  rw [Moves, Preserved]
  simp only [exec, RV32F.fsgnjxs]
  by_cases odd : isRV32D feature = false ∧ isRV32 feature = true
  · rw [if_pos odd, quiet_iff, putSingle_iff, imp_iff_right odd]
    refine (Eq.congr_left (merge_xor_kept (n := 31) _ _)).trans ?_
    rw [inject_inj, xor_or_iff]
    simp only [copySingle, odd.1, Bool.false_eq_true, if_false]
    rfl
  · rw [if_neg odd, quiet_iff, putSingle_iff]
    exact iff_of_true (merge_xor (n := 31) _ _) fun other => absurd other odd

theorem fmvxw_moves : Moves narrow feature regs hart mem junk rd rs1 rs2 imm .fmvxw := by
  rw [Moves]
  simp only [exec, RV32F.fmvxw]
  cases rv : isRV32 feature with
  | true =>
    simp only [if_true]
    rw [quiet_iff, PutInteger, rv]
    rfl
  | false =>
    have masked : ∀ (upper : BitVec 32) (bits : BitVec 32),
        sext ((upper ++ bits) &&& ((1#64 <<< 32) - 1)) 32 = bits.signExtend 64 := by
      intro upper bits
      have low : (upper ++ bits).setWidth 32 = bits := BitVec.setWidth_append_eq_right
      rw [show (1#64 <<< 32) - 1 = BitVec.ofNat 64 (2 ^ 32 - 1) from rfl, low_mask, low]
      exact sext_setWidth bits (by decide) (by decide)
    simp only [Bool.false_eq_true, if_false]
    rw [quiet_iff, PutInteger, rv, ← masked,
      RevRegFile.setX64_update _ _ _ (fun x => sext x 32),
      RevRegFile.setX64_update _ _ _ (fun x => sext (x &&& ((1#64 <<< 32) - 1)) 32)]
    rfl

theorem fmvwx_moves : Moves narrow feature regs hart mem junk rd rs1 rs2 imm .fmvwx := by
  rw [Moves]
  simp only [exec, RV32F.fmvwx, lowWord]
  cases rv : isRV32 feature with
  | true =>
    have stepped : ∀ after : RevRegFile, after.step32 (operands junk rd rs1 rs2 imm) =
        after.step feature (operands junk rd rs1 rs2 imm) := fun _ => (if_pos rv).symm
    simp only [if_true]
    rw [quiet_iff, stepped, putSingle_iff]
  | false =>
    have stepped : ∀ after : RevRegFile, after.step64 (operands junk rd rs1 rs2 imm) =
        after.step feature (operands junk rd rs1 rs2 imm) := by
      intro after
      rw [RevRegFile.step, rv]
      rfl
    simp only [Bool.false_eq_true, if_false]
    rw [quiet_iff, stepped, putSingle_iff]

theorem registers_iff (op : MoveOp) (quiet : op.len = 0) :
    Moves narrow feature regs hart mem junk rd rs1 rs2 imm op ↔
      Preserved narrow feature regs rd rs1 rs2 imm op := by
  cases op with
  | fsgnjxs => exact fsgnjxs_iff narrow feature regs hart mem junk rd rs1 rs2 imm
  | fmvxw => exact iff_of_true (fmvxw_moves narrow feature regs hart mem junk rd rs1 rs2 imm) trivial
  | fmvwx => exact iff_of_true (fmvwx_moves narrow feature regs hart mem junk rd rs1 rs2 imm) trivial
  | fsgnjs =>
    apply iff_of_true _ trivial
    simp only [Moves, exec, RV32F.fsgnjs]
    rw [quiet_iff, putSingle_iff]
    exact merge (n := 31) _ _
  | fsgnjns =>
    apply iff_of_true _ trivial
    simp only [Moves, exec, RV32F.fsgnjns]
    rw [quiet_iff, putSingle_iff]
    exact merge_flipped (n := 31) _ _
  | fsgnjd =>
    apply iff_of_true _ trivial
    simp only [Moves, exec, RV32D.fsgnjd]
    rw [quiet_iff, putDouble_iff]
    exact merge (n := 63) _ _
  | fsgnjnd =>
    simp only [Moves, Preserved, exec, RV32D.fsgnjnd]
    rw [quiet_iff, putDouble_iff]
    refine (Eq.congr_left (merge_others_flipped (n := 63) _ _)).trans ?_
    rw [inject_inj]
    exact iff_of_false (Bool.not_eq_not.mpr rfl) id
  | fsgnjxd =>
    simp only [Moves, Preserved, exec, RV32D.fsgnjxd]
    rw [quiet_iff, putDouble_iff]
    refine (Eq.congr_left (merge_xor_cleared (n := 63) _ _)).trans ?_
    rw [inject_inj, sign_xor_iff]
    rfl
  | fmvxd =>
    apply iff_of_true _ trivial
    simp only [Moves, exec, RV64D.fmvxd]
    rw [quiet_iff]
  | fmvdx =>
    have index : rd = 0 ↔ rd.setWidth 8 = (0 : BitVec 8) :=
      (Bits.setWidth_inj (w := 8) rd 0 (by decide)).symm
    simp only [Moves, Preserved, exec, RV64D.fmvdx]
    rw [quiet_iff, crossed_iff, index]
    rfl
  | flw => exact absurd quiet (by decide)
  | fsw => exact absurd quiet (by decide)
  | fld => exact absurd quiet (by decide)
  | fsd => exact absurd quiet (by decide)

end Registers

section Accesses
variable (narrow : BitVec 64 → BitVec 32) (feature : RevFeature) (regs : RevRegFile)
variable (hart : Nat) (mem : RevMem) (junk : RevInst) (rd rs1 rs2 : BitVec 5) (imm : BitVec 12)

theorem place_eq :
    RV32I.address feature regs (operands junk rd rs1 rs2 imm) (imm.setWidth 32) =
      place feature regs rs1 imm := by
  rw [RV32I.address, BaseMem.extended_imm, BaseMem.extended_twice, place]
  cases isRV32 feature with
  | true => rfl
  | false =>
    simp only [Bool.false_eq_true, if_false]
    rw [effective, BitVec.setWidth_eq]
    rfl

omit regs in
theorem plain_iff {w : Nat} (longer : 12 < w) :
    imm.setWidth w = imm.signExtend w ↔ imm.msb = false := by
  constructor
  · intro same
    have bit := congrArg (fun value => value.getLsbD 12) same
    simp only [BitVec.getLsbD_setWidth, BitVec.getLsbD_signExtend, longer] at bit
    simpa using bit.symm
  · exact fun plain => (BitVec.signExtend_eq_setWidth_of_msb_false plain).symm

-- The address of fsd: the sign of the offset is lost.
theorem unsigned_place_iff :
    (if isRV32 feature then
        (regs.x32 (operands junk rd rs1 rs2 imm).rs1 + imm.setWidth 32).setWidth 64
      else regs.x64 (operands junk rd rs1 rs2 imm).rs1 + (imm.setWidth 32).setWidth 64) =
        place feature regs rs1 imm ↔ imm.msb = false := by
  rw [place]
  cases isRV32 feature with
  | true =>
    simp only [if_true]
    rw [← plain_iff imm (show 12 < 32 by decide), effective, Bits.setWidth_inj _ _ (by decide)]
    exact BitVec.add_right_inj _
  | false =>
    simp only [Bool.false_eq_true, if_false]
    rw [← plain_iff imm (show 12 < 64 by decide), effective, BitVec.setWidth_eq,
      BitVec.setWidth_setWidth (by decide)]
    exact BitVec.add_right_inj _

variable (usable : Usable mem)
include usable

section Loads
variable (addr : BitVec 64) (len : Nat) (plan : Plan) (target : Buffer) (flags : Nat)
variable (reads : plan.access = .read addr len target flags) (nonempty : 1 ≤ len)
variable (inside : len ≤ 8) (valid : ValidBytes mem addr.toNat len)
include reads nonempty inside valid

theorem reads_iff (result : RevRegFile → Prop)
    (meets : result (plan.finish (flatLoad (byteAt mem) addr.toNat len target))) :
    Reads hart mem plan result ↔ mem.tlbSize ≠ 0 := by
  constructor
  · rintro ⟨after, memory, ran, -⟩ noRoom
    rw [noRoom_load hart mem usable noRoom plan addr len nonempty valid
      (congrArg eraseAccess reads)] at ran
    exact absurd ran (by simp)
  · intro room
    obtain ⟨memory, ran, unseen⟩ :=
      read_run hart mem usable room plan addr len nonempty inside valid target flags reads
    exact ⟨_, memory, ran, unseen, meets⟩

end Loads

theorem writes_iff {n : Nat} (addr other : BitVec 64) (len : Nat) (plan : Plan)
    (value stored : BitVec n) (fits : n ≤ 64) (kept : RevRegFile)
    (writes : plan.access = .write other len (bytesOf stored))
    (finish : plan.finish (fun _ => 0) = kept) (nonempty : 1 ≤ len) (inside : len ≤ 8)
    (valid : ValidBytes mem addr.toNat len) :
    Writes hart mem plan addr len value kept ↔
      mem.tlbSize ≠ 0 ∧ other = addr ∧ stored = value := by
  have bits : eraseAccess plan.access = .store addr len (value.setWidth 64) ↔
      other = addr ∧ stored = value := by
    rw [writes, eraseAccess, LoadStore.word64_bytesOf, IsaAccess.store.injEq,
      Bits.setWidth_inj _ _ fits]
    exact and_congr_right fun _ => and_iff_right rfl
  rw [Writes, bits]
  constructor
  · rintro ⟨same, memory, ran, -⟩
    refine ⟨?_, same⟩
    intro noRoom
    rw [noRoom_store hart mem usable noRoom plan addr len nonempty valid _ (bits.mpr same)] at ran
    exact absurd ran (by simp)
  · rintro ⟨room, rfl, rfl⟩
    obtain ⟨memory, ran, rest⟩ :=
      write_run hart mem usable room plan other len nonempty inside valid (bytesOf stored) writes
    rw [finish] at ran
    exact ⟨⟨rfl, rfl⟩, memory, ran, rest⟩

-- The bytes read, as the value of the flat memory.
omit usable in
theorem loaded_value (addr len n : Nat) (target : Buffer) (bits : n = 8 * len) (inside : len ≤ 8) :
    (word64 (flatLoad (byteAt mem) addr len target)).setWidth n =
      BitVec.ofNat n (LittleEndian.value (fun index => byteAt mem (addr + index)) len) := by
  rw [BaseMem.word64_low _ len n bits inside]
  exact congrArg _ (LittleEndian.value_congr _ _ len fun index low => if_pos low)

theorem flw_iff (valid : ValidBytes mem (place feature regs rs1 imm).toNat 4) :
    Moves narrow feature regs hart mem junk rd rs1 rs2 imm .flw ↔ mem.tlbSize ≠ 0 := by
  have address := place_eq feature regs junk rd rs1 rs2 imm
  have loaded := loaded_value mem (place feature regs rs1 imm).toNat 4 32
  simp only [Moves, exec, RV32F.flw]
  cases double : isRV32D feature with
  | true =>
    simp only [if_true]
    apply reads_iff hart mem usable (place feature regs rs1 imm) 4 _ _ 0
      (congrArg (fun addr => Access.read addr 4 _ 0) address) (by decide) (by decide) valid
    rw [PutSingle, double, if_pos rfl]
    exact ⟨_, loaded _ rfl (by decide), rfl⟩
  | false =>
    simp only [Bool.false_eq_true, if_false]
    apply reads_iff hart mem usable (place feature regs rs1 imm) 4 _ _ 0
      (congrArg (fun addr => Access.read addr 4 _ 0) address) (by decide) (by decide) valid
    have low : ∀ buffer, word32 buffer = (word64 buffer).setWidth 32 :=
      fun _ => BitVec.setWidth_append_eq_right.symm
    rw [PutSingle, double, if_neg Bool.false_ne_true]
    simp only [low, loaded _ rfl (by decide)]

theorem fld_iff (valid : ValidBytes mem (place feature regs rs1 imm).toNat 8) :
    Moves narrow feature regs hart mem junk rd rs1 rs2 imm .fld ↔ mem.tlbSize ≠ 0 := by
  have loaded := loaded_value mem (place feature regs rs1 imm).toNat 8 64
  apply reads_iff hart mem usable (place feature regs rs1 imm) 8 _ _ 0
    (congrArg (fun addr => Access.read addr 8 _ 0) (place_eq feature regs junk rd rs1 rs2 imm))
    (by decide) (by decide) valid
  rw [PutDouble, ← loaded _ rfl (by decide), BitVec.setWidth_eq]
  rfl

theorem fsw_iff (valid : ValidBytes mem (place feature regs rs1 imm).toNat 4) :
    Moves narrow feature regs hart mem junk rd rs1 rs2 imm .fsw ↔
      mem.tlbSize ≠ 0 ∧ Preserved narrow feature regs rd rs1 rs2 imm .fsw := by
  have address := place_eq feature regs junk rd rs1 rs2 imm
  refine (writes_iff hart mem usable (place feature regs rs1 imm) _ 4 _ _ _ (by decide) _ rfl rfl
    (by decide) (by decide) valid).trans (and_congr_right fun _ => ?_)
  rw [Preserved, copySingle]
  cases isRV32D feature with
  | true =>
    simp only [if_true, true_imp_iff]
    exact and_iff_right address
  | false =>
    simp only [Bool.false_eq_true, if_false, false_imp_iff, and_true, iff_true]
    exact address

theorem fsd_iff (valid : ValidBytes mem (place feature regs rs1 imm).toNat 8) :
    Moves narrow feature regs hart mem junk rd rs1 rs2 imm .fsd ↔
      mem.tlbSize ≠ 0 ∧ imm.msb = false := by
  refine (writes_iff hart mem usable (place feature regs rs1 imm) _ 8 _ _ _ (by decide) _ rfl rfl
    (by decide) (by decide) valid).trans (and_congr_right fun _ => ?_)
  rw [← unsigned_place_iff feature regs junk rd rs1 rs2 imm]
  exact and_iff_left rfl

/-- The moves of floating-point bits. A load or store also needs a TLB with room. -/
theorem moves_preserve_iff (op : MoveOp)
    (valid : ValidBytes mem (place feature regs rs1 imm).toNat op.len) :
    Moves narrow feature regs hart mem junk rd rs1 rs2 imm op ↔
      (op.len ≠ 0 → mem.tlbSize ≠ 0) ∧ Preserved narrow feature regs rd rs1 rs2 imm op := by
  by_cases quiet : op.len = 0
  · rw [and_iff_right fun touches => absurd quiet touches]
    exact registers_iff narrow feature regs hart mem junk rd rs1 rs2 imm op quiet
  · rw [imp_iff_right quiet]
    cases op with
    | flw =>
      have plain : Preserved narrow feature regs rd rs1 rs2 imm .flw := trivial
      rw [and_iff_left plain]
      exact flw_iff narrow feature regs hart mem junk rd rs1 rs2 imm usable valid
    | fld =>
      have plain : Preserved narrow feature regs rd rs1 rs2 imm .fld := trivial
      rw [and_iff_left plain]
      exact fld_iff narrow feature regs hart mem junk rd rs1 rs2 imm usable valid
    | fsw => exact fsw_iff narrow feature regs hart mem junk rd rs1 rs2 imm usable valid
    | fsd => exact fsd_iff narrow feature regs hart mem junk rd rs1 rs2 imm usable valid
    | _ => exact absurd rfl quiet

end Accesses

def rv64d : RevFeature := { features := 50, xlen := 64, minCost := 1, maxCost := 1 }

-- flw f5, -2(x2) across a page boundary.
theorem moves_preserve_iff_flw : Moves (BitVec.setWidth 32) rv64d BaseMem.onStack 0
    (RevMem.new 2097152 16 1 0) default 5 2 0 (-2) .flw :=
  (moves_preserve_iff (BitVec.setWidth 32) rv64d BaseMem.onStack 0 _ default 5 2 0 (-2)
    (BaseMem.stack_usable 16) .flw
    (by
      rw [show place rv64d BaseMem.onStack 2 (-2) =
        effective rv64 BaseMem.onStack 2 (-2) from rfl, BaseMem.below_boundary.1]
      exact BaseMem.onStack_valid 16 4 (by decide))).mpr
    ⟨fun _ => by decide, trivial⟩

/-- fsgnjn.d f1, f2, f2 is to negate f2. It copies it. -/
theorem fsgnjnd_keeps_sign : ¬ Moves (BitVec.setWidth 32) rv64d BaseMem.onStack 0
    (RevMem.new 2097152 16 1 0) default 1 2 2 0 .fsgnjnd := by
  rw [registers_iff _ _ _ _ _ _ _ _ _ _ .fsgnjnd rfl]
  exact id

end RevCPU.FloatMove
