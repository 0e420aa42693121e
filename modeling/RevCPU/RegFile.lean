import RevCPU.Feature
import RevCPU.InstTable
import RevCPU.Lib.Bits
import RevCPU.Mem
/-!
The register file of one hart, the arithmetic helpers of RevInstTable.h, and the shape of a table
function. A table function makes at most one call into RevMem, so it is modelled as a `Plan`: the
call, and the register file after it as a function of the buffer the call fills. Registers of the
F and D files are bit patterns. Writes to x0 go to a cell that every later access clears first, so
they are dropped here. `cost`, `trigger` and the scoreboards belong to the pipeline and are not
touched by a table function, except that a load adds a random cost.
-/
namespace RevCPU.RegFile
open Feature InstTable Mem

structure RevRegFile where
  rv32 : BitVec 8 → BitVec 32
  rv64 : BitVec 8 → BitVec 64
  spf : BitVec 8 → BitVec 32
  dpf : BitVec 8 → BitVec 64
  rv32PC : BitVec 32
  rv64PC : BitVec 64
deriving Inhabited

namespace RevRegFile

def x32 (regs : RevRegFile) (index : BitVec 8) : BitVec 32 :=
  if index = 0 then 0 else regs.rv32 index

def x64 (regs : RevRegFile) (index : BitVec 8) : BitVec 64 :=
  if index = 0 then 0 else regs.rv64 index

def setX32 (regs : RevRegFile) (index : BitVec 8) (value : BitVec 32) : RevRegFile :=
  if index = 0 then regs else { regs with rv32 := Function.update regs.rv32 index value }

def setX64 (regs : RevRegFile) (index : BitVec 8) (value : BitVec 64) : RevRegFile :=
  if index = 0 then regs else { regs with rv64 := Function.update regs.rv64 index value }

def setSPF (regs : RevRegFile) (index : BitVec 8) (value : BitVec 32) : RevRegFile :=
  { regs with spf := Function.update regs.spf index value }

def setDPF (regs : RevRegFile) (index : BitVec 8) (value : BitVec 64) : RevRegFile :=
  { regs with dpf := Function.update regs.dpf index value }

/-- `R->RV32_PC += Inst.instSize`. -/
def step32 (regs : RevRegFile) (inst : RevInst) : RevRegFile :=
  { regs with rv32PC := regs.rv32PC + BitVec.ofNat 32 inst.instSize }

def step64 (regs : RevRegFile) (inst : RevInst) : RevRegFile :=
  { regs with rv64PC := regs.rv64PC + BitVec.ofNat 64 inst.instSize }

/-- The branch `if( F->IsRV32() )` of functions that only advance the PC. -/
def step (regs : RevRegFile) (feature : RevFeature) (inst : RevInst) : RevRegFile :=
  if isRV32 feature then regs.step32 inst else regs.step64 inst

section Accessors
variable (regs : RevRegFile) (index other : BitVec 8)

@[simp] theorem x64_setX64 (value : BitVec 64) :
    (regs.setX64 index value).x64 index = if index = 0 then 0 else value := by
  by_cases zero : index = 0#8 <;> simp [x64, setX64, zero]

@[simp] theorem x32_setX32 (value : BitVec 32) :
    (regs.setX32 index value).x32 index = if index = 0 then 0 else value := by
  by_cases zero : index = 0#8 <;> simp [x32, setX32, zero]

theorem x64_setX64_ne (apart : index ≠ other) (value : BitVec 64) :
    (regs.setX64 index value).x64 other = regs.x64 other := by
  by_cases zero : index = 0#8 <;> simp [x64, setX64, zero, apart.symm]

@[simp] theorem x64_step32 (inst : RevInst) : (regs.step32 inst).x64 index = regs.x64 index := rfl

@[simp] theorem x32_step32 (inst : RevInst) : (regs.step32 inst).x32 index = regs.x32 index := rfl

-- The two files do not meet.
@[simp] theorem x64_setX32 (value : BitVec 32) :
    (regs.setX32 index value).x64 other = regs.x64 other := by
  by_cases zero : index = 0#8 <;> simp [x64, setX32, zero]

@[simp] theorem x32_setX64 (value : BitVec 64) :
    (regs.setX64 index value).x32 other = regs.x32 other := by
  by_cases zero : index = 0#8 <;> simp [x32, setX64, zero]

@[simp] theorem setX64_self : regs.setX64 index (regs.x64 index) = regs := by
  by_cases zero : index = 0#8 <;> simp [x64, setX64, zero]

@[simp] theorem setX64_setX64 (first second : BitVec 64) :
    (regs.setX64 index first).setX64 index second = regs.setX64 index second := by
  by_cases zero : index = 0#8 <;> simp [setX64, zero]

@[simp] theorem setX32_setX32 (first second : BitVec 32) :
    (regs.setX32 index first).setX32 index second = regs.setX32 index second := by
  by_cases zero : index = 0#8 <;> simp [setX32, zero]

@[simp] theorem setX64_rv64PC (value : BitVec 64) :
    (regs.setX64 index value).rv64PC = regs.rv64PC := by
  by_cases zero : index = 0#8 <;> simp [setX64, zero]

@[simp] theorem setX32_rv32PC (value : BitVec 32) :
    (regs.setX32 index value).rv32PC = regs.rv32PC := by
  by_cases zero : index = 0#8 <;> simp [setX32, zero]

@[simp] theorem setX64_zero (value : BitVec 64) : regs.setX64 0 value = regs := rfl

@[simp] theorem setX32_zero (value : BitVec 32) : regs.setX32 0 value = regs := rfl

-- A write that stores a value computed from what was just written: only the last one counts.
theorem setX64_update (first : BitVec 64) (update : BitVec 64 → BitVec 64) :
    (regs.setX64 index first).setX64 index (update ((regs.setX64 index first).x64 index)) =
      regs.setX64 index (update first) := by
  by_cases zero : index = 0#8 <;> simp [setX64, x64, zero]

theorem setX32_update (first : BitVec 32) (update : BitVec 32 → BitVec 32) :
    (regs.setX32 index first).setX32 index (update ((regs.setX32 index first).x32 index)) =
      regs.setX32 index (update first) := by
  by_cases zero : index = 0#8 <;> simp [setX32, x32, zero]

-- A register write and a PC write do not meet.
theorem setX64_pc (value pc : BitVec 64) :
    ({ regs with rv64PC := pc } : RevRegFile).setX64 index value =
      { regs.setX64 index value with rv64PC := pc } := by
  unfold setX64
  split <;> rfl

theorem setX32_pc (value pc : BitVec 32) :
    ({ regs with rv32PC := pc } : RevRegFile).setX32 index value =
      { regs.setX32 index value with rv32PC := pc } := by
  unfold setX32
  split <;> rfl

end Accessors
end RevRegFile

-- Sign extension from `bits`, then two negations: the loops set every bit from `bits` on.
def twosComplement {w : Nat} (binary : BitVec w) (bits : Nat) : BitVec w :=
  if binary.getLsbD (bits - 1) then
    (~~~(binary ||| (BitVec.allOnes w <<< bits)) + 1#w) * (-1#w)
  else binary

def tdU32 (binary : BitVec 32) (bits : Nat) : BitVec 32 := twosComplement binary bits

def tdU64 (binary : BitVec 64) (bits : Nat) : BitVec 64 := twosComplement binary bits

def dtU32 (binary : BitVec 32) (bits : Nat) : BitVec 32 := twosComplement binary bits

def dtU64 (binary : BitVec 64) (bits : Nat) : BitVec 64 := twosComplement binary bits

/-- The right-hand side of `SEXT`; the macro's arithmetic is that of `1UL`. -/
def sext (x : BitVec 64) (bits : Nat) : BitVec 64 := Bits.xorSub x bits

/-- `SEXT(Inst.imm, x, bits)`: the 64-bit result is stored in 32 bits. -/
def sextImm (x : BitVec 32) (bits : Nat) : BitVec 32 := (sext (x.setWidth 64) bits).setWidth 32

def bytesOf {w : Nat} (value : BitVec w) : Buffer := fun index => value.extractLsb' (8 * index) 8

def word32 (buffer : Buffer) : BitVec 32 := buffer 3 ++ buffer 2 ++ buffer 1 ++ buffer 0

def word64 (buffer : Buffer) : BitVec 64 :=
  buffer 7 ++ buffer 6 ++ buffer 5 ++ buffer 4 ++ word32 buffer

-- The flags of RevMemCtrl.h that loads pass on.
def F_SEXT32 : Nat := 1 <<< 17
def F_SEXT64 : Nat := 1 <<< 18

inductive Access where
  | none
  | read (addr : BitVec 64) (len : Nat) (target : Buffer) (flags : Nat)
  | write (addr : BitVec 64) (len : Nat) (data : Buffer)

structure Plan where
  access : Access
  finish : Buffer → RevRegFile
  randCost : Bool := false

/-- A table function without a memory call. -/
def Plan.done (regs : RevRegFile) : Plan := { access := .none, finish := fun _ => regs }

def Plan.run (plan : Plan) (hart : Nat) (mem : RevMem) : Except MemFault (RevRegFile × RevMem) :=
  match plan.access with
  | .none => .ok (plan.finish fun _ => 0, mem)
  | .read addr len target flags =>
    match mem.readMem hart addr.toNat len target flags with
    | .error fault => .error fault
    | .ok (reply, mem) => .ok (plan.finish reply.target, mem)
  | .write addr len data =>
    match mem.writeMem hart addr.toNat len data with
    | .error fault => .error fault
    | .ok mem => .ok (plan.finish fun _ => 0, mem)

section Arithmetic
variable {w v : Nat}

theorem twosComplement_eq (binary : BitVec w) (bits : Nat) :
    twosComplement binary bits =
      if binary.getLsbD (bits - 1) then binary ||| (BitVec.allOnes w <<< bits) else binary := by
  unfold twosComplement
  split
  · rw [← BitVec.neg_eq_not_add, BitVec.mul_neg, BitVec.neg_mul, BitVec.mul_one, BitVec.neg_neg]
  · rfl

@[simp] theorem twosComplement_full (binary : BitVec w) : twosComplement binary w = binary := by
  rw [twosComplement_eq]
  split <;> simp

-- A value extended from bit `v - 1` to any width at or above `bits` keeps that extension.
theorem twosComplement_extended {n : Nat} (x : BitVec v) (bits : Nat) (positive : 0 < v)
    (inner : v ≤ bits) (middle : bits ≤ n) (outer : n ≤ w) :
    twosComplement ((x.signExtend n).setWidth w) bits = x.signExtend w := by
  have sign : ((x.signExtend n).setWidth w).getLsbD (bits - 1) = x.msb := by
    rw [BitVec.getLsbD_setWidth, BitVec.getLsbD_signExtend]
    by_cases low : bits - 1 < v
    · have last : bits - 1 = v - 1 := by omega
      simp [last, show v - 1 < w by omega, show v - 1 < n by omega, BitVec.msb_eq_getLsbD_last]
    · simp [low, show bits - 1 < w by omega, show bits - 1 < n by omega]
  rw [twosComplement_eq, sign]
  ext i inside
  cases top : x.msb with
  | false =>
    by_cases low : i < v
    · simp [BitVec.getElem_signExtend, low, show i < n by omega]
    · simp [BitVec.getElem_signExtend, BitVec.getLsbD_signExtend, top, low]
  | true =>
    by_cases low : i < v
    · simp [BitVec.getElem_signExtend, low, show i < n by omega, show i < bits by omega]
    · by_cases reach : i < bits
      · simp [BitVec.getElem_signExtend, top, low, reach, show i < n by omega]
      · simp [BitVec.getElem_signExtend, top, low, reach]

/-- On a value of at most `v` bits the conversion extends its sign. -/
theorem twosComplement_setWidth (x : BitVec v) (positive : 0 < v) (fits : v ≤ w) :
    twosComplement (x.setWidth w) v = x.signExtend w := by
  have extended := twosComplement_extended x v positive (Nat.le_refl v) (Nat.le_refl v) fits
  rwa [BitVec.signExtend_eq] at extended

theorem word32_bytesOf (value : BitVec 32) : word32 (bytesOf value) = value := by
  apply BitVec.eq_of_getLsbD_eq
  intro i inside
  simp only [word32, bytesOf, BitVec.getLsbD_append, BitVec.getLsbD_extractLsb']
  interval_cases i <;>
    simp only [Nat.reduceLT, Nat.reduceSub, decide_true, ↓reduceIte, Bool.true_and]

theorem bytesOf_word64 (buffer : Buffer) (index : Nat) (inside : index < 8) :
    bytesOf (word64 buffer) index = buffer index := by
  apply BitVec.eq_of_getLsbD_eq
  intro i bound
  simp only [word64, word32, bytesOf, BitVec.getLsbD_extractLsb', BitVec.getLsbD_append]
  interval_cases index <;> interval_cases i <;> rfl

theorem word64_congr (left right : Buffer) (agree : ∀ index, index < 8 → left index = right index) :
    word64 left = word64 right := by
  simp only [word64, word32, agree 0 (by decide), agree 1 (by decide), agree 2 (by decide),
    agree 3 (by decide), agree 4 (by decide), agree 5 (by decide), agree 6 (by decide),
    agree 7 (by decide)]

theorem word64_inj (left right : Buffer) :
    word64 left = word64 right ↔ ∀ index < 8, left index = right index := by
  constructor
  · intro same index inside
    rw [← bytesOf_word64 left index inside, same, bytesOf_word64 right index inside]
  · exact word64_congr left right

theorem word64_byte (buffer : Buffer) (index : Nat) (inside : index < 8) :
    (word64 buffer >>> (8 * index)).setWidth 8 = buffer index := by
  rw [← bytesOf_word64 buffer index inside, bytesOf]
  apply BitVec.eq_of_getLsbD_eq
  intro i bound
  simp [bound]

theorem low_mask (x : BitVec w) (n : Nat) :
    x &&& BitVec.ofNat w (2 ^ n - 1) = (x.setWidth n).setWidth w := by
  apply BitVec.eq_of_getLsbD_eq
  intro i inside
  simp only [BitVec.getLsbD_and, BitVec.getLsbD_ofNat, BitVec.getLsbD_setWidth,
    Nat.testBit_two_pow_sub_one]
  simp [inside, Bool.and_comm]

theorem sext_setWidth (x : BitVec v) (positive : 0 < v) (fits : v ≤ 64) :
    sext (x.setWidth 64) v = x.signExtend 64 := Bits.xorSub_setWidth x positive fits

theorem sextImm_setWidth (x : BitVec v) (positive : 0 < v) (fits : v ≤ 32) :
    sextImm (x.setWidth 32) v = x.signExtend 32 := by
  have widened : (x.setWidth 32).setWidth 64 = x.setWidth 64 := by
    ext i inside
    by_cases low : i < v
    · simp [show i < 32 by omega]
    · simp [BitVec.getLsbD_of_ge x i (by omega)]
  rw [sextImm, widened, sext_setWidth x positive (by omega)]
  ext i inside
  simp [BitVec.getElem_signExtend, show i < 64 by omega]

end Arithmetic
end RevCPU.RegFile
