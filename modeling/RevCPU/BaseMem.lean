import RevCPU.BaseArith
import RevCPU.Insns.Loads
import RevCPU.Lib.LittleEndian
import RevCPU.LoadStore
import RevCPU.Tlb
/-!
The integer loads and stores on a memory without a controller, from the encoded word to the
registers and bytes after it. A load goes through the destination register: its bytes land there and
are masked and extended in place. What the register held before is gone after the mask, in all of
them but the 32-bit lhu, which masks the register of the other file.
-/
namespace RevCPU.BaseMem
open Feature InstTable IntTables Seed DecodeBase Mem MemRefine RegFile Insns Manual Isa LoadStore
open BaseArith (BaseAgrees basePlan basePlan_row rowWith rv32i_rows_first)
open LittleEndian (value value_lt value_congr value_mod)

inductive LoadOp where
  | lb | lh | lw | ld | lbu | lhu | lwu
deriving DecidableEq, Repr

namespace LoadOp

def toIOp : LoadOp → IOp
  | lb => .lb | lh => .lh | lw => .lw | ld => .ld | lbu => .lbu | lhu => .lhu | lwu => .lwu

def len : LoadOp → Nat
  | lb | lbu => 1
  | lh | lhu => 2
  | lw | lwu => 4
  | ld => 8

def isSigned : LoadOp → Bool
  | lb | lh | lw => true
  | _ => false

/-- The loaded bytes as the register receives them. -/
def extended {w : Nat} (op : LoadOp) (loaded : BitVec (8 * op.len)) : BitVec w :=
  if op.isSigned then loaded.signExtend w else loaded.setWidth w

-- The function the tables name for an operation.
def func : LoadOp → ImplFunc
  | lb => .rv32i .lb | lh => .rv32i .lh | lw => .rv32i .lw | lbu => .rv32i .lbu
  | lhu => .rv32i .lhu | ld => .rv64i .ld | lwu => .rv64i .lwu

def onRV32 : LoadOp → Bool
  | ld | lwu => false
  | _ => true

end LoadOp

def storeFunc : SOp → ImplFunc
  | .sb => .rv32i .sb | .sh => .rv32i .sh | .sw => .rv32i .sw | .sd => .rv64i .sd

def execMem (feature : RevFeature) (regs : RevRegFile) (inst : RevInst) : ImplFunc → Option Plan
  | .rv32i .lb => some (RV32I.lb feature regs inst)
  | .rv32i .lh => some (RV32I.lh feature regs inst)
  | .rv32i .lw => some (RV32I.lw feature regs inst)
  | .rv32i .lbu => some (RV32I.lbu feature regs inst)
  | .rv32i .lhu => some (RV32I.lhu feature regs inst)
  | .rv32i .sb => some (RV32I.sb feature regs inst)
  | .rv32i .sh => some (RV32I.sh feature regs inst)
  | .rv32i .sw => some (RV32I.sw feature regs inst)
  | .rv64i .lwu => some (RV64I.lwu regs inst)
  | .rv64i .ld => some (RV64I.ld regs inst)
  | .rv64i .sd => some (RV64I.sd regs inst)
  | _ => none

/-- The registers, the load hazard and the memory after a table function. The hazard starts as
`createLoadHazard` makes it. -/
def runLocal (plan : Plan) (hart : Nat) (mem : RevMem) :
    Except MemFault (RevRegFile × Bool × RevMem) :=
  match plan.access with
  | .none => .ok (plan.finish fun _ => 0, false, mem)
  | .read addr len target flags =>
    match mem.readMem hart addr.toNat len target flags with
    | .error fault => .error fault
    | .ok (reply, mem) => .ok (plan.finish reply.target, reply.hazard, mem)
  | .write addr len data =>
    match mem.writeMem hart addr.toNat len data with
    | .error fault => .error fault
    | .ok mem => .ok (plan.finish fun _ => 0, false, mem)

section Bytes
variable (buffer other : Buffer)

theorem append_value {m n : Nat} (x : BitVec m) (y : BitVec n) :
    (x ++ y).toNat = x.toNat * 2 ^ n + y.toNat := by
  rw [BitVec.toNat_append, Nat.shiftLeft_eq, Nat.mul_comm,
    ← Nat.two_pow_add_eq_or_of_lt y.isLt]

theorem word64_value : (word64 buffer).toNat = value buffer 8 := by
  simp only [word64, word32, append_value, value]
  omega

theorem word64_low (len n : Nat) (bits : n = 8 * len) (inside : len ≤ 8) :
    (word64 buffer).setWidth n = BitVec.ofNat n (value buffer len) := by
  have low := value_mod buffer len (8 - len)
  have base : (256 : Nat) ^ len = 2 ^ n := by
    rw [bits, pow_mul]
    norm_num
  rw [Nat.add_sub_cancel' inside, base] at low
  rw [← low, ← word64_value]
  apply BitVec.eq_of_toNat_eq
  rw [BitVec.toNat_setWidth, BitVec.toNat_ofNat, Nat.mod_mod]

theorem low_agree (len n : Nat) (bits : n = 8 * len) (inside : len ≤ 8)
    (agree : ∀ index, index < len → buffer index = other index) :
    (word64 buffer).setWidth n = (word64 other).setWidth n := by
  rw [word64_low buffer len n bits inside, word64_low other len n bits inside,
    value_congr buffer other len agree]

-- Only the low bytes of a value are stored.
theorem bytesOf_low {w : Nat} (x : BitVec w) (len index : Nat) (inside : len ≤ 8)
    (low : index < len) : bytesOf ((x.setWidth (8 * len)).setWidth 64) index = bytesOf x index := by
  apply BitVec.eq_of_getLsbD_eq
  intro i bound
  simp only [bytesOf, BitVec.getLsbD_extractLsb', BitVec.getLsbD_setWidth]
  simp [bound, show 8 * index + i < 64 by omega, show 8 * index + i < 8 * len by omega]

end Bytes

section Manual
variable {w : Nat} (mode : Xlen w) (regs : RevRegFile) (rd rs1 rs2 : BitVec 5) (imm : BitVec 12)

-- The manual's loads as one.
theorem isaStep_load (op : LoadOp) : isaStep mode 4 regs (.int (.i op.toIOp rd rs1 imm)) =
    loadInt mode 4 regs rd rs1 imm op.len fun loaded =>
      op.extended (loaded.setWidth (8 * op.len)) := by
  cases op with
  | ld =>
    have whole : ∀ loaded : BitVec 64, loaded.setWidth w = (loaded.setWidth 64).setWidth w := by
      intro loaded
      rw [BitVec.setWidth_eq]
    exact congrArg (loadInt mode 4 regs rd rs1 imm 8) (funext whole)
  | lb => rfl
  | lh => rfl
  | lw => rfl
  | lbu => rfl
  | lhu => rfl
  | lwu => rfl

theorem LoadOp.len_bounds (op : LoadOp) : 1 ≤ op.len ∧ op.len ≤ 8 := by
  cases op <;> decide

theorem storeLen_bounds (op : SOp) : 1 ≤ storeLen op ∧ storeLen op ≤ 8 := by
  cases op <;> decide

theorem readMem_clears (mem after : RevMem) (hart addr len : Nat) (target : Buffer) (flags : Nat)
    (reply : RevMem.ReadReply) (copied : mem.readMem hart addr len target flags = .ok (reply, after)) :
    reply.hazard = false := by
  unfold RevMem.readMem at copied
  cases located : mem.locate addr len with
  | error fault => simp [located] at copied
  | ok placed =>
    simp only [located] at copied
    split at copied
    · exact absurd copied (by simp)
    · split at copied
      · exact absurd copied (by simp)
      · simp only [Except.ok.injEq, Prod.mk.injEq] at copied
        rw [← copied.1]

theorem runLocal_run (plan : Plan) (hart : Nat) (mem : RevMem) (result : RevRegFile)
    (after : RevMem) (ran : plan.run hart mem = .ok (result, after)) :
    runLocal plan hart mem = .ok (result, false, after) := by
  cases call : plan.access with
  | none =>
    simp only [Plan.run, call, Except.ok.injEq, Prod.mk.injEq] at ran
    simp only [runLocal, call, ran]
  | write addr len data =>
    simp only [Plan.run, call] at ran
    simp only [runLocal, call]
    cases written : mem.writeMem hart addr.toNat len data with
    | error fault => simp [written] at ran
    | ok stored =>
      simp only [written, Except.ok.injEq, Prod.mk.injEq] at ran
      simp only [ran]
  | read addr len target flags =>
    simp only [Plan.run, call] at ran
    simp only [runLocal, call]
    cases copied : mem.readMem hart addr.toNat len target flags with
    | error fault => simp [copied] at ran
    | ok reply =>
      have cleared := readMem_clears mem reply.2 hart addr.toNat len target flags reply.1 copied
      simp only [copied, Except.ok.injEq, Prod.mk.injEq] at ran
      simp only [cleared, ran]

/-- What is assumed of a memory's sizes, and what every call keeps of its page map and TLB. -/
structure Usable (mem : RevMem) : Prop where
  sized : Sized mem
  coherent : Coherent mem
  bounded : mem.tlb.keys.length ≤ mem.tlbSize

def ValidBytes (mem : RevMem) (addr len : Nat) : Prop :=
  ∀ step, step < len → mem.isValidVirtAddr (addr + step) = true

variable (hart : Nat) (mem : RevMem)

/-- The bytes at the effective address, extended. -/
def loadedValue (op : LoadOp) : BitVec w :=
  op.extended (BitVec.ofNat (8 * op.len) (value
    (fun index => byteAt mem ((effective mode regs rs1 imm).toNat + index)) op.len))

variable (usable : Usable mem)
include usable

-- A TLB without room fails at the first address that is translated.
theorem noRoom_faults (noRoom : mem.tlbSize = 0) (addr len : Nat) (nonempty : 1 ≤ len)
    (valid : ValidBytes mem addr len) :
    (∀ target flags, mem.readMem hart addr len target flags = .error .emptyLRU) ∧
      ∀ data, mem.writeMem hart addr len data = .error .emptyLRU := by
  have vacant : mem.tlb.keys = [] := by
    have bounded := usable.bounded
    exact List.eq_nil_of_length_eq_zero (by omega)
  have start : mem.isValidVirtAddr addr = true := valid 0 nonempty
  constructor
  · intro target flags
    have faults := Tlb.calcPhysAddr_noRoom noRoom vacant start (addr >>> addrShift)
    simp only [RevMem.readMem, RevMem.locate, faults]
  · intro data
    have faults : (mem.revokeFuture addr).2.calcPhysAddr (addr >>> addrShift) addr =
        .error .emptyLRU :=
      @Tlb.calcPhysAddr_noRoom (mem.revokeFuture addr).2 addr noRoom vacant start _
    simp only [RevMem.writeMem, RevMem.storeLocal, RevMem.locate, faults]

section NoRoom
variable (noRoom : mem.tlbSize = 0) (plan : Plan) (addr : BitVec 64) (len : Nat)
variable (nonempty : 1 ≤ len) (valid : ValidBytes mem addr.toNat len)
include noRoom nonempty valid

theorem noRoom_load (reads : eraseAccess plan.access = .load addr len) :
    runLocal plan hart mem = .error .emptyLRU := by
  cases call : plan.access with
  | none => simp [call, eraseAccess] at reads
  | write => simp [call, eraseAccess] at reads
  | read place count target flags =>
    rw [call, eraseAccess, IsaAccess.load.injEq] at reads
    have faults := (noRoom_faults hart mem usable noRoom _ _ nonempty valid).1 target flags
    rw [← reads.1, ← reads.2] at faults
    simp only [runLocal, call, faults]

theorem noRoom_store (stored : BitVec 64) (writes : eraseAccess plan.access = .store addr len stored) :
    runLocal plan hart mem = .error .emptyLRU := by
  cases call : plan.access with
  | none => simp [call, eraseAccess] at writes
  | read => simp [call, eraseAccess] at writes
  | write place count data =>
    rw [call, eraseAccess, IsaAccess.store.injEq] at writes
    have faults := (noRoom_faults hart mem usable noRoom _ _ nonempty valid).2 data
    rw [← writes.1, ← writes.2.1] at faults
    simp only [runLocal, call, faults]

end NoRoom

variable (room : mem.tlbSize ≠ 0)
include room

section Room
variable (plan : Plan) (addr : BitVec 64) (len : Nat) (nonempty : 1 ≤ len) (inside : len ≤ 8)
variable (valid : ValidBytes mem addr.toNat len)
include nonempty inside valid

theorem read_run (target : Buffer) (flags : Nat) (reads : plan.access = .read addr len target flags) :
    ∃ after, runLocal plan hart mem =
        .ok (plan.finish (flatLoad (byteAt mem) addr.toNat len target), false, after) ∧
      Unseen mem after := by
  obtain ⟨after, read, unseen⟩ := readMem_valid usable.sized usable.coherent room
    (Nat.le_trans inside (by decide)) (touchable_of_valid nonempty valid) hart target flags
  exact ⟨after, by simp only [runLocal, reads, read], unseen⟩

theorem write_run (data : Buffer) (writes : plan.access = .write addr len data) :
    ∃ after, runLocal plan hart mem = .ok (plan.finish fun _ => 0, false, after) ∧
      Coherent after ∧ layout after = layout mem ∧
      ∀ vAddr, byteAt after vAddr = flatStore (byteAt mem) addr.toNat len data vAddr := by
  obtain ⟨after, stored, kept⟩ := storeLocal_valid usable.sized usable.coherent room
    (Nat.le_trans inside (by decide)) (touchable_of_valid nonempty valid) data
  exact ⟨after, by simp only [runLocal, writes, RevMem.writeMem, stored], kept⟩

end Room

/-- A manual load on valid bytes: the register gets their value, and no byte changes. -/
theorem load_run (op : LoadOp)
    (valid : ValidBytes mem (effective mode regs rs1 imm).toNat op.len) :
    ∃ after, (isaStep mode 4 regs (.int (.i op.toIOp rd rs1 imm))).run hart mem =
        .ok (retire mode 4 regs rd (loadedValue mode regs rs1 imm mem op), after) ∧
      Unseen mem after := by
  obtain ⟨nonempty, inside⟩ := op.len_bounds
  have short : op.len ≤ pageSize := Nat.le_trans inside (by decide)
  obtain ⟨after, read, unseen⟩ := readMem_valid usable.sized usable.coherent room short
    (touchable_of_valid nonempty valid) hart (fun _ => 0) 0
  have bytes := value_congr
    (flatLoad (byteAt mem) (effective mode regs rs1 imm).toNat op.len fun _ => 0)
    (fun index => byteAt mem ((effective mode regs rs1 imm).toNat + index)) op.len
    fun index low => if_pos low
  refine ⟨after, ?_, unseen⟩
  rw [isaStep_load]
  simp only [IsaPlan.run, loadInt, read, word64_low _ op.len _ rfl inside, bytes, loadedValue]

theorem store_run (op : SOp)
    (valid : ValidBytes mem (effective mode regs rs1 imm).toNat (storeLen op)) :
    ∃ after, (isaStep mode 4 regs (.int (.s op rs1 rs2 imm))).run hart mem =
        .ok (skip mode 4 regs, after) ∧ Coherent after ∧ layout after = layout mem ∧
      ∀ vAddr, byteAt after vAddr = flatStore (byteAt mem) (effective mode regs rs1 imm).toNat
        (storeLen op) (bytesOf (reg mode regs rs2)) vAddr := by
  obtain ⟨nonempty, inside⟩ := storeLen_bounds op
  have short : storeLen op ≤ pageSize := Nat.le_trans inside (by decide)
  obtain ⟨after, stored, coherent, same, bytes⟩ := storeLocal_valid usable.sized usable.coherent
    room short (touchable_of_valid nonempty valid)
    (bytesOf (((reg mode regs rs2).setWidth (8 * storeLen op)).setWidth 64))
  refine ⟨after, ?_, coherent, same, ?_⟩
  · simp only [isaStep, intStep, IsaPlan.run, RevMem.writeMem, stored]
  · intro vAddr
    rw [bytes, flatStore, flatStore]
    by_cases within : (effective mode regs rs1 imm).toNat ≤ vAddr ∧
        vAddr < (effective mode regs rs1 imm).toNat + storeLen op
    · rw [if_pos within, if_pos within]
      exact bytesOf_low _ _ _ inside (by omega)
    · rw [if_neg within, if_neg within]

end Manual

section Functions
variable (feature : RevFeature) (regs : RevRegFile) (inst : RevInst) (rd rs1 rs2 : BitVec 5)
variable (imm : BitVec 12) (size : inst.instSize = 4) (dest : inst.rd = rd.setWidth 8)
variable (source : inst.rs1 = rs1.setWidth 8) (stored : inst.rs2 = rs2.setWidth 8)
variable (immediate : inst.imm = imm.setWidth 32)

-- A function that reads at the manual's address and keeps the low bytes of what it reads.
theorem means_load {w : Nat} (mode : Xlen w) (op : LoadOp) (plan : Plan) (target : Buffer)
    (flags : Nat) (reads : plan.access = .read (effective mode regs rs1 imm) op.len target flags)
    (finish : ∀ buffer, plan.finish buffer =
      retire mode 4 regs rd (op.extended ((word64 buffer).setWidth (8 * op.len)))) :
    Means plan (isaStep mode 4 regs (.int (.i op.toIOp rd rs1 imm))) := by
  obtain ⟨-, inside⟩ := op.len_bounds
  rw [isaStep_load]
  refine (means_load_iff plan _ _ _ op.len target flags (by omega) reads rfl ?_).mpr rfl
  intro left right agree
  rw [finish, low_agree left right op.len _ rfl inside agree]
  rfl

section InPlace
variable (n : Nat) (target : Buffer)
include size dest

-- What mask and extension leave of the value read into the register.
theorem signed_wide (positive : 0 < n) (fits : n ≤ 64) :
    let first := regs.setX64 inst.rd (word64 target)
    let second := first.setX64 inst.rd (first.x64 inst.rd &&& BitVec.ofNat 64 (2 ^ n - 1))
    (second.setX64 inst.rd (sext (second.x64 inst.rd) n)).step64 inst =
      retire rv64 4 regs rd (((word64 target).setWidth n).signExtend 64) := by
  intro first second
  rw [← sext_setWidth _ positive fits, ← low_mask, ← step64_retire regs inst size, ← dest,
    RevRegFile.setX64_update _ _ _ (fun x => sext x n),
    RevRegFile.setX64_update _ _ _ (fun x => sext (x &&& BitVec.ofNat 64 (2 ^ n - 1)) n)]

theorem unsigned_wide :
    let first := regs.setX64 inst.rd (word64 target)
    (first.setX64 inst.rd (first.x64 inst.rd &&& BitVec.ofNat 64 (2 ^ n - 1))).step64 inst =
      retire rv64 4 regs rd (((word64 target).setWidth n).setWidth 64) := by
  intro first
  rw [← low_mask, ← step64_retire regs inst size, ← dest,
    RevRegFile.setX64_update _ _ _ (fun x => x &&& BitVec.ofNat 64 (2 ^ n - 1))]

omit size dest in
theorem low_half (fits : n ≤ 32) :
    (word32 target).setWidth n = (word64 target).setWidth n := by
  have low : (word64 target).setWidth 32 = word32 target := BitVec.setWidth_append_eq_right
  rw [← low, BitVec.setWidth_setWidth_of_le _ fits]

theorem signed_narrow (positive : 0 < n) (fits : n ≤ 32) :
    let first := regs.setX32 inst.rd (word32 target)
    let second := first.setX32 inst.rd (first.x32 inst.rd &&& BitVec.ofNat 32 (2 ^ n - 1))
    (second.setX32 inst.rd (sextImm (second.x32 inst.rd) n)).step32 inst =
      retire rv32 4 regs rd (((word64 target).setWidth n).signExtend 32) := by
  intro first second
  rw [← low_half n target fits, ← sextImm_setWidth _ positive fits, ← low_mask,
    ← step32_retire regs inst size, ← dest, RevRegFile.setX32_update _ _ _ (fun x => sextImm x n),
    RevRegFile.setX32_update _ _ _ (fun x => sextImm (x &&& BitVec.ofNat 32 (2 ^ n - 1)) n)]

theorem unsigned_narrow (fits : n ≤ 32) :
    let first := regs.setX32 inst.rd (word32 target)
    (first.setX32 inst.rd (first.x32 inst.rd &&& BitVec.ofNat 32 (2 ^ n - 1))).step32 inst =
      retire rv32 4 regs rd (((word64 target).setWidth n).setWidth 32) := by
  intro first
  rw [← low_half n target fits, ← low_mask, ← step32_retire regs inst size, ← dest,
    RevRegFile.setX32_update _ _ _ (fun x => x &&& BitVec.ofNat 32 (2 ^ n - 1))]

end InPlace

theorem extended_imm : tdU32 (imm.setWidth 32) 12 = imm.signExtend 32 :=
  twosComplement_setWidth imm (by decide) (by decide)

theorem extended_twice : (imm.signExtend 32).signExtend 64 = imm.signExtend 64 :=
  Bits.signExtend_signExtend imm (by decide) (by decide)

section Wide
variable (wide : isRV32 feature = false)
include source immediate

theorem reached_wide : regs.x64 inst.rs1 + (tdU32 inst.imm 12).signExtend 64 =
    effective rv64 regs rs1 imm := by
  rw [immediate, extended_imm, extended_twice, source, effective, BitVec.setWidth_eq]
  rfl

include size dest

theorem lwu_wide : Means (RV64I.lwu regs inst) (isaStep rv64 4 regs (.int (.i .lwu rd rs1 imm))) := by
  apply means_load regs rd rs1 imm rv64 .lwu (RV64I.lwu regs inst) (bytesOf (0 : BitVec 32))
    MemCtrl.F_ZEXT64
  · rw [← reached_wide regs inst rs1 imm source immediate]
    rfl
  · intro buffer
    have low : (word64 buffer).setWidth 32 = word32 buffer := BitVec.setWidth_append_eq_right
    have blank : ∀ x : BitVec 64, 0 ||| x = x := fun _ => BitVec.zero_or
    simp only [RV64I.lwu, dest, step64_retire regs inst size,
      RevRegFile.setX64_update _ _ _ (fun x => x ||| (word32 buffer).setWidth 64), blank]
    rw [← low]
    rfl

theorem ld_wide : Means (RV64I.ld regs inst) (isaStep rv64 4 regs (.int (.i .ld rd rs1 imm))) :=
  (ld_iff regs inst rd rs1 imm size dest).mpr (reached_wide regs inst rs1 imm source immediate)

include wide

omit size dest in
theorem address_wide : RV32I.address feature regs inst inst.imm = effective rv64 regs rs1 imm := by
  rw [← reached_wide regs inst rs1 imm source immediate, RV32I.address, wide]
  rfl

theorem load_wide_means (op : LoadOp) :
    ∃ plan, execMem feature regs inst op.func = some plan ∧
      Means plan (isaStep rv64 4 regs (.int (.i op.toIOp rd rs1 imm))) := by
  have place := address_wide feature regs inst rs1 imm source immediate wide
  cases op with
  | lw =>
    exact ⟨_, rfl, (lw_wide_iff feature regs inst rd rs1 imm size dest wide).mpr place⟩
  | ld => exact ⟨_, rfl, ld_wide regs inst rd rs1 imm size dest source immediate⟩
  | lwu => exact ⟨_, rfl, lwu_wide regs inst rd rs1 imm size dest source immediate⟩
  | lb =>
    refine ⟨_, rfl, ?_⟩
    simp only [RV32I.lb, wide, place, Bool.false_eq_true, if_false]
    apply means_load regs rd rs1 imm rv64 .lb _ _ _ rfl
    intro buffer
    exact signed_wide regs inst rd size dest 8 buffer (by decide) (by decide)
  | lh =>
    refine ⟨_, rfl, ?_⟩
    simp only [RV32I.lh, wide, place, Bool.false_eq_true, if_false]
    apply means_load regs rd rs1 imm rv64 .lh _ _ _ rfl
    intro buffer
    exact signed_wide regs inst rd size dest 16 buffer (by decide) (by decide)
  | lbu =>
    refine ⟨_, rfl, ?_⟩
    simp only [RV32I.lbu, wide, place, Bool.false_eq_true, if_false]
    apply means_load regs rd rs1 imm rv64 .lbu _ _ _ rfl
    intro buffer
    exact unsigned_wide regs inst rd size dest 8 buffer
  | lhu =>
    refine ⟨_, rfl, ?_⟩
    simp only [RV32I.lhu, wide, place, Bool.false_eq_true, if_false]
    apply means_load regs rd rs1 imm rv64 .lhu _ _ _ rfl
    intro buffer
    exact unsigned_wide regs inst rd size dest 16 buffer

omit dest in
include stored in
theorem store_wide_means (op : SOp) :
    ∃ plan, execMem feature regs inst (storeFunc op) = some plan ∧
      Means plan (isaStep rv64 4 regs (.int (.s op rs1 rs2 imm))) := by
  have place := address_wide feature regs inst rs1 imm source immediate wide
  have advance : ∀ buffer loaded,
      (fun _ : Buffer => regs.step64 inst) buffer =
        (isaStep rv64 4 regs (.int (.s op rs1 rs2 imm))).finish loaded :=
    fun _ _ => step64_skip regs inst size
  cases op with
  | sw =>
    refine ⟨_, rfl, (sw_wide_iff feature regs inst rs1 rs2 imm size wide).mpr ⟨place, ?_⟩⟩
    rw [stored]
    rfl
  | sd =>
    have extended : tdU64 ((imm.setWidth 32).setWidth 64) 12 = imm.signExtend 64 := by
      rw [BitVec.setWidth_setWidth (by decide)]
      exact twosComplement_setWidth imm (by decide) (by decide)
    refine ⟨_, rfl, (sd_iff regs inst rs1 rs2 imm size).mpr ⟨?_, ?_⟩⟩
    · rw [immediate, extended, source, effective, BitVec.setWidth_eq]
      rfl
    · rw [stored]
      rfl
  | sb =>
    refine ⟨_, rfl, ?_⟩
    simp only [RV32I.sb, wide, place, stored, Bool.false_eq_true, if_false]
    exact (means_store_iff _ _ _ _ 1 _ (by decide) _ rfl rfl advance).mpr ⟨rfl, rfl⟩
  | sh =>
    refine ⟨_, rfl, ?_⟩
    simp only [RV32I.sh, wide, place, stored, Bool.false_eq_true, if_false]
    refine (means_store_iff _ _ _ _ 2 _ (by decide) _ rfl rfl advance).mpr ⟨rfl, ?_⟩
    rw [BitVec.setWidth_setWidth_of_le _ (show 16 ≤ 64 by decide), BitVec.setWidth_eq]
    rfl

end Wide

section Narrow
variable (narrow : isRV32 feature = true)
include source immediate narrow

theorem address_narrow : RV32I.address feature regs inst inst.imm =
    effective rv32 regs rs1 imm := by
  rw [RV32I.address, if_pos narrow, immediate, extended_imm, source]
  rfl

include size dest

theorem load_narrow_means (op : LoadOp) (half : op.onRV32 = true) (whole : op ≠ .lhu) :
    ∃ plan, execMem feature regs inst op.func = some plan ∧
      Means plan (isaStep rv32 4 regs (.int (.i op.toIOp rd rs1 imm))) := by
  have place := address_narrow feature regs inst rs1 imm source immediate narrow
  cases op with
  | ld => exact absurd half (by decide)
  | lwu => exact absurd half (by decide)
  | lhu => exact absurd rfl whole
  | lw => exact ⟨_, rfl, (lw_narrow_iff feature regs inst rd rs1 imm size dest narrow).mpr place⟩
  | lb =>
    refine ⟨_, rfl, ?_⟩
    simp only [RV32I.lb, narrow, place, if_true]
    apply means_load regs rd rs1 imm rv32 .lb _ _ _ rfl
    intro buffer
    exact signed_narrow regs inst rd size dest 8 buffer (by decide) (by decide)
  | lh =>
    refine ⟨_, rfl, ?_⟩
    simp only [RV32I.lh, narrow, place, if_true]
    apply means_load regs rd rs1 imm rv32 .lh _ _ _ rfl
    intro buffer
    exact signed_narrow regs inst rd size dest 16 buffer (by decide) (by decide)
  | lbu =>
    refine ⟨_, rfl, ?_⟩
    simp only [RV32I.lbu, narrow, place, if_true]
    apply means_load regs rd rs1 imm rv32 .lbu _ _ _ rfl
    intro buffer
    exact unsigned_narrow regs inst rd size dest 8 buffer (by decide)

end Narrow

section Stale
variable (left right : Buffer)

theorem word32_high (agree : ∀ index, 2 ≤ index → index < 4 → left index = right index) :
    word32 left >>> 16 = word32 right >>> 16 := by
  have low : ∀ x y z v : BitVec 8, (x ++ y ++ z ++ v).toNat / 2 ^ 16 = x.toNat * 256 + y.toNat := by
    intro x y z v
    have first := z.isLt
    have second := v.isLt
    simp only [append_value]
    omega
  apply BitVec.eq_of_toNat_eq
  rw [BitVec.toNat_ushiftRight, BitVec.toNat_ushiftRight, Nat.shiftRight_eq_div_pow,
    Nat.shiftRight_eq_div_pow, word32, word32, low, low, agree 2 (by decide) (by decide),
    agree 3 (by decide) (by decide)]

-- A value is its low half exactly if the rest of it is 0.
theorem halfword_iff {w : Nat} (x : BitVec w) (fits : 16 ≤ w) :
    x = (x.setWidth 16).setWidth w ↔ x >>> 16 = 0 := by
  have bound : x.toNat % 2 ^ 16 < 2 ^ w :=
    Nat.lt_of_lt_of_le (Nat.mod_lt _ (by positivity)) (Nat.pow_le_pow_right (by decide) fits)
  have none : (0 : BitVec w).toNat = 0 := Nat.zero_mod _
  rw [← BitVec.toNat_inj, ← BitVec.toNat_inj, BitVec.toNat_setWidth, BitVec.toNat_setWidth,
    Nat.mod_eq_of_lt bound, BitVec.toNat_ushiftRight, Nat.shiftRight_eq_div_pow, none]
  omega

include size dest in
/-- lhu on RV32: nothing masks the upper half of the destination, and the same register of the other
file loses its own. -/
theorem lhu_stale_iff (narrow : isRV32 feature = true) (target : Buffer)
    (stale : ∀ index, 2 ≤ index → index < 4 → target index = bytesOf (regs.x32 inst.rd) index) :
    (RV32I.lhu feature regs inst).finish target =
        retire rv32 4 regs rd (LoadOp.lhu.extended ((word64 target).setWidth 16)) ↔
      reg rv32 regs rd >>> 16 = 0 ∧ reg rv64 regs rd >>> 16 = 0 := by
  have upper : word32 target >>> 16 = reg rv32 regs rd >>> 16 := by
    rw [word32_high target (bytesOf (regs.x32 inst.rd)) stale, word32_bytesOf, dest]
    rfl
  have masked : ∀ x : BitVec 64, x &&& 0xFFFF = (x.setWidth 16).setWidth 64 :=
    fun x => low_mask x 16
  have kept : (regs.setX32 inst.rd (word32 target)).x64 inst.rd = regs.x64 inst.rd :=
    RevRegFile.x64_setX32 ..
  have value : (LoadOp.lhu.extended ((word64 target).setWidth 16) : BitVec 32) =
      ((word32 target).setWidth 16).setWidth 32 := by
    rw [low_half 16 target (by decide)]
    rfl
  have written : (RV32I.lhu feature regs inst).finish target =
      ((regs.setX32 inst.rd (word32 target)).setX64 inst.rd
        (((regs.x64 inst.rd).setWidth 16).setWidth 64)).step32 inst := by
    simp only [RV32I.lhu, narrow, if_true, kept, masked]
  have narrowReg : reg rv32 regs rd = regs.x32 inst.rd := by rw [dest]; rfl
  have wideReg : reg rv64 regs rd = regs.x64 inst.rd := by rw [dest]; rfl
  rw [written, value, ← step32_retire regs inst size, ← dest]
  by_cases zero : inst.rd = 0
  · apply iff_of_true
    · rw [zero]
      rfl
    · rw [narrowReg, wideReg, zero, show regs.x32 0 = 0 from rfl, show regs.x64 0 = 0 from rfl]
      decide
  · rw [← upper, wideReg, ← halfword_iff (word32 target) (by decide),
      ← halfword_iff (regs.x64 inst.rd) (by decide)]
    constructor
    · intro same
      have low := congrArg (fun after => after.x32 inst.rd) same
      have other := congrArg (fun after => after.x64 inst.rd) same
      simp only [RevRegFile.x32_step32, RevRegFile.x64_step32, RevRegFile.x32_setX64,
        RevRegFile.x32_setX32, RevRegFile.x64_setX64, RevRegFile.x64_setX32, if_neg zero] at low other
      exact ⟨low, other.symm⟩
    · rintro ⟨low, other⟩
      rw [← low, ← other, ← kept, RevRegFile.setX64_self]

end Stale

end Functions

section Agreement
variable (feature : RevFeature) (coProc : Option (BitVec 32 → Bool)) (junk : RevInst)
variable (regs : RevRegFile) (hart : Nat) (mem : RevMem)

section Outcomes
variable {w : Nat} (mode : Xlen w)

/-- The load, decoded and run: rd receives the extended bytes, the PC advances, the hazard is clear,
and nothing else changes. -/
def LoadMeets (op : LoadOp) (rd rs1 : BitVec 5) (imm : BitVec 12) : Prop :=
  ∃ plan after, basePlan (execMem feature regs) feature coProc junk
      (encode (.i op.toIOp rd rs1 imm)) = some plan ∧
    runLocal plan hart mem =
      .ok (retire mode 4 regs rd (loadedValue mode regs rs1 imm mem op), false, after) ∧
    Unseen mem after

/-- The store, decoded and run: exactly the low bytes of rs2 are written, and only the PC changes. -/
def StoreMeets (op : SOp) (rs1 rs2 : BitVec 5) (imm : BitVec 12) : Prop :=
  ∃ plan after, basePlan (execMem feature regs) feature coProc junk
      (encode (.s op rs1 rs2 imm)) = some plan ∧
    runLocal plan hart mem = .ok (skip mode 4 regs, false, after) ∧ Coherent after ∧
    layout after = layout mem ∧
    ∀ vAddr, byteAt after vAddr = flatStore (byteAt mem) (effective mode regs rs1 imm).toNat
      (storeLen op) (bytesOf (reg mode regs rs2)) vAddr

variable (usable : Usable mem) (plan : Plan) (rd rs1 rs2 : BitVec 5) (imm : BitVec 12)
include usable

theorem load_meets_iff (op : LoadOp)
    (valid : ValidBytes mem (effective mode regs rs1 imm).toNat op.len)
    (decoded : basePlan (execMem feature regs) feature coProc junk
      (encode (.i op.toIOp rd rs1 imm)) = some plan)
    (means : Means plan (isaStep mode 4 regs (.int (.i op.toIOp rd rs1 imm)))) :
    LoadMeets feature coProc junk regs hart mem mode op rd rs1 imm ↔ mem.tlbSize ≠ 0 := by
  constructor
  · rintro ⟨other, after, same, ran, -⟩ noRoom
    have reads := means.access
    rw [isaStep_load] at reads
    rw [Option.some.inj (same.symm.trans decoded),
      noRoom_load hart mem usable noRoom plan _ _ op.len_bounds.1 valid reads] at ran
    exact absurd ran (by simp)
  · intro room
    obtain ⟨after, ran, unseen⟩ := load_run mode regs rd rs1 imm hart mem usable room op valid
    exact ⟨plan, after, decoded,
      runLocal_run plan hart mem _ after ((means.run hart mem).trans ran), unseen⟩

theorem store_meets_iff (op : SOp)
    (valid : ValidBytes mem (effective mode regs rs1 imm).toNat (storeLen op))
    (decoded : basePlan (execMem feature regs) feature coProc junk
      (encode (.s op rs1 rs2 imm)) = some plan)
    (means : Means plan (isaStep mode 4 regs (.int (.s op rs1 rs2 imm)))) :
    StoreMeets feature coProc junk regs hart mem mode op rs1 rs2 imm ↔ mem.tlbSize ≠ 0 := by
  constructor
  · rintro ⟨other, after, same, ran, -⟩ noRoom
    rw [Option.some.inj (same.symm.trans decoded), noRoom_store hart mem usable noRoom plan _ _
      (storeLen_bounds op).1 valid _ means.access] at ran
    exact absurd ran (by simp)
  · intro room
    obtain ⟨after, ran, coherent, same, bytes⟩ :=
      store_run mode regs rs1 rs2 imm hart mem usable room op valid
    exact ⟨plan, after, decoded,
      runLocal_run plan hart mem _ after ((means.run hart mem).trans ran), coherent, same, bytes⟩

theorem lhu_meets_iff (inst : RevInst) (carries : Carries (.i .lhu rd rs1 imm) inst)
    (narrow : isRV32 feature = true)
    (valid : ValidBytes mem (effective rv32 regs rs1 imm).toNat 2)
    (decoded : basePlan (execMem feature regs) feature coProc junk (encode (.i .lhu rd rs1 imm)) =
      some (RV32I.lhu feature regs inst)) :
    LoadMeets feature coProc junk regs hart mem rv32 .lhu rd rs1 imm ↔
      mem.tlbSize ≠ 0 ∧ reg rv32 regs rd >>> 16 = 0 ∧ reg rv64 regs rd >>> 16 = 0 := by
  obtain ⟨dest, source, -, immediate, size, -⟩ := carries
  have place := address_narrow feature regs inst rs1 imm source immediate narrow
  have reads : (RV32I.lhu feature regs inst).access =
      .read (effective rv32 regs rs1 imm) 2 (bytesOf (regs.x32 inst.rd)) 0 := by
    simp only [RV32I.lhu, narrow, place, if_true]
  by_cases room : mem.tlbSize = 0
  · apply iff_of_false
    · rintro ⟨other, after, same, ran, -⟩
      rw [Option.some.inj (same.symm.trans decoded), noRoom_load hart mem usable room _ _ 2
        (by decide) valid (congrArg eraseAccess reads)] at ran
      exact absurd ran (by simp)
    · exact fun both => both.1 room
  · rw [and_iff_right room]
    obtain ⟨after, ran, unseen⟩ := read_run hart mem usable room (RV32I.lhu feature regs inst) _ 2
      (by decide) (by decide) valid (bytesOf (regs.x32 inst.rd)) 0 reads
    generalize loaded : flatLoad (byteAt mem) (effective rv32 regs rs1 imm).toNat 2
      (bytesOf (regs.x32 inst.rd)) = target at ran
    have fresh : ∀ index, 2 ≤ index → index < 4 → target index = bytesOf (regs.x32 inst.rd) index := by
      intro index above _
      rw [← loaded, flatLoad, if_neg (by omega)]
    have bytes := value_congr target
      (fun index => byteAt mem ((effective rv32 regs rs1 imm).toNat + index)) 2 (by
        intro index low
        rw [← loaded, flatLoad, if_pos low])
    have meaning := lhu_stale_iff feature regs inst rd size dest narrow target fresh
    rw [word64_low target 2 16 rfl (by decide), bytes] at meaning
    rw [← meaning]
    constructor
    · rintro ⟨other, last, same, result, -⟩
      rw [Option.some.inj (same.symm.trans decoded), ran] at result
      exact congrArg Prod.fst (Except.ok.inj result)
    · intro same
      refine ⟨_, after, decoded, ?_, unseen⟩
      rw [ran, same]
      rfl

end Outcomes

section Rows

def named (func : ImplFunc) (row : RevInstEntry) : Bool := decide (row.func = func)

theorem load_listed (op : LoadOp) :
    rowWith (rv32ITable ++ rv64ITable) (.i op.toIOp) (named op.func) = true := by
  cases op <;> decide

theorem load_listed_narrow (op : LoadOp) (half : op.onRV32 = true) :
    rowWith rv32ITable (.i op.toIOp) (named op.func) = true := by
  cases op <;> first | decide | exact absurd half (by decide)

theorem store_listed (op : SOp) :
    rowWith (rv32ITable ++ rv64ITable) (.s op) (named (storeFunc op)) = true := by
  cases op <;> decide

end Rows

variable (base : isModeEnabled feature .RV_I = true)
include base

theorem load_decoded (wide : feature.xlen = 64) (op : LoadOp) (rd rs1 : BitVec 5)
    (imm : BitVec 12) : ∃ inst, Carries (.i op.toIOp rd rs1 imm) inst ∧
      basePlan (execMem feature regs) feature coProc junk (encode (.i op.toIOp rd rs1 imm)) =
        execMem feature regs inst op.func := by
  obtain ⟨row, inst, -, name, -, carries, decoded⟩ := basePlan_row feature (execMem feature regs)
    coProc junk (.i op.toIOp rd rs1 imm) (rv32ITable ++ rv64ITable) (named op.func)
    (base_rows_first feature wide base) (load_listed op)
  rw [of_decide_eq_true name] at decoded
  exact ⟨inst, carries, decoded⟩

theorem load_decoded_narrow (op : LoadOp) (half : op.onRV32 = true) (rd rs1 : BitVec 5)
    (imm : BitVec 12) : ∃ inst, Carries (.i op.toIOp rd rs1 imm) inst ∧
      basePlan (execMem feature regs) feature coProc junk (encode (.i op.toIOp rd rs1 imm)) =
        execMem feature regs inst op.func := by
  obtain ⟨row, inst, -, name, -, carries, decoded⟩ := basePlan_row feature (execMem feature regs)
    coProc junk (.i op.toIOp rd rs1 imm) rv32ITable (named op.func) (rv32i_rows_first feature base)
    (load_listed_narrow op half)
  rw [of_decide_eq_true name] at decoded
  exact ⟨inst, carries, decoded⟩

variable (usable : Usable mem)
include usable

theorem wide_load_iff (wide : feature.xlen = 64) (op : LoadOp) (rd rs1 : BitVec 5)
    (imm : BitVec 12) (valid : ValidBytes mem (effective rv64 regs rs1 imm).toNat op.len) :
    LoadMeets feature coProc junk regs hart mem rv64 op rd rs1 imm ↔ mem.tlbSize ≠ 0 := by
  have rv : isRV32 feature = false := by simp [isRV32, wide]
  obtain ⟨inst, carries, decoded⟩ := load_decoded feature coProc junk regs base wide op rd rs1 imm
  obtain ⟨plan, ran, means⟩ := load_wide_means feature regs inst rd rs1 imm carries.size carries.rd
    carries.rs1 carries.imm rv op
  exact load_meets_iff feature coProc junk regs hart mem rv64 usable plan rd rs1 imm op valid
    (decoded.trans ran) means

/-- The loads and stores of RV64 on local memory, with any operands and any offset that reaches
valid bytes. -/
theorem wide_accesses_meet_iff (wide : feature.xlen = 64) :
    (∀ op rd rs1 imm, ValidBytes mem (effective rv64 regs rs1 imm).toNat op.len →
      (LoadMeets feature coProc junk regs hart mem rv64 op rd rs1 imm ↔ mem.tlbSize ≠ 0)) ∧
    (∀ op rs1 rs2 imm, ValidBytes mem (effective rv64 regs rs1 imm).toNat (storeLen op) →
      (StoreMeets feature coProc junk regs hart mem rv64 op rs1 rs2 imm ↔ mem.tlbSize ≠ 0)) := by
  constructor
  · exact wide_load_iff feature coProc junk regs hart mem base usable wide
  · intro op rs1 rs2 imm valid
    have rv : isRV32 feature = false := by simp [isRV32, wide]
    obtain ⟨row, inst, -, name, -, carries, decoded⟩ := basePlan_row feature (execMem feature regs)
      coProc junk (.s op rs1 rs2 imm) (rv32ITable ++ rv64ITable) (named (storeFunc op))
      (base_rows_first feature wide base) (store_listed op)
    obtain ⟨plan, ran, means⟩ := store_wide_means feature regs inst rs1 rs2 imm carries.size
      carries.rs1 carries.rs2 carries.imm rv op
    rw [of_decide_eq_true name, ran] at decoded
    exact store_meets_iff feature coProc junk regs hart mem rv64 usable plan rs1 rs2 imm op valid
      decoded means

omit base usable

-- x2 points at a page boundary inside the stack; every other register holds a bit above the low half.
def onStack : RevRegFile :=
  { (default : RevRegFile) with
    rv64 := fun index => if index = 2 then 1310720 else 0x10000
    rv32 := fun index => if index = 2 then 1310720 else 0x10000 }

def rv64i : RevFeature := { features := 2, xlen := 64, minCost := 1, maxCost := 1 }

def rv32i : RevFeature := { features := 2, xlen := 32, minCost := 1, maxCost := 1 }

theorem stack_usable (tlbSize : Nat) : Usable (RevMem.new 2097152 tlbSize 1 0) :=
  ⟨sized_stack_only tlbSize, (untouched_new 2097152 tlbSize 1 0).coherent, Nat.zero_le _⟩

theorem onStack_valid (tlbSize len : Nat) (short : len ≤ 8) :
    ValidBytes (RevMem.new 2097152 tlbSize 1 0) 1310718 len := by
  intro step inside
  exact (valid_stack_only tlbSize _).mpr ⟨by omega, by omega⟩

theorem below_boundary :
    (effective rv64 onStack 2 (-2)).toNat = 1310718 ∧
      (effective rv32 onStack 2 (-2)).toNat = 1310718 := by
  decide

-- lw x5, -2(x2) across the page boundary.
theorem wide_accesses_meet_iff_crossing :
    LoadMeets rv64i none default onStack 0 (RevMem.new 2097152 16 1 0) rv64 .lw 5 2 (-2) :=
  ((wide_accesses_meet_iff rv64i none default onStack 0 _ (by decide) (stack_usable 16) rfl).1
    .lw 5 2 (-2) (by rw [below_boundary.1]; exact onStack_valid 16 4 (by decide))).mpr (by decide)

/-- The same load where the TLB has no room. -/
theorem wide_load_no_tlb :
    ¬ LoadMeets rv64i none default onStack 0 (RevMem.new 2097152 0 1 0) rv64 .lw 5 2 (-2) := by
  rw [wide_load_iff rv64i none default onStack 0 _ (by decide) (stack_usable 0) rfl .lw 5 2 (-2)
    (by rw [below_boundary.1]; exact onStack_valid 0 4 (by decide))]
  exact fun room => room rfl

/-- lhu on RV32 finds both registers named rd without an upper half; the other loads need nothing. -/
def Fresh (regs : RevRegFile) (rd : BitVec 5) : LoadOp → Prop
  | .lhu => reg rv32 regs rd >>> 16 = 0 ∧ reg rv64 regs rd >>> 16 = 0
  | _ => True

theorem narrow_loads_meet_iff (base : isModeEnabled feature .RV_I = true) (usable : Usable mem)
    (narrow : feature.xlen = 32) (op : LoadOp) (half : op.onRV32 = true)
    (rd rs1 : BitVec 5) (imm : BitVec 12)
    (valid : ValidBytes mem (effective rv32 regs rs1 imm).toNat op.len) :
    LoadMeets feature coProc junk regs hart mem rv32 op rd rs1 imm ↔
      mem.tlbSize ≠ 0 ∧ Fresh regs rd op := by
  have rv : isRV32 feature = true := by simp [isRV32, narrow]
  obtain ⟨inst, carries, decoded⟩ :=
    load_decoded_narrow feature coProc junk regs base op half rd rs1 imm
  by_cases other : op = .lhu
  · subst other
    exact lhu_meets_iff feature coProc junk regs hart mem usable rd rs1 imm inst carries rv valid
      decoded
  · obtain ⟨plan, ran, means⟩ := load_narrow_means feature regs inst rd rs1 imm carries.size
      carries.rd carries.rs1 carries.imm rv op half other
    have fresh : Fresh regs rd op := by
      cases op <;> first | exact trivial | exact absurd rfl other
    rw [and_iff_left fresh]
    exact load_meets_iff feature coProc junk regs hart mem rv32 usable plan rd rs1 imm op valid
      (decoded.trans ran) means

-- lh x5, -2(x2): the old upper half of x5 is gone.
theorem narrow_loads_meet_iff_lh :
    LoadMeets rv32i none default onStack 0 (RevMem.new 2097152 16 1 0) rv32 .lh 5 2 (-2) :=
  (narrow_loads_meet_iff rv32i none default onStack 0 _ (by decide) (stack_usable 16) rfl .lh
    (by decide) 5 2 (-2) (by rw [below_boundary.2]; exact onStack_valid 16 2 (by decide))).mpr
      ⟨by decide, trivial⟩

/-- lhu x5, -2(x2) with 0x10000 in x5: the bit stays. -/
theorem narrow_lhu_stale :
    ¬ LoadMeets rv32i none default onStack 0 (RevMem.new 2097152 16 1 0) rv32 .lhu 5 2 (-2) := by
  obtain ⟨inst, carries, decoded⟩ := load_decoded_narrow rv32i none default onStack (by decide) .lhu
    (by decide) 5 2 (-2)
  rw [lhu_meets_iff rv32i none default onStack 0 _ (stack_usable 16) 5 2 (-2) inst carries rfl
    (by rw [below_boundary.2]; exact onStack_valid 16 2 (by decide)) decoded]
  rintro ⟨-, stale, -⟩
  exact absurd stale (by decide)

end Agreement
end RevCPU.BaseMem
