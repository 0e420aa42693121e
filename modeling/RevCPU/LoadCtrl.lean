import Mathlib.Data.List.Permutation
import RevCPU.Insns.Loads
import RevCPU.MemCtrlServe
/-!
Integer loads of RV64 through the memory controller. The instruction queues its read and masks and
extends the register at once; the bytes arrive later and are fixed up by handleFlagResp, which leaves
a doubleword as it is. So the bytes above the loaded ones are those of the old value's extension. The
integer registers lie in the host memory that the controller writes to, and `val` of lwu, dead when
the response comes, lies apart from them, even by the offset of a second request.
-/
namespace RevCPU.LoadCtrl
open Feature InstTable Mem MemRefine RegFile Insns MemCtrl LoadStore

inductive LoadOp where
  | lb | lh | lw | lbu | lhu | lwu | ld
deriving DecidableEq, Repr

namespace LoadOp

def plan (feature : RevFeature) (regs : RevRegFile) (inst : RevInst) : LoadOp → Plan
  | lb => RV32I.lb feature regs inst
  | lh => RV32I.lh feature regs inst
  | lw => RV32I.lw feature regs inst
  | lbu => RV32I.lbu feature regs inst
  | lhu => RV32I.lhu feature regs inst
  | lwu => RV64I.lwu regs inst
  | ld => RV64I.ld regs inst

def size : LoadOp → Nat
  | lb => 1 | lh => 2 | lw => 4 | lbu => 1 | lhu => 2 | lwu => 4 | ld => 8

def flags : LoadOp → Nat
  | lb | lh | lw => F_SEXT64
  | lbu | lhu | ld => 0
  | lwu => F_ZEXT64

def signed : LoadOp → Bool
  | lb | lh | lw => true
  | _ => false

/-- The value a load makes of what its target holds. -/
def value (held : BitVec 64) : LoadOp → BitVec 64
  | lb => (held.setWidth 8).signExtend 64
  | lh => (held.setWidth 16).signExtend 64
  | lw => (held.setWidth 32).signExtend 64
  | lbu => (held.setWidth 8).setWidth 64
  | lhu => (held.setWidth 16).setWidth 64
  | lwu => (held.setWidth 32).setWidth 64
  | ld => held

/-- The same by bytes: those loaded, and above them the sign or zeros. -/
def byte (load : LoadOp) (data : Buffer) (index : Nat) : Byte :=
  if index < load.size then data index
  else if load.signed && (data (load.size - 1)).msb then 0xFF else 0

end LoadOp

/-- Where the host keeps the RV64 registers and, for lwu, the variable `val`. -/
structure Layout where
  base : Nat
  temp : Nat
  apart : temp + 2 ^ 32 + 16 ≤ base ∨ base + 256 ≤ temp

namespace Layout

def cell (layout : Layout) (index : BitVec 8) : Nat := layout.base + 8 * index.toNat

def reg (layout : Layout) (host : Nat → Byte) (index : BitVec 8) : BitVec 64 :=
  if index = 0 then 0 else load64 host (layout.cell index)

/-- The register file whose RV64 registers the host holds. -/
def view (layout : Layout) (host : Nat → Byte) (regs : RevRegFile) : RevRegFile :=
  { regs with rv64 := fun index => load64 host (layout.cell index) }

def target (layout : Layout) (load : LoadOp) (rd : BitVec 8) : Nat :=
  if load = .lwu then layout.temp else layout.cell rd

end Layout

section Execute

/-- The test of ReadMem for an access that leaves its page. -/
def walksOff (mem : RevMem) (addr len : Nat) : Bool :=
  match mem.calcPhysAddr (addr >>> addrShift) addr with
  | .error _ => false
  | .ok (physAddr, mem) =>
    decide ((RevMem.pageBase (mem.frameOf (addr >>> addrShift)).1 + pageSize) % 2 ^ 32 <
      (physAddr + len) % 2 ^ 64)

/-- ReadMem with a controller: an access that leaves its page is requested twice, both times whole. -/
def readMemCtrl (mem : RevMem) (ctrl : Ctrl) (hart addr len target hazard : Nat)
    (flags : BitVec 32) : Except MemFault Ctrl :=
  match mem.locate addr len with
  | .error fault => .error fault
  | .ok (extent, _) =>
    let ctrl := ctrl.setHazard hazard true
    let ctrl := ctrl.sendREADRequest hart addr extent.physAddr len target hazard flags
    if walksOff mem addr len then
      .ok (ctrl.sendREADRequest hart addr extent.adjPhysAddr len (target + extent.count % 2 ^ 32)
        hazard flags)
    else .ok ctrl

/-- A load with a controller attached, up to its return: the target still holds what it held. -/
def execute (layout : Layout) (feature : RevFeature) (mem : RevMem) (ctrl : Ctrl)
    (regs : RevRegFile) (inst : RevInst) (hart hazard : Nat) (load : LoadOp) :
    Except MemFault Ctrl :=
  let plan := load.plan feature (layout.view ctrl.host regs) inst
  match plan.access with
  | .read addr len buffer flags =>
    match readMemCtrl mem ctrl hart addr.toNat len (layout.target load inst.rd) hazard
        (BitVec.ofNat 32 flags) with
    | .error fault => .error fault
    | .ok sent =>
      .ok { sent with
        host := store64 sent.host (layout.cell inst.rd) ((plan.finish buffer).x64 inst.rd) }
  | _ => .ok ctrl

/-- Clock ticks, and responses with the memory's bytes to the requests of the load. -/
def Delivers (bytes : Buffer) (ptrs : List Nat) (run : Run) : Event → Prop
  | .send _ => False
  | .respond id data => ∃ op, (id, op) ∈ run.ctrl.outstanding ∧ op.ptr ∈ ptrs ∧
      ∀ index < op.size, data index = bytes index
  | .begin => True
  | .next => True

def Delivered (config : Config) (bytes : Buffer) (ptrs : List Nat) : Run → Run → Prop :=
  Relation.ReflTransGen fun run after => ∃ event, Legal run event ∧
    Delivers bytes ptrs run event ∧ run.step config event = .ok after

/-- The memory's bytes from an address on. -/
def contents (mem : RevMem) (hart addr len : Nat) : Buffer :=
  match mem.readMem hart addr len (fun _ => 0) 0 with
  | .error _ => fun _ => 0
  | .ok (reply, _) => reply.target

end Execute

section Values

-- The bytes of a sign extension from `count` bytes, and of a zero extension.
theorem bytesOf_signExtend (held : BitVec 64) (count : Nat) {index : Nat} (positive : 0 < count)
    (inside : index < 8) :
    bytesOf ((held.setWidth (8 * count)).signExtend 64) index =
      if index < count then bytesOf held index
      else if (bytesOf held (count - 1)).msb then 0xFF else 0 := by
  have sign : (held.setWidth (8 * count)).msb = (bytesOf held (count - 1)).msb := by
    simp only [BitVec.msb_eq_getLsbD_last, bytesOf, BitVec.getLsbD_setWidth,
      BitVec.getLsbD_extractLsb']
    rw [show 8 * count - 1 = 8 * (count - 1) + (8 - 1) by omega]
    simp only [show 8 * (count - 1) + (8 - 1) < 8 * count by omega, decide_true, Bool.true_and,
      show 8 - 1 < 8 by decide]
  have bit : ∀ i < 8, (bytesOf ((held.setWidth (8 * count)).signExtend 64) index).getLsbD i =
      if 8 * index + i < 8 * count then (held.setWidth (8 * count)).getLsbD (8 * index + i)
      else (bytesOf held (count - 1)).msb := by
    intro i bound
    rw [bytesOf, BitVec.getLsbD_extractLsb', BitVec.getLsbD_signExtend, sign,
      decide_eq_true bound, decide_eq_true (show 8 * index + i < 64 by omega), Bool.true_and,
      Bool.true_and]
  apply BitVec.eq_of_getLsbD_eq
  intro i bound
  rw [bit i bound]
  by_cases low : index < count
  · rw [if_pos low, if_pos (show 8 * index + i < 8 * count by omega), bytesOf,
      BitVec.getLsbD_setWidth, BitVec.getLsbD_extractLsb', decide_eq_true bound,
      decide_eq_true (show 8 * index + i < 8 * count by omega)]
  · rw [if_neg low, if_neg (show ¬ 8 * index + i < 8 * count by omega)]
    by_cases top : (bytesOf held (count - 1)).msb = true
    · rw [if_pos top, top, show (0xFF : Byte) = BitVec.allOnes 8 from rfl,
        BitVec.getLsbD_allOnes, decide_eq_true bound]
    · rw [if_neg top, Bool.eq_false_iff.mpr top]
      exact BitVec.getLsbD_zero.symm

theorem bytesOf_setWidth_narrow (held : BitVec 64) (count : Nat) {index : Nat} (inside : index < 8) :
    bytesOf ((held.setWidth (8 * count)).setWidth 64) index =
      if index < count then bytesOf held index else 0 := by
  apply BitVec.eq_of_getLsbD_eq
  intro i bound
  simp only [bytesOf, BitVec.getLsbD_extractLsb', BitVec.getLsbD_setWidth, bound, decide_true,
    Bool.true_and, show 8 * index + i < 64 by omega]
  by_cases low : index < count
  · simp [low, bound, show 8 * index + i < 8 * count by omega]
  · simp [low, show ¬ 8 * index + i < 8 * count by omega]

theorem byte_value (load : LoadOp) (held : BitVec 64) (index : Nat) (inside : index < 8) :
    bytesOf (load.value held) index = load.byte (bytesOf held) index := by
  cases load with
  | lb =>
    rw [LoadOp.value, bytesOf_signExtend held 1 (by decide) inside]
    rfl
  | lh =>
    rw [LoadOp.value, bytesOf_signExtend held 2 (by decide) inside]
    rfl
  | lw =>
    rw [LoadOp.value, bytesOf_signExtend held 4 (by decide) inside]
    rfl
  | lbu =>
    rw [LoadOp.value, bytesOf_setWidth_narrow held 1 inside]
    rfl
  | lhu =>
    rw [LoadOp.value, bytesOf_setWidth_narrow held 2 inside]
    rfl
  | lwu =>
    rw [LoadOp.value, bytesOf_setWidth_narrow held 4 inside]
    rfl
  | ld => exact (if_pos inside).symm

theorem byte_congr (load : LoadOp) {data other : Buffer}
    (agree : ∀ index < load.size, data index = other index) : load.byte data = load.byte other := by
  have top : load.size - 1 < load.size := by cases load <;> decide
  funext index
  rw [LoadOp.byte, LoadOp.byte, agree _ top]
  by_cases low : index < load.size
  · rw [if_pos low, if_pos low, agree index low]
  · rw [if_neg low, if_neg low]

theorem bytesOf_zero : bytesOf (0 : BitVec 64) = fun _ => 0 :=
  funext fun _ => BitVec.extractLsb'_zero

theorem byte_lwu_zero (index : Nat) : LoadOp.lwu.byte (fun _ => 0) index = 0 := by
  unfold LoadOp.byte
  split
  · rfl
  · rfl

theorem word64_eq_value (load : LoadOp) (data target : Buffer) :
    word64 data = load.value (word64 target) ↔ ∀ index < 8, data index = load.byte target index := by
  have fits : load.size ≤ 8 := by cases load <;> decide
  have same : load.byte (bytesOf (word64 target)) = load.byte target :=
    byte_congr load fun index inside => bytesOf_word64 target index (by omega)
  have whole : word64 (bytesOf (load.value (word64 target))) = load.value (word64 target) := by
    rw [word64_bytesOf, BitVec.setWidth_eq]
  rw [← whole, word64_inj]
  constructor
  · intro agree index inside
    rw [agree index inside, byte_value load _ index inside, same]
  · intro agree index inside
    rw [agree index inside, byte_value load _ index inside, same]

section Plan
variable (feature : RevFeature) (regs : RevRegFile) (inst : RevInst)
variable (wide : isRV32 feature = false) (load : LoadOp)
include wide

theorem plan_access : (load.plan feature regs inst).access =
    .read (RV32I.address feature regs inst inst.imm) load.size
      (if load = .lwu then bytesOf (0 : BitVec 32) else bytesOf (regs.x64 inst.rd)) load.flags := by
  cases load <;> simp [LoadOp.plan, RV32I.lb, RV32I.lh, RV32I.lw, RV32I.lbu, RV32I.lhu, RV64I.lwu,
    RV64I.ld, RV32I.address, wide, LoadOp.size, LoadOp.flags]

theorem finish_x64 (target : Buffer) (some : inst.rd ≠ 0) :
    ((load.plan feature regs inst).finish target).x64 inst.rd = load.value (word64 target) := by
  have low : ∀ count x, x &&& BitVec.ofNat 64 (2 ^ count - 1) =
      ((x : BitVec 64).setWidth count).setWidth 64 := fun count x => low_mask x count
  have kept : ∀ after : RevRegFile, (after.step64 inst).x64 inst.rd = after.x64 inst.rd :=
    fun _ => rfl
  cases load with
  | lb =>
    simp only [LoadOp.plan, RV32I.lb, wide, Bool.false_eq_true, if_false, kept,
      RevRegFile.x64_setX64, if_neg some]
    rw [show (0xFF : BitVec 64) = BitVec.ofNat 64 (2 ^ 8 - 1) from rfl, low]
    exact sext_setWidth _ (by decide) (by decide)
  | lh =>
    simp only [LoadOp.plan, RV32I.lh, wide, Bool.false_eq_true, if_false, kept,
      RevRegFile.x64_setX64, if_neg some]
    rw [show (0xFFFF : BitVec 64) = BitVec.ofNat 64 (2 ^ 16 - 1) from rfl, low]
    exact sext_setWidth _ (by decide) (by decide)
  | lw =>
    simp only [LoadOp.plan, RV32I.lw, wide, Bool.false_eq_true, if_false, kept,
      RevRegFile.x64_setX64, if_neg some]
    rw [show (0xFFFFFFFF : BitVec 64) = BitVec.ofNat 64 (2 ^ 32 - 1) from rfl, low]
    exact sext_setWidth _ (by decide) (by decide)
  | lbu =>
    simp only [LoadOp.plan, RV32I.lbu, wide, Bool.false_eq_true, if_false, kept,
      RevRegFile.x64_setX64, if_neg some]
    exact low 8 _
  | lhu =>
    simp only [LoadOp.plan, RV32I.lhu, wide, Bool.false_eq_true, if_false, kept,
      RevRegFile.x64_setX64, if_neg some]
    exact low 16 _
  | lwu =>
    simp only [LoadOp.plan, RV64I.lwu, kept, RevRegFile.x64_setX64, if_neg some]
    rw [show (0 : BitVec 64) = 0#64 from rfl, BitVec.zero_or]
    exact congrArg (BitVec.setWidth 64) (word32_congr target target fun _ _ => rfl)
  | ld =>
    simp only [LoadOp.plan, RV64I.ld, kept, RevRegFile.x64_setX64, if_neg some]
    rfl

end Plan

end Values

section Host
variable (host : Nat → Byte) (target : Nat)

theorem store64_load64 : store64 host target (load64 host target) = host := by
  funext at'
  unfold store64 flatStore
  split
  · rename_i inside
    rw [load64, bytesOf_word64 _ _ (by omega)]
    exact congrArg host (by omega)
  · rfl

-- The extension of a doubleword is the identity; only lwu asks for something else.
theorem extendTarget_same (load : LoadOp) (other : load ≠ .lwu) :
    extendTarget host target (BitVec.ofNat 32 load.flags) = host := by
  have wide : extendTarget host target (BitVec.ofNat 32 F_SEXT64) =
      store64 host target (sext (load64 host target) 64) := rfl
  have full : sext (load64 host target) 64 = load64 host target := by
    have same := sext_setWidth (load64 host target) (by decide) (by decide)
    rwa [BitVec.setWidth_eq, BitVec.signExtend_eq] at same
  cases load with
  | lb | lh | lw => rw [LoadOp.flags, wide, full, store64_load64]
  | lbu | lhu | ld => rfl
  | lwu => exact absurd rfl other

theorem extendTarget_apart (flags : BitVec 32) {at' : Nat}
    (outside : ¬ (target ≤ at' ∧ at' < target + 8)) :
    extendTarget host target flags at' = host at' := by
  have narrow : ∀ value, store32 host target value at' = host at' :=
    fun value => flatStore_outside host target _ (by omega)
  have wide : ∀ value, store64 host target value at' = host at' :=
    fun value => flatStore_outside host target _ outside
  unfold extendTarget
  split
  · exact narrow _
  · split
    · exact wide _
    · split
      · exact narrow _
      · split
        · exact wide _
        · rfl

end Host

section Respond
variable {config : Config} {ctrl after : Ctrl} {op : RevMemOp} {id : Nat} {data : Buffer}

theorem respond_host {request : Request} {target : Nat} (found : ctrl.find id = some op)
    (sent : ctrl.wire.find? (fun request => request.id == id) = some request) (same : request.op = op)
    (reads : op.op = .READ) (single : op.splitRqst ≤ 1)
    (plain : ctrl.amoTable.any (Ctrl.ownEntry op) = false) (aimed : op.target = some target)
    (responded : ctrl.respond config id data = .ok after) :
    after.host = extendTarget (flatStore ctrl.host target op.size data) target op.flags := by
  have whole : ¬ 1 < op.splitRqst := Nat.not_lt.mpr single
  have last : ∀ other : Ctrl, other.isLast op = true := by
    intro other
    rw [Ctrl.isLast, decide_eq_true single, Bool.true_or]
  simp only [Ctrl.respond, sent, same, reads, Ctrl.handleReadResp] at responded
  cases claims : ctrl.claim id with
  | error fault =>
    rw [claims] at responded
    cases responded
  | ok claimed =>
    obtain ⟨-, known, opened⟩ := claim_ok claims
    obtain ⟨held, claimedCtrl⟩ := claimed
    simp only at known opened
    rw [found] at known
    obtain rfl := Option.some.inj known
    subst opened
    simp only [claims, Ctrl.copyTarget, aimed, if_neg whole, last, if_true, Ctrl.finishRead,
      Ctrl.handleFlagResp, plain, Bool.false_eq_true, if_false, Nat.add_zero] at responded
    split at responded
    · cases responded
    · rename_i finished finishes
      split at finishes
      · cases finishes
      · rename_i cleared clears
        obtain ⟨hazards, rfl⟩ := clearHazard_ok clears
        cases finishes
        cases responded
        rfl

end Respond

/-- The requests of a load, which differ in where their bytes go. -/
structure Reads where
  ptrs : List Nat
  aim : Nat → Nat
  size : Nat
  flags : BitVec 32

namespace Reads

/-- The host after the response to one of them. -/
def arrive (reads : Reads) (bytes : Buffer) (host : Nat → Byte) (ptr : Nat) : Nat → Byte :=
  extendTarget (flatStore host (reads.aim ptr) reads.size bytes) (reads.aim ptr) reads.flags

structure Owns (reads : Reads) (config : Config) (op : RevMemOp) : Prop where
  kind : op.op = .READ
  size : op.size = reads.size
  flags : op.flags = reads.flags
  target : op.target = some (reads.aim op.ptr)
  pieces : (piecesOf config op).length = 1
  whole : op.splitRqst = 1

end Reads

section Run
variable {config : Config} (reads : Reads) (bytes : Buffer) (start : Nat → Byte)

/-- The host is that of the start with the answers to the load in the order they came. -/
structure Pending (config : Config) (run : Run) : Prop where
  sound : Sound run.ctrl
  owns : ∀ op, Live run.ctrl op → op.ptr ∈ reads.ptrs → reads.Owns config op
  plain : ∀ entry ∈ run.ctrl.amoTable, entry.2 ∉ reads.ptrs
  host : run.ctrl.host =
    (run.ctrl.deleted.filter (· ∈ reads.ptrs)).foldl (reads.arrive bytes) start

variable {reads bytes start}

theorem Pending.answer {run : Run} {ctrl : Ctrl} {id : Nat} {data : Buffer} {op : RevMemOp}
    (pending : Pending reads bytes start config run) (held : (id, op) ∈ run.ctrl.outstanding)
    (mine : op.ptr ∈ reads.ptrs) (same : ∀ index < op.size, data index = bytes index)
    (sound : Sound ctrl) (responded : run.ctrl.respond config id data = .ok ctrl) :
    Pending reads bytes start config { run with ctrl := ctrl } := by
  have owned := pending.owns op (.inr ⟨id, held⟩) mine
  have own : run.ctrl.amoTable.any (Ctrl.ownEntry op) = false := by
    apply List.any_eq_false.mpr
    intro entry member mineToo
    simp only [Ctrl.ownEntry, Bool.and_eq_true, beq_iff_eq] at mineToo
    exact pending.plain entry member (mineToo.2 ▸ mine)
  obtain ⟨request, sent, named⟩ := pending.sound.wired _ held
  have found := pending.sound.find held
  obtain ⟨created, answered⟩ := respond_ok found sent named responded
  have open' : closesAMO run.ctrl op = false := by rw [closesAMO, own, Bool.and_false]
  obtain ⟨rfl, table⟩ := answered.quiet open'
  have kept : ctrl.amoTable = run.ctrl.amoTable := by
    rcases table with kept | ⟨writes, _⟩
    · exact kept
    · rw [owned.kind] at writes
      cases writes
  have last : run.ctrl.isLast op = true := by
    rw [Ctrl.isLast, decide_eq_true (Nat.le_of_eq owned.whole), Bool.true_or]
  constructor
  · exact sound
  · rintro other (queued | ⟨key, flying⟩) member
    · rw [answered.rqstQ, List.append_nil] at queued
      exact pending.owns other (.inl queued) member
    · rw [answered.outstanding] at flying
      exact pending.owns other (.inr ⟨key, List.mem_of_mem_filter flying⟩) member
  · rw [kept]
    exact pending.plain
  · have stored := respond_host found sent named owned.kind (Nat.le_of_eq owned.whole) own
      owned.target responded
    rw [answered.deleted, if_pos last, List.filter_append, List.foldl_append, ← pending.host]
    simp only [List.filter_cons, mine, decide_true, if_true, List.filter_nil, List.foldl_cons,
      List.foldl_nil, Reads.arrive]
    rw [stored, owned.flags, owned.size,
      flatStore_congr run.ctrl.host _ data fun index inside => same index (owned.size ▸ inside)]

-- A turn of the loop moves operations and leaves the host alone.
theorem Pending.turn {run after : Run} (pending : Pending reads bytes start config run)
    (sound : Sound after.ctrl) (live : ∀ op, Live after.ctrl op →
      Live run.ctrl op ∨ ∃ before, Live run.ctrl before ∧ op = split config before)
    (table : after.ctrl.amoTable = run.ctrl.amoTable) (host : after.ctrl.host = run.ctrl.host)
    (deleted : after.ctrl.deleted.filter (· ∈ reads.ptrs) =
      run.ctrl.deleted.filter (· ∈ reads.ptrs)) :
    Pending reads bytes start config after := by
  constructor
  · exact sound
  · intro op alive mine
    rcases live op alive with old | ⟨before, old, rfl⟩
    · exact pending.owns op old mine
    · obtain ⟨kind, size, flags, target, pieces, whole⟩ := pending.owns before old mine
      exact ⟨kind, size, flags, target, pieces, pieces⟩
  · rw [table]
    exact pending.plain
  · rw [host, deleted]
    exact pending.host

theorem Pending.step {run after : Run} {event : Event}
    (pending : Pending reads bytes start config run) (legal : Legal run event)
    (delivers : Delivers bytes reads.ptrs run event) (stepped : run.step config event = .ok after) :
    Pending reads bytes start config after := by
  have move := step_move pending.sound legal stepped
  have sound := move.sound pending.sound
  cases event with
  | send call => exact delivers.elim
  | respond id data =>
    obtain ⟨op, held, mine, same⟩ := delivers
    simp only [Run.step] at stepped
    cases responded : run.ctrl.respond config id data with
    | error fault =>
      rw [responded] at stepped
      cases stepped
    | ok ctrl =>
      rw [responded] at stepped
      cases stepped
      obtain ⟨sound', owns, plain, host⟩ := pending.answer held mine same sound responded
      exact ⟨sound', owns, plain, host⟩
  | begin =>
    cases move with
    | start fences tick opening => exact pending.turn sound (fun op alive => .inl alive) rfl rfl rfl
  | next =>
    cases move with
    | idle tick => exact pending.turn sound (fun op alive => .inl alive) rfl rfl rfl
    | fence tick front op back running taken kind =>
      have member : op ∈ run.ctrl.rqstQ := by simp [taken.queue]
      have other : op.ptr ∉ reads.ptrs := by
        intro mine
        have owned := pending.owns op (.inl member) mine
        rw [owned.kind] at kind
        cases kind
      refine pending.turn sound ?_ rfl rfl ?_
      · rintro queued (waiting | flying)
        · exact .inl (.inl ((sublist_taken taken.queue).subset waiting))
        · exact .inl (.inr flying)
      · simp [fenced, List.filter_append, other]
    | dispatch tick front op back lane next running taken isLane sends =>
      have member : op ∈ run.ctrl.rqstQ := by simp [taken.queue]
      refine pending.turn sound ?_ rfl rfl rfl
      rintro queued (waiting | ⟨id, flying⟩)
      · exact .inl (.inl ((sublist_taken taken.queue).subset waiting))
      · rcases mem_sentOff.mp flying with old | ⟨new, -⟩
        · exact .inl (.inr ⟨id, old⟩)
        · exact .inr ⟨op, .inl member, new⟩

theorem Pending.delivered {run last : Run} (pending : Pending reads bytes start config run)
    (delivered : Delivered config bytes reads.ptrs run last) :
    Pending reads bytes start config last := by
  induction delivered with
  | refl => exact pending
  | tail _ step ih =>
    obtain ⟨event, legal, delivers, stepped⟩ := step
    exact ih.step legal delivers stepped

end Run

section Issue
variable (layout : Layout) (mem : RevMem) (hart addr hazard : Nat) (load : LoadOp) (rd : BitVec 8)

/-- `Cur`: how much of the access lies on its first page. -/
def cursor : Nat :=
  match mem.locate addr load.size with
  | .error _ => 0
  | .ok (extent, _) => extent.count % 2 ^ 32

/-- The requests of a load whose first operation is `first`. -/
def readsOf (first : Nat) : Reads where
  ptrs := if walksOff mem addr load.size then [first, first + 1] else [first]
  aim := fun ptr =>
    if ptr = first then layout.target load rd else layout.target load rd + cursor mem addr load
  size := load.size
  flags := BitVec.ofNat 32 load.flags

variable {layout mem hart addr hazard load rd} {ctrl sent : Ctrl}

def loadRead (layout : Layout) (mem : RevMem) (hart addr hazard : Nat) (load : LoadOp) (rd : BitVec 8)
    (first ptr pAddr : Nat) : RevMemOp :=
  { Ctrl.newOp hart addr pAddr load.size .READ (BitVec.ofNat 32 load.flags) with
      ptr := ptr, target := some ((readsOf layout mem addr load rd first).aim ptr)
      hazard := some hazard }

theorem size_pos (load : LoadOp) : load.size ≠ 0 := by
  cases load <;> decide

theorem readMemCtrl_ok
    (issued : readMemCtrl mem ctrl hart addr load.size (layout.target load rd) hazard
      (BitVec.ofNat 32 load.flags) = .ok sent) :
    ∃ (hazards : Nat → Bool) (physAddrs : Nat → Nat), sent =
      { ctrl with
          rqstQ := ctrl.rqstQ ++ (readsOf layout mem addr load rd ctrl.nextPtr).ptrs.map fun ptr =>
            loadRead layout mem hart addr hazard load rd ctrl.nextPtr ptr (physAddrs ptr)
          nextPtr := ctrl.nextPtr + (readsOf layout mem addr load rd ctrl.nextPtr).ptrs.length
          hazards := hazards } := by
  unfold readMemCtrl at issued
  cases located : mem.locate addr load.size with
  | error fault =>
    rw [located] at issued
    cases issued
  | ok placed =>
    obtain ⟨extent, after⟩ := placed
    have cur : cursor mem addr load = extent.count % 2 ^ 32 := by simp only [cursor, located]
    simp only [located, Ctrl.sendREADRequest, if_neg (size_pos load)] at issued
    by_cases off : walksOff mem addr load.size = true
    · rw [if_pos off] at issued
      refine ⟨sent.hazards,
        fun ptr => if ptr = ctrl.nextPtr then extent.physAddr else extent.adjPhysAddr, ?_⟩
      rw [← Except.ok.inj issued]
      simp [readsOf, off, loadRead, Ctrl.enqueue, Ctrl.setHazard, cur]
    · rw [if_neg off] at issued
      refine ⟨sent.hazards, fun _ => extent.physAddr, ?_⟩
      rw [← Except.ok.inj issued]
      simp [readsOf, off, loadRead, Ctrl.enqueue, Ctrl.setHazard]

theorem readsOf_fresh {first ptr : Nat} (mine : ptr ∈ (readsOf layout mem addr load rd first).ptrs) :
    first ≤ ptr := by
  unfold readsOf at mine
  split at mine
  · rcases List.mem_pair.mp mine with rfl | rfl
    · exact Nat.le_refl _
    · exact Nat.le_succ _
  · rw [List.mem_singleton.mp mine]

theorem piecesOf_single {config : Config} {op : RevMemOp}
    (single : getNumCacheLines config op.addr op.size = 1) : (piecesOf config op).length = 1 := by
  unfold piecesOf
  split
  · simp [cachePieces, single, tailPieces]
  · rfl

theorem sound_issue {run : Run} (sound : Sound run.ctrl) (hazards : Nat → Bool)
    (physAddrs : Nat → Nat) :
    Sound
      { run.ctrl with
          rqstQ := run.ctrl.rqstQ ++
            (readsOf layout mem addr load rd run.ctrl.nextPtr).ptrs.map fun ptr =>
              loadRead layout mem hart addr hazard load rd run.ctrl.nextPtr ptr (physAddrs ptr)
          nextPtr := run.ctrl.nextPtr + (readsOf layout mem addr load rd run.ctrl.nextPtr).ptrs.length
          hazards := hazards } := by
  let read := fun ptr =>
    loadRead layout mem hart addr hazard load rd run.ctrl.nextPtr ptr (physAddrs ptr)
  have once := sound.enqueue (read run.ctrl.nextPtr) run.ctrl.amoTable hazards rfl rfl
  by_cases off : walksOff mem addr load.size = true
  · have twice := once.enqueue (read (run.ctrl.nextPtr + 1)) run.ctrl.amoTable hazards rfl rfl
    apply twice.of_eq <;> simp [readsOf, off, read]
  · apply once.of_eq <;> simp [readsOf, off, read]

theorem Pending.issue {config : Config} {good : Run → Event → Prop} {run : Run} {bytes : Buffer}
    (reached : Reached config good run)
    (single : getNumCacheLines config addr load.size = 1)
    (issued : readMemCtrl mem run.ctrl hart addr load.size (layout.target load rd) hazard
      (BitVec.ofNat 32 load.flags) = .ok sent) (host : Nat → Byte) :
    Pending (readsOf layout mem addr load rd run.ctrl.nextPtr) bytes host config
      { run with ctrl := { sent with host := host } } := by
  have sound := reached_sound reached
  have traced := reached_traced reached
  obtain ⟨hazards, physAddrs, rfl⟩ := readMemCtrl_ok issued
  have old : ∀ ptr < run.ctrl.nextPtr, ptr ∉ (readsOf layout mem addr load rd run.ctrl.nextPtr).ptrs :=
    fun ptr earlier mine => Nat.not_lt.mpr (readsOf_fresh mine) earlier
  constructor
  · exact (sound_issue sound hazards physAddrs).of_eq rfl rfl rfl rfl rfl rfl rfl
  · rintro op (queued | flying) mine
    · rcases List.mem_append.mp queued with waiting | new
      · exact absurd mine (old op.ptr (sound.live_lt (.inl waiting)))
      · obtain ⟨ptr, member, rfl⟩ := List.mem_map.mp new
        exact ⟨rfl, rfl, rfl, rfl, piecesOf_single single, rfl⟩
    · exact absurd mine (old op.ptr (sound.live_lt (.inr flying)))
  · intro entry member
    exact old entry.2 (traced.bounded entry member)
  · have none : run.ctrl.deleted.filter
        (· ∈ (readsOf layout mem addr load rd run.ctrl.nextPtr).ptrs) = [] := by
      apply List.filter_eq_nil_iff.mpr
      intro ptr ended mine
      exact old ptr (sound.deleted_lt ended) (of_decide_eq_true mine)
    simp only
    rw [none]
    rfl

end Issue

section Held
variable (load : LoadOp) (old bytes : Buffer)

/-- What the register holds once the responses are in. A second request comes with the offset of its
bytes and whether it is answered last. -/
def held : Option (Nat × Bool) → Buffer
  | none => flatStore (load.byte old) 0 load.size bytes
  | some (cur, true) => flatStore (flatStore (load.byte old) 0 load.size bytes) cur load.size bytes
  | some (cur, false) => flatStore (flatStore (load.byte old) cur load.size bytes) 0 load.size bytes

/-- The second request repeats what belongs where it writes, and the bytes above the loaded ones that
no request writes extend the old value as they would the new one. -/
structure Kept (second : Option (Nat × Bool)) : Prop where
  repeats : ∀ cur late, second = some (cur, late) → ∀ index < 8, cur ≤ index → index < cur + load.size →
    (late = true ∨ load.size ≤ index) → bytes (index - cur) = load.byte bytes index
  above : load.signed = true → ∀ index < 8, load.size ≤ index →
    (∀ cur late, second = some (cur, late) → index < cur ∨ cur + load.size ≤ index) →
      (old (load.size - 1)).msb = (bytes (load.size - 1)).msb

variable {load old bytes}

theorem byte_above {index : Nat} (high : load.size ≤ index) :
    load.byte old index = load.byte bytes index ↔
      (load.signed = true → (old (load.size - 1)).msb = (bytes (load.size - 1)).msb) := by
  rw [LoadOp.byte, LoadOp.byte, if_neg (Nat.not_lt.mpr high), if_neg (Nat.not_lt.mpr high)]
  cases load.signed with
  | false => simp
  | true =>
    cases (old (load.size - 1)).msb with
    | false => cases (bytes (load.size - 1)).msb <;> simp
    | true => cases (bytes (load.size - 1)).msb <;> simp

-- Where the second request is the last to write, and where the first is, or none.
theorem held_second {cur : Nat} {late : Bool} {index : Nat} (lower : cur ≤ index)
    (upper : index < cur + load.size) (wins : late = true ∨ load.size ≤ index) :
    held load old bytes (some (cur, late)) index = bytes (index - cur) := by
  cases late with
  | true => exact if_pos ⟨lower, upper⟩
  | false =>
    have high := wins.resolve_left (by decide)
    rw [held, flatStore_outside _ _ _ (by omega)]
    exact if_pos ⟨lower, upper⟩

theorem held_first {second : Option (Nat × Bool)} {index : Nat} (low : index < load.size)
    (wins : ∀ cur late, second = some (cur, late) → late = true → index < cur ∨ cur + load.size ≤ index) :
    held load old bytes second index = bytes index := by
  have mine : ∀ data, flatStore data 0 load.size bytes index = bytes index :=
    fun data => if_pos ⟨Nat.zero_le _, by omega⟩
  match second with
  | none => exact mine _
  | some (cur, true) =>
    have out := wins cur true rfl rfl
    rw [held, flatStore_outside _ _ _ (by omega)]
    exact mine _
  | some (cur, false) => exact mine _

theorem held_old {second : Option (Nat × Bool)} {index : Nat} (high : load.size ≤ index)
    (untouched : ∀ cur late, second = some (cur, late) → index < cur ∨ cur + load.size ≤ index) :
    held load old bytes second index = load.byte old index := by
  have mine : ∀ data : Buffer, flatStore data 0 load.size bytes index = data index :=
    fun data => flatStore_outside _ _ _ (by omega)
  match second with
  | none => exact mine _
  | some (cur, true) =>
    have out := untouched cur true rfl
    rw [held, flatStore_outside _ _ _ (by omega), mine]
  | some (cur, false) =>
    have out := untouched cur false rfl
    rw [held, mine, flatStore_outside _ _ _ (by omega)]

theorem held_iff {second : Option (Nat × Bool)} :
    (∀ index < 8, held load old bytes second index = load.byte bytes index) ↔
      Kept load old bytes second := by
  constructor
  · intro same
    constructor
    · rintro cur late rfl index inside lower upper wins
      rw [← same index inside, held_second lower upper wins]
    · intro signed index inside high untouched
      have equal := same index inside
      rw [held_old high untouched] at equal
      exact (byte_above high).mp equal signed
  · intro kept index inside
    by_cases touched : ∃ cur late, second = some (cur, late) ∧ cur ≤ index ∧ index < cur + load.size ∧
        (late = true ∨ load.size ≤ index)
    · obtain ⟨cur, late, rfl, lower, upper, wins⟩ := touched
      rw [held_second lower upper wins, kept.repeats cur late rfl index inside lower upper wins]
    · by_cases low : index < load.size
      · rw [LoadOp.byte, if_pos low]
        apply held_first low
        intro cur late second last
        by_contra between
        exact touched ⟨cur, late, second, by omega, by omega, .inl last⟩
      · have high := Nat.le_of_not_lt low
        have untouched : ∀ cur late, second = some (cur, late) →
            index < cur ∨ cur + load.size ≤ index := by
          intro cur late second
          by_contra between
          exact touched ⟨cur, late, second, by omega, by omega, .inr high⟩
        rw [held_old high untouched, byte_above high]
        intro signed
        exact kept.above signed index inside high untouched

end Held

section Window
variable {layout : Layout} {mem : RevMem} {addr first : Nat} {load : LoadOp} {rd : BitVec 8}
variable {bytes : Buffer}

def window (layout : Layout) (rd : BitVec 8) (host : Nat → Byte) : Buffer :=
  fun index => host (layout.cell rd + index)

theorem window_store (host : Nat → Byte) (offset len : Nat) (data : Buffer) :
    window layout rd (flatStore host (layout.cell rd + offset) len data) =
      flatStore (window layout rd host) offset len data := by
  funext index
  unfold window flatStore
  by_cases inside : offset ≤ index ∧ index < offset + len
  · rw [if_pos inside, if_pos ⟨by omega, by omega⟩]
    exact congrArg data (by omega)
  · rw [if_neg inside, if_neg (by omega)]

theorem flatStore_at {data other : Buffer} {offset len index : Nat} {stored : Buffer}
    (agree : data index = other index) :
    flatStore data offset len stored index = flatStore other offset len stored index := by
  unfold flatStore
  rw [agree]

theorem window_arrive (other : load ≠ .lwu) (host : Nat → Byte) (ptr offset : Nat)
    (aim : (readsOf layout mem addr load rd first).aim ptr = layout.cell rd + offset) :
    window layout rd ((readsOf layout mem addr load rd first).arrive bytes host ptr) =
      flatStore (window layout rd host) offset load.size bytes := by
  rw [Reads.arrive, aim, readsOf, extendTarget_same _ _ load other, window_store]

-- `val` and whatever a second request writes behind it are no registers.
theorem window_arrive_lwu (range : rd.toNat < 32) (host : Nat → Byte) (ptr : Nat) {index : Nat}
    (inside : index < 8) :
    window layout rd ((readsOf layout mem addr .lwu rd first).arrive bytes host ptr) index =
      window layout rd host index := by
  have offset : ∃ offset < 2 ^ 32, (readsOf layout mem addr .lwu rd first).aim ptr =
      layout.temp + offset := by
    have short : cursor mem addr .lwu < 2 ^ 32 := by
      unfold cursor
      split
      · decide
      · exact Nat.mod_lt _ (by decide)
    by_cases isFirst : ptr = first
    · exact ⟨0, by decide, by simp [readsOf, isFirst, Layout.target]⟩
    · exact ⟨_, short, by simp [readsOf, isFirst, Layout.target]⟩
  obtain ⟨offset, short, aim⟩ := offset
  have apart := layout.apart
  have size : (readsOf layout mem addr .lwu rd first).size = 4 := rfl
  rw [window, window, Reads.arrive, aim, size, Layout.cell, extendTarget_apart _ _ _ (by omega),
    flatStore_outside _ _ _ (by omega)]

end Window

section Complete
variable {config : Config} {layout : Layout} {mem : RevMem} {addr first : Nat} {load : LoadOp}
variable {rd : BitVec 8} {bytes : Buffer} {start : Nat → Byte} {last : Run}

/-- The second request of a load, as the order of the completions has it. -/
def secondOf (mem : RevMem) (addr : Nat) (load : LoadOp) (first : Nat) (deleted : List Nat) :
    Option (Nat × Bool) :=
  if walksOff mem addr load.size then
    some (cursor mem addr load,
      decide (deleted.filter (· ∈ [first, first + 1]) = [first, first + 1]))
  else none

theorem Pending.order (pending : Pending (readsOf layout mem addr load rd first) bytes start config last)
    (ended : ∀ ptr ∈ (readsOf layout mem addr load rd first).ptrs, ptr ∈ last.ctrl.deleted) :
    (last.ctrl.deleted.filter (· ∈ (readsOf layout mem addr load rd first).ptrs)).Perm
      (readsOf layout mem addr load rd first).ptrs := by
  apply (List.perm_ext_iff_of_nodup (pending.sound.deleted_nodup.filter _) ?_).mpr
  · intro ptr
    simp only [List.mem_filter, decide_eq_true_eq]
    exact ⟨fun both => both.2, fun mine => ⟨ended ptr mine, mine⟩⟩
  · unfold readsOf
    split
    · simp
    · simp

theorem Pending.holds (other : load ≠ .lwu)
    (pending : Pending (readsOf layout mem addr load rd first) bytes start config last)
    (ended : ∀ ptr ∈ (readsOf layout mem addr load rd first).ptrs, ptr ∈ last.ctrl.deleted)
    {old : Buffer} (began : ∀ index < 8, window layout rd start index = load.byte old index) :
    ∀ index < 8, window layout rd last.ctrl.host index =
      held load old bytes (secondOf mem addr load first last.ctrl.deleted) index := by
  intro index inside
  have aimed : ∀ ptr offset, (readsOf layout mem addr load rd first).aim ptr = layout.cell rd + offset →
      ∀ host, window layout rd ((readsOf layout mem addr load rd first).arrive bytes host ptr) =
        flatStore (window layout rd host) offset load.size bytes :=
    fun ptr offset aim host => window_arrive other host ptr offset aim
  have one := aimed first 0 (by simp [readsOf, Layout.target, other])
  have two := aimed (first + 1) (cursor mem addr load) (by simp [readsOf, Layout.target, other])
  have order := pending.order ended
  have host := pending.host
  by_cases off : walksOff mem addr load.size = true
  · have ptrs : (readsOf layout mem addr load rd first).ptrs = [first, first + 1] := if_pos off
    rw [ptrs] at order host
    rw [secondOf, if_pos off]
    rcases List.perm_pair.mp order with forward | backward
    · rw [forward, List.foldl_cons, List.foldl_cons, List.foldl_nil] at host
      rw [host, two, one, forward, decide_eq_true rfl]
      exact flatStore_at (flatStore_at (began index inside))
    · rw [backward, List.foldl_cons, List.foldl_cons, List.foldl_nil] at host
      rw [host, one, two, backward, decide_eq_false (by simp)]
      exact flatStore_at (flatStore_at (began index inside))
  · have ptrs : (readsOf layout mem addr load rd first).ptrs = [first] := if_neg off
    rw [ptrs] at order host
    rw [List.perm_singleton.mp order, List.foldl_cons, List.foldl_nil] at host
    rw [secondOf, if_neg off, host, one]
    exact flatStore_at (began index inside)

theorem Pending.spares (range : rd.toNat < 32)
    (pending : Pending (readsOf layout mem addr .lwu rd first) bytes start config last) {index : Nat}
    (inside : index < 8) : window layout rd last.ctrl.host index = window layout rd start index := by
  rw [pending.host]
  generalize last.ctrl.deleted.filter (· ∈ (readsOf layout mem addr .lwu rd first).ptrs) = order
  clear pending
  induction order generalizing start with
  | nil => rfl
  | cons ptr rest ih =>
    rw [List.foldl_cons, ih]
    exact window_arrive_lwu range start ptr inside

end Complete

section Agreement
variable {layout : Layout} {feature : RevFeature} (wide : isRV32 feature = false)
variable {config : Config} {good : Run → Event → Prop} {before last : Run} {sent : Ctrl}
variable {mem after : RevMem} {regs result : RevRegFile} {inst : RevInst} {hart hazard : Nat}
variable {load : LoadOp}

def addressOf (layout : Layout) (feature : RevFeature) (host : Nat → Byte) (regs : RevRegFile)
    (inst : RevInst) : Nat :=
  (RV32I.address feature (layout.view host regs) inst inst.imm).toNat

/-- When a load leaves with a controller what it leaves without one. -/
def Unharmed (load : LoadOp) (old bytes : Buffer) (second : Option (Nat × Bool)) : Prop :=
  if load = .lwu then ∀ index < 4, bytes index = 0 else Kept load old bytes second

include wide

-- Without a controller the register is loaded from the memory's bytes.
theorem local_value (some : inst.rd ≠ 0)
    (ran : (load.plan feature (layout.view before.ctrl.host regs) inst).run hart mem =
      .ok (result, after)) :
    ∃ target, result.x64 inst.rd = load.value (word64 target) ∧ ∀ index < load.size, target index =
      contents mem hart (addressOf layout feature before.ctrl.host regs inst) load.size index := by
  have short : load.size < 2 ^ 32 := by cases load <;> decide
  simp only [Plan.run, plan_access feature _ inst wide load] at ran
  rcases readMem_target mem hart _ load.size _ (fun _ => 0) load.flags 0 short with
    ⟨fault, failed, -⟩ | ⟨reply, other, next, reads, again, same⟩
  · rw [failed] at ran
    cases ran
  · rw [reads] at ran
    cases ran
    refine ⟨reply.target, finish_x64 feature _ inst wide load reply.target some, ?_⟩
    intro index inside
    rw [contents, addressOf, again]
    exact same index inside

-- With one it is extended from what it held.
theorem controller_value
    (executed : execute layout feature mem before.ctrl regs inst hart hazard load = .ok sent) :
    ∃ queued value, readMemCtrl mem before.ctrl hart
        (addressOf layout feature before.ctrl.host regs inst) load.size (layout.target load inst.rd)
        hazard (BitVec.ofNat 32 load.flags) = .ok queued ∧
      sent = { queued with host := store64 queued.host (layout.cell inst.rd) value } ∧
      (inst.rd ≠ 0 →
        value = load.value (if load = .lwu then 0 else layout.reg before.ctrl.host inst.rd)) := by
  simp only [execute, plan_access feature _ inst wide load] at executed
  split at executed
  · cases executed
  · rename_i queued issued
    cases executed
    refine ⟨queued, _, issued, rfl, ?_⟩
    intro some
    rw [finish_x64 feature _ inst wide load _ some]
    split
    · rw [word64_bytesOf]
      rfl
    · rw [word64_bytesOf, BitVec.setWidth_eq]
      rfl

theorem reg_iff (some : inst.rd ≠ 0) (host : Nat → Byte)
    (ran : (load.plan feature (layout.view before.ctrl.host regs) inst).run hart mem =
      .ok (result, after)) :
    layout.reg host inst.rd = result.x64 inst.rd ↔ ∀ index < 8, window layout inst.rd host index =
      load.byte (contents mem hart (addressOf layout feature before.ctrl.host regs inst) load.size)
        index := by
  obtain ⟨target, loaded, same⟩ := local_value wide some ran
  rw [Layout.reg, if_neg some, loaded, ← byte_congr load same]
  exact word64_eq_value load _ target

/-- A load of RV64 through a controller leaves what it leaves without one only to the zero register,
or where the extension of the old value fits the new one and, across pages, both requests fit. -/
theorem controlled_load_iff (reached : Reached config good before) (range : inst.rd.toNat < 32)
    (single : getNumCacheLines config (addressOf layout feature before.ctrl.host regs inst)
      load.size = 1)
    (executed : execute layout feature mem before.ctrl regs inst hart hazard load = .ok sent)
    (ran : (load.plan feature (layout.view before.ctrl.host regs) inst).run hart mem =
      .ok (result, after))
    (delivered : Delivered config
      (contents mem hart (addressOf layout feature before.ctrl.host regs inst) load.size)
      (readsOf layout mem (addressOf layout feature before.ctrl.host regs inst) load inst.rd
        before.ctrl.nextPtr).ptrs { before with ctrl := sent } last)
    (ended : ∀ ptr ∈ (readsOf layout mem (addressOf layout feature before.ctrl.host regs inst) load
      inst.rd before.ctrl.nextPtr).ptrs, ptr ∈ last.ctrl.deleted) :
    layout.reg last.ctrl.host inst.rd = result.x64 inst.rd ↔
      inst.rd = 0 ∨ Unharmed load (bytesOf (layout.reg before.ctrl.host inst.rd))
        (contents mem hart (addressOf layout feature before.ctrl.host regs inst) load.size)
        (secondOf mem (addressOf layout feature before.ctrl.host regs inst) load before.ctrl.nextPtr
          last.ctrl.deleted) := by
  by_cases zero : inst.rd = 0
  · simp [Layout.reg, RevRegFile.x64, zero]
  · obtain ⟨queued, value, issued, rfl, extended⟩ := controller_value wide executed
    have pending := (Pending.issue reached single issued _).delivered delivered
    have began : ∀ index < 8, window layout inst.rd (store64 queued.host (layout.cell inst.rd) value)
        index = bytesOf value index :=
      fun index inside => flatStore_inside _ _ _ inside
    rw [reg_iff wide zero last.ctrl.host ran, or_iff_right zero]
    by_cases isLwu : load = .lwu
    · subst isLwu
      have cleared : ∀ index < 8, window layout inst.rd last.ctrl.host index = 0 := by
        intro index inside
        rw [pending.spares range inside, began index inside, extended zero, if_pos rfl,
          byte_value .lwu _ index inside, bytesOf_zero]
        exact byte_lwu_zero index
      rw [Unharmed, if_pos rfl]
      constructor
      · intro same index inside
        have equal := same index (by omega)
        rw [cleared index (by omega), LoadOp.byte,
          if_pos (show index < LoadOp.lwu.size from inside)] at equal
        exact equal.symm
      · intro zeros index inside
        rw [cleared index inside, ← byte_lwu_zero index]
        exact congrFun (byte_congr .lwu fun index low => (zeros index low).symm) index
    · have start : ∀ index < 8, window layout inst.rd
          (store64 queued.host (layout.cell inst.rd) value) index =
            load.byte (bytesOf (layout.reg before.ctrl.host inst.rd)) index := by
        intro index inside
        rw [began index inside, extended zero, if_neg isLwu, byte_value load _ index inside]
      have final := pending.holds isLwu ended start
      rw [Unharmed, if_neg isLwu, ← held_iff]
      constructor
      · intro same index inside
        rw [← final index inside, same index inside]
      · intro same index inside
        rw [final index inside, same index inside]

omit wide

def delivering (bytes : Buffer) (ptrs : List Nat) (run : Run) : Event → Bool
  | .send _ => false
  | .respond id data => run.ctrl.outstanding.any fun entry => entry.1 == id &&
      decide (entry.2.ptr ∈ ptrs) && decide (∀ index < entry.2.size, data index = bytes index)
  | .begin => true
  | .next => true

theorem delivering_delivers {bytes : Buffer} {ptrs : List Nat} {run : Run} {event : Event}
    (passes : delivering bytes ptrs run event = true) : Delivers bytes ptrs run event := by
  cases event with
  | send call => cases passes
  | respond id data =>
    obtain ⟨⟨key, op⟩, member, test⟩ := List.any_eq_true.mp passes
    simp only [Bool.and_eq_true, beq_iff_eq, decide_eq_true_eq] at test
    obtain ⟨⟨rfl, mine⟩, same⟩ := test
    exact ⟨op, member, mine, same⟩
  | begin => trivial
  | next => trivial

theorem follow_delivered {bytes : Buffer} {ptrs : List Nat} {run : Run} {events : List Event}
    (followed : follow config (delivering bytes ptrs) run events = some last) :
    Delivered config bytes ptrs run last := by
  induction events generalizing run with
  | nil =>
    cases followed
    exact .refl
  | cons event rest ih =>
    rw [follow] at followed
    split at followed
    · rename_i possible
      rw [Bool.and_eq_true, isLegal_iff] at possible
      split at followed
      · cases followed
      · rename_i next stepped
        exact .head ⟨event, possible.1, delivering_delivers possible.2, stepped⟩ (ih followed)
    · cases followed

variable (layout feature config mem inst hart hazard load)

/-- A load in both ways from the first state, with a list of events after it. -/
def bothWays (host : Nat → Byte) (events : List Event) : Option (Ctrl × RevRegFile × Run) :=
  let before : Run := ⟨Ctrl.new host fun _ => false, none, [], []⟩
  let addr := addressOf layout feature host default inst
  match execute layout feature mem before.ctrl default inst hart hazard load,
      (load.plan feature (layout.view host default) inst).run hart mem with
  | .ok sent, .ok (result, _) =>
    let ptrs := (readsOf layout mem addr load inst.rd 0).ptrs
    match follow config (delivering (contents mem hart addr load.size) ptrs)
        { before with ctrl := sent } events with
    | some last => if ∀ ptr ∈ ptrs, ptr ∈ last.ctrl.deleted then some (sent, result, last) else none
    | none => none
  | _, _ => none

/-- A load in both ways that comes to its end. -/
def Compared (host : Nat → Byte) (result : RevRegFile) (last : Run) : Prop :=
  ∃ sent after,
    execute layout feature mem (Ctrl.new host fun _ => false) default inst hart hazard load = .ok sent ∧
    (load.plan feature (layout.view host default) inst).run hart mem = .ok (result, after) ∧
    Delivered config (contents mem hart (addressOf layout feature host default inst) load.size)
      (readsOf layout mem (addressOf layout feature host default inst) load inst.rd 0).ptrs
      ⟨sent, none, [], []⟩ last ∧
    ∀ ptr ∈ (readsOf layout mem (addressOf layout feature host default inst) load inst.rd 0).ptrs,
      ptr ∈ last.ctrl.deleted

variable {layout feature config mem inst hart hazard load}

theorem bothWays_seen {host : Nat → Byte} {events : List Event} {β : Type} {outcome : β}
    (observe : RevRegFile × Run → β)
    (seen : (bothWays layout feature config mem inst hart hazard load host events).map
      (fun ends => observe ends.2) = some outcome) :
    ∃ result last, Compared layout feature config mem inst hart hazard load host result last ∧
      observe (result, last) = outcome := by
  obtain ⟨⟨sent, result, last⟩, both, observed⟩ := Option.map_eq_some_iff.mp seen
  simp only [bothWays] at both
  split at both
  · rename_i sent result after executed ran
    split at both
    · rename_i last followed
      split at both
      · rename_i ended
        cases both
        exact ⟨result, last, ⟨sent, after, executed, ran, follow_delivered followed, ended⟩, observed⟩
      · cases both
    · cases both
  · cases both

/-- Registers at 0, with x6 at a page of the stack. -/
def sampleLayout : Layout := ⟨0, 256, by decide⟩

def sampleHost : Nat → Byte := fun at' => if at' = 50 then 0x14 else 0

def filled (byte : Byte) : RevMem := { RevMem.new 2097152 16 1 0 with physMem := fun _ => byte }

def sampleInst : RevInst := { (default : RevInst) with rd := 5, rs1 := 6 }

def sampleFeature : RevFeature := { features := 2, xlen := 64, minCost := 1, maxCost := 1 }

/-- A byte whose sign is that of the old value, through the controller and without it. -/
theorem controlled_load_positive :
    ∃ result last, Compared sampleLayout sampleFeature narrow (filled 0x7F) sampleInst 0 0 .lb
      sampleHost result last ∧ sampleLayout.reg last.ctrl.host 5 = result.x64 5 := by
  have seen : (bothWays sampleLayout sampleFeature narrow (filled 0x7F) sampleInst 0 0 .lb sampleHost
      [.begin, .next, .next, .respond 0 fun _ => 0x7F]).map (fun _ => true) = some true := by
    decide
  obtain ⟨result, last, compared, -⟩ := bothWays_seen (fun _ => true) seen
  obtain ⟨sent, after, executed, ran, delivered, ended⟩ := compared
  refine ⟨result, last, ⟨sent, after, executed, ran, delivered, ended⟩, ?_⟩
  have start : Reached narrow (fun _ _ => True)
      ⟨Ctrl.new sampleHost fun _ => false, none, [], []⟩ := .start sampleHost fun _ => false
  have inPage : walksOff (filled 0x7F)
      (addressOf sampleLayout sampleFeature sampleHost default sampleInst) 1 = false := by decide
  have alike : Unharmed .lb (bytesOf (sampleLayout.reg sampleHost 5))
      (contents (filled 0x7F) 0
        (addressOf sampleLayout sampleFeature sampleHost default sampleInst) 1)
      (secondOf (filled 0x7F)
        (addressOf sampleLayout sampleFeature sampleHost default sampleInst) .lb 0
        last.ctrl.deleted) := by
    rw [Unharmed, if_neg (by decide), secondOf, LoadOp.size, inPage]
    constructor
    · intro cur late second
      cases second
    · intro _ _ _ _ _
      decide
  exact (controlled_load_iff rfl start (by decide) rfl executed ran delivered ended).mpr (.inr alike)

/-- lb of the byte 0x80 over x5 = 0: the response leaves 128, the local load -128. -/
theorem controlled_load_negative :
    ∃ result last, Compared sampleLayout sampleFeature narrow (filled 0x80) sampleInst 0 0 .lb
      sampleHost result last ∧ sampleLayout.reg last.ctrl.host 5 ≠ result.x64 5 := by
  have seen : (bothWays sampleLayout sampleFeature narrow (filled 0x80) sampleInst 0 0 .lb sampleHost
      [.begin, .next, .next, .respond 0 fun _ => 0x80]).map
        (fun ends => decide (sampleLayout.reg ends.2.2.ctrl.host 5 ≠ ends.2.1.x64 5)) = some true := by
    decide
  obtain ⟨result, last, compared, differ⟩ := bothWays_seen
    (fun ends => decide (sampleLayout.reg ends.2.ctrl.host 5 ≠ ends.1.x64 5)) seen
  exact ⟨result, last, compared, of_decide_eq_true differ⟩

end Agreement
end RevCPU.LoadCtrl
