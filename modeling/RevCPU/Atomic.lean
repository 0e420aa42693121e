import RevCPU.LoadStore
import RevCPU.MemRefine
/-!
`RevMem::AMOMem` without a memory controller and the AMO functions of RV32A.h and RV64A.h. The
function is handed pointers to the cells of rs2 and rd, reads the old value into the rd cell,
combines it there and writes the cell back to memory. `aliased` says that both pointers are one.
-/
namespace RevCPU.Atomic
open Mem MemRefine RegFile InstTable Feature

inductive AmoOp where
  | add | xor | and | or | min | max | minu | maxu | swap
deriving DecidableEq, Repr

def AmoOp.flag : AmoOp → BitVec 32
  | .add => 1 <<< 21
  | .xor => 1 <<< 22
  | .and => 1 <<< 23
  | .or => 1 <<< 24
  | .min => 1 <<< 25
  | .max => 1 <<< 26
  | .minu => 1 <<< 27
  | .maxu => 1 <<< 28
  | .swap => 1 <<< 29

def F_AQ : BitVec 32 := 1 <<< 30

def F_RL : BitVec 32 := 1 <<< 31

-- The order of the else-if chain.
def amoOps : List AmoOp := [.add, .xor, .and, .or, .min, .max, .minu, .maxu, .swap]

def selected (flags : BitVec 32) : Option AmoOp :=
  amoOps.find? fun op => decide (flags &&& op.flag ≠ 0)

/-- What the branch leaves in `*TmpTarget`, from what it read and `*TmpData`. -/
def AmoOp.combine {w : Nat} (op : AmoOp) (target data : BitVec w) : BitVec w :=
  match op with
  | .add => target + data
  | .xor => target ^^^ data
  | .and => target &&& data
  | .or => target ||| data
  | .min => if data.toInt < target.toInt then data else target
  | .max => if target.toInt < data.toInt then data else target
  | .minu => if data.toNat < target.toNat then data else target
  | .maxu => if target.toNat < data.toNat then data else target
  | .swap => data

/-- AMOMem at one width: the rd cell and the memory afterwards. -/
def amoLocal {w : Nat} (join : Buffer → BitVec w) (mem : RevMem) (hart addr len : Nat)
    (data target : BitVec w) (aliased : Bool) (flags : BitVec 32) :
    Except MemFault (BitVec w × RevMem) :=
  match mem.calcPhysAddr (addr >>> addrShift) addr with
  | .error fault => .error fault
  | .ok (_, mem) =>
    match selected flags with
    | none => .ok (target, mem)
    | some op =>
      match mem.readMem hart addr len (bytesOf target) flags.toNat with
      | .error fault => .error fault
      | .ok (reply, mem) =>
        let old := join reply.target
        let new := op.combine old (if aliased then old else data)
        match mem.writeMem hart addr len (bytesOf new) with
        | .error fault => .error fault
        | .ok mem => .ok (new, mem)

def amoMem32 (mem : RevMem) (hart addr : Nat) (data target : BitVec 32) (aliased : Bool)
    (flags : BitVec 32) : Except MemFault (BitVec 32 × RevMem) :=
  amoLocal word32 mem hart addr 4 data target aliased flags

def amoMem64 (mem : RevMem) (hart addr : Nat) (data target : BitVec 64) (aliased : Bool)
    (flags : BitVec 32) : Except MemFault (BitVec 64 × RevMem) :=
  amoLocal word64 mem hart addr 8 data target aliased flags

def amoFlags (op : AmoOp) (inst : RevInst) : BitVec 32 :=
  op.flag |||
    if inst.aq ≠ 0 ∧ inst.rl ≠ 0 then F_AQ ||| F_RL
    else if inst.aq ≠ 0 then F_AQ
    else if inst.rl ≠ 0 then F_RL
    else 0

/-- The RV32A functions differ in the operation's flag only. On RV64 the pointers are to the low
halves of the registers. -/
def amow (op : AmoOp) (feature : RevFeature) (regs : RevRegFile) (mem : RevMem) (hart : Nat)
    (inst : RevInst) : Except MemFault (RevRegFile × RevMem) :=
  if isRV32 feature then
    match amoMem32 mem hart (regs.x32 inst.rs1).toNat (regs.x32 inst.rs2) (regs.x32 inst.rd)
      (inst.rd == inst.rs2) (amoFlags op inst) with
    | .error fault => .error fault
    | .ok (cell, mem) => .ok ((regs.setX32 inst.rd cell).step32 inst, mem)
  else
    match amoMem32 mem hart (regs.x64 inst.rs1).toNat ((regs.x64 inst.rs2).setWidth 32)
      ((regs.x64 inst.rd).setWidth 32) (inst.rd == inst.rs2)
      (amoFlags op inst ||| BitVec.ofNat 32 F_SEXT64) with
    | .error fault => .error fault
    | .ok (cell, mem) =>
      .ok ((regs.setX64 inst.rd ((regs.x64 inst.rd).extractLsb' 32 32 ++ cell)).step64 inst, mem)

def amod (op : AmoOp) (regs : RevRegFile) (mem : RevMem) (hart : Nat) (inst : RevInst) :
    Except MemFault (RevRegFile × RevMem) :=
  match amoMem64 mem hart (regs.x64 inst.rs1).toNat (regs.x64 inst.rs2) (regs.x64 inst.rd)
    (inst.rd == inst.rs2) (amoFlags op inst) with
  | .error fault => .error fault
  | .ok (cell, mem) => .ok ((regs.setX64 inst.rd cell).step64 inst, mem)

def amoswapw := amow .swap
def amoaddw := amow .add
def amoxorw := amow .xor
def amoandw := amow .and
def amoorw := amow .or
def amominw := amow .min
def amomaxw := amow .max
def amominuw := amow .minu
def amomaxuw := amow .maxu

def amoswapd := amod .swap
def amoaddd := amod .add
def amoxord := amod .xor
def amoandd := amod .and
def amoord := amod .or
def amomind := amod .min
def amomaxd := amod .max
def amominud := amod .minu
def amomaxud := amod .maxu

/-- The AMO functions the rows of the two tables name; LR and SC are not AMOs. -/
def execAmo (func : ImplFunc) (feature : RevFeature) (regs : RevRegFile) (mem : RevMem) (hart : Nat)
    (inst : RevInst) : Option (Except MemFault (RevRegFile × RevMem)) :=
  match func with
  | .rv32a .amoswapw => some (amoswapw feature regs mem hart inst)
  | .rv32a .amoaddw => some (amoaddw feature regs mem hart inst)
  | .rv32a .amoxorw => some (amoxorw feature regs mem hart inst)
  | .rv32a .amoandw => some (amoandw feature regs mem hart inst)
  | .rv32a .amoorw => some (amoorw feature regs mem hart inst)
  | .rv32a .amominw => some (amominw feature regs mem hart inst)
  | .rv32a .amomaxw => some (amomaxw feature regs mem hart inst)
  | .rv32a .amominuw => some (amominuw feature regs mem hart inst)
  | .rv32a .amomaxuw => some (amomaxuw feature regs mem hart inst)
  | .rv64a .amoswapd => some (amoswapd regs mem hart inst)
  | .rv64a .amoaddd => some (amoaddd regs mem hart inst)
  | .rv64a .amoxord => some (amoxord regs mem hart inst)
  | .rv64a .amoandd => some (amoandd regs mem hart inst)
  | .rv64a .amoord => some (amoord regs mem hart inst)
  | .rv64a .amomind => some (amomind regs mem hart inst)
  | .rv64a .amomaxd => some (amomaxd regs mem hart inst)
  | .rv64a .amominud => some (amominud regs mem hart inst)
  | .rv64a .amomaxud => some (amomaxud regs mem hart inst)
  | _ => none

theorem selected_amoFlags (op : AmoOp) (inst : RevInst) :
    selected (amoFlags op inst) = some op ∧
      selected (amoFlags op inst ||| BitVec.ofNat 32 F_SEXT64) = some op := by
  unfold amoFlags
  split_ifs <;> cases op <;> decide

section Local
variable {w : Nat} {join : Buffer → BitVec w} {mem : RevMem} {addr len : Nat}

-- A second translation of the same address repeats the first, so the extra call only reorders the TLB.
theorem amoLocal_valid (sized : Sized mem) (coherent : Coherent mem) (positive : mem.tlbSize ≠ 0)
    (short : len ≤ pageSize) (valid : Touchable mem addr len)
    (reads : ∀ one two : Buffer, (∀ index, index < len → one index = two index) → join one = join two)
    {op : AmoOp} {flags : BitVec 32} (chosen : selected flags = some op) (hart : Nat)
    (data target : BitVec w) (aliased : Bool) :
    let old := join fun index => byteAt mem (addr + index)
    let new := op.combine old (if aliased then old else data)
    ∃ after, amoLocal join mem hart addr len data target aliased flags = .ok (new, after) ∧
      Coherent after ∧ layout after = layout mem ∧
      ∀ vAddr, byteAt after vAddr = flatStore (byteAt mem) addr len (bytesOf new) vAddr := by
  intro old new
  obtain ⟨physAddr, first, translated, unseen, -⟩ :=
    calcPhysAddr_valid sized coherent positive valid.first
  have sizedFirst := sized.of_layout unseen.layout
  have positiveFirst : first.tlbSize ≠ 0 := by rwa [(layout_fields unseen.layout).2]
  have validFirst : Touchable first addr len := by
    constructor
    · rw [isValidVirtAddr_layout unseen.layout]
      exact valid.first
    · rw [isValidVirtAddr_layout unseen.layout]
      exact valid.next
  obtain ⟨second, replied, readUnseen⟩ := readMem_valid sizedFirst unseen.coherent positiveFirst
    short validFirst hart (bytesOf target) flags.toNat
  have both := unseen.trans readUnseen
  have validSecond : Touchable second addr len := by
    constructor
    · rw [isValidVirtAddr_layout both.layout]
      exact valid.first
    · rw [isValidVirtAddr_layout both.layout]
      exact valid.next
  have positiveSecond : second.tlbSize ≠ 0 := by rwa [(layout_fields both.layout).2]
  have fetched : join (flatLoad (byteAt first) addr len (bytesOf target)) = old := by
    apply reads
    intro index inside
    simp only [flatLoad, if_pos inside, unseen.view]
  obtain ⟨after, stored, stillCoherent, same, seen⟩ := storeLocal_valid
    (sized.of_layout both.layout) both.coherent positiveSecond short validSecond (bytesOf new)
  refine ⟨after, ?_, stillCoherent, same.trans both.layout, fun vAddr => ?_⟩
  · simp only [amoLocal, page_shift, translated, chosen, replied, fetched, RevMem.writeMem]
    simp only [new] at stored
    simp only [stored, new]
  · rw [seen]
    simp only [flatStore, both.view]

end Local
end RevCPU.Atomic
