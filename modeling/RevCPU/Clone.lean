import RevCPU.ProcRun
/-!
The clone system call on whole register files: DuplicateRegFile of RevThreadCtx.cc, and CreateChildCtx,
ECALL_clone and ExecEcall of RevProc.cc, with the supervisor CSRs that the model of the tick leaves out. The
memory is the one without a controller. The list of children, which stays empty, and the file descriptors
are left out.
-/
namespace RevCPU.Clone
open Feature InstTable RegFile Proc Mem

/-- The supervisor CSRs of one width. -/
structure Csrs (w : Nat) where
  sstatus : BitVec w
  sepc : BitVec w
  scause : BitVec w
  stval : BitVec w
  stvec : BitVec w
deriving DecidableEq, Repr, Inhabited

structure WholeFile extends RevRegFile where
  csr64 : Csrs 64
  csr32 : Csrs 32
  board : Bank → BitVec 8 → Bool
  fcsr : BitVec 64
  cost : BitVec 32
  trigger : Bool
  entry : Nat
deriving Inhabited

structure ThreadCtx where
  pid : BitVec 32
  parentPID : BitVec 32
  state : ThreadState
  regFile : WholeFile

-- ECALL_USER_MODE, and the values of ECALL_status_t that go to the cause registers.
def ecallUserMode : Nat := 8

def statusCode : EcallStatus → Nat
  | .SUCCESS => 0
  | .CONTINUE => ecallUserMode
  | .ERROR => 255

inductive CloneFault where
  | mem (fault : MemFault)
  | outOfRange   -- ThreadTable.at without the key
  | other        -- another call that ends the simulation

/-- The members of RevProc that clone uses, with the memory it reads and the counter of PIDs there. -/
structure Core where
  threadTable : BitVec 32 → Option ThreadCtx
  activePID : BitVec 32
  pidCount : BitVec 32
  pendingCtxSwitch : Bool
  nextPID : BitVec 32
  ecallBuf : Buffer
  ecallBytesRead : BitVec 32
  mem : RevMem

/-- What a system call leaves: the core, the load hazard and its status. -/
structure Served where
  core : Core
  hazard : Bool
  status : EcallStatus

namespace WholeFile
variable (file dup : WholeFile)

def copyReg (index : BitVec 8) : WholeFile :=
  let regs := file.toRevRegFile
  let regs := regs.setX32 index (dup.x32 index)
  let regs := regs.setX64 index (dup.x64 index)
  let regs := regs.setSPF index (dup.spf index)
  let regs := regs.setDPF index (dup.dpf index)
  { file with
      toRevRegFile := regs
      board := fun bank => Function.update (file.board bank) index (dup.board bank index) }

def copyRegs : List (BitVec 8) → WholeFile → WholeFile
  | [], file => file
  | index :: rest, file => copyRegs rest (file.copyReg dup index)

def indices : List (BitVec 8) := (List.range numRegs).map (BitVec.ofNat 8)

def duplicateRegFile : WholeFile :=
  let file := copyRegs dup indices file
  { file with
      csr64 :=
        { sstatus := dup.csr64.sstatus, sepc := dup.csr64.sepc, scause := dup.csr64.scause
          stval := dup.csr64.stval, stvec := dup.csr64.stvec }
      csr32 :=
        { sstatus := dup.csr32.sstatus, sepc := dup.csr32.sepc, scause := 0
          stval := dup.csr32.stval, stvec := dup.csr32.stvec }
      rv32PC := dup.rv32PC
      rv64PC := dup.rv64PC
      fcsr := dup.fcsr
      cost := dup.cost
      trigger := dup.trigger
      entry := dup.entry }

def setX64 (index : BitVec 8) (value : BitVec 64) : WholeFile :=
  { file with toRevRegFile := file.toRevRegFile.setX64 index value }

def setCauses (cause : Nat) : WholeFile :=
  { file with
      csr64 := { file.csr64 with scause := BitVec.ofNat 64 cause }
      csr32 := { file.csr32 with scause := BitVec.ofNat 32 cause } }

def ecall (feature : RevFeature) (inst : RevInst) : WholeFile :=
  if isRV32 feature then
    { file with
        csr32 := { file.csr32 with
          sepc := file.rv32PC, stval := 0, scause := BitVec.ofNat 32 ecallUserMode }
        rv32PC := file.rv32PC + BitVec.ofNat 32 inst.instSize }
  else
    { file with
        csr64 := { file.csr64 with
          sepc := file.rv64PC, stval := 0, scause := BitVec.ofNat 64 ecallUserMode }
        rv64PC := file.rv64PC + BitVec.ofNat 64 inst.instSize }

def raised : Bool :=
  decide (file.csr64.scause = BitVec.ofNat 64 ecallUserMode) ||
    decide (file.csr32.scause = BitVec.ofNat 32 ecallUserMode)

end WholeFile

namespace Core
variable (core : Core)

/-- The file that `RegFile` points to, of the active thread. -/
def regFile : Option WholeFile := (core.threadTable core.activePID).map ThreadCtx.regFile

def setFileOf (pid : BitVec 32) (file : WholeFile) : Core :=
  { core with
      threadTable := Function.update core.threadTable pid
        ((core.threadTable pid).map fun ctx => { ctx with regFile := file }) }

def setRegFile (file : WholeFile) : Core := core.setFileOf core.activePID file

/-- emplace leaves a thread that is already there under the PID. -/
def createChildCtx (file : WholeFile) : BitVec 32 × Core :=
  let childPID := core.pidCount + 1
  let childFile := WholeFile.duplicateRegFile default file
  let childCtx : ThreadCtx :=
    { pid := childPID, parentPID := core.activePID, state := .Waiting
      regFile := (childFile.setCauses 0).setX64 10 0 }
  let table :=
    match core.threadTable childPID with
    | some _ => core.threadTable
    | none => Function.update core.threadTable childPID (some childCtx)
  (childPID, { core with pidCount := childPID, threadTable := table })

def ctxSwitchAlert (newPID : BitVec 32) : Core :=
  { core with nextPID := newPID, pendingCtxSwitch := true }

-- The loop over the flags that were read does nothing for any of them.
def ecallClone (inst : RevInst) : Except CloneFault Served :=
  match core.regFile with
  | none => .error .outOfRange
  | some file =>
    let cloneArgsAddr := file.x64 10
    if core.ecallBytesRead = 0 then
      match core.mem.readMem 0 cloneArgsAddr.toNat 8 core.ecallBuf 0 with
      | .error fault => .error (.mem fault)
      | .ok (reply, mem) =>
        .ok ⟨{ core with mem := mem, ecallBuf := reply.target, ecallBytesRead := 8 }, reply.hazard,
          .CONTINUE⟩
    else
      let (childPID, core) := core.createChildCtx file
      match core.threadTable childPID with
      | none => .error .outOfRange
      | some childCtx =>
        let core := core.ctxSwitchAlert childPID
        let core := core.setRegFile (file.setX64 10 (childPID.setWidth 64))
        let core := core.setFileOf childPID (childCtx.regFile.setX64 10 0)
        .ok ⟨{ core with ecallBytesRead := 0, ecallBuf := Function.update core.ecallBuf 0 0 },
          inst.hazard == some true, .SUCCESS⟩

/-- The calls of the table `Ecalls` other than clone; its keys have 32 bits. -/
abbrev Others := BitVec 32 → RevInst → Core → Except CloneFault Served

-- The width is 32 or 64. `RegFile` is the active thread's file as the call leaves it.
def execEcall (feature : RevFeature) (others : Others) (inst : RevInst) : Except CloneFault Served :=
  match core.regFile with
  | none => .error .outOfRange
  | some file =>
    let ecallCode := if isRV32 feature then (file.x32 17).setWidth 64 else file.x64 17
    let called :=
      if ecallCode.setWidth 32 = 220#32 then core.ecallClone inst
      else others (ecallCode.setWidth 32) inst core
    match called with
    | .error fault => .error fault
    | .ok served =>
      match served.core.regFile with
      | none => .error .outOfRange
      | some file =>
        let file := file.setCauses (statusCode served.status)
        let file :=
          if served.status = .SUCCESS then file
          else if isRV32 feature then
            { file with rv32PC := file.rv32PC - BitVec.ofNat 32 inst.instSize }
          else { file with rv64PC := file.rv64PC - BitVec.ofNat 64 inst.instSize }
        .ok { served with core := served.core.setRegFile file }

/-- One execution of the ecall: its table function raises the exception, which the tick then serves. -/
def turn (feature : RevFeature) (others : Others) (inst : RevInst) : Except CloneFault Served :=
  match core.regFile with
  | none => .error .outOfRange
  | some file =>
    let core := core.setRegFile (file.ecall feature inst)
    if (file.ecall feature inst).raised then core.execEcall feature others inst
    else .ok ⟨core, inst.hazard == some true, .SUCCESS⟩

end Core

/-- What the ticks up to the next execution may change: the pipeline's fields of the active thread's file,
the memory that the fetch reads, and the counter, from which other cores take PIDs. -/
structure Waits (before after : Core) : Prop where
  active : ∃ cost trigger entry board, after.threadTable before.activePID =
    (before.threadTable before.activePID).map fun ctx =>
      { ctx with regFile :=
        { ctx.regFile with cost := cost, trigger := trigger, entry := entry, board := board } }
  others : ∀ pid, pid ≠ before.activePID → after.threadTable pid = before.threadTable pid
  activePID : after.activePID = before.activePID
  pidCount : before.pidCount.toNat ≤ after.pidCount.toNat
  pendingCtxSwitch : after.pendingCtxSwitch = before.pendingCtxSwitch
  nextPID : after.nextPID = before.nextPID
  ecallBuf : after.ecallBuf = before.ecallBuf
  ecallBytesRead : after.ecallBytesRead = before.ecallBytesRead

/-- The ecall is executed again and again until it is done; `earlier` are the executions before the last. -/
inductive Completes (feature : RevFeature) (others : Core.Others) (inst : RevInst) :
    Core → List Served → Served → Prop
  | last {core : Core} {served : Served} (turned : core.turn feature others inst = .ok served)
    (done : served.status = .SUCCESS) : Completes feature others inst core [] served
  | again {core resumed : Core} {next last : Served} {earlier : List Served}
    (turned : core.turn feature others inst = .ok next) (more : next.status ≠ .SUCCESS)
    (waits : Waits next.core resumed) (rest : Completes feature others inst resumed earlier last) :
    Completes feature others inst core (next :: earlier) last

/-- The shared state of the system calls as a reset or a completed clone leaves it. -/
structure Clean (core : Core) : Prop where
  bytesRead : core.ecallBytesRead = 0
  buf : core.ecallBuf 0 = 0

/-- Every thread has a PID that the counter has given out. -/
def Counted (core : Core) : Prop :=
  ∀ pid ctx, core.threadTable pid = some ctx → pid.toNat ≤ core.pidCount.toNat

section Copies
variable (dup file : WholeFile)

-- What one turn of the loop does to an array, the whole loop does to all of its elements.
theorem copyRegs_get {α : Type} (get : WholeFile → BitVec 8 → α)
    (one : ∀ (file : WholeFile) (index other : BitVec 8), get (file.copyReg dup index) other =
      if other = index then get dup index else get file other) (list : List (BitVec 8))
    (other : BitVec 8) :
    get (WholeFile.copyRegs dup list file) other =
      if other ∈ list then get dup other else get file other := by
  induction list generalizing file with
  | nil => rfl
  | cons index rest ih =>
    rw [WholeFile.copyRegs, ih, one]
    by_cases later : other ∈ rest
    · rw [if_pos later, if_pos (List.mem_cons_of_mem _ later)]
    · rw [if_neg later]
      by_cases here : other = index
      · rw [if_pos here, here, if_pos List.mem_cons_self]
      · rw [if_neg here, if_neg (by simp [here, later])]

theorem mem_indices (index : BitVec 8) : index ∈ WholeFile.indices ↔ index.toNat < numRegs := by
  constructor
  · intro member
    obtain ⟨i, inside, rfl⟩ := List.mem_map.mp member
    have small := List.mem_range.mp inside
    rw [BitVec.toNat_ofNat]
    exact Nat.lt_of_le_of_lt (Nat.mod_le _ _) small
  · intro small
    exact List.mem_map.mpr ⟨index.toNat, List.mem_range.mpr small, BitVec.ofNat_toNat _ _ |>.trans
      (BitVec.setWidth_eq index)⟩

theorem copied {α : Type} (get : WholeFile → BitVec 8 → α)
    (one : ∀ (file : WholeFile) (index other : BitVec 8), get (file.copyReg dup index) other =
      if other = index then get dup index else get file other) {index : BitVec 8}
    (inside : index.toNat < numRegs) :
    get (WholeFile.copyRegs dup WholeFile.indices file) index = get dup index := by
  rw [copyRegs_get dup file get one, if_pos ((mem_indices index).mpr inside)]

theorem x32_setX32_ne (regs : RevRegFile) {index other : BitVec 8} (apart : other ≠ index)
    (value : BitVec 32) : (regs.setX32 index value).x32 other = regs.x32 other := by
  by_cases zero : index = 0#8 <;> simp [RevRegFile.x32, RevRegFile.setX32, zero, apart]

-- The integer files and the others do not meet.
theorem setX32_rest (regs : RevRegFile) (index : BitVec 8) (value : BitVec 32) :
    (regs.setX32 index value).spf = regs.spf ∧ (regs.setX32 index value).dpf = regs.dpf := by
  by_cases zero : index = 0#8 <;> simp [RevRegFile.setX32, zero]

theorem setX64_rest (regs : RevRegFile) (index : BitVec 8) (value : BitVec 64) :
    (regs.setX64 index value).spf = regs.spf ∧ (regs.setX64 index value).dpf = regs.dpf ∧
      (regs.setX64 index value).rv32PC = regs.rv32PC := by
  by_cases zero : index = 0#8 <;> simp [RevRegFile.setX64, zero]

theorem copyReg_x32 (index other : BitVec 8) : (file.copyReg dup index).x32 other =
    if other = index then dup.x32 index else file.x32 other := by
  change ((file.toRevRegFile.setX32 index (dup.x32 index)).setX64 index (dup.x64 index)).x32 other = _
  rw [RevRegFile.x32_setX64]
  by_cases same : other = index
  · rw [if_pos same, same, RevRegFile.x32_setX32]
    by_cases zero : index = 0#8 <;> simp [RevRegFile.x32, zero]
  · rw [if_neg same, x32_setX32_ne _ same]

theorem copyReg_x64 (index other : BitVec 8) : (file.copyReg dup index).x64 other =
    if other = index then dup.x64 index else file.x64 other := by
  change ((file.toRevRegFile.setX32 index (dup.x32 index)).setX64 index (dup.x64 index)).x64 other = _
  by_cases same : other = index
  · rw [if_pos same, same, RevRegFile.x64_setX64]
    by_cases zero : index = 0#8 <;> simp [RevRegFile.x64, zero]
  · rw [if_neg same, RevRegFile.x64_setX64_ne _ _ _ (Ne.symm same), RevRegFile.x64_setX32]

theorem copyReg_spf (index other : BitVec 8) : (file.copyReg dup index).spf other =
    if other = index then dup.spf index else file.spf other := by
  change Function.update (((file.toRevRegFile.setX32 index (dup.x32 index)).setX64 index
    (dup.x64 index)).spf) index (dup.spf index) other = _
  rw [(setX64_rest _ _ _).1, (setX32_rest _ _ _).1, Function.update_apply]

theorem copyReg_dpf (index other : BitVec 8) : (file.copyReg dup index).dpf other =
    if other = index then dup.dpf index else file.dpf other := by
  change Function.update (((file.toRevRegFile.setX32 index (dup.x32 index)).setX64 index
    (dup.x64 index)).dpf) index (dup.dpf index) other = _
  rw [(setX64_rest _ _ _).2.1, (setX32_rest _ _ _).2, Function.update_apply]

theorem copyReg_board (bank : Bank) (index other : BitVec 8) :
    (file.copyReg dup index).board bank other =
      if other = index then dup.board bank index else file.board bank other :=
  Function.update_apply _ _ _ _

end Copies

/-- The integer and floating registers, the CSRs and the PCs of a child are its parent's, but for x10 and
the causes. -/
structure Duplicates (child parent : WholeFile) : Prop where
  x32 : ∀ index, index.toNat < numRegs → child.x32 index = parent.x32 index
  x64 : ∀ index, index.toNat < numRegs → child.x64 index = if index = 10 then 0 else parent.x64 index
  spf : ∀ index, index.toNat < numRegs → child.spf index = parent.spf index
  dpf : ∀ index, index.toNat < numRegs → child.dpf index = parent.dpf index
  csr64 : child.csr64 = { parent.csr64 with scause := 0 }
  csr32 : child.csr32 = { parent.csr32 with scause := 0 }
  fcsr : child.fcsr = parent.fcsr
  rv64PC : child.rv64PC = parent.rv64PC
  rv32PC : child.rv32PC = parent.rv32PC

-- The register file that CreateChildCtx leaves in the child.
theorem duplicates_child (file blank : WholeFile) :
    Duplicates (((WholeFile.duplicateRegFile blank file).setCauses 0).setX64 10 0) file := by
  constructor
  · intro index inside
    change (RevRegFile.setX64 _ 10 0).x32 index = _
    rw [RevRegFile.x32_setX64]
    exact copied file blank (fun file => file.x32) (copyReg_x32 file) inside
  · intro index inside
    by_cases a0 : index = 10
    · rw [a0]
      exact RevRegFile.x64_setX64 _ _ _
    · rw [if_neg a0]
      change (RevRegFile.setX64 _ 10 0).x64 index = _
      rw [RevRegFile.x64_setX64_ne _ _ _ (Ne.symm a0)]
      exact copied file blank (fun file => file.x64) (copyReg_x64 file) inside
  · intro index inside
    change (RevRegFile.setX64 _ 10 0).spf index = _
    rw [(setX64_rest _ _ _).1]
    exact copied file blank (fun file => file.spf) (copyReg_spf file) inside
  · intro index inside
    change (RevRegFile.setX64 _ 10 0).dpf index = _
    rw [(setX64_rest _ _ _).2.1]
    exact copied file blank (fun file => file.dpf) (copyReg_dpf file) inside
  · rfl
  · rfl
  · rfl
  · exact RevRegFile.setX64_rv64PC _ _ _
  · exact (setX64_rest _ _ _).2.2

section Turns
variable {feature : RevFeature} {others : Core.Others} {inst : RevInst} {core : Core} {ctx : ThreadCtx}

theorem setRegFile_eq (core : Core) (found : core.threadTable core.activePID = some ctx) (file : WholeFile) :
    core.setRegFile file = { core with
      threadTable :=
        Function.update core.threadTable core.activePID (some { ctx with regFile := file }) } := by
  rw [Core.setRegFile, Core.setFileOf, found]
  rfl

theorem setRegFile_found (core : Core) (found : core.threadTable core.activePID = some ctx)
    (file : WholeFile) :
    (core.setRegFile file).threadTable (core.setRegFile file).activePID =
      some { ctx with regFile := file } := by
  rw [setRegFile_eq core found]
  exact Function.update_self ..

theorem regFile_found (found : core.threadTable core.activePID = some ctx) :
    core.regFile = some ctx.regFile := by
  rw [Core.regFile, found]
  rfl

theorem setRegFile_setRegFile (core : Core) (found : core.threadTable core.activePID = some ctx)
    (first second : WholeFile) :
    (core.setRegFile first).setRegFile second = core.setRegFile second := by
  rw [setRegFile_eq _ (setRegFile_found core found first), setRegFile_eq core found,
    setRegFile_eq core found]
  simp only [Function.update_idem]

/-- The active thread's file when an execution has answered with a status other than SUCCESS. -/
def rewound (inst : RevInst) (file : WholeFile) (status : EcallStatus) : WholeFile :=
  { file.setCauses (statusCode status) with rv64PC := file.rv64PC - BitVec.ofNat 64 inst.instSize }

theorem setFileOf_present (core : Core) (pid : BitVec 32) (file : WholeFile) {other : BitVec 32}
    (present : ∃ ctx, core.threadTable other = some ctx) :
    ∃ ctx, (core.setFileOf pid file).threadTable other = some ctx := by
  obtain ⟨ctx, found⟩ := present
  by_cases same : other = pid
  · refine ⟨{ ctx with regFile := file }, ?_⟩
    rw [same] at found ⊢
    rw [Core.setFileOf, found]
    exact Function.update_self ..
  · exact ⟨ctx, (Function.update_of_ne same _ _).trans found⟩

theorem ecallClone_ends (core : Core) (inst : RevInst) (found : core.threadTable core.activePID = some ctx)
    (fetched : core.ecallBytesRead ≠ 0) : ∃ served left, core.ecallClone inst = .ok served ∧
      served.status = .SUCCESS ∧ served.core.pidCount = core.pidCount + 1 ∧
      served.core.threadTable served.core.activePID = some left := by
  have kept : ∃ left,
      (core.createChildCtx ctx.regFile).2.threadTable core.activePID = some left := by
    unfold Core.createChildCtx
    dsimp only
    split
    · exact ⟨ctx, found⟩
    · rename_i fresh
      by_cases same : core.activePID = core.pidCount + 1
      · rw [same] at found
        rw [found] at fresh
        cases fresh
      · exact ⟨ctx, (Function.update_of_ne same _ _).trans found⟩
  have born : ∃ child, (core.createChildCtx ctx.regFile).2.threadTable
      (core.createChildCtx ctx.regFile).1 = some child := by
    unfold Core.createChildCtx
    dsimp only
    split
    · rename_i taken
      exact ⟨_, taken⟩
    · exact ⟨_, Function.update_self ..⟩
  obtain ⟨child, born⟩ := born
  obtain ⟨left, active⟩ := setFileOf_present _ (core.createChildCtx ctx.regFile).1
    (child.regFile.setX64 10 0) (setFileOf_present _ core.activePID (ctx.regFile.setX64 10
      ((core.createChildCtx ctx.regFile).1.setWidth 64)) kept)
  rw [Core.ecallClone, regFile_found found]
  dsimp only
  rw [if_neg fetched, born]
  exact ⟨_, left, rfl, rfl, rfl, active⟩

theorem ecall_x64 (feature : RevFeature) (inst : RevInst) (file : WholeFile) (index : BitVec 8) :
    (file.ecall feature inst).x64 index = file.x64 index := by
  unfold WholeFile.ecall
  split
  · rfl
  · rfl

def afterRead (core : Core) (reply : RevMem.ReadReply) (mem : RevMem) : Core :=
  { core with mem := mem, ecallBuf := reply.target, ecallBytesRead := 8 }

theorem ecallClone_first (core : Core) (inst : RevInst) (found : core.threadTable core.activePID = some ctx)
    (clean : core.ecallBytesRead = 0) : core.ecallClone inst =
      match core.mem.readMem 0 (ctx.regFile.x64 10).toNat 8 core.ecallBuf 0 with
      | .error fault => .error (.mem fault)
      | .ok (reply, mem) => .ok ⟨afterRead core reply mem, reply.hazard, .CONTINUE⟩ := by
  rw [Core.ecallClone, regFile_found found]
  exact if_pos clean

/-- The core once the child with this file is there and the switch to it is pending. -/
def afterFork (core : Core) (parent child : ThreadCtx) : Core :=
  { core with
      threadTable := Function.update (Function.update core.threadTable core.activePID (some parent))
        child.pid (some child)
      pidCount := child.pid
      nextPID := child.pid
      pendingCtxSwitch := true
      ecallBytesRead := 0
      ecallBuf := Function.update core.ecallBuf 0 0 }

theorem afterFork_active {parent child : ThreadCtx} (apart : core.activePID ≠ child.pid) :
    (afterFork core parent child).threadTable (afterFork core parent child).activePID =
      some parent := by
  refine (Function.update_of_ne apart _ _).trans ?_
  exact Function.update_self ..

theorem setRegFile_afterFork (core : Core) (parent child : ThreadCtx) (apart : core.activePID ≠ child.pid)
    (file : WholeFile) : (afterFork core parent child).setRegFile file =
      afterFork core { parent with regFile := file } child := by
  rw [setRegFile_eq _ (afterFork_active apart)]
  unfold afterFork
  dsimp only
  rw [Function.update_comm (Ne.symm apart), Function.update_idem]

theorem afterFork_setRegFile (found : core.threadTable core.activePID = some ctx) (file : WholeFile)
    (parent child : ThreadCtx) :
    afterFork (core.setRegFile file) parent child = afterFork core parent child := by
  rw [setRegFile_eq core found]
  unfold afterFork
  dsimp only
  rw [Function.update_idem]

/-- The parent, whose file was `file`, with the PID of its child in x10. -/
def parentOf (core : Core) (ctx : ThreadCtx) (file : WholeFile) : ThreadCtx :=
  { ctx with regFile := file.setX64 10 ((core.pidCount + 1).setWidth 64) }

def childOf (core : Core) (file : WholeFile) : ThreadCtx where
  pid := core.pidCount + 1
  parentPID := core.activePID
  state := .Waiting
  regFile := ((WholeFile.duplicateRegFile default file).setCauses 0).setX64 10 0

theorem ecallClone_second (core : Core) (inst : RevInst) (found : core.threadTable core.activePID = some ctx)
    (fetched : core.ecallBytesRead ≠ 0) (fresh : core.threadTable (core.pidCount + 1) = none) :
    core.ecallClone inst =
      .ok ⟨afterFork core (parentOf core ctx ctx.regFile) (childOf core ctx.regFile),
        inst.hazard == some true, .SUCCESS⟩ := by
  have apart : core.activePID ≠ core.pidCount + 1 := by
    intro same
    rw [← same, found] at fresh
    cases fresh
  have created : core.createChildCtx ctx.regFile = (core.pidCount + 1,
      { core with
          pidCount := core.pidCount + 1
          threadTable := Function.update core.threadTable (core.pidCount + 1)
            (some (childOf core ctx.regFile)) }) := by
    unfold Core.createChildCtx
    dsimp only
    rw [fresh]
    rfl
  rw [Core.ecallClone, regFile_found found]
  dsimp only
  rw [if_neg fetched, created]
  dsimp only
  rw [Function.update_self]
  dsimp only
  have again : (childOf core ctx.regFile).regFile.setX64 10 0 = (childOf core ctx.regFile).regFile := by
    unfold childOf WholeFile.setX64
    dsimp only
    rw [RevRegFile.setX64_setX64]
  have active : Function.update core.threadTable (core.pidCount + 1) (some (childOf core ctx.regFile))
      core.activePID = some ctx := by
    rw [Function.update_of_ne apart, found]
  rw [again, setRegFile_eq _ active]
  unfold Core.setFileOf Core.ctxSwitchAlert afterFork
  dsimp only
  rw [Function.update_of_ne (Ne.symm apart), Function.update_self,
    Function.update_comm (Ne.symm apart), Function.update_idem]
  rfl

section Clone
variable (others inst)
variable (wide : isRV32 feature = false) (found : core.threadTable core.activePID = some ctx)
  (called : (ctx.regFile.x64 17).setWidth 32 = 220#32)
include wide found called

-- Both tests are passed; the call then sets the causes, and rewinds the PC where it is not done.
theorem turn_clone : core.turn feature others inst =
    match (core.setRegFile (ctx.regFile.ecall feature inst)).ecallClone inst with
    | .error fault => .error fault
    | .ok served =>
      match served.core.regFile with
      | none => .error .outOfRange
      | some file =>
        let file :=
          if served.status = .SUCCESS then file.setCauses (statusCode served.status)
          else rewound inst file served.status
        .ok { served with core := served.core.setRegFile file } := by
  have raised : (ctx.regFile.ecall feature inst).raised = true := by
    unfold WholeFile.ecall
    rw [wide]
    rfl
  unfold Core.turn
  rw [regFile_found found]
  dsimp only
  rw [if_pos raised]
  unfold Core.execEcall
  rw [regFile_found (setRegFile_found core found _)]
  dsimp only
  rw [wide, if_neg Bool.false_ne_true, ecall_x64, if_pos called]
  rfl

theorem turn_served {served : Served} {left : ThreadCtx}
    (cloned : (core.setRegFile (ctx.regFile.ecall feature inst)).ecallClone inst = .ok served)
    (active : served.core.threadTable served.core.activePID = some left) :
    core.turn feature others inst = .ok { served with
      core := served.core.setRegFile
        (if served.status = .SUCCESS then left.regFile.setCauses (statusCode served.status)
          else rewound inst left.regFile served.status) } := by
  rw [turn_clone others inst wide found called, cloned]
  dsimp only
  rw [regFile_found active]

theorem turn_faults (clean : core.ecallBytesRead = 0) {fault : MemFault}
    (read : core.mem.readMem 0 (ctx.regFile.x64 10).toNat 8 core.ecallBuf 0 = .error fault) :
    core.turn feature others inst = .error (.mem fault) := by
  rw [← ecall_x64 feature inst] at read
  rw [turn_clone others inst wide found called, ecallClone_first _ inst (setRegFile_found core found _) clean]
  rw [show (core.setRegFile _).mem.readMem 0 _ 8 (core.setRegFile _).ecallBuf 0 = _ from read]

theorem turn_reads (clean : core.ecallBytesRead = 0) {reply : RevMem.ReadReply} {mem : RevMem}
    (read : core.mem.readMem 0 (ctx.regFile.x64 10).toNat 8 core.ecallBuf 0 = .ok (reply, mem)) :
    core.turn feature others inst =
      .ok ⟨(afterRead core reply mem).setRegFile (rewound inst (ctx.regFile.ecall feature inst) .CONTINUE),
        reply.hazard, .CONTINUE⟩ := by
  rw [← ecall_x64 feature inst] at read
  have cloned := ecallClone_first _ inst
    (setRegFile_found core found (ctx.regFile.ecall feature inst)) clean
  rw [show (core.setRegFile _).mem.readMem 0 _ 8 (core.setRegFile _).ecallBuf 0 = _ from read] at cloned
  have active : (afterRead (core.setRegFile (ctx.regFile.ecall feature inst)) reply mem).threadTable
      core.activePID = some { ctx with regFile := ctx.regFile.ecall feature inst } :=
    setRegFile_found core found (ctx.regFile.ecall feature inst)
  rw [turn_served others inst wide found called cloned active]
  dsimp only
  rw [if_neg (by decide)]
  exact congrArg (fun core => Except.ok (Served.mk core reply.hazard .CONTINUE))
    (setRegFile_setRegFile (afterRead core reply mem) found _ _)

theorem turn_forks (fetched : core.ecallBytesRead ≠ 0)
    (fresh : core.threadTable (core.pidCount + 1) = none) :
    core.turn feature others inst =
      .ok ⟨afterFork core (parentOf core ctx ((ctx.regFile.ecall feature inst).setCauses 0))
        (childOf core (ctx.regFile.ecall feature inst)), inst.hazard == some true, .SUCCESS⟩ := by
  have apart : core.activePID ≠ core.pidCount + 1 := by
    intro same
    rw [← same, found] at fresh
    cases fresh
  have unborn : (core.setRegFile (ctx.regFile.ecall feature inst)).threadTable (core.pidCount + 1) =
      none := by
    rw [setRegFile_eq core found]
    exact (Function.update_of_ne (Ne.symm apart) _ _).trans fresh
  have cloned := ecallClone_second _ inst
    (setRegFile_found core found (ctx.regFile.ecall feature inst)) fetched unborn
  rw [turn_served others inst wide found called cloned (afterFork_active apart)]
  dsimp only
  rw [if_pos rfl]
  have done := (setRegFile_afterFork (core.setRegFile (ctx.regFile.ecall feature inst))
    (parentOf core ctx (ctx.regFile.ecall feature inst)) (childOf core (ctx.regFile.ecall feature inst)) apart
    (((ctx.regFile.ecall feature inst).setX64 10 ((core.pidCount + 1).setWidth 64)).setCauses 0)).trans
    (afterFork_setRegFile found _ _ _)
  exact congrArg (fun core => Except.ok (Served.mk core (inst.hazard == some true) .SUCCESS)) done

/-- With the flags in `ECALL_buf` the call ends, be the PID of its child in use or not. -/
theorem turn_ends (fetched : core.ecallBytesRead ≠ 0) :
    ∃ served, core.turn feature others inst = .ok served ∧ served.status = .SUCCESS ∧
      served.core.pidCount = core.pidCount + 1 := by
  obtain ⟨served, left, cloned, done, counts, active⟩ := ecallClone_ends _ inst
    (setRegFile_found core found (ctx.regFile.ecall feature inst)) fetched
  exact ⟨_, turn_served others inst wide found called cloned active, done, counts⟩

end Clone
end Turns
end RevCPU.Clone
