import RevCPU.BaseMem
import RevCPU.Ecall
import RevCPU.Fork
import RevCPU.Threads
/-!
The two models of clone. The core of the tick keeps of a register file what the fetch and the pipeline use,
and of its causes whether an exception is raised. On cores that agree in this, one execution of clone
answers alike and leaves cores that agree; and every core of the tick is a view of one with whole files.
-/
namespace RevCPU.Clone
open Feature InstTable RegFile Proc Mem

structure SameRegs (left right : RevRegFile) : Prop where
  x32 : ∀ index, index.toNat < numRegs → left.x32 index = right.x32 index
  x64 : ∀ index, index.toNat < numRegs → left.x64 index = right.x64 index
  spf : ∀ index, index.toNat < numRegs → left.spf index = right.spf index
  dpf : ∀ index, index.toNat < numRegs → left.dpf index = right.dpf index
  rv32PC : left.rv32PC = right.rv32PC
  rv64PC : left.rv64PC = right.rv64PC

/-- A whole register file and what the tick keeps of it. -/
structure SameFile (whole : WholeFile) (file : CtxFile) : Prop where
  regs : SameRegs whole.toRevRegFile file.regs
  cost : whole.cost = file.cost
  trigger : whole.trigger = file.trigger
  entry : whole.entry = file.entry
  board : ∀ bank index, index.toNat < numRegs → whole.board bank index = file.board bank index
  raised : whole.raised = file.ecall

structure SameCtx (whole : ThreadCtx) (ctx : RevThreadCtx) : Prop where
  parentPID : whole.parentPID = ctx.parentPID
  state : whole.state = ctx.state
  file : SameFile whole.regFile ctx.file

/-- A core of whole files, and the tick's core as far as clone is concerned. -/
structure Views (core : Core) (proc : RevProc RevMem) : Prop where
  active : ∃ ctx, core.threadTable core.activePID = some ctx
  table : ∀ pid, Option.Rel SameCtx (core.threadTable pid) (proc.threadTable pid)
  activePID : core.activePID = proc.activePID
  pidCount : core.pidCount = proc.pidCount
  pendingCtxSwitch : core.pendingCtxSwitch = proc.pendingCtxSwitch
  nextPID : core.nextPID = proc.nextPID
  ecallBytesRead : core.ecallBytesRead.toNat = proc.ecallBytesRead
  mem : core.mem = proc.memory

/-- Both fail, or both answer with the same status and the same hazard. -/
inductive Alike : Except CloneFault Served → Except Fault (RevProc.Served RevMem) → Prop
  | served {core : Core} {proc : RevProc RevMem} {file : CtxFile} (hazard : Bool) (status : EcallStatus)
    (views : Views core (proc.setFile file)) :
    Alike (.ok ⟨core, hazard, status⟩) (.ok ⟨proc, file, hazard, status⟩)
  | faults (fault : CloneFault) (other : Fault) : Alike (.error fault) (.error other)

/-- The read of clone's arguments, whose bytes nothing uses. -/
def readArgs (addr : BitVec 64) (_inst : RevInst) (mem : RevMem) : Option (RevMem × Bool) :=
  match mem.readMem 0 addr.toNat 8 (fun _ => 0) 0 with
  | .error _ => none
  | .ok (reply, mem) => some (mem, reply.hazard)

section Files
variable {left right : RevRegFile} {whole : WholeFile} {file : CtxFile}

theorem SameRegs.setX64 (same : SameRegs left right) (index : BitVec 8) (value : BitVec 64) :
    SameRegs (left.setX64 index value) (right.setX64 index value) where
  x32 other inside := by
    rw [RevRegFile.x32_setX64, RevRegFile.x32_setX64, same.x32 other inside]
  x64 other inside := by
    by_cases here : index = other
    · rw [← here, RevRegFile.x64_setX64, RevRegFile.x64_setX64]
    · rw [RevRegFile.x64_setX64_ne _ _ _ here, RevRegFile.x64_setX64_ne _ _ _ here,
        same.x64 other inside]
  spf other inside := by
    rw [(setX64_rest _ _ _).1, (setX64_rest _ _ _).1, same.spf other inside]
  dpf other inside := by
    rw [(setX64_rest _ _ _).2.1, (setX64_rest _ _ _).2.1, same.dpf other inside]
  rv32PC := by rw [(setX64_rest _ _ _).2.2, (setX64_rest _ _ _).2.2, same.rv32PC]
  rv64PC := by rw [RevRegFile.setX64_rv64PC, RevRegFile.setX64_rv64PC, same.rv64PC]

theorem SameFile.setX64 (same : SameFile whole file) (index : BitVec 8) (value : BitVec 64) :
    SameFile (whole.setX64 index value) { file with regs := file.regs.setX64 index value } :=
  { same with regs := same.regs.setX64 index value }

theorem raised_setCauses (whole : WholeFile) (status : EcallStatus) :
    (whole.setCauses (statusCode status)).raised = decide (status = .CONTINUE) := by
  cases status <;> rfl

theorem SameFile.setCauses (same : SameFile whole file) (status : EcallStatus) :
    SameFile (whole.setCauses (statusCode status))
      { file with ecall := decide (status = .CONTINUE) } :=
  { same with raised := raised_setCauses whole status }

-- The table function of the ecall.
theorem SameFile.ecall (same : SameFile whole file) (feature : RevFeature) (inst : RevInst) :
    SameFile (whole.ecall feature inst)
      { file with regs := file.regs.step feature inst, ecall := true } := by
  unfold WholeFile.ecall RevRegFile.step
  split
  · have pc := congrArg (fun pc => pc + BitVec.ofNat 32 inst.instSize) same.regs.rv32PC
    exact { same with regs := { same.regs with rv32PC := pc }, raised := Bool.or_true _ }
  · have pc := congrArg (fun pc => pc + BitVec.ofNat 64 inst.instSize) same.regs.rv64PC
    exact { same with regs := { same.regs with rv64PC := pc }, raised := Bool.true_or _ }

-- The PC of a call that is not done.
theorem SameFile.rewind32 (same : SameFile whole file) (size : BitVec 32) :
    SameFile { whole with rv32PC := whole.rv32PC - size }
      { file with regs := { file.regs with rv32PC := file.regs.rv32PC - size } } :=
  have pc := congrArg (fun pc => pc - size) same.regs.rv32PC
  { same with regs := { same.regs with rv32PC := pc } }

theorem SameFile.rewind64 (same : SameFile whole file) (size : BitVec 64) :
    SameFile { whole with rv64PC := whole.rv64PC - size }
      { file with regs := { file.regs with rv64PC := file.regs.rv64PC - size } } :=
  have pc := congrArg (fun pc => pc - size) same.regs.rv64PC
  { same with regs := { same.regs with rv64PC := pc } }

theorem SameFile.child (same : SameFile whole file) (blank : WholeFile) :
    SameFile (((WholeFile.duplicateRegFile blank whole).setCauses 0).setX64 10 0)
      { file with regs := file.regs.setX64 10 0, ecall := false } := by
  have copies := duplicates_child whole blank
  refine ⟨⟨?_, ?_, ?_, ?_, ?_, ?_⟩, same.cost, same.trigger, same.entry, ?_, rfl⟩
  · intro index inside
    rw [copies.x32 index inside, same.regs.x32 index inside, RevRegFile.x32_setX64]
  · intro index inside
    rw [copies.x64 index inside]
    by_cases a0 : index = 10
    · rw [if_pos a0, a0, RevRegFile.x64_setX64]
      rfl
    · rw [if_neg a0, RevRegFile.x64_setX64_ne _ _ _ (Ne.symm a0), same.regs.x64 index inside]
  · intro index inside
    rw [copies.spf index inside, same.regs.spf index inside, (setX64_rest _ _ _).1]
  · intro index inside
    rw [copies.dpf index inside, same.regs.dpf index inside, (setX64_rest _ _ _).2.1]
  · rw [copies.rv32PC, same.regs.rv32PC, (setX64_rest _ _ _).2.2]
  · rw [copies.rv64PC, same.regs.rv64PC, RevRegFile.setX64_rv64PC]
  · intro bank index inside
    rw [← same.board bank index inside]
    exact copied whole blank (fun file => file.board bank) (copyReg_board whole · bank) inside

end Files

section Cores
variable {core : Core} {proc : RevProc RevMem} {whole : WholeFile} {file : CtxFile} {ctx : ThreadCtx}

theorem Views.found (views : Views core proc) {pid : BitVec 32}
    (found : core.threadTable pid = some ctx) :
    ∃ other, proc.threadTable pid = some other ∧ SameCtx ctx other := by
  have same := views.table pid
  rw [found] at same
  cases there : proc.threadTable pid with
  | none =>
    rw [there] at same
    cases same
  | some other =>
    rw [there] at same
    cases same with
    | some same => exact ⟨other, rfl, same⟩

theorem Views.missing (views : Views core proc) {pid : BitVec 32} (unborn : core.threadTable pid = none) :
    proc.threadTable pid = none := by
  have same := views.table pid
  rw [unborn] at same
  cases there : proc.threadTable pid with
  | none => rfl
  | some other =>
    rw [there] at same
    cases same

-- The same thread is written on both sides.
theorem rel_update {left : BitVec 32 → Option ThreadCtx} {right : BitVec 32 → Option RevThreadCtx}
    (table : ∀ pid, Option.Rel SameCtx (left pid) (right pid)) (pid : BitVec 32) {one : Option ThreadCtx}
    {other : Option RevThreadCtx} (same : Option.Rel SameCtx one other) (thread : BitVec 32) :
    Option.Rel SameCtx (Function.update left pid one thread) (Function.update right pid other thread) := by
  by_cases here : thread = pid
  · rw [here, Function.update_self, Function.update_self]
    exact same
  · rw [Function.update_of_ne here, Function.update_of_ne here]
    exact table thread

theorem rel_withFile {one : Option ThreadCtx} {other : Option RevThreadCtx}
    (same : Option.Rel SameCtx one other) (files : SameFile whole file) :
    Option.Rel SameCtx (one.map fun ctx => { ctx with regFile := whole })
      (other.map fun ctx => { ctx with file := file }) := by
  cases same with
  | none => exact .none
  | some same => exact .some { same with file := files }

theorem Views.setFile (views : Views core proc) (files : SameFile whole file) :
    Views (core.setRegFile whole) (proc.setFile file) := by
  obtain ⟨ctx, found⟩ := views.active
  refine { views with table := ?_, active := ⟨_, setRegFile_found core found whole⟩ }
  have active := views.table core.activePID
  intro pid
  change Option.Rel SameCtx (Function.update core.threadTable core.activePID _ pid)
    (Function.update proc.threadTable proc.activePID _ pid)
  rw [← views.activePID]
  exact rel_update views.table _ (rel_withFile active files) pid

theorem Views.opened (views : Views core (proc.setFile file)) (opened : core.regFile = some whole) :
    SameFile whole file := by
  unfold Core.regFile at opened
  obtain ⟨ctx, found, rfl⟩ := Option.map_eq_some_iff.mp opened
  obtain ⟨other, there, same⟩ := views.found found
  rw [views.activePID] at there
  change Function.update proc.threadTable proc.activePID _ proc.activePID = _ at there
  rw [Function.update_self] at there
  obtain ⟨old, -, rfl⟩ := Option.map_eq_some_iff.mp there
  exact same.file

theorem setFile_update {pid : BitVec 32} (apart : pid ≠ proc.activePID) (one : Option RevThreadCtx) :
    ({ proc with threadTable := Function.update proc.threadTable pid one }.setFile file).threadTable =
      Function.update (proc.setFile file).threadTable pid one := by
  unfold RevProc.setFile
  dsimp only
  rw [Function.update_of_ne (Ne.symm apart), Function.update_comm apart]

theorem Views.write (views : Views core (proc.setFile file)) {pid : BitVec 32}
    (apart : pid ≠ core.activePID) {one : Option ThreadCtx} {other : Option RevThreadCtx}
    (same : Option.Rel SameCtx one other) :
    Views { core with threadTable := Function.update core.threadTable pid one }
      ({ proc with threadTable := Function.update proc.threadTable pid other }.setFile file) := by
  have beside : pid ≠ proc.activePID := by
    intro active
    exact apart (active.trans views.activePID.symm)
  obtain ⟨ctx, found⟩ := views.active
  refine { views with
    table := ?_, active := ⟨ctx, (Function.update_of_ne (Ne.symm apart) _ _).trans found⟩ }
  rw [setFile_update beside]
  exact rel_update views.table pid same

theorem Views.created (views : Views core (proc.setFile file)) (files : SameFile whole file)
    (apart : core.pidCount + 1 ≠ core.activePID) :
    (core.createChildCtx whole).1 = (proc.createChildCtx file).1 ∧
      Views (core.createChildCtx whole).2 ((proc.createChildCtx file).2.setFile file) := by
  have counts : core.pidCount + 1 = proc.pidCount + 1 := congrArg (· + 1) views.pidCount
  have active : core.activePID = proc.activePID := views.activePID
  have beside : proc.pidCount + 1 ≠ proc.activePID := by
    rw [← counts, ← active]
    exact apart
  refine ⟨counts, ?_⟩
  unfold Core.createChildCtx RevProc.createChildCtx RevProc.getNewThreadPID
  dsimp only
  cases known : core.threadTable (core.pidCount + 1) with
  | none =>
    have unborn := views.missing known
    rw [counts, setFile_other _ _ beside] at unborn
    rw [unborn, ← counts]
    have child : SameCtx
        { pid := core.pidCount + 1, parentPID := core.activePID, state := .Waiting
          regFile := ((WholeFile.duplicateRegFile default whole).setCauses 0).setX64 10 0 }
        { parentPID := proc.activePID, state := .Waiting
          file := { file with regs := file.regs.setX64 10 0, ecall := false } } :=
      ⟨active, rfl, files.child default⟩
    have written := views.write apart (.some child)
    exact { written with pidCount := rfl }
  | some old =>
    obtain ⟨other, there, -⟩ := views.found known
    rw [counts, setFile_other _ _ beside] at there
    rw [there]
    exact { views with pidCount := counts }

variable {ι : Type} (machine : Machine RevMem ι) (inst : RevInst)

-- The flags' read leaves the same memory in the two models, where one keeps what it delivers.
theorem readArgs_eq (addr : BitVec 64) (mem : RevMem) (target : Buffer) :
    readArgs addr inst mem =
      match mem.readMem 0 addr.toNat 8 target 0 with
      | .error _ => none
      | .ok (reply, mem) => some (mem, reply.hazard) := by
  unfold readArgs
  rcases LoadStore.readMem_target mem 0 addr.toNat 8 target (fun _ => 0) 0 0 (by decide) with
    ⟨fault, left, right⟩ | ⟨first, second, after, left, right, -⟩
  · rw [left, right]
  · rw [left, right]
    dsimp only
    rw [BaseMem.readMem_clears _ _ _ _ _ _ _ _ left, BaseMem.readMem_clears _ _ _ _ _ _ _ _ right]

theorem setFile_setFile (first second : CtxFile) :
    (proc.setFile first).setFile second = proc.setFile second := by
  unfold RevProc.setFile
  dsimp only
  rw [Function.update_self, Function.update_idem, Option.map_map]
  rfl

-- The end of the call, with the child in the table.
theorem Views.returned (views : Views core (proc.setFile file)) (files : SameFile whole file)
    {pid : BitVec 32} (apart : pid ≠ core.activePID) {other : RevThreadCtx}
    (known : core.threadTable pid = some ctx) (same : SameCtx ctx other) (value : BitVec 64)
    (buf : Buffer) :
    Views
      { ((core.ctxSwitchAlert pid).setRegFile (whole.setX64 10 value)).setFileOf pid
          (ctx.regFile.setX64 10 0) with ecallBytesRead := 0, ecallBuf := buf }
      ({ (proc.ctxSwitchAlert pid).setCtx pid
          { other with file := { other.file with regs := other.file.regs.setX64 10 0 } } with
            ecallBytesRead := 0 }.setFile { file with regs := file.regs.setX64 10 value }) := by
  have alerted : Views (core.ctxSwitchAlert pid) ((proc.ctxSwitchAlert pid).setFile file) :=
    { views with pendingCtxSwitch := rfl, nextPID := rfl }
  have written := alerted.setFile (files.setX64 10 value)
  rw [setFile_setFile] at written
  have child : SameCtx { ctx with regFile := ctx.regFile.setX64 10 0 }
      { other with file := { other.file with regs := other.file.regs.setX64 10 0 } } :=
    { same with file := same.file.setX64 10 0 }
  have ended := written.write apart (.some child)
  have there : ((core.ctxSwitchAlert pid).setRegFile (whole.setX64 10 value)).threadTable pid = some ctx :=
    (Function.update_of_ne apart _ _).trans known
  unfold Core.setFileOf
  rw [there]
  exact { ended with ecallBytesRead := rfl }

/-- One run of the call itself. The PID of the child is not the caller's unless the counter has gone
round. -/
theorem Views.clone (views : Views core (proc.setFile file)) (opened : core.regFile = some whole)
    (apart : core.pidCount + 1 ≠ core.activePID) :
    Alike (core.ecallClone inst) (proc.ecallClone { machine with readVal := readArgs } file inst) := by
  have files := views.opened opened
  have bytes : core.ecallBytesRead.toNat = proc.ecallBytesRead := views.ecallBytesRead
  unfold Core.ecallClone RevProc.ecallClone
  rw [opened]
  dsimp only
  by_cases first : core.ecallBytesRead = 0
  · rw [if_pos first, if_pos (by rw [← bytes, first]; rfl)]
    have memory : core.mem = proc.memory := views.mem
    rw [readArgs_eq inst (file.regs.x64 10) proc.memory core.ecallBuf, ← memory,
      ← files.regs.x64 10 (by decide)]
    cases core.mem.readMem 0 (whole.x64 10).toNat 8 core.ecallBuf 0 with
    | error fault => exact .faults _ _
    | ok pair => exact .served _ _ { views with ecallBytesRead := rfl, mem := rfl }
  · rw [if_neg first, if_neg (by rw [← bytes]; exact fun none => first (BitVec.eq_of_toNat_eq none))]
    obtain ⟨named, created⟩ := views.created files apart
    have apart : (core.createChildCtx whole).1 ≠ (core.createChildCtx whole).2.activePID := apart
    generalize core.createChildCtx whole = made at named created apart
    generalize proc.createChildCtx file = born at named created
    obtain ⟨pid, made⟩ := made
    obtain ⟨other, born⟩ := born
    obtain rfl : pid = other := named
    have beside : pid ≠ born.activePID := fun active => apart (active.trans created.activePID.symm)
    dsimp only [RevProc.ctxSwitchAlert]
    rw [← setFile_other born file beside]
    cases known : made.threadTable pid with
    | none =>
      rw [created.missing known]
      exact .faults _ _
    | some ctx =>
      obtain ⟨other, there, same⟩ := created.found known
      rw [there]
      exact .served _ _ (created.returned files apart known same _ _)

theorem Views.execEcall (views : Views core (proc.setFile file))
    (called : (Ecall.ecallCode machine.feature file).setWidth 32 = 220#32)
    (apart : core.pidCount + 1 ≠ core.activePID) (others : Core.Others) :
    Alike (core.execEcall machine.feature others inst)
      (proc.execEcall { machine with readVal := readArgs } file inst) := by
  obtain ⟨ctx, found⟩ := views.active
  have opened := regFile_found found
  have files := views.opened opened
  have code : (if isRV32 machine.feature then (ctx.regFile.x32 17).setWidth 64
      else ctx.regFile.x64 17) = Ecall.ecallCode machine.feature file := by
    rw [files.regs.x32 17 (by decide), files.regs.x64 17 (by decide)]
    rfl
  have alike := views.clone machine inst opened apart
  unfold Core.execEcall RevProc.execEcall
  rw [opened]
  dsimp only
  rw [code, if_pos called, show (if isRV32 machine.feature then (file.regs.x32 17).setWidth 64
    else file.regs.x64 17) = Ecall.ecallCode machine.feature file from rfl]
  unfold RevProc.ecall
  rw [if_pos called]
  generalize core.ecallClone inst = one at alike
  generalize proc.ecallClone { machine with readVal := readArgs } file inst = other at alike
  cases alike with
  | faults fault other => exact .faults fault other
  | @served core proc file hazard status views =>
    dsimp only
    obtain ⟨ctx, found⟩ := views.active
    rw [regFile_found found]
    have files := (views.opened (regFile_found found)).setCauses status
    dsimp only
    have stored : ∀ {whole : WholeFile} {last : CtxFile}, SameFile whole last →
        Views (core.setRegFile whole) (proc.setFile last) := by
      intro whole last same
      have views := views.setFile same
      rw [setFile_setFile] at views
      exact views
    split
    · exact .served _ _ (stored files)
    · split
      · exact .served _ _ (stored (files.rewind32 _))
      · exact .served _ _ (stored (files.rewind64 _))

/-- One execution of an ecall whose a7 names clone, from the tick's core in front of it. -/
theorem Views.turn (views : Views core proc) {thread : RevThreadCtx}
    (found : proc.threadTable proc.activePID = some thread)
    (called : (Ecall.ecallCode machine.feature thread.file).setWidth 32 = 220#32)
    (apart : core.pidCount + 1 ≠ core.activePID) (others : Core.Others) :
    Alike (core.turn machine.feature others inst)
      (proc.execEcall { machine with readVal := readArgs }
        { thread.file with regs := thread.file.regs.step machine.feature inst, ecall := true } inst) := by
  obtain ⟨ctx, here⟩ := views.active
  obtain ⟨other, there, same⟩ := views.found here
  rw [views.activePID, found] at there
  cases there
  have raised := same.file.ecall machine.feature inst
  have views := views.setFile raised
  have code : Ecall.ecallCode machine.feature
      { thread.file with regs := thread.file.regs.step machine.feature inst, ecall := true } =
        Ecall.ecallCode machine.feature thread.file := by
    unfold Ecall.ecallCode RevRegFile.step
    split <;> rfl
  have alike := views.execEcall machine inst (by rw [code]; exact called) apart others
  unfold Core.turn
  rw [regFile_found here]
  dsimp only
  rw [if_pos raised.raised]
  exact alike

theorem Views.counted (views : Views core proc) {ancestors : List (BitVec 32)}
    (sane : Threads.Sane proc ancestors) : Counted core := by
  intro pid ctx found
  obtain ⟨thread, there, -⟩ := views.found found
  rw [views.pidCount]
  exact (sane.numbered _ (sane.recorded pid thread there)).2

end Cores

section Cover

/-- A whole file of what the tick keeps, with blank CSRs. -/
def wholeOf (file : CtxFile) : WholeFile where
  toRevRegFile := file.regs
  csr64 := { (default : Csrs 64) with scause := if file.ecall then BitVec.ofNat 64 ecallUserMode else 0 }
  csr32 := default
  board := file.board
  fcsr := 0
  cost := file.cost
  trigger := file.trigger
  entry := file.entry

def coreOf (proc : RevProc RevMem) : Core where
  threadTable := fun pid => (proc.threadTable pid).map fun ctx =>
    { pid := pid, parentPID := ctx.parentPID, state := ctx.state, regFile := wholeOf ctx.file }
  activePID := proc.activePID
  pidCount := proc.pidCount
  pendingCtxSwitch := proc.pendingCtxSwitch
  nextPID := proc.nextPID
  ecallBuf := fun _ => 0
  ecallBytesRead := BitVec.ofNat 32 proc.ecallBytesRead
  mem := proc.memory

theorem same_wholeOf (file : CtxFile) : SameFile (wholeOf file) file where
  regs := ⟨fun _ _ => rfl, fun _ _ => rfl, fun _ _ => rfl, fun _ _ => rfl, rfl, rfl⟩
  cost := rfl
  trigger := rfl
  entry := rfl
  board _ _ _ := rfl
  raised := by
    unfold WholeFile.raised wholeOf
    cases file.ecall <;> rfl

theorem views_coreOf {proc : RevProc RevMem} {thread : RevThreadCtx}
    (found : proc.threadTable proc.activePID = some thread) (short : proc.ecallBytesRead < 2 ^ 32) :
    Views (coreOf proc) proc where
  active := ⟨_, Option.map_eq_some_iff.mpr ⟨thread, found, rfl⟩⟩
  table pid := by
    unfold coreOf
    dsimp only
    cases proc.threadTable pid with
    | none => exact .none
    | some ctx => exact .some ⟨rfl, rfl, same_wholeOf ctx.file⟩
  activePID := rfl
  pidCount := rfl
  pendingCtxSwitch := rfl
  nextPID := rfl
  ecallBytesRead := Nat.mod_eq_of_lt short
  mem := rfl

end Cover
end RevCPU.Clone
