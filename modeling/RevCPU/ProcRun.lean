import RevCPU.Proc
/-!
Runs of a core. A tick is two steps, up to the test for completion and the test; between ticks the
memory answers loads, other cores take PIDs, and PAN commands add work, halt the core or resume it.
A core whose tick returned false is not clocked again.
-/
namespace RevCPU.Proc
open Feature InstTable RegFile Pan

variable {σ ι : Type}

structure Initial (proc : RevProc σ) : Prop where
  first : ∃ ctx, proc.threadTable proc.activePID = some ctx ∧ ctx.parentPID = 0 ∧
    ctx.state = .Waiting ∧ ctx.file.cost = 0 ∧ ctx.file.trigger = false ∧ ctx.file.ecall = false ∧
    ctx.file.board = fun _ _ => false
  alone : ∀ pid, pid ≠ proc.activePID → proc.threadTable pid = none
  counted : proc.activePID.toNat ≤ proc.pidCount.toNat
  numbered : 1024 ≤ proc.activePID.toNat
  hartToExec : proc.hartToExec = true
  pipeline : proc.pipeline = []
  pendingCtxSwitch : proc.pendingCtxSwitch = false
  swapToParent : proc.swapToParent = false
  ecallBytesRead : proc.ecallBytesRead = 0
  log : proc.log = [.created proc.activePID 0]

/-- What may change between two ticks. A load writes a register of the thread that issued it. -/
structure Outside (before after : RevProc σ) : Prop where
  others : ∀ pid, pid ≠ before.activePID → after.threadTable pid = before.threadTable pid
  active : ∃ regs, after.threadTable before.activePID =
    (before.threadTable before.activePID).map fun ctx =>
      { ctx with file := { ctx.file with regs := regs } }
  activePID : after.activePID = before.activePID
  hartToExec : after.hartToExec = before.hartToExec
  inst : after.inst = before.inst
  execPC : after.execPC = before.execPC
  pipeline : after.pipeline.map (fun inst => { inst with hazard := none }) =
    before.pipeline.map fun inst => { inst with hazard := none }
  pendingCtxSwitch : after.pendingCtxSwitch = before.pendingCtxSwitch
  nextPID : after.nextPID = before.nextPID
  swapToParent : after.swapToParent = before.swapToParent
  pidCount : before.pidCount.toNat ≤ after.pidCount.toNat
  ecallBytesRead : after.ecallBytesRead = before.ecallBytesRead
  log : after.log = before.log

/-- The place of a run: at the head of a tick, or in front of the test for completion. -/
inductive Phase where
  | head | test
deriving DecidableEq, Repr

/-- The states of the runs whose steps all start in a good state. -/
inductive Reached (machine : Machine σ ι) (good : Phase → RevProc σ → Prop) :
    Phase → RevProc σ → Prop
  | start (proc : RevProc σ) (initial : Initial proc) : Reached machine good .head proc
  | outside {proc after : RevProc σ} (before : Reached machine good .head proc)
    (changed : Outside proc after) : Reached machine good .head after
  | advance {proc after : RevProc σ} (before : Reached machine good .head proc) (tick : Tick ι)
    (meets : good .head proc) (advanced : proc.advance machine tick = .ok after) :
    Reached machine good .test after
  | complete {proc after : RevProc σ} (before : Reached machine good .test proc)
    (meets : good .test proc) (completed : proc.complete machine = .ok (true, after)) :
    Reached machine good .head after

section File
variable {proc : RevProc σ} {ctx : RevThreadCtx} (found : proc.threadTable proc.activePID = some ctx)
include found

theorem file_found : proc.file = .ok ctx.file := by
  simp only [RevProc.file, found]

theorem setFile_self : proc.setFile ctx.file = proc := by
  have same : Function.update proc.threadTable proc.activePID (some ctx) = proc.threadTable := by
    rw [← found, Function.update_eq_self]
  simp only [RevProc.setFile, found, Option.map_some, same]

theorem setFile_found (file : CtxFile) :
    (proc.setFile file).threadTable proc.activePID = some { ctx with file := file } := by
  simp [RevProc.setFile, found]

theorem findWork_eq (machine : Machine σ ι) : ∃ regs exec, (proc.findWork machine ctx.file).2 =
    { proc.setFile { ctx.file with regs := regs } with pExec := exec } := by
  have same : proc = { proc.setFile { ctx.file with regs := ctx.file.regs } with
      pExec := proc.pExec } := by
    rw [show { ctx.file with regs := ctx.file.regs } = ctx.file from rfl, setFile_self found]
  unfold RevProc.findWork
  split
  · split
    · exact ⟨_, _, same⟩
    · split
      · exact ⟨_, _, rfl⟩
      · exact ⟨_, _, same⟩
      · exact ⟨_, _, same⟩
  · exact ⟨_, _, same⟩

end File

theorem setFile_other (proc : RevProc σ) (file : CtxFile) {pid : BitVec 32}
    (other : pid ≠ proc.activePID) : (proc.setFile file).threadTable pid = proc.threadTable pid := by
  simp [RevProc.setFile, other]

theorem file_ok {proc : RevProc σ} {file : CtxFile} (opened : proc.file = .ok file) :
    ∃ ctx, proc.threadTable proc.activePID = some ctx ∧ ctx.file = file := by
  unfold RevProc.file at opened
  split at opened
  · rename_i ctx found
    exact ⟨ctx, found, Except.ok.inj opened⟩
  · cases opened

/-- The PC at which a program or a PAN function ends. -/
def AtEnd (machine : Machine σ ι) (ctx : RevThreadCtx) : Prop :=
  getPC machine.feature ctx.file.regs = panFwareJump ∨ getPC machine.feature ctx.file.regs = 0

/-- The core after a child came to its end. -/
def endChild (proc : RevProc σ) (ctx : RevThreadCtx) : RevProc σ :=
  { (proc.ctxSwitchAlert ctx.parentPID).setCtx proc.activePID { ctx with state := .Dead } with
      swapToParent := true, log := proc.log ++ [.completed proc.activePID] }

theorem complete_at_end {machine : Machine σ ι} {proc : RevProc σ} {ctx : RevThreadCtx}
    (found : proc.threadTable proc.activePID = some ctx) (ends : AtEnd machine ctx) :
    ∃ regs exec,
      (proc.findWork machine ctx.file).2 =
        { proc.setFile { ctx.file with regs := regs } with pExec := exec } ∧
      proc.complete machine =
        if proc.hartToExec then
          if ctx.parentPID ≠ 0 then
            .ok (true, endChild (proc.findWork machine ctx.file).2
              { ctx with file := { ctx.file with regs := regs } })
          else .ok (false, (proc.findWork machine ctx.file).2)
        else
          .ok (!(if proc.outstandingRqsts machine then false
            else (proc.findWork machine ctx.file).1), (proc.findWork machine ctx.file).2) := by
  obtain ⟨regs, exec, work⟩ := findWork_eq found machine
  refine ⟨regs, exec, work, ?_⟩
  have table : (proc.findWork machine ctx.file).2.threadTable
      (proc.findWork machine ctx.file).2.activePID =
      some { ctx with file := { ctx.file with regs := regs } } := by
    rw [work]
    exact setFile_found found _
  have hart : (proc.findWork machine ctx.file).2.hartToExec = proc.hartToExec := by
    rw [work]
    rfl
  have rqsts : (proc.findWork machine ctx.file).2.outstandingRqsts machine =
      proc.outstandingRqsts machine := by
    rw [work]
    rfl
  unfold RevProc.complete
  unfold AtEnd at ends
  rw [file_found found]
  simp only
  rw [if_pos ends, hart, rqsts]
  by_cases valid : proc.hartToExec = true
  · rw [if_pos valid, if_pos valid, table]
    rfl
  · rw [if_neg valid, if_neg valid]

theorem complete_cases {machine : Machine σ ι} {proc after : RevProc σ} {flag : Bool}
    (completed : proc.complete machine = .ok (flag, after)) :
    ∃ ctx, proc.threadTable proc.activePID = some ctx ∧
      (¬ AtEnd machine ctx ∧ flag = true ∧ after = proc ∨
      AtEnd machine ctx ∧ ∃ regs exec,
        (proc.findWork machine ctx.file).2 =
          { proc.setFile { ctx.file with regs := regs } with pExec := exec } ∧
        (proc.hartToExec = true ∧ ctx.parentPID ≠ 0 ∧ flag = true ∧
            after = endChild (proc.findWork machine ctx.file).2
              { ctx with file := { ctx.file with regs := regs } } ∨
          proc.hartToExec = true ∧ ctx.parentPID = 0 ∧ flag = false ∧
            after = (proc.findWork machine ctx.file).2 ∨
          proc.hartToExec = false ∧ after = (proc.findWork machine ctx.file).2 ∧
            (flag = false ↔ proc.outstandingRqsts machine = false ∧
              (proc.findWork machine ctx.file).1 = true))) := by
  have opened : ∃ file, proc.file = .ok file := by
    cases missing : proc.file with
    | ok file => exact ⟨file, rfl⟩
    | error fault =>
      unfold RevProc.complete at completed
      rw [missing] at completed
      cases completed
  obtain ⟨file, opened⟩ := opened
  obtain ⟨ctx, found, rfl⟩ := file_ok opened
  refine ⟨ctx, found, ?_⟩
  by_cases ends : AtEnd machine ctx
  · obtain ⟨regs, exec, work, result⟩ := complete_at_end found ends
    refine .inr ⟨ends, regs, exec, work, ?_⟩
    rw [result] at completed
    split at completed
    · rename_i valid
      split at completed
      · rename_i child
        cases completed
        exact .inl ⟨valid, child, rfl, rfl⟩
      · rename_i orphan
        cases completed
        exact .inr (.inl ⟨valid, Decidable.not_not.mp orphan, rfl, rfl⟩)
    · rename_i invalid
      cases completed
      refine .inr (.inr ⟨Bool.eq_false_iff.mpr invalid, rfl, ?_⟩)
      cases proc.outstandingRqsts machine with
      | true => simp
      | false => simp
  · unfold RevProc.complete at completed
    rw [opened] at completed
    simp only at completed
    rw [if_neg (show ¬ (_ ∨ _) from ends)] at completed
    cases completed
    exact .inl ⟨ends, rfl, rfl⟩

section Walk
variable {machine : Machine σ ι}

/-- Whole ticks that all return true. -/
def walk (machine : Machine σ ι) : List (Tick ι) → RevProc σ → Option (RevProc σ)
  | [], proc => some proc
  | tick :: rest, proc =>
    match proc.clockTick machine tick with
    | .ok (true, after) => walk machine rest after
    | _ => none

theorem walk_reached {ticks : List (Tick ι)} {proc after : RevProc σ}
    (reached : Reached machine (fun _ _ => True) .head proc)
    (walked : walk machine ticks proc = some after) :
    Reached machine (fun _ _ => True) .head after := by
  induction ticks generalizing proc with
  | nil =>
    cases walked
    exact reached
  | cons tick rest ih =>
    rw [walk] at walked
    split at walked
    · rename_i next ticked
      unfold RevProc.clockTick at ticked
      split at ticked
      · cases ticked
      · rename_i middle advanced
        exact ih (.complete (.advance reached tick trivial advanced) trivial ticked) walked
    · cases walked

end Walk

section Programs

/-- What stands at an address: a table function, or ecall. -/
inductive Code where
  | func (plan : RevFeature → RevRegFile → RevInst → Plan)
  | ecall

/-- The table functions that do not read, and clone's read of its arguments, with or without a
controller. Every cost is 1. -/
def programMachine (feature : RevFeature) (program : Nat → Option (Code × RevInst)) :
    Machine (Option MemCtrl.Ctrl) Unit where
  feature := feature
  isFloat := fun _ => false
  decode := fun regs _ =>
    (program (getPC feature regs).toNat).map fun row => ⟨row.2, (getPC feature regs).toNat, 1⟩
  execute := fun entry inst _ regs ctrl =>
    match program entry with
    | none => none
    | some (.ecall, _) => some ⟨regs.step feature inst, ctrl, inst.hazard == some true, 0, true⟩
    | some (.func plan, _) =>
      let plan := plan feature regs inst
      let hazard := inst.hazard == some true
      match plan.access with
      | .none => some ⟨plan.finish fun _ => 0, ctrl, hazard, 0, false⟩
      | .read _ _ _ _ => none
      | .write addr len data =>
        some ⟨plan.finish fun _ => 0,
          ctrl.map fun ctrl => ctrl.sendWRITERequest 0 addr.toNat addr.toNat len data 0,
          hazard, 0, false⟩
  readVal := fun addr inst ctrl =>
    match ctrl with
    | none => some (none, inst.hazard == some true)
    | some ctrl => some (some (ctrl.sendREADRequest 0 addr.toNat addr.toNat 8 0 0 0), true)
  otherEcall := fun _ _ _ _ _ => none
  ctrl := id

/-- A core that has just been reset, with PID 1024. -/
def freshProc (regs : RevRegFile) (memory : σ) : RevProc σ where
  threadTable := fun pid =>
    if pid = 1024 then
      some
        { parentPID := 0, state := .Waiting
          file :=
            { regs := regs
              cost := 0, trigger := false, entry := 0, board := fun _ _ => false, ecall := false } }
    else none
  activePID := 1024
  hartToExec := true
  cte := false
  halted := false
  stalled := false
  singleStep := false
  inst := default
  execPC := 0
  pipeline := []
  pendingCtxSwitch := false
  nextPID := 0
  swapToParent := false
  pidCount := 1024
  ecallBytesRead := 0
  pExec := none
  memory := memory
  log := [.created 1024 0]

theorem freshProc_initial (regs : RevRegFile) (memory : σ) : Initial (freshProc regs memory) where
  first := ⟨_, rfl, rfl, rfl, rfl, rfl, rfl, rfl⟩
  alone := fun _ other => if_neg other
  counted := Nat.le_refl _
  numbered := Nat.le_refl 1024
  hartToExec := rfl
  pipeline := rfl
  pendingCtxSwitch := rfl
  swapToParent := rfl
  ecallBytesRead := rfl
  log := rfl

end Programs
end RevCPU.Proc
